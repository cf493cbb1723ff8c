import Mathlib.Logic.Function.Basic
import Mathlib.Tactic.Common

/-!
# Memory in pages

A table of pages of `per` entries each, seen as one stream of entries: entry `n`
is entry `n % per` of page `n / per`.
-/

namespace Paged

variable {α : Type*} {per p q n : Nat} {pages : Nat → Nat → α} {x : α}

def stream (per : Nat) (pages : Nat → Nat → α) (n : Nat) : α := pages (n / per) (n % per)

/-- Store `x` at entry `q` of page `p`. -/
def put (pages : Nat → Nat → α) (p q : Nat) (x : α) : Nat → Nat → α :=
  Function.update pages p (Function.update (pages p) q x)

theorem div_mod_iff (hq : q < per) : n / per = p ∧ n % per = q ↔ n = per * p + q := by
  constructor
  · rintro ⟨rfl, rfl⟩
    exact (Nat.div_add_mod n per).symm
  · rintro rfl
    exact ⟨by rw [Nat.mul_add_div (by omega), Nat.div_eq_of_lt hq, Nat.add_zero],
      by rw [Nat.mul_add_mod, Nat.mod_eq_of_lt hq]⟩

theorem stream_put (hq : q < per) :
    stream per (put pages p q x) n = if n = per * p + q then x else stream per pages n := by
  simp only [stream, put, ← div_mod_iff hq]
  by_cases hp : n / per = p
  · subst hp
    by_cases hn : n % per = q <;> simp [hn]
  · simp [hp]

end Paged
