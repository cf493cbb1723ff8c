import Mathlib.Algebra.BigOperators.Group.Finset.Basic
import Mathlib.Data.List.Nodup

/-!
# Counting under a change at one place

How the number of elements of a list that satisfy a predicate moves when the
predicate changes at one element, and the count over consecutive stretches of
equal length.
-/

namespace Count

variable {α : Type*}

/-- A predicate that changes at most at `a`, which the list has once. -/
theorem countP_change [DecidableEq α] {p q : α → Bool} {a : α} {l : List α}
    (hl : l.Nodup) (ha : a ∈ l)
    (h : ∀ b ≠ a, q b = p b) : l.countP q + (p a).toNat = l.countP p + (q a).toNat := by
  induction l with
  | nil => simp at ha
  | cons b l ih =>
    obtain ⟨hb, hl⟩ := List.nodup_cons.mp hl
    rw [List.countP_cons, List.countP_cons]
    by_cases hab : b = a
    · subst hab
      have hsame : l.countP q = l.countP p :=
        List.countP_congr fun c hc => by rw [h c fun hcb => hb (hcb ▸ hc)]
      rw [hsame]
      cases p b <;> cases q b <;> simp
    · have hmem : a ∈ l := (List.mem_cons.mp ha).resolve_left fun hba => hab hba.symm
      have hstep := ih hl hmem
      rw [h b hab]
      omega

theorem countP_same {p q : α → Bool} {a : α} {l : List α} (ha : a ∉ l)
    (h : ∀ b ≠ a, q b = p b) : l.countP q = l.countP p :=
  List.countP_congr fun b hb => by rw [h b fun hba => ha (hba ▸ hb)]

/-- A predicate that two others share out between them. -/
theorem countP_split {p q r : α → Bool} {l : List α} (hr : ∀ a ∈ l, r a = (p a || q a))
    (hpq : ∀ a ∈ l, p a = true → q a = false) : l.countP r = l.countP p + l.countP q := by
  induction l with
  | nil => rfl
  | cons b l ih =>
    have hb := hr b List.mem_cons_self
    have hd := hpq b List.mem_cons_self
    rw [List.countP_cons, List.countP_cons, List.countP_cons,
      ih (fun a ha => hr a (List.mem_cons_of_mem b ha))
        fun a ha => hpq a (List.mem_cons_of_mem b ha), hb]
    cases hp : p b
    · simp only [Bool.false_or, Bool.false_eq_true, if_false]
      omega
    · simp only [hd hp, Bool.or_false, if_true, Bool.false_eq_true, if_false]
      omega

/-- Counting stretch by stretch. -/
theorem countP_stretches (p : Nat → Bool) (len : Nat) : ∀ n : Nat,
    (List.range (len * n)).countP p =
      ∑ k ∈ Finset.range n, (List.range' (k * len) len).countP p := by
  intro n
  induction n with
  | zero => simp
  | succ n ih =>
    have happ : List.range (len * (n + 1)) = List.range (len * n) ++ List.range' (n * len) len := by
      rw [Nat.mul_succ, List.range_add, Nat.mul_comm n, List.range'_eq_map_range]
    rw [happ, List.countP_append, ih, Finset.sum_range_succ]

end Count
