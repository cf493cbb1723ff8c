import Mathlib.Data.List.Perm.Basic

/-!
# A list of writes to a store

A store is a function; a write puts a value at one place. If all writes to a place agree, their
order does not matter: the place has the value written to it.
-/

namespace Writes

variable {ι α : Type*} [DecidableEq ι] {ws : List (ι × α)} {d : ι → α} {x : ι} {v : α}

/-- The store after the writes. -/
def store (ws : List (ι × α)) (d : ι → α) : ι → α :=
  ws.foldl (fun d w => Function.update d w.1 w.2) d

/-- A place that is not written keeps its value. -/
theorem store_other (h : ∀ w ∈ ws, w.1 ≠ x) : store ws d x = d x := by
  induction ws generalizing d with
  | nil => rfl
  | cons w ws ih =>
    have hx : x ≠ w.1 := (h w List.mem_cons_self).symm
    show store ws (Function.update d w.1 w.2) x = d x
    rw [ih fun w' hw' => h w' (List.mem_cons_of_mem _ hw'), Function.update_of_ne hx]

/-- A place that has the value, or gets it, has it in the end if no write says otherwise. -/
theorem store_of_agree (hall : ∀ w ∈ ws, w.1 = x → w.2 = v)
    (h : (∃ w ∈ ws, w.1 = x) ∨ d x = v) : store ws d x = v := by
  induction ws generalizing d with
  | nil =>
    rcases h with ⟨w, hw, -⟩ | h
    · exact absurd hw List.not_mem_nil
    · exact h
  | cons w ws ih =>
    show store ws (Function.update d w.1 w.2) x = v
    apply ih fun w' hw' => hall w' (List.mem_cons_of_mem _ hw')
    by_cases hx : w.1 = x
    · right
      rw [← hx, Function.update_self]
      exact hall w List.mem_cons_self hx
    · rcases h with ⟨w', hw', hx'⟩ | h
      · rcases List.mem_cons.mp hw' with rfl | hmem
        · exact absurd hx' hx
        · exact .inl ⟨w', hmem, hx'⟩
      · right
        rw [Function.update_of_ne (Ne.symm hx)]
        exact h

end Writes
