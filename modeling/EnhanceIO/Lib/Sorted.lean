import Mathlib.Data.List.Pairwise
import Mathlib.Data.List.TakeWhile

/-!
# Lists sorted by a key

Insertion behind everything that does not sort after the new element, and the groups
of equal keys a sorted list is made of.
-/

namespace Sorted

variable {α : Type*} {f : α → Nat}

/-- An element is inserted behind everything that does not sort after it. -/
theorem pairwise_insert {l : List α} (x : α)
    (hl : l.Pairwise fun a b => f a ≤ f b) :
    (l.takeWhile (fun a => f a ≤ f x) ++
      x :: l.drop (l.takeWhile fun a => f a ≤ f x).length).Pairwise
      fun a b => f a ≤ f b := by
  induction l with
  | nil => simp
  | cons y l ih =>
    obtain ⟨hy, hl⟩ := List.pairwise_cons.mp hl
    by_cases hle : f y ≤ f x
    · -- `y` stays in front, and `x` sorts after it
      simp only [List.takeWhile_cons, hle, decide_true, if_true, List.length_cons,
        List.drop_succ_cons, List.cons_append]
      refine List.pairwise_cons.mpr ⟨fun a ha => ?_, ih hl⟩
      rcases List.mem_append.mp ha with hmem | hmem
      · exact hy a ((List.takeWhile_subset _) hmem)
      · rcases List.mem_cons.mp hmem with rfl | hmem
        · exact hle
        · exact hy a (List.mem_of_mem_drop hmem)
    · simp only [List.takeWhile_cons, hle, decide_false, Bool.false_eq_true, if_false,
        List.length_nil, List.drop_zero, List.nil_append]
      refine List.pairwise_cons.mpr ⟨fun a ha => ?_, List.pairwise_cons.mpr ⟨hy, hl⟩⟩
      rcases List.mem_cons.mp ha with rfl | hmem
      · omega
      · have := hy a hmem
        omega

/-- A sorted list that starts with a group of one key, which does not go on. -/
theorem not_mem_keys_of_group {group rest : List α} {c : Nat}
    (hl : (group ++ rest).Pairwise fun a b => f a ≤ f b) (hne : group ≠ [])
    (hgroup : ∀ a ∈ group, f a = c) (hnext : ∀ a ∈ rest.head?, f a ≠ c) : c ∉ rest.map f := by
  obtain ⟨x, group', rfl⟩ := List.exists_cons_of_ne_nil hne
  obtain ⟨-, hrest, hcross⟩ := List.pairwise_append.mp hl
  have hx := hgroup x List.mem_cons_self
  cases rest with
  | nil => simp
  | cons y rest =>
    have hy : f y ≠ c := hnext y rfl
    have hxy := hcross x List.mem_cons_self y List.mem_cons_self
    obtain ⟨hmin, -⟩ := List.pairwise_cons.mp hrest
    simp only [List.map_cons, List.mem_cons, List.mem_map, not_or, not_exists, not_and]
    refine ⟨fun h => hy h.symm, fun a ha => ?_⟩
    have := hmin a ha
    omega

end Sorted
