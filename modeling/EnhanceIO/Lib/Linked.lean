import Mathlib.Data.List.Nodup
import Mathlib.Data.List.Basic

/-!
# Doubly linked lists over an array of elements

The cells are the elements of `α` themselves: each has a `prev` and a `next`,
and the list a `head` and a `tail`. `Is l xs` says that the pointers of `l` spell
the list `xs`; an element outside of `xs` has no neighbours.
-/

structure Linked (α : Type*) where
  head : Option α
  tail : Option α
  prev : α → Option α
  next : α → Option α

namespace Linked

variable {α : Type*} {l : Linked α} {xs ys zs : List α} {i j : α}

def empty : Linked α where
  head := none
  tail := none
  prev _ := none
  next _ := none

/-- The pointers spell the list. -/
structure Is (l : Linked α) (xs : List α) : Prop where
  nodup : xs.Nodup
  head : l.head = xs.head?
  tail : l.tail = xs.getLast?
  links : ∀ ys i zs, xs = ys ++ i :: zs → l.prev i = ys.getLast? ∧ l.next i = zs.head?
  outside : ∀ i ∉ xs, l.prev i = none ∧ l.next i = none

theorem empty_is : (empty : Linked α).Is [] where
  nodup := List.nodup_nil
  head := rfl
  tail := rfl
  links ys i zs h := by simp at h
  outside _ _ := ⟨rfl, rfl⟩

/-- In a list without repetitions the last element of what follows `i` is not `i`. -/
theorem last_ne (h : (ys ++ i :: zs).Nodup) : zs.getLast? ≠ some i := fun hlast =>
  (List.nodup_cons.mp (List.nodup_append.mp h).2.1).1 (List.mem_of_getLast? hlast)

theorem getLast?_split (ys zs : List α) (i : α) :
    (ys ++ i :: zs).getLast? = some (zs.getLast?.getD i) := by
  simp [List.getLast?_append, List.getLast?_cons]

theorem Is.not_mem_before (h : l.Is (ys ++ i :: zs)) : i ∉ ys := fun hm =>
  (List.nodup_append.mp h.nodup).2.2 i hm i (by simp) rfl

theorem Is.not_mem_behind (h : l.Is (ys ++ i :: zs)) : i ∉ zs :=
  (List.nodup_cons.mp (List.nodup_append.mp h.nodup).2.1).1

theorem Is.nodup_unlink (h : l.Is (ys ++ i :: zs)) : (ys ++ zs).Nodup := by
  obtain ⟨hys, hizs, hdisj⟩ := List.nodup_append.mp h.nodup
  exact List.nodup_append.mpr ⟨hys, (List.nodup_cons.mp hizs).2,
    fun a ha b hb => hdisj a ha b (List.mem_cons_of_mem _ hb)⟩

/-- The two pointers are inverse to each other. -/
theorem Is.next_eq_iff (h : l.Is xs) : l.next i = some j ↔ l.prev j = some i := by
  constructor
  · intro hnext
    have hi : i ∈ xs := by
      by_contra hi
      rw [(h.outside i hi).2] at hnext
      cases hnext
    obtain ⟨ys, zs, hsplit⟩ := List.append_of_mem hi
    rw [(h.links ys i zs hsplit).2] at hnext
    have hzs : zs = j :: zs.tail := List.eq_cons_of_mem_head? hnext
    rw [hzs, List.append_cons] at hsplit
    rw [(h.links _ j _ hsplit).1, List.getLast?_concat]
  · intro hprev
    have hj : j ∈ xs := by
      by_contra hj
      rw [(h.outside j hj).1] at hprev
      cases hprev
    obtain ⟨ys, zs, hsplit⟩ := List.append_of_mem hj
    rw [(h.links ys j zs hsplit).1] at hprev
    obtain ⟨as, hys⟩ := List.getLast?_eq_some_iff.mp hprev
    rw [hys, List.append_assoc] at hsplit
    rw [(h.links as i _ hsplit).2]
    rfl

/-- The first element is the one without a predecessor. -/
theorem Is.prev_eq_none (h : l.Is xs) (hi : i ∈ xs) : l.prev i = none ↔ l.head = some i := by
  obtain ⟨ys, zs, rfl⟩ := List.append_of_mem hi
  rw [(h.links ys i zs rfl).1, h.head, List.getLast?_eq_none_iff]
  constructor
  · rintro rfl
    rfl
  · intro hhead
    cases ys with
    | nil => rfl
    | cons y ys =>
      obtain rfl : y = i := by simpa using hhead
      exact absurd List.mem_cons_self h.not_mem_before

/-- The last element is the one without a successor. -/
theorem Is.next_eq_none (h : l.Is xs) (hi : i ∈ xs) : l.next i = none ↔ l.tail = some i := by
  obtain ⟨ys, zs, rfl⟩ := List.append_of_mem hi
  rw [(h.links ys i zs rfl).2, h.tail, getLast?_split, List.head?_eq_none_iff]
  constructor
  · rintro rfl
    rfl
  · intro htail
    cases hlast : zs.getLast? with
    | none => exact List.getLast?_eq_none_iff.mp hlast
    | some z =>
      rw [hlast] at htail
      obtain rfl : z = i := by simpa using htail
      exact absurd (List.mem_of_getLast? hlast) h.not_mem_behind

theorem Is.prev_ne (h : l.Is xs) : l.prev i ≠ some i := by
  intro hprev
  have hi : i ∈ xs := by
    by_contra hi
    rw [(h.outside i hi).1] at hprev
    cases hprev
  obtain ⟨ys, zs, rfl⟩ := List.append_of_mem hi
  rw [(h.links ys i zs rfl).1] at hprev
  exact h.not_mem_before (List.mem_of_getLast? hprev)

theorem Is.next_ne (h : l.Is xs) : l.next i ≠ some i := by
  intro hnext
  exact h.prev_ne (h.next_eq_iff.mp hnext)

/-- In a list of two elements or more each has a neighbour. -/
theorem Is.linked (h : l.Is xs) (hi : i ∈ xs) (hj : j ∈ xs) (hne : j ≠ i) :
    l.prev i ≠ none ∨ l.next i ≠ none := by
  obtain ⟨ys, zs, rfl⟩ := List.append_of_mem hi
  obtain ⟨hprev, hnext⟩ := h.links ys i zs rfl
  rw [hprev, hnext, ne_eq, ne_eq, List.getLast?_eq_none_iff, List.head?_eq_none_iff]
  rcases List.mem_append.mp hj with hj | hj
  · exact .inl (List.ne_nil_of_mem hj)
  · exact .inr (List.ne_nil_of_mem (List.mem_of_ne_of_mem hne hj))

theorem Is.head_eq_none (h : l.Is xs) : l.head = none ↔ xs = [] := by
  rw [h.head, List.head?_eq_none_iff]

variable [DecidableEq α]

/-- Assign through a pointer; a null pointer is not followed. -/
def poke (f : α → Option α) (at? v : Option α) : α → Option α :=
  fun j => if at? = some j then v else f j

/-- Hang `i` on behind the tail. -/
def pushBack (l : Linked α) (i : α) : Linked α where
  prev := poke l.prev (some i) l.tail
  next := poke (poke l.next (some i) none) l.tail (some i)
  head := if l.tail.isSome then l.head else some i
  tail := some i

/-- Join the neighbours of `i` and forget them at `i`. -/
def unlink (l : Linked α) (i : α) : Linked α where
  next := poke (poke l.next (l.prev i) (l.next i)) (some i) none
  prev := poke (poke l.prev (l.next i) (l.prev i)) (some i) none
  head := if l.head = some i then l.next i else l.head
  tail := if l.tail = some i then l.prev i else l.tail

/-! ## Appending -/

theorem Is.pushBack (h : l.Is xs) (hi : i ∉ xs) : (l.pushBack i).Is (xs ++ [i]) where
  nodup := by
    simp only [List.nodup_append, List.nodup_singleton, List.mem_singleton, h.nodup, true_and]
    intro a ha b hb hab
    exact hi (hb ▸ hab ▸ ha)
  head := by
    simp only [Linked.pushBack, h.tail, h.head]
    cases xs with
    | nil => rfl
    | cons a as => simp [List.getLast?_cons]
  tail := by simp [Linked.pushBack]
  links ys j zs hsplit := by
    have htail : xs.getLast? ≠ some i := fun hlast => hi (List.mem_of_getLast? hlast)
    -- the new element is the last one, or the split was one of the old list
    rcases List.eq_nil_or_concat zs with rfl | ⟨zs', k, rfl⟩
    · obtain ⟨rfl, hij⟩ := List.append_inj' hsplit rfl
      obtain rfl : i = j := by simpa using hij
      simp [Linked.pushBack, poke, htail, h.tail]
    · rw [List.concat_eq_append, ← List.cons_append, ← List.append_assoc] at hsplit
      obtain ⟨hxs, hik⟩ := List.append_inj' hsplit rfl
      obtain rfl : i = k := by simpa using hik
      have hij : i ≠ j := by
        rintro rfl
        exact hi (by simp [hxs])
      obtain ⟨hprev, hnext⟩ := h.links ys j zs' hxs
      refine ⟨by simp [Linked.pushBack, poke, hij, hprev], ?_⟩
      simp only [Linked.pushBack, poke, h.tail, hnext, Option.some.injEq, hij, if_false]
      rw [hxs, getLast?_split]
      cases zs' with
      | nil => simp
      | cons a as =>
        -- an inner element is not the last one
        have hne := last_ne (hxs ▸ h.nodup)
        rw [if_neg (by simpa [List.getLast?_cons] using hne)]
        rfl
  outside j hj := by
    have hjx : j ∉ xs := fun hm => hj (List.mem_append_left _ hm)
    have hij : i ≠ j := by
      rintro rfl
      exact hj (by simp)
    have htail : l.tail ≠ some j := by
      rw [h.tail]
      exact fun hlast => hjx (List.mem_of_getLast? hlast)
    simpa [Linked.pushBack, poke, hij, htail] using h.outside j hjx

/-! ## Removing -/

section Unlink

variable (h : l.Is (ys ++ i :: zs))

include h

theorem Is.unlink_before {as bs : List α} (hys : ys = as ++ j :: bs) :
    (l.unlink i).prev j = as.getLast? ∧ (l.unlink i).next j = (bs ++ zs).head? := by
  obtain ⟨hprev, hnext⟩ := h.links ys i zs rfl
  have hij : i ≠ j := fun he => h.not_mem_before (by simp [hys, he])
  have hold : ys ++ i :: zs = as ++ j :: (bs ++ i :: zs) := by simp [hys]
  obtain ⟨hprevj, hnextj⟩ := h.links as j (bs ++ i :: zs) hold
  have hjz : zs.head? ≠ some j := by
    intro hz
    have hnd := h.nodup_unlink
    rw [hys] at hnd
    exact (List.nodup_append.mp hnd).2.2 j (by simp) j (List.mem_of_mem_head? hz) rfl
  simp only [Linked.unlink, poke, Option.some.injEq, hij, if_false, hprev, hnext, hjz, hprevj,
    hnextj, true_and]
  rw [hys, getLast?_split]
  cases bs with
  | nil => simp
  | cons b bs =>
    have hne := last_ne (hys ▸ (List.nodup_append.mp h.nodup).1)
    rw [if_neg (by simpa [List.getLast?_cons] using hne)]
    rfl

theorem Is.unlink_behind {as bs : List α} (hzs : zs = as ++ j :: bs) :
    (l.unlink i).prev j = (ys ++ as).getLast? ∧ (l.unlink i).next j = bs.head? := by
  obtain ⟨hprev, hnext⟩ := h.links ys i zs rfl
  have hij : i ≠ j := fun he => h.not_mem_behind (by simp [hzs, he])
  have hold : ys ++ i :: zs = (ys ++ i :: as) ++ j :: bs := by simp [hzs]
  obtain ⟨hprevj, hnextj⟩ := h.links (ys ++ i :: as) j bs hold
  have hjy : ys.getLast? ≠ some j := fun hy =>
    (List.nodup_append.mp h.nodup).2.2 j (List.mem_of_getLast? hy) j (by simp [hzs]) rfl
  simp only [Linked.unlink, poke, Option.some.injEq, hij, if_false, hprev, hnext, hjy, hprevj,
    hnextj, and_true]
  rw [hzs, getLast?_split]
  cases as with
  | nil => simp
  | cons a as =>
    have haj : ¬ a = j := by
      rintro rfl
      have hnd := (List.nodup_cons.mp (List.nodup_append.mp h.nodup).2.1).2
      rw [hzs, List.cons_append] at hnd
      exact (List.nodup_cons.mp hnd).1 (by simp)
    simp [haj, List.getLast?_append, List.getLast?_cons]

theorem Is.unlink : (l.unlink i).Is (ys ++ zs) where
  nodup := h.nodup_unlink
  head := by
    simp only [Linked.unlink, h.head, (h.links ys i zs rfl).2]
    cases ys with
    | nil => simp
    | cons a as =>
      have hai : ¬ a = i := fun he => h.not_mem_before (by simp [he])
      simp [hai]
  tail := by
    simp only [Linked.unlink, h.tail, (h.links ys i zs rfl).1, getLast?_split]
    cases hz : zs.getLast? with
    | none =>
      obtain rfl := List.getLast?_eq_none_iff.mp hz
      simp
    | some b =>
      have hbi : ¬ b = i := fun he => h.not_mem_behind (he ▸ List.mem_of_getLast? hz)
      simp [hbi, List.getLast?_append, hz]
  links as j bs hsplit := by
    rcases List.append_eq_append_iff.mp hsplit with ⟨cs, has, hzs⟩ | ⟨cs, hys, hbs⟩
    · rw [has]
      exact h.unlink_behind hzs
    · cases cs with
      | nil =>
        -- `j` is the first one behind `i`
        obtain rfl : ys = as := by simpa using hys
        have hzs : zs = [] ++ j :: bs := by simpa using hbs.symm
        simpa using h.unlink_behind hzs
      | cons c cs =>
        obtain ⟨rfl, rfl⟩ := List.cons_eq_cons.mp hbs
        exact h.unlink_before hys
  outside j hj := by
    by_cases hij : i = j
    · simp [Linked.unlink, poke, hij]
    · obtain ⟨hprev, hnext⟩ := h.links ys i zs rfl
      have hjy : ys.getLast? ≠ some j := fun hy =>
        hj (List.mem_append_left _ (List.mem_of_getLast? hy))
      have hjz : zs.head? ≠ some j := fun hz =>
        hj (List.mem_append_right _ (List.mem_of_mem_head? hz))
      have hout := h.outside j (by
        simp only [List.mem_append, List.mem_cons, not_or] at hj ⊢
        exact ⟨hj.1, Ne.symm hij, hj.2⟩)
      simpa [Linked.unlink, poke, hij, hprev, hnext, hjy, hjz] using hout

end Unlink

/-! ## The test for membership -/

/-- An element with no neighbours that is neither end is not in the list. -/
theorem Is.mem_iff (h : l.Is xs) :
    i ∈ xs ↔ ¬ (l.prev i = none ∧ l.next i = none ∧ l.head ≠ some i ∧ l.tail ≠ some i) := by
  constructor
  · rintro hi ⟨hprev, hnext, hhead, -⟩
    obtain ⟨ys, zs, rfl⟩ := List.append_of_mem hi
    obtain ⟨hp, -⟩ := h.links ys i zs rfl
    have hys : ys = [] := List.getLast?_eq_none_iff.mp (hp.symm.trans hprev)
    exact hhead (by simp [h.head, hys])
  · intro hlinked
    by_contra hi
    obtain ⟨hprev, hnext⟩ := h.outside i hi
    refine hlinked ⟨hprev, hnext, ?_, ?_⟩
    · rw [h.head]
      exact fun hh => hi (List.mem_of_mem_head? hh)
    · rw [h.tail]
      exact fun hl => hi (List.mem_of_getLast? hl)

theorem Is.unlink_erase (h : l.Is xs) (hi : i ∈ xs) : (l.unlink i).Is (xs.erase i) := by
  obtain ⟨ys, zs, rfl⟩ := List.append_of_mem hi
  rw [List.erase_append_right _ h.not_mem_before, List.erase_cons_head]
  exact h.unlink

end Linked
