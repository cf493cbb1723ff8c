import EnhanceIO.CacheState
import EnhanceIO.Geometry
import EnhanceIO.Lib.Linked
import Mathlib.Data.List.Dedup
import Mathlib.Data.List.FinRange
import Mathlib.Data.List.Induction

/-!
# The block lists of the LRU policy (`eio_lru.c`)

Each set has a doubly linked list of its blocks. The pointers are 16-bit block numbers
relative to the set, `EIO_LRU_NULL` for none, in memory that is not initialised: the lists
are built by moving every block of the cache to the tail of its list, one after the other.

A history is the sequence of all moves to a tail, those of the building included. The list
of a set is its blocks in the order of their last move in the history.
-/

namespace EnhanceIO

/-- `EIO_LRU_NULL`. -/
def lruNull : Nat := 0xFFFF

/-- The rounds of a loop `for (i = 0; i < (int)n; i++)`: none if the cut number is negative. -/
def intRounds (n : Nat) : Nat := if n % 2 ^ 32 < 2 ^ 31 then n % 2 ^ 32 else 0

theorem intRounds_of_lt {n : Nat} (h : n < 2 ^ 31) : intRounds n = n := by
  rw [intRounds, Nat.mod_eq_of_lt (by omega), if_pos h]

theorem intRounds_lt (n : Nat) : intRounds n < 2 ^ 31 := by
  rw [intRounds]
  split
  · assumption
  · decide

/-- `sp_cache_set` by set number, and `sp_cache_blk` by block number. -/
structure BlockLru where
  head : Nat → Nat
  tail : Nat → Nat
  prev : Nat → Nat
  next : Nat → Nat

namespace BlockLru

variable (assoc : Nat)

/-- `eio_lru_cache_sets_init`, in the memory `vmalloc` gave. -/
def cacheSetsInit (numSets : Nat) (l : BlockLru) : BlockLru :=
  (List.range (intRounds numSets)).foldl (fun l i =>
    { l with
      tail := Function.update l.tail i lruNull
      head := Function.update l.head i lruNull }) l

/-- The first half of `eio_reclaim_lru_movetail`: a block with a neighbour is taken out of
its list. -/
def unhook (l : BlockLru) (index : Nat) : BlockLru :=
  let set := index / assoc
  let start := set * assoc
  if l.prev index ≠ lruNull ∨ l.next index ≠ lruNull then
    let l :=
      if l.prev index ≠ lruNull then
        { l with next := Function.update l.next (l.prev index + start) (l.next index) }
      else { l with head := Function.update l.head set (l.next index) }
    if l.next index ≠ lruNull then
      { l with prev := Function.update l.prev (l.next index + start) (l.prev index) }
    else { l with tail := Function.update l.tail set (l.prev index) }
  else l

/-- The second half of `eio_reclaim_lru_movetail`: the block is hung on behind the tail. -/
def hook (l : BlockLru) (index : Nat) : BlockLru :=
  let set := index / assoc
  let start := set * assoc
  let myIndex := (index - start) % 2 ^ 16
  let l := { l with next := Function.update l.next index lruNull }
  let l := { l with prev := Function.update l.prev index (l.tail set) }
  let l :=
    if l.tail set = lruNull then { l with head := Function.update l.head set myIndex }
    else { l with next := Function.update l.next (l.tail set + start) myIndex }
  { l with tail := Function.update l.tail set myIndex }

/-- `eio_reclaim_lru_movetail`. -/
def movetail (l : BlockLru) (index : Nat) : BlockLru := (l.unhook assoc index).hook assoc index

/-- One round of `eio_lru_pushblks`. -/
def pushblk (l : BlockLru) (i : Nat) : BlockLru :=
  movetail assoc
    { l with
      prev := Function.update l.prev i lruNull
      next := Function.update l.next i lruNull } i

/-- `eio_lru_pushblks`. -/
def pushblks (size : Nat) (l : BlockLru) : BlockLru :=
  (List.range (intRounds size)).foldl (pushblk assoc) l

/-- The loop of `eio_lru_find_reclaim_dbn`, from the set-relative number `rel` on: `none` if
it is not over after `fuel` blocks. -/
def reclaimScan (l : BlockLru) (st : Nat → State) (start : Nat) : Nat → Nat → Option (Option Nat)
  | fuel, rel =>
    if rel = lruNull then some none
    else
      match fuel with
      | 0 => none
      | fuel + 1 =>
        if st (rel + start) = State.valid then some (some (rel + start))
        else reclaimScan l st start fuel (l.next (rel + start))

/-- `eio_lru_find_reclaim_dbn`: the victim, and the lists afterwards. The loop is given as
many rounds as the set has blocks. -/
def findReclaimDbn (l : BlockLru) (st : Nat → State) (start : Nat) :
    Option (Option Nat × BlockLru) :=
  (l.reclaimScan st start assoc (l.head (start / assoc))).map fun victim =>
    match victim with
    | none => (none, l)
    | some index => (some index, l.movetail assoc index)

end BlockLru

/-! ## Histories -/

/-- The number of block `index` in set `set`. -/
def relIndex (assoc set index : Nat) : Option (Fin assoc) :=
  if h : set * assoc ≤ index ∧ index < set * assoc + assoc then
    some ⟨index - set * assoc, by omega⟩
  else none

theorem relIndex_eq_some {assoc set index : Nat} {i : Fin assoc} :
    relIndex assoc set index = some i ↔ index = set * assoc + i := by
  have := i.isLt
  constructor
  · intro h
    simp only [relIndex] at h
    split at h
    · cases h
      show index = set * assoc + (index - set * assoc)
      omega
    · cases h
  · rintro rfl
    rw [relIndex, dif_pos (by omega)]
    congr 1
    apply Fin.ext
    show set * assoc + i - set * assoc = i
    omega

/-- The blocks of a set in the order of their last move. -/
def moveOrder (assoc set : Nat) (history : List Nat) : List (Fin assoc) :=
  (history.filterMap (relIndex assoc set)).dedup

theorem dedup_concat {α : Type*} [DecidableEq α] (l : List α) (a : α) :
    (l ++ [a]).dedup = l.dedup.erase a ++ [a] := by
  induction l with
  | nil => simp
  | cons b l ih =>
    by_cases hb : b ∈ l
    · rw [List.dedup_cons_of_mem hb, List.cons_append,
        List.dedup_cons_of_mem (List.mem_append_left _ hb), ih]
    · rw [List.dedup_cons_of_notMem hb, List.cons_append]
      by_cases hba : b = a
      · subst hba
        have hnot : b ∉ l.dedup := fun h => hb (List.mem_dedup.mp h)
        rw [List.dedup_cons_of_mem (by simp), ih, List.erase_cons_head,
          List.erase_of_not_mem hnot]
      · have hnot : b ∉ l ++ [a] := by simp [hb, hba]
        rw [List.dedup_cons_of_notMem hnot, ih, List.erase_cons_tail (by simpa using hba),
          List.cons_append]

section
variable {assoc set : Nat} {history : List Nat}

theorem moveOrder_move (i : Fin assoc) :
    moveOrder assoc set (history ++ [set * assoc + i]) =
      (moveOrder assoc set history).erase i ++ [i] := by
  have hrel : relIndex assoc set (set * assoc + i) = some i := relIndex_eq_some.mpr rfl
  rw [moveOrder, List.filterMap_append, List.filterMap_cons_some hrel, List.filterMap_nil,
    dedup_concat, moveOrder]

theorem moveOrder_other {index : Nat} (h : relIndex assoc set index = none) :
    moveOrder assoc set (history ++ [index]) = moveOrder assoc set history := by
  rw [moveOrder, List.filterMap_append, List.filterMap_cons_none h, List.filterMap_nil,
    List.append_nil, moveOrder]

theorem mem_moveOrder {i : Fin assoc} :
    i ∈ moveOrder assoc set history ↔ set * assoc + i ∈ history := by
  rw [moveOrder, List.mem_dedup, List.mem_filterMap]
  constructor
  · rintro ⟨index, hmem, hrel⟩
    rw [← relIndex_eq_some.mp hrel]
    exact hmem
  · intro hmem
    exact ⟨_, hmem, relIndex_eq_some.mpr rfl⟩

/-- The last move of `x` was before the last one of `y`. -/
def MovedBefore (history : List Nat) (x y : Nat) : Prop :=
  ∃ earlier later, history = earlier ++ later ∧ x ∉ later ∧ y ∈ later

theorem moveOrder_sorted (history : List Nat) : (moveOrder assoc set history).Pairwise
    fun i j : Fin assoc => MovedBefore history (set * assoc + i) (set * assoc + j) := by
  induction history using List.reverseRecOn with
  | nil => exact List.Pairwise.nil
  | append_singleton history index ih =>
    have hkeep : ∀ x y, MovedBefore history x y → x ≠ index →
        MovedBefore (history ++ [index]) x y := by
      rintro x y ⟨earlier, later, rfl, hx, hy⟩ hne
      exact ⟨earlier, later ++ [index], List.append_assoc _ _ _, by simp [hx, hne],
        List.mem_append_left _ hy⟩
    cases hrel : relIndex assoc set index with
    | none =>
      rw [moveOrder_other hrel]
      refine ih.imp fun {i j} hbefore => hkeep _ _ hbefore ?_
      rintro rfl
      rw [relIndex_eq_some.mpr rfl] at hrel
      cases hrel
    | some k =>
      rw [relIndex_eq_some.mp hrel, moveOrder_move]
      rw [relIndex_eq_some.mp hrel] at hkeep
      have hne : ∀ i ∈ (moveOrder assoc set history).erase k,
          set * assoc + (i : Nat) ≠ set * assoc + k := by
        intro i hi heq
        have hik : i = k := Fin.ext (by omega)
        exact ((List.Nodup.mem_erase_iff (List.nodup_dedup _)).mp hi).1 hik
      refine List.pairwise_append.mpr ⟨?_, List.pairwise_singleton _ _, ?_⟩
      · refine List.Pairwise.imp_of_mem ?_ (ih.sublist List.erase_sublist)
        intro i j hi _ hbefore
        exact hkeep _ _ hbefore (hne i hi)
      · intro i hi j hj
        rw [List.mem_singleton.mp hj]
        exact ⟨history, [set * assoc + k], rfl, by simpa using hne i hi, by simp⟩

end

/-! ## The pointers of a set -/

namespace BlockLru

variable {assoc : Nat}

/-- A pointer as it is stored. -/
def enc : Option (Fin assoc) → Nat
  | none => lruNull
  | some i => i

/-- Block `i` of set `set`. -/
def blk (set : Nat) (i : Fin assoc) : Nat := set * assoc + i

theorem blk_div (set : Nat) (i : Fin assoc) : blk set i / assoc = set := by
  have hpos : 0 < assoc := i.pos
  rw [blk, Nat.add_comm, Nat.add_mul_div_right _ _ hpos, Nat.div_eq_of_lt i.isLt, Nat.zero_add]

theorem blk_inj {set set' : Nat} {i i' : Fin assoc} :
    blk set i = blk set' i' ↔ set = set' ∧ i = i' := by
  constructor
  · intro h
    have hset : set = set' := by rw [← blk_div set i, h, blk_div]
    subst hset
    refine ⟨rfl, Fin.ext ?_⟩
    rw [blk, blk] at h
    omega
  · rintro ⟨rfl, rfl⟩
    rfl

theorem update_blk (f : Nat → Nat) (set set' : Nat) (i j : Fin assoc) (v : Nat) :
    Function.update f (blk set j) v (blk set' i) =
      if set' = set ∧ i = j then v else f (blk set' i) := by
  simp only [Function.update_apply, blk_inj]

/-- The fields of set `set` are those of the list `L`, as far as the blocks in `K` are
concerned. -/
structure Holds (l : BlockLru) (set : Nat) (L : Linked (Fin assoc)) (K : Fin assoc → Prop) :
    Prop where
  head : l.head set = enc L.head
  tail : l.tail set = enc L.tail
  prev : ∀ i, K i → l.prev (blk set i) = enc (L.prev i)
  next : ∀ i, K i → l.next (blk set i) = enc (L.next i)

/-- The fields of set `set` are the same. -/
structure SameSet (assoc : Nat) (l l' : BlockLru) (set : Nat) : Prop where
  head : l'.head set = l.head set
  tail : l'.tail set = l.tail set
  prev : ∀ i : Fin assoc, l'.prev (blk set i) = l.prev (blk set i)
  next : ∀ i : Fin assoc, l'.next (blk set i) = l.next (blk set i)

theorem SameSet.trans {l l' l'' : BlockLru} {set : Nat} (h : SameSet assoc l l' set)
    (h' : SameSet assoc l' l'' set) : SameSet assoc l l'' set :=
  ⟨h'.head.trans h.head, h'.tail.trans h.tail, fun i => (h'.prev i).trans (h.prev i),
    fun i => (h'.next i).trans (h.next i)⟩

section
variable {l l' : BlockLru} {set set' : Nat} {L : Linked (Fin assoc)} {K : Fin assoc → Prop}
  {xs : List (Fin assoc)} {i : Fin assoc}

theorem Holds.same (h : Holds l set L K) (hs : SameSet assoc l l' set) : Holds l' set L K :=
  ⟨hs.head.trans h.head, hs.tail.trans h.tail, fun i hi => (hs.prev i).trans (h.prev i hi),
    fun i hi => (hs.next i).trans (h.next i hi)⟩

theorem Holds.mono {K' : Fin assoc → Prop} (h : Holds l set L K) (hk : ∀ i, K' i → K i) :
    Holds l set L K' :=
  ⟨h.head, h.tail, fun i hi => h.prev i (hk i hi), fun i hi => h.next i (hk i hi)⟩

theorem enc_none : enc (none : Option (Fin assoc)) = lruNull := rfl

theorem enc_add (i : Fin assoc) : enc (some i) + set * assoc = blk set i := Nat.add_comm _ _

theorem hook_prev (j : Fin assoc) : (l.hook assoc (blk set i)).prev (blk set' j) =
    if set' = set ∧ j = i then l.tail set else l.prev (blk set' j) := by
  simp only [hook, blk_div]
  split <;> exact update_blk _ _ _ _ _ _

variable (hassoc : assoc ≤ lruNull)
include hassoc

theorem myIndex_eq : (blk set i - set * assoc) % 2 ^ 16 = i := by
  have := i.isLt
  have : lruNull < 2 ^ 16 := by decide
  rw [blk, Nat.add_sub_cancel_left, Nat.mod_eq_of_lt (by omega)]

theorem enc_eq_null {o : Option (Fin assoc)} : enc o = lruNull ↔ o = none := by
  cases o with
  | none => simp [enc]
  | some i =>
    have := i.isLt
    simp only [enc, reduceCtorEq, iff_false]
    omega

/-! What the two halves of a move write, with the pointers read as `o`, `p` and `n`. -/

theorem hook_tail : (l.hook assoc (blk set i)).tail = Function.update l.tail set i := by
  simp only [hook, blk_div, myIndex_eq hassoc]
  split <;> rfl

theorem hook_head {o : Option (Fin assoc)} (ho : l.tail set = enc o) :
    (l.hook assoc (blk set i)).head set' =
      if set' = set ∧ o = none then (i : Nat) else l.head set' := by
  simp only [hook, blk_div, myIndex_eq hassoc, ho, enc_eq_null hassoc]
  split
  · next hnone => simp [hnone, Function.update_apply]
  · next hsome => simp [hsome]

theorem hook_next {o : Option (Fin assoc)} (ho : l.tail set = enc o) (j : Fin assoc) :
    (l.hook assoc (blk set i)).next (blk set' j) =
      if set' = set ∧ o = some j then (i : Nat)
      else if set' = set ∧ j = i then lruNull else l.next (blk set' j) := by
  simp only [hook, blk_div, myIndex_eq hassoc, ho, enc_eq_null hassoc]
  cases o with
  | none => simp [update_blk]
  | some t => simp [enc_add, update_blk, eq_comm (a := t)]

/-- The block is hung on; its own fields need not have been known. -/
theorem hook_holds (h : Holds l set L K) (htail : L.tail ≠ some i) :
    Holds (l.hook assoc (blk set i)) set (L.pushBack i) (fun j => K j ∨ j = i) where
  head := by
    rw [hook_head hassoc h.tail, h.head]
    cases ht : L.tail <;> simp [Linked.pushBack, ht, enc]
  tail := by
    rw [hook_tail hassoc, Function.update_self]
    rfl
  prev j hj := by
    rw [hook_prev]
    by_cases hji : j = i
    · simp [hji, Linked.pushBack, Linked.poke, h.tail]
    · simp [hji, Ne.symm hji, Linked.pushBack, Linked.poke, h.prev j (hj.resolve_right hji)]
  next j hj := by
    rw [hook_next hassoc h.tail]
    simp only [Linked.pushBack, Linked.poke, true_and]
    by_cases hjt : L.tail = some j
    · simp [hjt, enc]
    · by_cases hji : j = i
      · simp [hji, htail, enc]
      · simp [hjt, hji, Ne.symm hji, h.next j (hj.resolve_right hji)]

theorem hook_same {o : Option (Fin assoc)} (ho : l.tail set = enc o) (hne : set' ≠ set) :
    SameSet assoc l (l.hook assoc (blk set i)) set' where
  head := by simp [hook_head hassoc ho, hne]
  tail := by simp [hook_tail hassoc, hne]
  prev j := by simp [hook_prev, hne]
  next j := by simp [hook_next hassoc ho, hne]

theorem unhook_eq {p n : Option (Fin assoc)} (set' : Nat) (hp : l.prev (blk set i) = enc p)
    (hn : l.next (blk set i) = enc n) (hpi : p ≠ some i) (hni : n ≠ some i)
    (hlinked : p ≠ none ∨ n ≠ none) (j : Fin assoc) :
    (l.unhook assoc (blk set i)).head set' =
        (if set' = set ∧ p = none then enc n else l.head set') ∧
      (l.unhook assoc (blk set i)).tail set' =
        (if set' = set ∧ n = none then enc p else l.tail set') ∧
      (l.unhook assoc (blk set i)).prev (blk set' j) =
        (if set' = set ∧ n = some j then enc p else l.prev (blk set' j)) ∧
      (l.unhook assoc (blk set i)).next (blk set' j) =
        (if set' = set ∧ p = some j then enc n else l.next (blk set' j)) := by
  have hin : l.prev (blk set i) ≠ lruNull ∨ l.next (blk set i) ≠ lruNull := by
    rw [hp, hn, ne_eq, ne_eq, enc_eq_null hassoc, enc_eq_null hassoc]
    exact hlinked
  cases p with
  | none =>
    cases n with
    | none => simp at hlinked
    | some n =>
      have heq : l.unhook assoc (blk set i) =
          { l with
            head := Function.update l.head set (enc (some n))
            prev := Function.update l.prev (blk set n) (enc (none : Option (Fin assoc))) } := by
        have hnn : enc (some n) ≠ lruNull := by simp [enc_eq_null hassoc]
        simp only [unhook, hin, if_true, blk_div]
        simp [hp, hn, hnn, enc_add, enc_none]
      rw [heq]
      simp [Function.update_apply, blk_inj, eq_comm (a := n)]
  | some p =>
    have hip : ¬ i = p := fun he => hpi (by rw [he])
    have hpn : enc (some p) ≠ lruNull := by simp [enc_eq_null hassoc]
    -- the block is not its own predecessor, so its successor is still there
    have hkeep : ∀ v, Function.update l.next (blk set p) v (blk set i) = enc n := by
      intro v
      rw [update_blk, if_neg (fun hc => hip hc.2), hn]
    cases n with
    | none =>
      have heq : l.unhook assoc (blk set i) =
          { l with
            next := Function.update l.next (blk set p) (enc (none : Option (Fin assoc)))
            tail := Function.update l.tail set (enc (some p)) } := by
        simp only [unhook, hin, if_true, blk_div]
        simp [hp, hn, hpn, enc_add, hkeep, enc_none]
      rw [heq]
      simp [Function.update_apply, blk_inj, eq_comm (a := p)]
    | some n =>
      have hnn : enc (some n) ≠ lruNull := by simp [enc_eq_null hassoc]
      have heq : l.unhook assoc (blk set i) =
          { l with
            next := Function.update l.next (blk set p) (enc (some n))
            prev := Function.update l.prev (blk set n) (enc (some p)) } := by
        simp only [unhook, hin, if_true, blk_div]
        simp [hp, hn, hpn, hnn, enc_add, hkeep]
      rw [heq]
      simp [update_blk, eq_comm (a := p), eq_comm (a := n)]

theorem unhook_holds (h : Holds l set L K) (his : L.Is xs) (hi : i ∈ xs) (hk : K i)
    (hlinked : L.prev i ≠ none ∨ L.next i ≠ none) :
    Holds (l.unhook assoc (blk set i)) set (L.unlink i) (fun j => K j ∧ j ≠ i) := by
  have heq := unhook_eq hassoc set (h.prev i hk) (h.next i hk) his.prev_ne his.next_ne
    hlinked
  simp only [true_and] at heq
  constructor
  · rw [(heq i).1, h.head, Linked.unlink]
    simp only [his.prev_eq_none hi]
    split <;> rfl
  · rw [(heq i).2.1, h.tail, Linked.unlink]
    simp only [his.next_eq_none hi]
    split <;> rfl
  · rintro j ⟨hkj, hji⟩
    rw [(heq j).2.2.1, h.prev j hkj]
    simp only [Linked.unlink, Linked.poke, Option.some.injEq, Ne.symm hji, if_false]
    split <;> rfl
  · rintro j ⟨hkj, hji⟩
    rw [(heq j).2.2.2, h.next j hkj]
    simp only [Linked.unlink, Linked.poke, Option.some.injEq, Ne.symm hji, if_false]
    split <;> rfl

theorem unhook_same {p n : Option (Fin assoc)} (hp : l.prev (blk set i) = enc p)
    (hn : l.next (blk set i) = enc n) (hpi : p ≠ some i) (hni : n ≠ some i)
    (hlinked : p ≠ none ∨ n ≠ none) (hne : set' ≠ set) :
    SameSet assoc l (l.unhook assoc (blk set i)) set' := by
  have heq := unhook_eq hassoc set' hp hn hpi hni hlinked
  simp only [hne, false_and, if_false] at heq
  exact ⟨(heq i).1, (heq i).2.1, fun j => (heq j).2.2.1, fun j => (heq j).2.2.2⟩

theorem movetail_holds (h : Holds l set L K) (his : L.Is xs) (hi : i ∈ xs) (hk : K i)
    (hlinked : L.prev i ≠ none ∨ L.next i ≠ none) :
    Holds (l.movetail assoc (blk set i)) set ((L.unlink i).pushBack i) K ∧
      ∀ set' ≠ set, SameSet assoc l (l.movetail assoc (blk set i)) set' := by
  have hout := unhook_holds hassoc h his hi hk hlinked
  have htail : (L.unlink i).tail ≠ some i := by
    rw [(his.unlink_erase hi).tail]
    intro hlast
    exact ((List.Nodup.mem_erase_iff his.nodup).mp (List.mem_of_getLast? hlast)).1 rfl
  constructor
  · refine (hook_holds hassoc hout htail).mono fun j hj => ?_
    by_cases hji : j = i
    · exact .inr hji
    · exact .inl ⟨hj, hji⟩
  · intro set' hne
    refine SameSet.trans ?_ (hook_same hassoc hout.tail hne)
    exact unhook_same hassoc (h.prev i hk) (h.next i hk) his.prev_ne his.next_ne hlinked hne

/-- A block is pushed: whatever its fields were, it goes to the end of its list. -/
theorem pushblk_holds (h : Holds l set L K) (his : L.Is xs) (hi : i ∉ xs) (hk : ¬ K i) :
    Holds (l.pushblk assoc (blk set i)) set (L.pushBack i) (fun j => K j ∨ j = i) ∧
      ∀ set' ≠ set, SameSet assoc l (l.pushblk assoc (blk set i)) set' := by
  have htail : L.tail ≠ some i := by
    rw [his.tail]
    exact fun hlast => hi (List.mem_of_getLast? hlast)
  -- with both fields null the first half of the move does nothing
  have hpush : l.pushblk assoc (blk set i) = hook assoc
      { l with
        prev := Function.update l.prev (blk set i) lruNull
        next := Function.update l.next (blk set i) lruNull } (blk set i) := by
    rw [pushblk, movetail, unhook]
    simp
  have hclear : Holds
      { l with
        prev := Function.update l.prev (blk set i) lruNull
        next := Function.update l.next (blk set i) lruNull } set L K := by
    refine ⟨h.head, h.tail, fun j hj => ?_, fun j hj => ?_⟩
    · have hji : j ≠ i := fun he => hk (he ▸ hj)
      simp [update_blk, hji, h.prev j hj]
    · have hji : j ≠ i := fun he => hk (he ▸ hj)
      simp [update_blk, hji, h.next j hj]
  rw [hpush]
  refine ⟨hook_holds hassoc hclear htail, fun set' hne => ?_⟩
  apply SameSet.trans _ (hook_same hassoc hclear.tail hne)
  exact ⟨rfl, rfl, fun j => by simp [update_blk, hne], fun j => by simp [update_blk, hne]⟩

end

/-! ## Whole histories -/

/-- The lists are those of a history; the fields of a block that has never been moved are
not known. -/
def Ordered (assoc numSets : Nat) (l : BlockLru) (history : List Nat) : Prop :=
  ∀ set < numSets, ∃ L : Linked (Fin assoc), L.Is (moveOrder assoc set history) ∧
    Holds l set L (fun i => blk set i ∈ history)

section
variable {l : BlockLru} {numSets set : Nat} {history : List Nat} {i : Fin assoc}

/-- What a move leaves of the other sets. -/
theorem Ordered.other {l' : BlockLru} {set' : Nat} (h : Ordered assoc numSets l history)
    (hset : set' < numSets) (hne : set' ≠ set) (hs : SameSet assoc l l' set') :
    ∃ L : Linked (Fin assoc), L.Is (moveOrder assoc set' (history ++ [blk set i])) ∧
      Holds l' set' L (fun j => blk set' j ∈ history ++ [blk set i]) := by
  obtain ⟨L, his, hholds⟩ := h set' hset
  have hrel : relIndex assoc set' (blk set i) = none := by
    cases hr : relIndex assoc set' (blk set i) with
    | none => rfl
    | some j => exact absurd (blk_inj.mp (relIndex_eq_some.mp hr)).1.symm hne
  refine ⟨L, ?_, (hholds.same hs).mono fun j hj => ?_⟩
  · rw [moveOrder_other hrel]
    exact his
  · rcases List.mem_append.mp hj with hj | hj
    · exact hj
    · exact absurd (blk_inj.mp (List.mem_singleton.mp hj)).1 hne

variable (hassoc : assoc ≤ lruNull)
include hassoc

theorem Ordered.pushblk (h : Ordered assoc numSets l history) (hset : set < numSets)
    (hnew : blk set i ∉ history) :
    Ordered assoc numSets (l.pushblk assoc (blk set i)) (history ++ [blk set i]) := by
  obtain ⟨L, his, hholds⟩ := h set hset
  have hi : i ∉ moveOrder assoc set history := fun hm => hnew (mem_moveOrder.mp hm)
  obtain ⟨hmine, hothers⟩ := pushblk_holds hassoc hholds his hi hnew
  intro set' hset'
  by_cases hne : set' = set
  · subst hne
    refine ⟨L.pushBack i, ?_, hmine.mono fun j hj => ?_⟩
    · show (L.pushBack i).Is (moveOrder assoc set' (history ++ [set' * assoc + i]))
      rw [moveOrder_move, List.erase_of_not_mem hi]
      exact his.pushBack hi
    · rcases List.mem_append.mp hj with hj | hj
      · exact .inl hj
      · exact .inr (blk_inj.mp (List.mem_singleton.mp hj)).2
  · exact h.other hset' hne (hothers set' hne)

omit hassoc in
theorem linked_of_full {L : Linked (Fin assoc)} {xs : List (Fin assoc)} (his : L.Is xs)
    (htwo : 2 ≤ assoc) (hmem : ∀ j, j ∈ xs) (i : Fin assoc) :
    L.prev i ≠ none ∨ L.next i ≠ none := by
  have hnontrivial : Nontrivial (Fin assoc) := Fin.nontrivial_iff_two_le.mpr htwo
  obtain ⟨j, hj⟩ := exists_ne i
  exact his.linked (hmem i) (hmem j) hj

/-- A block of a set all of whose blocks are on its list. -/
theorem Ordered.movetail (h : Ordered assoc numSets l history) (hset : set < numSets)
    (htwo : 2 ≤ assoc) (hfull : ∀ j : Fin assoc, blk set j ∈ history) (i : Fin assoc) :
    Ordered assoc numSets (l.movetail assoc (blk set i)) (history ++ [blk set i]) ∧
      ∀ set' ≠ set, SameSet assoc l (l.movetail assoc (blk set i)) set' := by
  obtain ⟨L, his, hholds⟩ := h set hset
  have hmem : ∀ j : Fin assoc, j ∈ moveOrder assoc set history :=
    fun j => mem_moveOrder.mpr (hfull j)
  have hlinked := linked_of_full his htwo hmem i
  obtain ⟨hmine, hothers⟩ := movetail_holds hassoc hholds his (hmem i) (hfull i) hlinked
  refine ⟨fun set' hset' => ?_, hothers⟩
  by_cases hne : set' = set
  · subst hne
    refine ⟨_, ?_, hmine.mono fun j _ => hfull j⟩
    show ((L.unlink i).pushBack i).Is (moveOrder assoc set' (history ++ [set' * assoc + i]))
    rw [moveOrder_move]
    refine (his.unlink_erase (hmem i)).pushBack fun hm => ?_
    exact ((List.Nodup.mem_erase_iff his.nodup).mp hm).1 rfl
  · exact h.other hset' hne (hothers set' hne)

omit hassoc in
theorem exists_blk {n : Nat} (hpos : 0 < assoc) : ∃ i : Fin assoc, n = blk (n / assoc) i :=
  ⟨⟨n % assoc, Nat.mod_lt n hpos⟩, (Nat.div_add_mod' n assoc).symm⟩

/-- The lists are built, block by block. -/
theorem Ordered.pushblks (hnull : ∀ set < numSets, l.head set = lruNull ∧ l.tail set = lruNull) :
    ∀ n ≤ numSets * assoc, Ordered assoc numSets
      ((List.range n).foldl (BlockLru.pushblk assoc) l) (List.range n) := by
  intro n
  induction n with
  | zero =>
    intro _ set hset
    refine ⟨Linked.empty, ?_, (hnull set hset).1, (hnull set hset).2, by simp, by simp⟩
    exact Linked.empty_is
  | succ n ih =>
    intro hn
    have hpos : 0 < assoc := by
      by_contra hzero
      obtain rfl : assoc = 0 := by omega
      omega
    obtain ⟨i, hi⟩ := exists_blk (n := n) hpos
    have hset : n / assoc < numSets := (Nat.div_lt_iff_lt_mul hpos).mpr (by omega)
    have hnew : blk (n / assoc) i ∉ List.range n := by
      rw [← hi]
      simp
    have hpush := (ih (by omega)).pushblk hassoc hset hnew
    rw [← hi] at hpush
    rw [List.range_succ, List.foldl_append]
    exact hpush

/-- The building leaves the sets alone that it has not come to. -/
theorem pushblks_same (hnull : ∀ set < numSets, l.head set = lruNull ∧ l.tail set = lruNull)
    (hset : set < numSets) : ∀ n ≤ set * assoc,
      SameSet assoc l ((List.range n).foldl (BlockLru.pushblk assoc) l) set := by
  intro n
  induction n with
  | zero =>
    intro _
    exact ⟨rfl, rfl, fun _ => rfl, fun _ => rfl⟩
  | succ n ih =>
    intro hn
    have hpos : 0 < assoc := Nat.pos_of_mul_pos_left (Nat.lt_of_lt_of_le (Nat.succ_pos n) hn)
    have hbefore : n / assoc < set := (Nat.div_lt_iff_lt_mul hpos).mpr hn
    have hle : n ≤ numSets * assoc :=
      Nat.le_trans (by omega) (Nat.mul_le_mul_right assoc (Nat.le_of_lt hset))
    obtain ⟨i, hi⟩ := exists_blk (n := n) hpos
    obtain ⟨L, his, hholds⟩ := Ordered.pushblks hassoc hnull n hle (n / assoc) (by omega)
    have hnew : blk (n / assoc) i ∉ List.range n := by
      rw [← hi]
      simp
    have hpush := (pushblk_holds hassoc hholds his
      (fun hm => hnew (mem_moveOrder.mp hm)) hnew).2 set (by omega)
    rw [← hi] at hpush
    rw [List.range_succ, List.foldl_append]
    exact (ih (by omega)).trans hpush

end

theorem cacheSetsInit_null (l : BlockLru) (numSets : Nat) :
    ∀ set < intRounds numSets, (l.cacheSetsInit numSets).head set = lruNull ∧
      (l.cacheSetsInit numSets).tail set = lruNull := by
  rw [cacheSetsInit]
  generalize intRounds numSets = n
  induction n with
  | zero =>
    intro set hset
    omega
  | succ n ih =>
    intro set hset
    rw [List.range_succ, List.foldl_append]
    simp only [List.foldl_cons, List.foldl_nil, Function.update_apply]
    split
    · exact ⟨rfl, rfl⟩
    · exact ih set (by omega)

theorem intRounds_le (n : Nat) : intRounds n ≤ n := by
  rw [intRounds]
  split
  · exact Nat.mod_le _ _
  · exact Nat.zero_le _

theorem assoc_le_null (g : Geom) : g.assoc ≤ lruNull :=
  Nat.le_trans (Nat.pow_le_pow_right (by decide) g.assoc_le) (by decide)

/-- The lists of a cache, built in the memory `mem`. -/
def create (g : Geom) (mem : BlockLru) : BlockLru :=
  (mem.cacheSetsInit g.numSets).pushblks g.assoc g.size

theorem create_ordered (g : Geom) (mem : BlockLru) :
    Ordered g.assoc g.numSets (create g mem) (List.range (intRounds g.size)) := by
  have hassoc := assoc_le_null g
  have hle : intRounds g.size ≤ g.numSets * g.assoc := by
    rw [Nat.mul_comm]
    exact intRounds_le g.size
  refine Ordered.pushblks hassoc (fun set hset => ?_) _ hle
  apply cacheSetsInit_null
  rw [intRounds_of_lt g.numSets_lt]
  exact hset

/-! ## Searching for a victim -/

/-- The least recently moved block of the set whose state is exactly `VALID`. -/
def victim (assoc set : Nat) (st : Nat → State) (history : List Nat) : Option Nat :=
  ((moveOrder assoc set history).find? fun i => st (blk set i) = State.valid).map (blk set)

section
variable {l : BlockLru} {numSets set : Nat} {history : List Nat} (st : Nat → State)
  (hassoc : assoc ≤ lruNull)
include hassoc

theorem reclaimScan_eq {L : Linked (Fin assoc)} {xs : List (Fin assoc)} (his : L.Is xs)
    (h : Holds l set L (fun _ => True)) : ∀ (zs ys : List (Fin assoc)) (fuel : Nat),
    xs = ys ++ zs → zs.length ≤ fuel →
    l.reclaimScan st (set * assoc) fuel (enc zs.head?) =
      some ((zs.find? fun i => st (blk set i) = State.valid).map (blk set)) := by
  intro zs
  induction zs with
  | nil =>
    intro ys fuel _ _
    unfold reclaimScan
    rfl
  | cons i zs ih =>
    intro ys fuel hsplit hfuel
    cases fuel with
    | zero => simp at hfuel
    | succ fuel =>
      have hne : enc (some i) ≠ lruNull := by simp [enc_eq_null hassoc]
      have hnext : l.next (blk set i) = enc zs.head? := by
        rw [h.next i trivial, (his.links ys i zs hsplit).2]
      unfold reclaimScan
      rw [List.head?_cons, if_neg hne]
      simp only [enc_add, hnext]
      by_cases hst : st (blk set i) = State.valid
      · simp [hst]
      · rw [if_neg hst, List.find?_cons_of_neg (by simpa using hst)]
        apply ih (ys ++ [i])
        · rw [hsplit]
          simp
        · simpa using hfuel

/-- The search visits each block of the list at most once. -/
theorem findReclaimDbn_eq {L : Linked (Fin assoc)} {xs : List (Fin assoc)} (his : L.Is xs)
    (h : Holds l set L (fun _ => True)) (hpos : 0 < assoc) :
    l.findReclaimDbn assoc st (set * assoc) =
      let victim := (xs.find? fun i => st (blk set i) = State.valid).map (blk set)
      some (victim, victim.elim l (l.movetail assoc)) := by
  have hlen : xs.length ≤ assoc := by
    have := his.nodup.length_le_card
    rwa [Fintype.card_fin] at this
  have hscan := reclaimScan_eq st hassoc his h xs [] assoc rfl hlen
  rw [← his.head, ← h.head] at hscan
  rw [findReclaimDbn, Nat.mul_div_cancel _ hpos, hscan]
  cases xs.find? fun i => st (blk set i) = State.valid <;> rfl

theorem Ordered.findReclaimDbn (h : Ordered assoc numSets l history) (hset : set < numSets)
    (hfull : ∀ j : Fin assoc, blk set j ∈ history) (hpos : 0 < assoc) :
    l.findReclaimDbn assoc st (set * assoc) =
      some (victim assoc set st history,
        (victim assoc set st history).elim l (l.movetail assoc)) := by
  obtain ⟨L, his, hholds⟩ := h set hset
  exact findReclaimDbn_eq st hassoc his (hholds.mono fun j _ => hfull j) hpos

end

/-! ## Runs -/

/-- The calls on the lists of a cache. A search finds the blocks in the states `st`. -/
inductive Op (g : Geom) where
  | movetail (index : Fin g.size)
  | findReclaim (set : Fin g.numSets) (st : Nat → State)

/-- The set a call works on. -/
def Op.set {g : Geom} : Op g → Nat
  | .movetail index => index / g.assoc
  | .findReclaim set _ => set

/-- The lists after a call. -/
def call (g : Geom) (l : BlockLru) : Op g → Option BlockLru
  | .movetail index => some (l.movetail g.assoc index)
  | .findReclaim set st => (l.findReclaimDbn g.assoc st (set * g.assoc)).map Prod.snd

def run (g : Geom) : BlockLru → List (Op g) → Option BlockLru
  | l, [] => some l
  | l, op :: ops => (l.call g op).bind fun l => run g l ops

/-- The moves of a call, after those of a history. -/
def Op.moves {g : Geom} (history : List Nat) : Op g → List Nat
  | .movetail index => history ++ [index.val]
  | .findReclaim set st => history ++ (victim g.assoc set st history).toList

/-- The moves of a run: each block once, in the order of the indices, then those of the
calls. -/
def history (g : Geom) (ops : List (Op g)) : List Nat :=
  ops.foldl (fun history op => op.moves history) (List.range g.size)

/-- The fields of set `set` describe the doubly linked list `xs`. -/
structure Describes (l : BlockLru) (set : Nat) (xs : List (Fin assoc)) : Prop where
  head : l.head set = enc xs.head?
  tail : l.tail set = enc xs.getLast?
  links : ∀ ys i zs, xs = ys ++ i :: zs →
    l.prev (blk set i) = enc ys.getLast? ∧ l.next (blk set i) = enc zs.head?

/-- The fields that describe a list of all blocks of the set are those of a linked list. -/
theorem Describes.holds {l : BlockLru} {set : Nat} {xs : List (Fin assoc)}
    (h : l.Describes set xs) (hperm : xs.Perm (List.finRange assoc)) (hassoc : assoc ≤ lruNull) :
    ∃ L : Linked (Fin assoc), L.Is xs ∧ Holds l set L (fun _ => True) := by
  let dec : Nat → Option (Fin assoc) := fun v => if hv : v < assoc then some ⟨v, hv⟩ else none
  have hdec : ∀ o : Option (Fin assoc), dec (enc o) = o := by
    intro o
    cases o with
    | none => exact dif_neg (by simp only [enc]; omega)
    | some i => exact dif_pos i.isLt
  have hmem : ∀ i, i ∈ xs := fun i => hperm.mem_iff.mpr (List.mem_finRange i)
  refine ⟨⟨xs.head?, xs.getLast?, fun i => dec (l.prev (blk set i)),
    fun i => dec (l.next (blk set i))⟩, ?_, ?_⟩
  · refine ⟨hperm.nodup_iff.mpr (List.nodup_finRange _), rfl, rfl, fun ys i zs hsplit => ?_,
      fun i hi => absurd (hmem i) hi⟩
    obtain ⟨hprev, hnext⟩ := h.links ys i zs hsplit
    simp only [hprev, hnext, hdec, and_self]
  · refine ⟨h.head, h.tail, fun i _ => ?_, fun i _ => ?_⟩
    · obtain ⟨ys, zs, hsplit⟩ := List.append_of_mem (hmem i)
      simp only [(h.links ys i zs hsplit).1, hdec]
    · obtain ⟨ys, zs, hsplit⟩ := List.append_of_mem (hmem i)
      simp only [(h.links ys i zs hsplit).2, hdec]

theorem Describes.same {l l' : BlockLru} {set : Nat} {xs : List (Fin assoc)}
    (h : l.Describes set xs) (hs : SameSet assoc l l' set) : l'.Describes set xs where
  head := hs.head.trans h.head
  tail := hs.tail.trans h.tail
  links ys i zs hsplit := by
    rw [hs.prev i, hs.next i]
    exact h.links ys i zs hsplit

/-- A list of all blocks of a set is one again after a move. -/
theorem Describes.movetail {l : BlockLru} {set : Nat} {xs : List (Fin assoc)}
    (h : l.Describes set xs) (hperm : xs.Perm (List.finRange assoc)) (hassoc : assoc ≤ lruNull)
    (htwo : 2 ≤ assoc) (i : Fin assoc) :
    (l.movetail assoc (blk set i)).Describes set (xs.erase i ++ [i]) ∧
      (xs.erase i ++ [i]).Perm (List.finRange assoc) ∧
      ∀ set' ≠ set, SameSet assoc l (l.movetail assoc (blk set i)) set' := by
  obtain ⟨L, his, hholds⟩ := h.holds hperm hassoc
  have hmem : ∀ j, j ∈ xs := fun j => hperm.mem_iff.mpr (List.mem_finRange j)
  obtain ⟨hmine, hothers⟩ := movetail_holds hassoc hholds his (hmem i) trivial
    (linked_of_full his htwo hmem i)
  have hmoved : ((L.unlink i).pushBack i).Is (xs.erase i ++ [i]) :=
    (his.unlink_erase (hmem i)).pushBack fun hm =>
      ((List.Nodup.mem_erase_iff his.nodup).mp hm).1 rfl
  refine ⟨⟨by rw [hmine.head, hmoved.head], by rw [hmine.tail, hmoved.tail], ?_⟩, ?_, hothers⟩
  · intro ys j zs hsplit
    obtain ⟨hprev, hnext⟩ := hmoved.links ys j zs hsplit
    rw [hmine.prev j trivial, hmine.next j trivial, hprev, hnext]
    exact ⟨rfl, rfl⟩
  · exact (List.perm_append_singleton _ _).trans
      ((List.perm_cons_erase (hmem i)).symm.trans hperm)

/-- The lists of all sets after the moves of a history. -/
structure Refines (g : Geom) (l : BlockLru) (history : List Nat) : Prop where
  list : ∀ set < g.numSets, l.Describes set (moveOrder g.assoc set history)
  perm : ∀ set < g.numSets, (moveOrder g.assoc set history).Perm (List.finRange g.assoc)
  sorted : ∀ set, (moveOrder g.assoc set history).Pairwise fun i j =>
    MovedBefore history (blk set i) (blk set j)
  reclaim : ∀ set < g.numSets, ∀ st,
    (l.findReclaimDbn g.assoc st (set * g.assoc)).map Prod.fst =
      some (victim g.assoc set st history)
  apart : ∀ op l', l.call g op = some l' → ∀ set, set ≠ op.set → SameSet g.assoc l l' set

section
variable {g : Geom} {l : BlockLru} {h : List Nat}

/-- All blocks of the cache have been moved. -/
def Full (g : Geom) (h : List Nat) : Prop := ∀ n < g.size, n ∈ h

theorem blk_lt_size {set : Nat} (hset : set < g.numSets) (i : Fin g.assoc) :
    blk set i < g.size := by
  have hi := i.isLt
  have hle : (set + 1) * g.assoc ≤ g.numSets * g.assoc := Nat.mul_le_mul_right _ hset
  rw [blk, Geom.size, Nat.mul_comm g.assoc]
  rw [Nat.add_mul, Nat.one_mul] at hle
  omega

theorem Full.blk (hfull : Full g h) {set : Nat} (hset : set < g.numSets) (i : Fin g.assoc) :
    blk set i ∈ h :=
  hfull _ (blk_lt_size hset i)

theorem Full.moves (hfull : Full g h) (op : Op g) : Full g (op.moves h) := by
  intro n hn
  cases op <;> exact List.mem_append_left _ (hfull n hn)

/-- With `2 ^ 31` blocks or more no block of the last set is pushed. -/
theorem create_untouched (hsize : 2 ^ 31 ≤ g.size) (mem : BlockLru) :
    SameSet g.assoc (mem.cacheSetsInit g.numSets) (create g mem) (g.numSets - 1) := by
  have hnum := g.numSets_pos
  have hassoc := assoc_le_null g
  -- the loop stops at the end of a set
  have hdvd : g.assoc ∣ intRounds g.size := by
    rw [intRounds]
    split
    · have hpow : g.assoc ∣ 2 ^ 32 := Nat.pow_dvd_pow 2 (by have := g.assoc_le; omega)
      exact (Nat.dvd_mod_iff hpow).mpr ⟨g.numSets, rfl⟩
    · exact Nat.dvd_zero _
  obtain ⟨q, hq⟩ := hdvd
  have hqn : q < g.numSets := by
    have : g.assoc * q < g.assoc * g.numSets := by
      rw [← hq]
      exact Nat.lt_of_lt_of_le (intRounds_lt g.size) hsize
    exact Nat.lt_of_mul_lt_mul_left this
  have hle : intRounds g.size ≤ (g.numSets - 1) * g.assoc := by
    rw [hq, Nat.mul_comm]
    exact Nat.mul_le_mul_right _ (by omega)
  have hlast : g.numSets - 1 < g.numSets := by omega
  refine pushblks_same hassoc (fun set hset => ?_) hlast _ hle
  apply cacheSetsInit_null
  rw [intRounds_of_lt g.numSets_lt]
  exact hset

theorem create_last (hsize : 2 ^ 31 ≤ g.size) (mem : BlockLru) :
    (create g mem).head (g.numSets - 1) = lruNull ∧
      (create g mem).tail (g.numSets - 1) = lruNull := by
  have hnum := g.numSets_pos
  rw [(create_untouched hsize mem).head, (create_untouched hsize mem).tail]
  apply cacheSetsInit_null
  rw [intRounds_of_lt g.numSets_lt]
  omega

variable (htwo : 2 ≤ g.assoc)
include htwo

theorem Ordered.call (ho : Ordered g.assoc g.numSets l h) (hfull : Full g h) (op : Op g) :
    ∃ l', l.call g op = some l' ∧ Ordered g.assoc g.numSets l' (op.moves h) ∧
      ∀ set ≠ op.set, SameSet g.assoc l l' set := by
  have hassoc := assoc_le_null g
  have hmove : ∀ n < g.size, Ordered g.assoc g.numSets (l.movetail g.assoc n) (h ++ [n]) ∧
      ∀ set ≠ n / g.assoc, SameSet g.assoc l (l.movetail g.assoc n) set := by
    intro n hn
    obtain ⟨i, hi⟩ := exists_blk (n := n) g.assoc_pos
    have hset : n / g.assoc < g.numSets := by
      apply (Nat.div_lt_iff_lt_mul g.assoc_pos).mpr
      rw [Nat.mul_comm]
      exact hn
    have := ho.movetail hassoc hset htwo (hfull.blk hset) i
    rwa [← hi] at this
  cases op with
  | movetail index => exact ⟨_, rfl, hmove index index.isLt⟩
  | findReclaim set st =>
    have hfind := ho.findReclaimDbn st hassoc set.isLt (hfull.blk set.isLt) g.assoc_pos
    simp only [BlockLru.call, hfind, Option.map_some, Option.some.injEq, exists_eq_left',
      Op.moves, Op.set]
    cases hv : victim g.assoc set st h with
    | none =>
      rw [Option.toList_none, List.append_nil]
      exact ⟨ho, fun _ _ => ⟨rfl, rfl, fun _ => rfl, fun _ => rfl⟩⟩
    | some n =>
      -- the victim is a block of the set
      obtain ⟨i, -, hn⟩ := Option.map_eq_some_iff.mp hv
      have hlt : n < g.size := hn ▸ blk_lt_size set.isLt i
      have hdiv : n / g.assoc = set := by rw [← hn, blk_div]
      have := hmove n hlt
      rw [hdiv] at this
      exact this

theorem Ordered.refines (ho : Ordered g.assoc g.numSets l h) (hfull : Full g h) :
    Refines g l h := by
  have hassoc := assoc_le_null g
  refine ⟨fun set hset => ?_, fun set hset => ?_, fun set => ?_, fun set hset st => ?_, ?_⟩
  · obtain ⟨L, his, hholds⟩ := ho set hset
    refine ⟨by rw [hholds.head, his.head], by rw [hholds.tail, his.tail], ?_⟩
    intro ys i zs hsplit
    obtain ⟨hprev, hnext⟩ := his.links ys i zs hsplit
    rw [hholds.prev i (hfull.blk hset i), hholds.next i (hfull.blk hset i), hprev, hnext]
    exact ⟨rfl, rfl⟩
  · apply (List.perm_ext_iff_of_nodup (List.nodup_dedup _) (List.nodup_finRange _)).mpr
    intro i
    exact ⟨fun _ => List.mem_finRange i, fun _ => mem_moveOrder.mpr (hfull.blk hset i)⟩
  · exact moveOrder_sorted h
  · rw [ho.findReclaimDbn st hassoc hset (hfull.blk hset) g.assoc_pos]
    rfl
  · intro op l' hcall set hset
    obtain ⟨l'', hcall', -, hsame⟩ := ho.call htwo hfull op
    rw [hcall] at hcall'
    cases hcall'
    exact hsame set hset

theorem Ordered.run : ∀ (ops : List (Op g)) {l : BlockLru} {h : List Nat},
    Ordered g.assoc g.numSets l h → Full g h →
    ∃ l', l.run g ops = some l' ∧ Refines g l' (ops.foldl (fun h op => op.moves h) h) := by
  intro ops
  induction ops with
  | nil =>
    intro l h ho hfull
    exact ⟨l, rfl, ho.refines htwo hfull⟩
  | cons op ops ih =>
    intro l h ho hfull
    obtain ⟨l₁, hcall, ho₁, -⟩ := ho.call htwo hfull op
    obtain ⟨l', hrun, href⟩ := ih ho₁ (hfull.moves op)
    refine ⟨l', ?_, href⟩
    rw [BlockLru.run, hcall]
    exact hrun

end

/-- Memory that happens to be all zero. -/
def zeroed : BlockLru := ⟨fun _ => 0, fun _ => 0, fun _ => 0, fun _ => 0⟩

/-- Each set's fields describe one list of all its blocks, in the order of their last move,
exactly if the cache has fewer than `2 ^ 31` blocks: the loops that build the lists count
in an int. -/
theorem block_lru_refines_iff (g : Geom) (htwo : 2 ≤ g.assoc) :
    (∀ mem ops, ∃ l, (create g mem).run g ops = some l ∧ Refines g l (history g ops)) ↔
      g.size < 2 ^ 31 := by
  constructor
  · intro h
    by_contra hsize
    obtain ⟨l, hrun, href⟩ := h zeroed []
    cases hrun
    have hnum := g.numSets_pos
    have hassoc := assoc_le_null g
    -- the list of the last set would be empty
    have hnull := (href.list (g.numSets - 1) (by omega)).head
    rw [(create_last (Nat.le_of_not_lt hsize) _).1, eq_comm, enc_eq_null hassoc,
      List.head?_eq_none_iff] at hnull
    have hlen := (href.perm (g.numSets - 1) (by omega)).length_eq
    rw [hnull, List.length_finRange, List.length_nil] at hlen
    omega
  · intro hsize mem ops
    have ho := create_ordered g mem
    rw [intRounds_of_lt hsize] at ho
    exact ho.run htwo ops fun n hn => List.mem_range.mpr hn

/-- Two sets of two blocks. -/
def fourBlocks : Geom :=
  .ofSizes .ro 3 1 2 (2 ^ 21) (by decide)

/-- A hit on block 0, and a search for a victim in its set. -/
def hitAndReclaim : List (Op fourBlocks) :=
  [.movetail ⟨0, by decide⟩, .findReclaim ⟨0, by decide⟩ fun _ => State.valid]

theorem block_lru_refines_four : ∃ l, (create fourBlocks zeroed).run fourBlocks hitAndReclaim =
    some l ∧ Refines fourBlocks l (history fourBlocks hitAndReclaim) :=
  (block_lru_refines_iff fourBlocks (by decide)).mpr (by decide) zeroed hitAndReclaim

/-- `2 ^ 31` blocks of 4 KiB. -/
def manyBlocks : Geom :=
  .ofSizes .ro 3 1 (2 ^ 30) (2 ^ 21) (by decide)

/-- No block of the last set is ever on its list, so that a search finds no victim although
all its blocks are valid. -/
theorem block_lru_empty :
    (create manyBlocks zeroed).head (2 ^ 30 - 1) = lruNull ∧
      ((create manyBlocks zeroed).findReclaimDbn 2 (fun _ => State.valid)
        ((2 ^ 30 - 1) * 2)).map Prod.fst = some none := by
  have hnum : manyBlocks.numSets = 2 ^ 30 := rfl
  have hhead := (create_last (g := manyBlocks) (by decide) zeroed).1
  rw [hnum] at hhead
  refine ⟨hhead, ?_⟩
  rw [findReclaimDbn, Nat.mul_div_cancel _ (by decide), hhead]
  unfold reclaimScan
  rfl

end BlockLru

end EnhanceIO
