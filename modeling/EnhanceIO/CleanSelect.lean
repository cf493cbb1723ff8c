import EnhanceIO.Policies

/-!
# The blocks of a partial clean

`eio_get_setblks_to_clean` and the `clean_set` functions of the policies. There are three
traversals of a set: in index order, in circular order from a saved pointer, and along a list.
Each of them marks blocks until it has marked as many as asked for, and each is `markList` over
the order in which it visits the blocks.
-/

namespace EnhanceIO

open State

/-- The test of all traversals: dirty, and no I/O in progress. -/
def State.toClean (c : State) : Bool :=
  c &&& (dirty ||| blockIoInprog) == dirty

/-- The block states while a set is marked, and `nr_writes`. -/
structure Marking where
  st : Nat → State
  nrWrites : Nat

/-- One round of a traversal. -/
def Marking.visit (m : Marking) (i : Nat) : Marking :=
  if (m.st i).toClean then
    ⟨Function.update m.st i ((m.st i).on diskWriteInprog), m.nrWrites + 1⟩
  else m

/-- The loop of `eio_rand_clean_set`, with `rounds` blocks of the set left. -/
def seqScan (toClean : Int) : Nat → Nat → Marking → Marking
  | 0, _, m => m
  | rounds + 1, i, m =>
    if (m.nrWrites : Int) < toClean then seqScan toClean rounds (i + 1) (m.visit i) else m

/-- The loop of `eio_fifo_clean_set`: also where it stopped. -/
def Fifo.cleanScan (start assoc : Nat) (toClean : Int) : Nat → Nat → Marking → Marking × Nat
  | 0, i, m => (m, i)
  | rounds + 1, i, m =>
    if (m.nrWrites : Int) < toClean then
      Fifo.cleanScan start assoc toClean rounds (nextInSet start assoc i) (m.visit i)
    else (m, i)

/-- The loop of `eio_lru_clean_set`, from the set-relative number `rel` on: `none` if it is not
over after `fuel` blocks. -/
def BlockLru.cleanScan (l : BlockLru) (start : Nat) (toClean : Int) :
    Nat → Nat → Marking → Option Marking
  | fuel, rel, m =>
    if rel = lruNull ∨ ¬ (m.nrWrites : Int) < toClean then some m
    else
      match fuel with
      | 0 => none
      | fuel + 1 =>
        BlockLru.cleanScan l start toClean fuel (l.next (rel + start)) (m.visit (rel + start))

/-- `eio_policy_clean_set`. -/
def Policy.cleanSet (pol : Policy) (assoc set : Nat) (toClean : Int) (st : Nat → State) :
    Option (Marking × Policy) :=
  let start := set * assoc
  match pol with
  | .fifo f =>
    let (m, i) := Fifo.cleanScan start assoc toClean assoc (f.cleanNext set) ⟨st, 0⟩
    some (m, .fifo { f with cleanNext := Function.update f.cleanNext set i })
  | .lru l =>
    (l.cleanScan start toClean assoc (l.head set) ⟨st, 0⟩).map fun m => (m, .lru l)
  | .rand random => some (seqScan toClean assoc start ⟨st, 0⟩, .rand random)

/-- `max_clean`: a difference of unsigned ints, kept in an int. -/
def maxClean (nrDirty low assoc : Nat) : Int :=
  let diff : Nat := (nrDirty + 2 ^ 32 - low * assoc % 2 ^ 32 / 100) % 2 ^ 32
  if diff < 2 ^ 31 then diff else (diff : Int) - 2 ^ 32

/-- `eio_get_setblks_to_clean`; `none` for the policy is a cache without one. -/
def getSetblksToClean (pol : Option Policy) (assoc low set nrDirty : Nat) (st : Nat → State) :
    Option (Marking × Option Policy) :=
  let max := maxClean nrDirty low assoc
  if max ≤ 0 then some (⟨st, 0⟩, pol)
  else
    match pol with
    | none => some (seqScan max assoc (set * assoc) ⟨st, 0⟩, none)
    | some pol => (pol.cleanSet assoc set max st).map fun (m, pol) => (m, some pol)

/-! ## Traversals -/

/-- Mark the blocks of a list until there are enough. -/
def markList (toClean : Int) : List Nat → Marking → Marking
  | [], m => m
  | i :: order, m =>
    if (m.nrWrites : Int) < toClean then markList toClean order (m.visit i) else m

theorem seqScan_eq (toClean : Int) : ∀ (rounds i : Nat) (m : Marking),
    seqScan toClean rounds i m = markList toClean (List.range' i rounds) m := by
  intro rounds
  induction rounds with
  | zero =>
    intro i m
    rfl
  | succ rounds ih =>
    intro i m
    rw [seqScan, List.range'_succ, markList]
    split
    · exact ih _ _
    · rfl

theorem Fifo.cleanScan_eq {start assoc : Nat} (toClean : Int) : ∀ (rounds : Nat) {i : Nat}
    (m : Marking), rounds ≤ assoc → InSet start assoc i →
    ∃ j, InSet start assoc j ∧ Fifo.cleanScan start assoc toClean rounds i m =
      (markList toClean ((circular start assoc i).take rounds) m, j) := by
  intro rounds
  induction rounds with
  | zero =>
    intro i m _ hi
    exact ⟨i, hi, rfl⟩
  | succ rounds ih =>
    intro i m hrounds hi
    rw [take_circular hi hrounds, Fifo.cleanScan, markList]
    split
    · exact ih _ (by omega) (nextInSet_mem hi)
    · exact ⟨i, hi, rfl⟩

/-- The loop along the list, from the middle of it on. -/
theorem BlockLru.cleanScan_eq {assoc set : Nat} {l : BlockLru} (hassoc : assoc ≤ lruNull)
    {xs : List (Fin assoc)} (h : l.Describes set xs) (toClean : Int) :
    ∀ (zs ys : List (Fin assoc)) (fuel : Nat) (m : Marking), xs = ys ++ zs → zs.length ≤ fuel →
    l.cleanScan (set * assoc) toClean fuel (enc zs.head?) m =
      some (markList toClean (zs.map (blk set)) m) := by
  intro zs
  induction zs with
  | nil =>
    intro ys fuel m _ _
    unfold cleanScan
    exact if_pos (.inl rfl)
  | cons i zs ih =>
    intro ys fuel m hsplit hfuel
    cases fuel with
    | zero => simp at hfuel
    | succ fuel =>
      have hne : enc (some i) ≠ lruNull := by simp [enc_eq_null hassoc]
      have hnext : l.next (blk set i) = enc zs.head? := (h.links ys i zs hsplit).2
      unfold cleanScan
      rw [List.map_cons, markList, List.head?_cons]
      simp only [hne, false_or, enc_add, hnext]
      by_cases hgo : (m.nrWrites : Int) < toClean
      · rw [if_neg (not_not.mpr hgo), if_pos hgo]
        apply ih (ys ++ [i])
        · rw [hsplit]
          simp
        · simpa using hfuel
      · rw [if_pos hgo, if_neg hgo]

/-! ## What a traversal marks -/

/-- The blocks a traversal marks: the first ones in its order that pass the test. -/
def picks (toClean : Nat) (order : List Nat) (st : Nat → State) : List Nat :=
  (order.filter fun i => (st i).toClean).take toClean

/-- The states with the blocks of a list marked. -/
def marked (st : Nat → State) (blocks : List Nat) (i : Nat) : State :=
  if i ∈ blocks then (st i).on diskWriteInprog else st i

theorem marked_nil (st : Nat → State) : marked st [] = st := by
  ext1 i
  exact if_neg List.not_mem_nil

theorem marked_cons (st : Nat → State) {i : Nat} {blocks : List Nat} (hi : i ∉ blocks) :
    marked (Function.update st i ((st i).on diskWriteInprog)) blocks =
      marked st (i :: blocks) := by
  ext1 j
  by_cases hj : j = i
  · subst hj
    rw [marked, marked, if_neg hi, if_pos List.mem_cons_self, Function.update_self]
  · have hmem : j ∈ i :: blocks ↔ j ∈ blocks := by simp [hj]
    simp only [marked, hmem, Function.update_of_ne hj]

theorem picks_subset {toClean : Nat} {order : List Nat} {st : Nat → State} {i : Nat}
    (h : i ∈ picks toClean order st) : i ∈ order ∧ (st i).toClean = true :=
  List.mem_filter.mp (List.mem_of_mem_take h)

theorem picks_congr {toClean : Nat} {order : List Nat} {st st' : Nat → State}
    (h : ∀ i ∈ order, st' i = st i) : picks toClean order st' = picks toClean order st := by
  rw [picks, picks, List.filter_congr fun i hi => by rw [h i hi]]

theorem markList_eq : ∀ {order : List Nat}, order.Nodup → ∀ (st : Nat → State) (nr k : Nat),
    markList ((nr + k : Nat) : Int) order ⟨st, nr⟩ =
      ⟨marked st (picks k order st), nr + (picks k order st).length⟩ := by
  intro order
  induction order with
  | nil =>
    intro _ st nr k
    simp [markList, picks, marked_nil]
  | cons i order ih =>
    intro hnodup st nr k
    obtain ⟨hi, hrest⟩ := List.nodup_cons.mp hnodup
    rw [markList]
    cases k with
    | zero =>
      rw [if_neg (by simp)]
      simp [picks, marked_nil]
    | succ k =>
      rw [if_pos (by simp only; omega)]
      by_cases hclean : (st i).toClean = true
      · -- the block is marked; it does not come again
        have hpicks : picks (k + 1) (i :: order) st = i :: picks k order st := by
          simp [picks, hclean]
        have hlater : picks k order (Function.update st i ((st i).on diskWriteInprog)) =
            picks k order st := by
          apply picks_congr
          intro j hj
          apply Function.update_of_ne
          rintro rfl
          exact hi hj
        have hout : i ∉ picks k order st := fun hmem => hi (picks_subset hmem).1
        rw [Marking.visit, if_pos hclean, ← Nat.succ_add_eq_add_succ, ih hrest, hlater, hpicks,
          marked_cons st hout, List.length_cons, Nat.succ_add_eq_add_succ]
      · have hpicks : picks (k + 1) (i :: order) st = picks (k + 1) order st := by
          simp [picks, hclean]
        rw [Marking.visit, if_neg hclean, ih hrest, hpicks]

/-! ## The policies agree -/

section
variable {assoc set : Nat}

/-- A traversal of the set: each block once. -/
structure Traversal (assoc set : Nat) (order : List Nat) : Prop where
  nodup : order.Nodup
  all : ∀ i, i ∈ order ↔ InSet (set * assoc) assoc i

theorem Traversal.range : Traversal assoc set (List.range' (set * assoc) assoc) where
  nodup := List.nodup_range'
  all _ := List.mem_range'_1

theorem Traversal.perm {order : List Nat} (h : Traversal assoc set order) :
    order.Perm (List.range' (set * assoc) assoc) :=
  (List.perm_ext_iff_of_nodup h.nodup List.nodup_range').mpr fun i =>
    (h.all i).trans List.mem_range'_1.symm

theorem Policy.Ok.cleanSet {pol : Policy} (h : pol.Ok Fifo.cleanNext assoc set) (toClean : Int)
    (st : Nat → State) :
    ∃ order pol', Traversal assoc set order ∧
      pol.cleanSet assoc set toClean st = some (markList toClean order ⟨st, 0⟩, pol') ∧
      ∀ set', pol.Ok Fifo.cleanNext assoc set' → pol'.Ok Fifo.cleanNext assoc set' := by
  cases pol with
  | fifo f =>
    obtain ⟨j, hj, hscan⟩ := Fifo.cleanScan_eq toClean assoc ⟨st, 0⟩ (Nat.le_refl assoc) h
    rw [List.take_of_length_le (Nat.le_of_eq (length_circular h))] at hscan
    refine ⟨circular (set * assoc) assoc (f.cleanNext set),
      .fifo { f with cleanNext := Function.update f.cleanNext set j },
      ⟨circular_nodup h, fun i => mem_circular h⟩, ?_, ?_⟩
    · simp only [Policy.cleanSet, hscan]
    · intro set' hset'
      show InSet (set' * assoc) assoc (Function.update f.cleanNext set j set')
      rw [Function.update_apply]
      split
      · next heq =>
        rw [heq]
        exact hj
      · exact hset'
  | lru l =>
    obtain ⟨hassoc, xs, hxs, hperm⟩ := h
    have hlen : xs.length ≤ assoc := by
      rw [hperm.length_eq, List.length_finRange]
    have hscan := BlockLru.cleanScan_eq hassoc hxs toClean xs [] assoc ⟨st, 0⟩ rfl hlen
    rw [← hxs.head] at hscan
    refine ⟨xs.map (BlockLru.blk set), .lru l, ⟨?_, fun i => BlockLru.mem_blks hperm⟩,
      ?_, fun _ hok => hok⟩
    · apply List.Nodup.map_on (fun i _ j _ heq => (BlockLru.blk_inj.mp heq).2)
      exact hperm.nodup_iff.mpr (List.nodup_finRange assoc)
    · simp only [Policy.cleanSet, hscan, Option.map_some]
  | rand random =>
    refine ⟨List.range' (set * assoc) assoc, .rand random, Traversal.range, ?_, fun _ hok => hok⟩
    rw [Policy.cleanSet, seqScan_eq]

end

/-! ## How many blocks -/

/-- In the states a block can be in, the test accepts `VALID | DIRTY` only, and the mark makes
it `CLEAN_INPROG`. -/
theorem State.toClean_iff : ∀ c ∈ State.allowed, c.toClean = true ↔ c = alreadyDirty := by
  decide +kernel

theorem State.on_alreadyDirty :
    State.alreadyDirty.on diskWriteInprog = cleanInprog := by
  decide

/-- The number of `VALID | DIRTY` blocks of a set. -/
def dirtyBlocks (assoc set : Nat) (st : Nat → State) : Nat :=
  (List.range' (set * assoc) assoc).countP fun i => st i = alreadyDirty

theorem dirtyBlocks_le (assoc set : Nat) (st : Nat → State) : dirtyBlocks assoc set st ≤ assoc := by
  have := List.countP_le_length (p := fun i => decide (st i = alreadyDirty))
    (l := List.range' (set * assoc) assoc)
  rwa [List.length_range'] at this

theorem maxClean_eq {nrDirty low assoc : Nat} (hassoc : assoc ≤ 2 ^ 13) (hnr : nrDirty ≤ assoc)
    (hlow : low ≤ 100) :
    maxClean nrDirty low assoc = (nrDirty : Int) - (low * assoc / 100 : Nat) := by
  have hprod : low * assoc ≤ 100 * 2 ^ 13 := Nat.mul_le_mul hlow hassoc
  rw [maxClean, Nat.mod_eq_of_lt (by omega : low * assoc < 2 ^ 32)]
  generalize low * assoc = prod at hprod ⊢
  split <;> omega

/-- The blocks of a list become `CLEAN_INPROG`; they were `VALID | DIRTY` blocks of the
set. -/
structure Selects (assoc set : Nat) (st st' : Nat → State) (blocks : Finset Nat) : Prop where
  mem : ∀ i ∈ blocks, InSet (set * assoc) assoc i
  dirty : ∀ i ∈ blocks, st i = alreadyDirty
  marked : ∀ i ∈ blocks, st' i = cleanInprog
  others : ∀ i, i ∉ blocks → st' i = st i

/-- The states with some blocks marked. -/
def withMarks (st : Nat → State) (blocks : Finset Nat) (i : Nat) : State :=
  if i ∈ blocks then cleanInprog else st i

theorem Selects.st_eq {assoc set : Nat} {st st' : Nat → State} {blocks : Finset Nat}
    (h : Selects assoc set st st' blocks) : st' = withMarks st blocks := by
  ext1 i
  rw [withMarks]
  split
  · next hi => exact h.marked i hi
  · next hi => exact h.others i hi

section
variable {assoc set : Nat} {st : Nat → State}

/-- What is marked of `k` blocks or more, whatever the order. -/
theorem Traversal.selects {order : List Nat} (h : Traversal assoc set order)
    (hst : ∀ i, InSet (set * assoc) assoc i → st i ∈ State.allowed) {k : Nat}
    (hk : k ≤ dirtyBlocks assoc set st) :
    (markList k order ⟨st, 0⟩).nrWrites = k ∧
      ∃ blocks, blocks.card = k ∧ Selects assoc set st (markList k order ⟨st, 0⟩).st blocks := by
  have hmark := markList_eq h.nodup st 0 k
  rw [Nat.zero_add] at hmark
  have hclean : ∀ i ∈ order, ((st i).toClean = true ↔ st i = alreadyDirty) :=
    fun i hi => State.toClean_iff _ (hst i ((h.all i).mp hi))
  have hlen : (picks k order st).length = k := by
    have hcount : (order.filter fun i => (st i).toClean).length = dirtyBlocks assoc set st := by
      rw [dirtyBlocks, ← h.perm.countP_eq, List.countP_eq_length_filter]
      congr 1
      apply List.filter_congr
      intro i hi
      rw [Bool.eq_iff_iff, decide_eq_true_iff]
      exact hclean i hi
    rw [picks, List.length_take, hcount]
    omega
  have hnodup : (picks k order st).Nodup := (h.nodup.filter _).sublist (List.take_sublist _ _)
  rw [hmark]
  refine ⟨by simp only [hlen]; omega, (picks k order st).toFinset, ?_, ?_, ?_, ?_, ?_⟩
  · rw [List.toFinset_card_of_nodup hnodup, hlen]
  · intro i hi
    exact (h.all i).mp (picks_subset (List.mem_toFinset.mp hi)).1
  · intro i hi
    obtain ⟨hmem, htest⟩ := picks_subset (List.mem_toFinset.mp hi)
    exact (hclean i hmem).mp htest
  · intro i hi
    obtain ⟨hmem, htest⟩ := picks_subset (List.mem_toFinset.mp hi)
    show marked st _ i = _
    rw [marked, if_pos (List.mem_toFinset.mp hi), (hclean i hmem).mp htest, State.on_alreadyDirty]
  · intro i hi
    exact if_neg fun hmem => hi (List.mem_toFinset.mpr hmem)

/-- All variants mark the same number of blocks. -/
theorem getSetblksToClean_selects {pol : Option Policy} {low nrDirty : Nat}
    (hassoc : assoc ≤ 2 ^ 13) (hlow : low ≤ 100)
    (hst : ∀ i, InSet (set * assoc) assoc i → st i ∈ State.allowed)
    (hnr : nrDirty = dirtyBlocks assoc set st)
    (hpol : ∀ p ∈ pol, p.Ok Fifo.cleanNext assoc set) :
    ∃ m pol', getSetblksToClean pol assoc low set nrDirty st = some (m, pol') ∧
      m.nrWrites = nrDirty - low * assoc / 100 ∧
      (∃ blocks, blocks.card = nrDirty - low * assoc / 100 ∧ Selects assoc set st m.st blocks) ∧
      pol'.isSome = pol.isSome ∧
      ∀ p ∈ pol, ∀ p' ∈ pol', ∀ set', p.Ok Fifo.cleanNext assoc set' →
        p'.Ok Fifo.cleanNext assoc set' := by
  have hmax := maxClean_eq hassoc (hnr ▸ dirtyBlocks_le assoc set st) hlow
  simp only [getSetblksToClean, hmax]
  split
  · next hnone =>
    have hzero : nrDirty - low * assoc / 100 = 0 := by omega
    refine ⟨⟨st, 0⟩, pol, rfl, hzero.symm, ⟨∅, hzero.symm, ?_⟩, rfl, ?_⟩
    · exact ⟨by simp, by simp, by simp, fun _ _ => rfl⟩
    · intro p hp p' hp' set' hok
      rwa [← Option.mem_unique hp hp']
  · next hsome =>
    have hk : (nrDirty : Int) - (low * assoc / 100 : Nat) =
        ((nrDirty - low * assoc / 100 : Nat) : Int) := by omega
    have hle : nrDirty - low * assoc / 100 ≤ dirtyBlocks assoc set st := by omega
    rw [hk]
    cases pol with
    | none =>
      obtain ⟨hwrites, hblocks⟩ := Traversal.range.selects hst hle
      rw [← seqScan_eq] at hwrites hblocks
      exact ⟨_, none, rfl, hwrites, hblocks, rfl, nofun⟩
    | some pol =>
      obtain ⟨order, pol', horder, hset, hok⟩ := (hpol pol rfl).cleanSet
        ((nrDirty - low * assoc / 100 : Nat) : Int) st
      obtain ⟨hwrites, hblocks⟩ := horder.selects hst hle
      refine ⟨_, some pol', by simp only [hset, Option.map_some], hwrites, hblocks, rfl, ?_⟩
      intro p hp p' hp' set' hpok
      rw [Option.mem_some_iff] at hp hp'
      rw [← hp']
      exact hok set' (hp ▸ hpok)

end

end EnhanceIO
