import EnhanceIO.CleanSelect

/-!
# The walks along the LRU lists

`eio_lru_find_reclaim_dbn` and `eio_lru_clean_set` follow the `lru_next` fields of a set until
they read `EIO_LRU_NULL`, under the lock of the set. They are done after as many rounds as the
set has blocks if the fields describe a list of its blocks, which `BlockLru` shows for sets of
two blocks or more.

A block whose two links are null is taken for one that is on no list. That is wrong for the only
block of a list: moved to the tail, it is hung on behind itself, and the walks of its set never
end.
-/

namespace EnhanceIO

namespace BlockLru

/-- Whatever the states of the blocks, the walks along the list of a set are done after as many
blocks as the set has. -/
structure WalksEnd (g : Geom) (l : BlockLru) : Prop where
  findReclaim : ∀ set < g.numSets, ∀ st,
    (l.findReclaimDbn g.assoc st (set * g.assoc)).isSome = true
  cleanSet : ∀ set < g.numSets, ∀ (toClean : Int) st,
    ((Policy.lru l).cleanSet g.assoc set toClean st).isSome = true

theorem Refines.walksEnd {g : Geom} {l : BlockLru} {history : List Nat}
    (h : Refines g l history) : WalksEnd g l where
  findReclaim set hset st := by
    have hfind := h.reclaim set hset st
    rw [← Option.isSome_map, hfind]
    rfl
  cleanSet set hset toClean st := by
    have hok : (Policy.lru l).Ok Fifo.cleanNext g.assoc set :=
      ⟨assoc_le_null g, _, h.list set hset, h.perm set hset⟩
    obtain ⟨order, pol', -, hclean, -⟩ := hok.cleanSet toClean st
    rw [hclean]
    rfl

/-! ## A block behind itself -/

/-- The walk of set `set` starts at block `i` and comes back to it. -/
structure Looped (l : BlockLru) {assoc : Nat} (set : Nat) (i : Fin assoc) : Prop where
  head : l.head set = i
  next : l.next (blk set i) = i

section
variable {assoc set : Nat} {l : BlockLru} {i : Fin assoc} (hassoc : assoc ≤ lruNull)
include hassoc

theorem rel_ne_null (i : Fin assoc) : (i : Nat) ≠ lruNull := by
  have := i.isLt
  omega

/-- No number of rounds is enough for a search that does not find the block valid. -/
theorem Looped.reclaimScan (h : l.Looped set i) (st : Nat → State)
    (hst : st (blk set i) ≠ State.valid) (fuel : Nat) :
    l.reclaimScan st (set * assoc) fuel (l.head set) = none := by
  have hrel : (i : Nat) + set * assoc = blk set i := Nat.add_comm _ _
  rw [h.head]
  induction fuel with
  | zero =>
    unfold BlockLru.reclaimScan
    rw [if_neg (rel_ne_null hassoc i)]
  | succ fuel ih =>
    unfold BlockLru.reclaimScan
    rw [if_neg (rel_ne_null hassoc i)]
    simp only [hrel]
    rw [if_neg hst, h.next]
    exact ih

/-- Nor for a clean that does not find the block dirty. -/
theorem Looped.cleanScan (h : l.Looped set i) (toClean : Int) (m : Marking)
    (hgo : (m.nrWrites : Int) < toClean) (hst : (m.st (blk set i)).toClean = false) (fuel : Nat) :
    l.cleanScan (set * assoc) toClean fuel (l.head set) m = none := by
  have hrel : (i : Nat) + set * assoc = blk set i := Nat.add_comm _ _
  have hvisit : m.visit (blk set i) = m := by
    rw [Marking.visit, hst]
    rfl
  have hround : ¬ ((i : Nat) = lruNull ∨ ¬ (m.nrWrites : Int) < toClean) := by
    rintro (hnull | hdone)
    · exact rel_ne_null hassoc i hnull
    · exact hdone hgo
  rw [h.head]
  induction fuel with
  | zero =>
    unfold BlockLru.cleanScan
    rw [if_neg hround]
  | succ fuel ih =>
    unfold BlockLru.cleanScan
    rw [if_neg hround]
    simp only [hrel]
    rw [hvisit, h.next]
    exact ih

end

/-- A block with null links, in a set that has at most this block on its list. -/
structure Lone (l : BlockLru) {assoc : Nat} (set : Nat) (i : Fin assoc) : Prop where
  prev : l.prev (blk set i) = lruNull
  next : l.next (blk set i) = lruNull
  ends : l.tail set = lruNull ∨ l.head set = i ∧ l.tail set = i

section
variable {assoc set : Nat} {l : BlockLru} {i : Fin assoc} (hassoc : assoc ≤ lruNull)

/-- The block is taken for one that is on no list. -/
theorem Lone.movetail_eq (h : l.Lone set i) :
    l.movetail assoc (blk set i) = l.hook assoc (blk set i) := by
  have hlinked : ¬ (l.prev (blk set i) ≠ lruNull ∨ l.next (blk set i) ≠ lruNull) := by
    simp [h.prev, h.next]
  rw [movetail, unhook, if_neg hlinked]

include hassoc

theorem Lone.movetail_first (h : l.Lone set i) (htail : l.tail set = lruNull) :
    (l.movetail assoc (blk set i)).Lone set i := by
  have ho : l.tail set = enc (none : Option (Fin assoc)) := htail
  rw [h.movetail_eq]
  refine ⟨?_, ?_, .inr ⟨?_, ?_⟩⟩
  · simp [hook_prev, htail]
  · simp [hook_next hassoc ho]
  · simp [hook_head hassoc ho]
  · simp [hook_tail hassoc]

/-- It is on the list already: its own number becomes its successor. -/
theorem Lone.movetail_again (h : l.Lone set i) (hhead : l.head set = i) (htail : l.tail set = i) :
    (l.movetail assoc (blk set i)).Looped set i := by
  have ho : l.tail set = enc (some i) := htail
  rw [h.movetail_eq]
  constructor
  · simp [hook_head hassoc ho, hhead]
  · simp [hook_next hassoc ho]

end

section
variable {g : Geom} {l : BlockLru} {set : Nat} {i : Fin g.assoc}

/-- One move, or two if the list was empty, and the block is behind itself. -/
theorem Lone.run_looped (h : l.Lone set i) (hset : set < g.numSets) :
    ∃ ops l', l.run g ops = some l' ∧ l'.Looped set i := by
  have hassoc := assoc_le_null g
  rcases h.ends with htail | ⟨hhead, htail⟩
  · have hfirst := h.movetail_first hassoc htail
    obtain ⟨hhead', htail'⟩ := hfirst.ends.resolve_left (by
      simp [h.movetail_eq, hook_tail hassoc, rel_ne_null hassoc])
    exact ⟨[.movetail ⟨blk set i, blk_lt_size hset i⟩, .movetail ⟨blk set i, blk_lt_size hset i⟩],
      _, rfl, hfirst.movetail_again hassoc hhead' htail'⟩
  · exact ⟨[.movetail ⟨blk set i, blk_lt_size hset i⟩], _, rfl,
      h.movetail_again hassoc hhead htail⟩

theorem Looped.not_walksEnd (h : l.Looped set i) (hset : set < g.numSets) : ¬ WalksEnd g l := by
  intro hends
  have hfind := hends.findReclaim set hset fun _ => State.invalid
  have hscan := h.reclaimScan (assoc_le_null g) (fun _ => State.invalid) (by decide) g.assoc
  rw [findReclaimDbn, Nat.mul_div_cancel _ g.assoc_pos, hscan] at hfind
  cases hfind

/-- The only block of a set is on its list. -/
theorem create_lone (hone : g.assoc = 1) (hsize : g.size < 2 ^ 31) (mem : BlockLru)
    (i : Fin g.assoc) : (create g mem).Lone 0 i := by
  have hfull : Full g (List.range (intRounds g.size)) := by
    intro n hn
    rw [intRounds_of_lt hsize]
    exact List.mem_range.mpr hn
  have hmem := hfull.blk g.numSets_pos
  obtain ⟨L, his, hholds⟩ := create_ordered g mem 0 g.numSets_pos
  -- a list without repetition in which there is nothing but `i`
  have hlist : moveOrder g.assoc 0 (List.range (intRounds g.size)) = [i] := by
    apply List.perm_singleton.mp
    apply (List.perm_ext_iff_of_nodup (List.nodup_dedup _) (List.nodup_singleton i)).mpr
    intro j
    have hj : j = i := Fin.ext (by omega)
    simp only [hj, List.mem_singleton, iff_true]
    exact mem_moveOrder.mpr (hmem i)
  rw [hlist] at his
  obtain ⟨hprev, hnext⟩ := his.links [] i [] rfl
  refine ⟨?_, ?_, .inr ⟨?_, ?_⟩⟩
  · rw [hholds.prev i (hmem i), hprev]
    rfl
  · rw [hholds.next i (hmem i), hnext]
    rfl
  · rw [hholds.head, his.head]
    rfl
  · rw [hholds.tail, his.tail]
    rfl

end

/-- Memory that happens to be all ones. -/
def nulls : BlockLru := ⟨fun _ => lruNull, fun _ => lruNull, fun _ => lruNull, fun _ => lruNull⟩

theorem cacheSetsInit_links (l : BlockLru) (numSets : Nat) :
    (l.cacheSetsInit numSets).prev = l.prev ∧ (l.cacheSetsInit numSets).next = l.next := by
  rw [cacheSetsInit]
  generalize List.range (intRounds numSets) = sets
  induction sets generalizing l with
  | nil => exact ⟨rfl, rfl⟩
  | cons set sets ih => exact ih _

/-- A block that was never pushed has the links that happened to be in its memory. -/
theorem create_lone_last {g : Geom} (hsize : 2 ^ 31 ≤ g.size) (i : Fin g.assoc) :
    (create g nulls).Lone (g.numSets - 1) i := by
  have hsame := create_untouched hsize nulls
  obtain ⟨hprev, hnext⟩ := cacheSetsInit_links nulls g.numSets
  refine ⟨?_, ?_, .inl (create_last hsize nulls).2⟩
  · rw [hsame.prev, hprev]
    rfl
  · rw [hsame.next, hnext]
    rfl

/-- The walks of all runs end in time exactly if the sets have two blocks or more and the cache
fewer than `2 ^ 31`, so that all of them are on their lists. -/
theorem walks_end_iff (g : Geom) :
    (∀ mem ops, ∃ l, (create g mem).run g ops = some l ∧ WalksEnd g l) ↔
      2 ≤ g.assoc ∧ g.size < 2 ^ 31 := by
  have hnum := g.numSets_pos
  constructor
  · intro h
    -- a block that is alone in its set gives a run after which the walk does not end
    have hlone : ∀ mem set (i : Fin g.assoc), set < g.numSets → ¬ (create g mem).Lone set i := by
      intro mem set i hset hlone
      obtain ⟨ops, l, hrun, hloop⟩ := hlone.run_looped hset
      obtain ⟨l', hrun', hends⟩ := h mem ops
      rw [hrun] at hrun'
      cases hrun'
      exact hloop.not_walksEnd hset hends
    have hsize : g.size < 2 ^ 31 := by
      by_contra hge
      exact hlone nulls _ ⟨0, g.assoc_pos⟩ (by omega) (create_lone_last (Nat.le_of_not_lt hge) _)
    refine ⟨?_, hsize⟩
    by_contra hone
    have hpos := g.assoc_pos
    exact hlone nulls 0 ⟨0, hpos⟩ hnum (create_lone (by omega) hsize nulls _)
  · rintro ⟨htwo, hsize⟩ mem ops
    have ho := create_ordered g mem
    rw [intRounds_of_lt hsize] at ho
    obtain ⟨l, hrun, href⟩ := ho.run htwo ops fun n hn => List.mem_range.mpr hn
    exact ⟨l, hrun, href.walksEnd⟩

/-- Four sets of one block. -/
def directMapped : Geom :=
  .ofSizes .ro 3 0 4 (2 ^ 21) (by decide)

/-- A hit on a block that is the only one of its set makes it its own successor. While the block
is dirty, no search for a victim in the set ends; while it is clean, no clean of the set does. -/
theorem walk_circles : ∃ l,
    (create directMapped zeroed).run directMapped [.movetail ⟨0, by decide⟩] = some l ∧
      l.next 0 = 0 ∧
      (∀ fuel, l.reclaimScan (fun _ => State.alreadyDirty) 0 fuel (l.head 0) = none) ∧
      ∀ fuel, l.cleanScan 0 1 fuel (l.head 0) ⟨fun _ => State.valid, 0⟩ = none := by
  have hassoc := assoc_le_null directMapped
  obtain ⟨i, hi⟩ : ∃ i : Fin directMapped.assoc, (i : Nat) = 0 := ⟨⟨0, by decide⟩, rfl⟩
  have hblk : blk 0 i = 0 := by rw [blk, hi, Nat.zero_mul]
  have hlone := create_lone (g := directMapped) rfl (by decide) zeroed i
  have hends := hlone.ends.resolve_left (by decide +kernel)
  have hloop := hlone.movetail_again hassoc hends.1 hends.2
  have hnext := hloop.next
  have hreclaim := hloop.reclaimScan hassoc (fun _ => State.alreadyDirty) (by decide)
  have hvalid : State.valid.toClean = false := by decide
  have hclean := hloop.cleanScan hassoc 1 ⟨fun _ => State.valid, 0⟩ (by decide) hvalid
  rw [hblk] at hnext hreclaim hclean
  rw [Nat.zero_mul] at hreclaim hclean
  exact ⟨_, rfl, hnext.trans hi, hreclaim, hclean⟩

end BlockLru

end EnhanceIO
