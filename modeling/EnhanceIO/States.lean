import EnhanceIO.Preserve.Clean
import Mathlib.Algebra.BigOperators.Ring.Finset

/-!
# Blocks of a running cache

What the invariant says about the blocks themselves in every state a cache
reaches: the flag byte takes few values, so the assertions on it never fail, and
a source sector is cached at most once, in its own set. The second half of the
latter needs block indices that fit 32 bits. `eio_lookup` computes the first
index of a set in an unsigned int; in a larger cache it scans the wrong set, and
4-byte metadata makes a block of that set answer with another sector.
-/

namespace EnhanceIO

open State

section
variable {g : Geom} {s : Sys} {P : Sys → Act → Prop}

/-! ## Concrete runs -/

/-- What can be computed of the state that a run from the empty cache comes to. -/
theorem Reachable.run (g : Geom) (acts : List Act) {R : Sys → Prop} [DecidablePred R]
    (h : (Run.exec (Sys.step g) (fun _ _ => true) (Sys.init g) acts).any
      (fun s => decide (R s)) = true) : ∃ s, Reachable g (fun _ _ => True) s ∧ R s :=
  Run.Reach.of_run _ (fun _ _ _ => trivial) acts h

end

/-- A write-back cache of 1024 blocks of 4 KiB in front of a 1 GiB disk. -/
def smallCache : Geom :=
  .ofSizes .wb 3 8 4 (2 ^ 21) (by decide)

/-- A read that misses reserves a block for a read-fill. -/
theorem smallCache_fill : ∃ s, Reachable smallCache (fun _ _ => True) s ∧
    s.st smallCache 256 = valid ||| diskReadInprog ∧ s.dbn smallCache 256 = 2048 :=
  Reachable.run _ [.map .read 2048 8 false, .lock 0, .lock 0, .peek 0 none] (by decide +kernel)

section
variable {g : Geom} {s : Sys} {P : Sys → Act → Prop}

/-! ## The flag byte -/

/-- Every block is in one of the states of `State.allowed`, no assertion on a
cache state has failed, and the panic of `eio_do_readfill` was not reached. -/
theorem block_states_safe (h : Reachable g P s) :
    (∀ i, s.st g i ∈ State.allowed) ∧ ∀ x, s.bug = some x → x.onState = false :=
  ⟨h.inv.blk.allowed, fun x hx => Bug.onState_of_excluded (h.inv.bug x hx)⟩

theorem block_states_safe_fill : ∃ s, Reachable smallCache (fun _ _ => True) s ∧
    s.st smallCache 256 = valid ||| diskReadInprog ∧
    (∀ i, s.st smallCache i ∈ State.allowed) ∧ ∀ x, s.bug = some x → x.onState = false := by
  obtain ⟨s, hs, hq⟩ := smallCache_fill
  exact ⟨s, hs, hq.1, block_states_safe hs⟩

/-! ## The counters -/

/-- A write that dirties one block, up to the end of its metadata update. -/
def dirtyingWrite : List Act :=
  [Act.map .write 2048 8 false, Act.lock 0, Act.lock 0, Act.peek 0 none, Act.dispatch 0,
    Act.cwAlloc 0 0, Act.cwLock 0, Act.cwSubmit 0 0] ++
  (List.range' 2048 8).map (Act.ssdSector 0 0) ++
  [Act.ssdDone 0 0 0, Act.enqMd 0, Act.doMd 1, Act.mdSubmit 1 0, Act.mdSubmit 1 0,
    Act.mdSector 1 0 0, Act.mdDone 1 0 0, Act.postMd 1]

/-- Whatever blocks a cache starts with, new or loaded: while the cache device is there,
`cached_blocks` counts the valid blocks, `nr_dirty` of a set its dirty blocks and `nr_dirty`
of the cache adds the sets up; cleaning never takes a set below zero. -/
theorem counters_accurate {md : Meta} {hdd : Nat → Tag} {ssd : Nat → Nat → Tag}
    {mdDisk : Nat → MdEntry} (hload : (Sys.created g md hdd ssd mdDisk).Loaded g)
    (h : Run.Reach (Sys.step g) P (Sys.created g md hdd ssd mdDisk) s) (hd : s.degraded = false) :
    s.cachedBlocks = s.nrValid g ∧ (∀ set, s.setNrDirty set = s.nrDirtyIn g set) ∧
      s.nrDirty = ∑ set ∈ Finset.range g.numSets, (s.setNrDirty set : Int) ∧
      s.bug ≠ some .nrDirty := by
  have hinv : Inv g s := h.invariant (.created hload) fun hi _ hs => hi.step hs
  have ht := hinv.blk.tally
  refine ⟨ht.cached hd, ht.dirty, ?_, fun hbug => ?_⟩
  · rw [ht.total, s.nrDirtyAll_eq, Nat.cast_sum]
    simp only [ht.dirty]
  · exact absurd (hinv.bug _ hbug) (by decide)

/-- Block 256 was loaded, dirty, for the sectors from 2048 on. -/
def dirtyMeta : Meta :=
  ((Meta.create smallCache).stateSet smallCache 256 alreadyDirty).dbnSet smallCache 256 2048

def smallCache.reloaded : Sys :=
  .created smallCache dirtyMeta (fun _ => none) (fun _ _ => none) fun _ => ⟨0, State.invalid⟩

theorem smallCache.reloaded_loaded : smallCache.reloaded.Loaded smallCache := by
  have hst : ∀ i, smallCache.reloaded.st smallCache i =
      if i = 256 then alreadyDirty else invalid := by
    intro i
    show dirtyMeta.stateGet smallCache i = _
    simp [dirtyMeta]
  have hdbn : ∀ i, smallCache.reloaded.dbn smallCache i = if i = 256 then 2048 else 0 := by
    intro i
    show dirtyMeta.dbnGet smallCache i = _
    split
    · next h => subst h; decide +kernel
    · next h =>
      rw [dirtyMeta, Meta.dbnGet_dbnSet_ne (Meta.ZeroOk.create _).stateSet h,
        Meta.dbnGet_stateSet (.inl h)]
      simp [Meta.dbnGet, Meta.create, Meta.expandDbn]
  have hvalid : ∀ i, (smallCache.reloaded.st smallCache i).has valid = true → i = 256 := by
    intro i hv
    by_contra hne
    rw [hst, if_neg hne] at hv
    exact absurd hv (by decide)
  refine ⟨fun i => ?_, fun {i} hv => ?_, fun _ {i j} hi hj _ => ?_, fun i => ?_⟩
  · rw [hst]
    split
    · exact .inr (.inr rfl)
    · exact .inl rfl
  · obtain rfl := hvalid i hv
    rw [hdbn]
    exact ⟨by decide, by decide, by decide⟩
  · rw [hvalid i hi, hvalid j hj]
  · rw [hdbn]
    split
    · exact .inr (by decide)
    · exact .inl rfl

/-- The loaded block is counted, and so is the one that a read takes after it. -/
theorem counters_accurate_dirty : smallCache.reloaded.nrDirty = 1 ∧
    ∃ s, Run.Reach (Sys.step smallCache) (fun _ _ => True) smallCache.reloaded s ∧
      s.cachedBlocks = 2 ∧ s.nrValid smallCache = 2 ∧ s.setNrDirty 1 = 1 ∧
      s.nrDirtyIn smallCache 1 = 1 := by
  refine ⟨by decide +kernel, ?_⟩
  obtain ⟨s, hs, hd, hcached, hset⟩ : ∃ s,
      Run.Reach (Sys.step smallCache) (fun _ _ => True) smallCache.reloaded s ∧
        s.degraded = false ∧ s.cachedBlocks = 2 ∧ s.setNrDirty 1 = 1 :=
    Run.Reach.of_run (fun _ _ => true) (fun _ _ _ => trivial)
      [.map .read 2056 8 false, .lock 0, .lock 0, .peek 0 none] (by decide +kernel)
  obtain ⟨hvalid, hdirty, -⟩ := counters_accurate smallCache.reloaded_loaded hs hd
  exact ⟨s, hs, hcached, hvalid.symm.trans hcached, hset, (hdirty 1).symm.trans hset⟩

/-! ## Sectors and blocks -/

/-- No two valid blocks have one sector number, and each has the number of a
whole block that belongs to its set. -/
def Sys.OneBlockPerSector (g : Geom) (s : Sys) : Prop :=
  (∀ i j, (s.st g i).has valid = true → (s.st g j).has valid = true → s.dbn g i = s.dbn g j →
    i = j) ∧
  ∀ i, (s.st g i).has valid = true → g.roundSector (s.dbn g i) = s.dbn g i ∧
    g.hashBlock (s.dbn g i) = i / g.assoc

/-- As long as the block indices fit 32 bits, a sector is cached once, in its
own set. The second part holds in caches of any size. -/
theorem one_block_per_sector (hsize : g.size ≤ 2 ^ 32) (h : Reachable g P s) :
    s.OneBlockPerSector g := by
  have hb := h.inv.blk
  refine ⟨fun i j => hb.uniq hsize, ?_⟩
  intro i hv
  exact ⟨(hb.placed hv).aligned, (hb.placed hv).inSet⟩

theorem one_block_per_sector_fill : smallCache.size ≤ 2 ^ 32 ∧
    ∃ s, Reachable smallCache (fun _ _ => True) s ∧ s.dbn smallCache 256 = 2048 ∧
      s.OneBlockPerSector smallCache := by
  obtain ⟨s, hs, hq⟩ := smallCache_fill
  exact ⟨by decide, s, hs, hq.2, one_block_per_sector (by decide) hs⟩

end

/-- A write-through cache of `2 ^ 32 + 1024` blocks of 4 KiB. -/
def hugeCache : Geom :=
  .ofSizes .wt 3 9 (2 ^ 23 + 2) (2 ^ 36) (by decide)

/-- In a larger cache two reads of different sectors can make two blocks that
both have the sector number of the first: set `2 ^ 23 + 1` is looked up where
set 1 is. -/
theorem two_blocks_for_sector : ∃ s, Reachable hugeCache (fun _ _ => True) s ∧
    ¬ s.OneBlockPerSector hugeCache := by
  obtain ⟨s, hs, h512, h513, hd⟩ := Reachable.run hugeCache
    [.map .read 4096 8 false, .peek 0 none, .map .read (2 ^ 35 + 4096) 8 false, .peek 1 none]
    (R := fun s => s.st hugeCache 512 = valid ||| diskReadInprog ∧
      s.st hugeCache 513 = valid ||| diskReadInprog ∧
      s.dbn hugeCache 512 = s.dbn hugeCache 513) (by decide +kernel)
  refine ⟨s, hs, fun hone => ?_⟩
  have heq := hone.1 512 513 (by rw [h512]; decide) (by rw [h513]; decide) hd
  exact absurd heq (by decide)

end EnhanceIO
