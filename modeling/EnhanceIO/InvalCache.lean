import EnhanceIO.InvalRange

/-!
# Invalidation of the whole cache

`eio_invalidate_cache` scans every set for the sectors of the source device. The scan
is the one of a range, called for a single block: it stops at the first block of the
set that holds part of the range.
-/

namespace EnhanceIO

/-- The flags of a block that the invalidation of the whole cache has to change: valid with
no other claim on the block, or busy, not dirty and not marked yet. -/
def State.toInval (c : State) : Bool :=
  (c.has valid && !c.has (dirty ||| queued ||| blockIoInprog)) ||
    (c.has blockIoInprog && !c.has dirty && !c.has queued)

theorem State.toInval_afterInval : ∀ c : State, c.afterInval.toInval = false := by
  decide +kernel

theorem State.afterInval_of_dirty : ∀ c : State, c.has dirty = true → c.afterInval = c := by
  decide +kernel

namespace Sys

/-- `eio_invalidate_cache`, for a source device of `bytes` bytes. The number of bytes is
taken for one of sectors and turned to bytes once more, then cut to an unsigned int. -/
def invalidateCache (g : Geom) (bytes : Nat) (s : Sys) : Sys :=
  (List.range (g.size >>> g.consecutiveShift)).foldl
    (fun s set => s.invalBlockSetRange g set 0 (bytes * 512 % 2 ^ 32) false) s

variable {g : Geom} {s : Sys}

/-! ## The scan of a set for one block -/

/-- The scan for the sectors below `endsector` stops at block `i`. -/
def stopsAt (g : Geom) (s : Sys) (endsector i : Nat) : Bool :=
  !(s.st g i).has State.invalid && decide (s.dbn g i < endsector)

theorem invalBlockAt_snd (endsector i : Nat) :
    (s.invalBlockAt g 0 endsector i).2 = s.stopsAt g endsector i := by
  have hpos := g.blockSize_pos
  simp only [invalBlockAt, stopsAt]
  split
  · simp [*]
  · next hinv =>
    split
    · simp only [Bool.false_eq, Bool.and_eq_false_iff, decide_eq_false_iff_not]
      omega
    · have hlt : s.dbn g i < endsector := by omega
      split
      · simp [hinv, hlt]
      · split <;> simp [hinv, hlt]

theorem invalBlockAt_of_passes {endsector i : Nat} (h : s.stopsAt g endsector i = false) :
    (s.invalBlockAt g 0 endsector i).1 = s := by
  rw [← invalBlockAt_snd] at h
  simp only [invalBlockAt] at h ⊢
  split
  · rfl
  · next hinv =>
    split
    · rfl
    · next hin =>
      rw [if_neg hinv, if_neg hin] at h
      split at h
      · cases h
      · split at h <;> cases h

theorem invalLoop_first (endsector : Nat) (l : List Nat) :
    invalLoop g 0 endsector false s l =
      match l.find? (s.stopsAt g endsector) with
      | some i => (s.invalBlockAt g 0 endsector i).1
      | none => s := by
  induction l with
  | nil => rfl
  | cons i rest ih =>
    have hsnd := invalBlockAt_snd (g := g) (s := s) endsector i
    rw [invalLoop]
    cases hstop : s.stopsAt g endsector i with
    | true => simp [hsnd, hstop]
    | false => simp [hsnd, hstop, invalBlockAt_of_passes hstop, ih]

/-- Block `i` is the one its set's scan stops at. The last set below `2 ^ 31` is not scanned. -/
structure Scanned (g : Geom) (s : Sys) (endsector i : Nat) : Prop where
  stops : s.stopsAt g endsector i = true
  first : ∀ j < i, j / g.assoc = i / g.assoc → s.stopsAt g endsector j = false
  runs : g.assoc * (i / g.assoc) + g.assoc ≠ 2 ^ 31

theorem Scanned.touched {endsector i : Nat} (h : s.Scanned g endsector i)
    {T : Nat → Nat → Prop} (ht : ∀ x < endsector, T i x) : s.Touched g T i := by
  have hpos := g.blockSize_pos
  have hstops := h.stops
  simp only [stopsAt, Bool.and_eq_true, Bool.not_eq_true', decide_eq_true_eq] at hstops
  exact ⟨hstops.1, s.dbn g i, ht _ hstops.2, by omega, by omega⟩

theorem find_range_eq_some_iff {endsector set i : Nat} :
    (List.range' (g.assoc * set) g.assoc).find? (s.stopsAt g endsector) = some i ↔
      i / g.assoc = set ∧ s.stopsAt g endsector i = true ∧
        ∀ j < i, j / g.assoc = i / g.assoc → s.stopsAt g endsector j = false := by
  rw [List.find?_range'_eq_some]
  constructor
  · rintro ⟨hstop, hi, hfirst⟩
    rw [List.mem_range'_1, mem_set_iff] at hi
    refine ⟨hi, hstop, fun j hj hset => ?_⟩
    have hlo := ((mem_set_iff set j).mpr (hset.trans hi)).1
    simpa using hfirst j hlo hj
  · rintro ⟨hset, hstop, hfirst⟩
    refine ⟨hstop, by rw [List.mem_range'_1, mem_set_iff]; exact hset, fun j hlo hj => ?_⟩
    have hi := (mem_set_iff set i).mpr hset
    have hj' := (mem_set_iff set j).mp ⟨hlo, by omega⟩
    simp [hfirst j hj (hj'.trans hset.symm)]

/-! ## The scans of all sets -/

theorem startIndex_of_lt {set : Nat} (h : g.assoc * set < 2 ^ 32) :
    startIndex g set = g.assoc * set :=
  Nat.mod_eq_of_lt h

/-- What the scan of a set does to the map, for a set whose indices fit. -/
theorem invalBlockSetRange_invalidates {set : Nat} (hset : set < g.numSets)
    (hfits : g.assoc * set + g.assoc ≤ 2 ^ 31) (iosize : Nat) :
    Invalidates g (fun j x => j / g.assoc = set ∧ s.Scanned g (iosize / 512) j ∧ x < iosize / 512)
      s (s.invalBlockSetRange g set 0 iosize false) := by
  have hpos := g.assoc_pos
  rw [invalBlockSetRange, startIndex_of_lt (by omega)]
  simp only [Nat.zero_add]
  rw [if_neg (by omega)]
  split
  · -- the end of the set is negative as an int
    next hend =>
      refine .of_untouched fun i hi => ?_
      obtain ⟨_, x, ⟨rfl, hscan, _⟩, _⟩ := hi
      exact hscan.runs hend
  · next hend =>
    rw [invalLoop_first]
    cases hfind : (List.range' (g.assoc * set) g.assoc).find? (s.stopsAt g (iosize / 512)) with
    | none =>
      refine .of_untouched fun i hi => ?_
      obtain ⟨_, x, ⟨hi, hscan, _⟩, _⟩ := hi
      rw [find_range_eq_some_iff.mpr ⟨hi, hscan.stops, hscan.first⟩] at hfind
      cases hfind
    | some i =>
      obtain ⟨hi, hstops, hfirst⟩ := find_range_eq_some_iff.mp hfind
      have hscan : s.Scanned g (iosize / 512) i := ⟨hstops, hfirst, by rw [hi]; exact hend⟩
      have hlt : 0 < iosize / 512 := by
        have := hstops
        simp only [stopsAt, Bool.and_eq_true, decide_eq_true_eq] at this
        omega
      have hsize : i < g.size := by
        have hmem := (mem_set_iff set i).mpr hi
        have hle : g.assoc * (set + 1) ≤ g.size := Nat.mul_le_mul_left _ hset
        rw [Nat.mul_succ] at hle
        omega
      refine (invalBlockAt_invalidates hlt hsize).congr fun j => ?_
      -- the scanned block of the set is the only one
      have hone : ∀ x, (j = i ∧ 0 ≤ x ∧ x < iosize / 512) ↔
          (j / g.assoc = set ∧ s.Scanned g (iosize / 512) j ∧ x < iosize / 512) := by
        intro x
        constructor
        · rintro ⟨rfl, -, hx⟩
          exact ⟨hi, hscan, hx⟩
        · rintro ⟨hj, hscan', hx⟩
          have hj' := find_range_eq_some_iff.mpr ⟨hj, hscan'.stops, hscan'.first⟩
          rw [hfind] at hj'
          exact ⟨(Option.some.inj hj').symm, Nat.zero_le x, hx⟩
      simp only [Touched, hone]

theorem numSets_eq : g.size >>> g.consecutiveShift = g.numSets := by
  rw [Nat.shiftRight_eq_div_pow]
  exact Nat.mul_div_cancel_left _ g.assoc_pos

/-- The scans of the first `n` sets. A scan leaves the other sets alone, so each finds its
set as it was at the start. -/
theorem invalSets_invalidates (iosize n : Nat) (hn : n ≤ g.numSets)
    (hfits : g.assoc * n ≤ 2 ^ 31) :
    Invalidates g (fun j x => j / g.assoc < n ∧ s.Scanned g (iosize / 512) j ∧ x < iosize / 512)
      s ((List.range n).foldl (fun s set => s.invalBlockSetRange g set 0 iosize false) s) := by
  induction n with
  | zero =>
    refine .of_untouched fun i hi => ?_
    obtain ⟨_, x, ⟨hlt, _⟩, _⟩ := hi
    exact Nat.not_lt_zero _ hlt
  | succ n ih =>
    rw [Nat.mul_succ] at hfits
    have hdone := ih (by omega) (by omega)
    rw [List.range_succ, List.foldl_append, List.foldl_cons, List.foldl_nil]
    generalize (List.range n).foldl _ s = t at hdone ⊢
    have hset := invalBlockSetRange_invalidates (s := t) (show n < g.numSets by omega) hfits iosize
    -- the blocks of the set are still as they were
    have hsame : ∀ j, j / g.assoc = n →
        t.stopsAt g (iosize / 512) j = s.stopsAt g (iosize / 512) j := by
      intro j hj
      have hun : ¬ s.Touched g (fun j x => j / g.assoc < n ∧ s.Scanned g (iosize / 512) j ∧
          x < iosize / 512) j := by
        rintro ⟨_, x, ⟨hlt, _⟩, _⟩
        omega
      rw [stopsAt, stopsAt, hdone.miss j hun, hdone.dbn j (.inr hun)]
    have hscan : ∀ j, j / g.assoc = n →
        (t.Scanned g (iosize / 512) j ↔ s.Scanned g (iosize / 512) j) := by
      intro j hj
      constructor
      · intro h
        refine ⟨hsame j hj ▸ h.stops, fun k hk hkj => ?_, h.runs⟩
        rw [← hsame k (hkj.trans hj)]
        exact h.first k hk hkj
      · intro h
        refine ⟨(hsame j hj).symm ▸ h.stops, fun k hk hkj => ?_, h.runs⟩
        rw [hsame k (hkj.trans hj)]
        exact h.first k hk hkj
    refine (hdone.trans hset).congr fun j => ?_
    have hpair : ∀ x, (j / g.assoc < n ∧ s.Scanned g (iosize / 512) j ∧ x < iosize / 512) ∨
          (j / g.assoc = n ∧ t.Scanned g (iosize / 512) j ∧ x < iosize / 512) ↔
        j / g.assoc < n + 1 ∧ s.Scanned g (iosize / 512) j ∧ x < iosize / 512 := by
      intro x
      rw [Nat.lt_succ_iff_lt_or_eq, or_and_right]
      apply or_congr_right
      apply and_congr_right
      intro hj
      rw [hscan j hj]
    simp only [Touched, hpair]

theorem invalBlockSetRange_bug {set iosector iosize : Nat} {multiblk : Bool}
    (h : s.bug.isSome = true) :
    (s.invalBlockSetRange g set iosector iosize multiblk).bug.isSome = true := by
  rw [invalBlockSetRange]
  split
  · rfl
  · split
    · exact h
    · rw [invalLoop_bug]
      exact h

/-- The whole invalidation reaches the scanned blocks below sector `bytes % 2 ^ 23`. -/
theorem invalidateCache_invalidates (bytes : Nat) (hsize : g.size ≤ 2 ^ 31) :
    Invalidates g (fun j x => j / g.assoc < g.numSets ∧ s.Scanned g (bytes % 2 ^ 23) j ∧
      x < bytes % 2 ^ 23) s (s.invalidateCache g bytes) := by
  have hend : bytes * 512 % 2 ^ 32 / 512 = bytes % 2 ^ 23 := by omega
  have hinv := invalSets_invalidates (s := s) (bytes * 512 % 2 ^ 32) g.numSets le_rfl hsize
  rw [hend] at hinv
  rw [invalidateCache, numSets_eq]
  exact hinv

/-- With more than `2 ^ 31` blocks some scan is given a negative index. -/
theorem invalidateCache_bug (bytes : Nat) (h : 2 ^ 31 < g.size) :
    (s.invalidateCache g bytes).bug.isSome = true := by
  have hdvd : g.assoc ∣ 2 ^ 31 := pow_dvd_pow 2 (by have := g.assoc_le; omega)
  obtain ⟨set, hset⟩ := hdvd
  have hlt : set < g.numSets := by
    have hsize : g.assoc * set < g.assoc * g.numSets := hset ▸ h
    exact Nat.lt_of_mul_lt_mul_left hsize
  have hkeep : ∀ (l : List Nat) (s : Sys), s.bug.isSome = true →
      (l.foldl (fun s set => s.invalBlockSetRange g set 0 (bytes * 512 % 2 ^ 32) false)
        s).bug.isSome = true := by
    intro l
    induction l with
    | nil => exact fun _ h => h
    | cons _ _ ih => exact fun s h => ih _ (invalBlockSetRange_bug h)
  obtain ⟨before, after, hsplit⟩ := List.append_of_mem (List.mem_range.mpr hlt)
  rw [invalidateCache, numSets_eq, hsplit, List.foldl_append, List.foldl_cons]
  apply hkeep
  rw [invalBlockSetRange, startIndex_of_lt (by omega), ← hset]
  rfl

end Sys

/-! ## The outcome -/

/-- The outcome of an invalidation of the whole cache: no block is left valid with no other
claim on it, a busy block that is not dirty is marked, and dirty blocks are as they were. -/
structure CacheInvalidated (g : Geom) (s s' : Sys) : Prop where
  runs : s'.bug = none
  dropped : ∀ i < g.size, (s'.st g i).has State.valid = true →
    (s'.st g i).has (State.dirty ||| State.queued ||| State.blockIoInprog) = true
  queued : ∀ i < g.size, (s'.st g i).has State.blockIoInprog = true →
    (s'.st g i).has State.dirty = false → (s'.st g i).has State.queued = true
  dirty : ∀ i < g.size, (s.st g i).has State.dirty = true →
    s'.st g i = s.st g i ∧ s'.dbn g i = s.dbn g i

theorem CacheInvalidated.toInval {g : Geom} {s s' : Sys} (h : CacheInvalidated g s s') {i : Nat}
    (hi : i < g.size) : (s'.st g i).toInval = false := by
  have hdropped := h.dropped i hi
  have hqueued := h.queued i hi
  rw [State.toInval]
  cases hv : (s'.st g i).has State.valid <;> cases hio : (s'.st g i).has State.blockIoInprog <;>
    cases hd : (s'.st g i).has State.dirty <;> simp_all

theorem CacheInvalidated.of_toInval {g : Geom} {s s' : Sys} (hbug : s'.bug = none)
    (hinval : ∀ i < g.size, (s'.st g i).toInval = false)
    (hdirty : ∀ i < g.size, (s.st g i).has State.dirty = true →
      s'.st g i = s.st g i ∧ s'.dbn g i = s.dbn g i) : CacheInvalidated g s s' where
  runs := hbug
  dropped := by
    intro i hi hv
    have := hinval i hi
    simp only [State.toInval, hv, Bool.or_eq_false_iff] at this
    simpa using this.1
  queued := by
    intro i hi hio hd
    have := hinval i hi
    simp only [State.toInval, hio, hd, Bool.or_eq_false_iff] at this
    simpa using this.2
  dirty := hdirty

/-- `eio_invalidate_cache` does its work exactly for a cache of at most `2 ^ 31` blocks in
which every block to invalidate is the first cached one of its set below sector
`bytes % 2 ^ 23`. -/
theorem invalidateCache_iff (g : Geom) (bytes : Nat) (s : Sys) (hbug : s.bug = none) :
    CacheInvalidated g s (s.invalidateCache g bytes) ↔
      g.size ≤ 2 ^ 31 ∧ ∀ i < g.size, (s.st g i).toInval = true →
        s.Scanned g (bytes % 2 ^ 23) i := by
  by_cases hsize : g.size ≤ 2 ^ 31
  · have hinv := Sys.invalidateCache_invalidates (s := s) bytes hsize
    generalize s.invalidateCache g bytes = s' at hinv ⊢
    have hbug' : s'.bug = none := by
      rw [hinv.frame]
      exact hbug
    have htouch : ∀ i < g.size, s.Scanned g (bytes % 2 ^ 23) i ↔ s.Touched g
        (fun j x => j / g.assoc < g.numSets ∧ s.Scanned g (bytes % 2 ^ 23) j ∧
          x < bytes % 2 ^ 23) i := by
      intro i hi
      constructor
      · intro hscan
        exact hscan.touched fun x hx => ⟨Nat.div_lt_of_lt_mul hi, hscan, hx⟩
      · rintro ⟨_, x, ⟨_, hscan, _⟩, _⟩
        exact hscan
    constructor
    · intro h
      refine ⟨hsize, fun i hi hto => ?_⟩
      by_contra hscan
      have hst := hinv.miss i (mt (htouch i hi).mpr hscan)
      rw [← hst, h.toInval hi] at hto
      cases hto
    · rintro ⟨-, hall⟩
      refine .of_toInval hbug' (fun i hi => ?_) fun i hi hd => ?_
      · by_cases hscan : s.Scanned g (bytes % 2 ^ 23) i
        · rw [hinv.hit i ((htouch i hi).mp hscan)]
          exact State.toInval_afterInval _
        · rw [hinv.miss i (mt (htouch i hi).mpr hscan)]
          simpa using mt (hall i hi) hscan
      · by_cases hscan : s.Scanned g (bytes % 2 ^ 23) i
        · -- the scan stops at the block and leaves it alone
          have ht := (htouch i hi).mp hscan
          have hst : s'.st g i = s.st g i := by
            rw [hinv.hit i ht, State.afterInval_of_dirty _ hd]
          exact ⟨hst, hinv.dbn i (.inl (hst ▸ ht.1))⟩
        · have ht := mt (htouch i hi).mpr hscan
          exact ⟨hinv.miss i ht, hinv.dbn i (.inr ht)⟩
  · constructor
    · intro h
      have := Sys.invalidateCache_bug (s := s) (g := g) bytes (by omega)
      rw [h.runs] at this
      cases this
    · intro h
      exact absurd h.1 hsize

/-- With one cached block, and a source of 4 MiB, the block is dropped. -/
theorem invalidateCache_drops_block :
    (Sys.oneBlock smallCache).st smallCache 0 = State.valid ∧
      CacheInvalidated smallCache (Sys.oneBlock smallCache)
        ((Sys.oneBlock smallCache).invalidateCache smallCache (2 ^ 22)) := by
  have hvalid := Sys.oneBlock_st smallCache 0
  refine ⟨hvalid, (invalidateCache_iff smallCache (2 ^ 22) _ rfl).mpr ⟨by decide, ?_⟩⟩
  intro i _ hto
  rw [Sys.oneBlock_st] at hto
  split at hto
  · next hi =>
    subst hi
    refine ⟨?_, fun j hj => absurd hj (Nat.not_lt_zero j), by decide⟩
    rw [Sys.stopsAt, hvalid, Sys.oneBlock_dbn]
    decide
  · exact absurd hto (by decide)

/-- On the disk of 1 GiB the same block stays: the size of the range is 0 once cut to 32
bits. -/
theorem invalidateCache_keeps_block :
    ¬ CacheInvalidated smallCache (Sys.oneBlock smallCache)
      ((Sys.oneBlock smallCache).invalidateCache smallCache (smallCache.diskSize * 512)) := by
  intro h
  have hvalid := Sys.oneBlock_st smallCache 0
  rw [if_pos rfl] at hvalid
  have hinv := Sys.invalidateCache_invalidates (g := smallCache) (s := Sys.oneBlock smallCache)
    (smallCache.diskSize * 512) (by decide)
  have hto := h.toInval (i := 0) (by decide)
  rw [hinv.miss 0, hvalid] at hto
  · exact absurd hto (by decide)
  · rintro ⟨_, x, ⟨_, _, hx⟩, _⟩
    exact absurd hx (by simp [smallCache])

end EnhanceIO
