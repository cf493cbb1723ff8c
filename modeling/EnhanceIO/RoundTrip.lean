import EnhanceIO.Reload
import EnhanceIO.States

/-!
# A clean shutdown

`eio_md_store` followed by `eio_md_load` gives back the flags of every block and
the sector of every valid one. The sector goes through the compressed form on both
sides, and the load runs with an `index_zero` that is not yet initialised.
-/

namespace EnhanceIO

open State

/-! ## The device after a store without failures -/

theorem applyWrites_ok (fault : Nat → Option (MdDev → MdDev)) (hok : ∀ k, fault k = none)
    (writes : List MdIo) : ∀ (k : Nat) (dev : MdDev),
      applyWrites fault k writes dev = (writes.foldl MdIo.apply dev, 0) := by
  induction writes with
  | nil => intro k dev; rfl
  | cons w writes ih =>
    intro k dev
    rw [applyWrites, hok k]
    exact ih _ _

/-- What the writes leave at a place they all agree on. -/
theorem MdIo.foldl_apply {e : MdEntry} {sector byte : Nat} (writes : List MdIo) (dev : MdDev)
    (hagree : ∀ w ∈ writes, w.region.Has sector → w.entryAt sector byte = e)
    (hcover : dev sector byte = e ∨ ∃ w ∈ writes, w.region.Has sector) :
    writes.foldl MdIo.apply dev sector byte = e := by
  induction writes generalizing dev with
  | nil =>
    rcases hcover with h | ⟨w, hw, -⟩
    · exact h
    · cases hw
  | cons w writes ih =>
    rw [List.foldl_cons]
    refine ih (w.apply dev) (fun w' hw' => hagree w' (List.mem_cons_of_mem _ hw')) ?_
    by_cases hhas : w.region.Has sector
    · left
      rw [MdIo.apply, if_pos hhas]
      exact hagree w List.mem_cons_self hhas
    · rcases hcover with h | ⟨w', hw', hhas'⟩
      · left
        rw [MdIo.apply, if_neg hhas]
        exact h
      · rcases List.mem_cons.mp hw' with rfl | hw'
        · exact absurd hhas' hhas
        · exact .inr ⟨w', hw', hhas'⟩

theorem WrittenOut.device {mdStartSect n : Nat} {entry : Nat → MdEntry} {writes : List MdIo}
    (h : WrittenOut mdStartSect entry n (mdStartSect + (n + 31) / 32) writes) (dev : MdDev)
    {i : Nat} (hi : i < n) :
    writes.foldl MdIo.apply dev (mdSectorOf mdStartSect i) (mdByteOf i) = entry i := by
  refine MdIo.foldl_apply writes dev (fun w hw hhas => h.placed w hw i hi hhas) (.inr ?_)
  refine h.covered _ ?_ ?_ <;> simp only [mdSectorOf] <;> omega

/-! ## Loading the entries of idle blocks -/

/-- A block with no I/O under way, with a sector that its descriptor can hold. -/
structure Storable (g : Geom) (i : Nat) (block : MdEntry) : Prop where
  idle : block.state = invalid ∨ block.state = valid ∨ block.state = alreadyDirty
  fits : g.dbnFits block.dbn = true
  placed : block.state.has valid = true →
    g.hashBlock block.dbn = i / g.assoc ∧ block.dbn < g.diskSize

/-- The descriptors of the blocks before `n` are loaded. -/
structure LoadedUpTo (g : Geom) (block : Nat → MdEntry) (n : Nat) (md : Meta) : Prop where
  md8 : g.md8 = true → ∀ i < n, md.cacheMd8 i = ⟨(block i).dbn, (block i).state⟩
  md4 : g.md8 = false → ∀ i < n, md.cache i = ⟨g.shrinkDbn (block i).dbn, (block i).state⟩
  zero : ∀ i < n, i = md.indexZero → md.indexZero < g.assoc → (block i).state.has valid = true →
    (block i).dbn = 0

section
variable {g : Geom} {block : Nat → MdEntry} {n : Nat} {md : Meta}

theorem storeEntry_idle {e : MdEntry}
    (h : e.state = invalid ∨ e.state = valid ∨ e.state = alreadyDirty) : storeEntry e = e := by
  obtain ⟨d, c⟩ := e
  simp only at h
  refine congrArg (MdEntry.mk d) (?_ : c &&& (invalid ||| valid ||| dirty) = c)
  rcases h with rfl | rfl | rfl <;> decide

theorem loadEntry_clean (hn : n < 2 ^ 31) (h : Storable g n (block n)) :
    loadEntry g true md n (block n) =
      some ((md.stateSet g n (block n).state).dbnSet g n (block n).dbn) := by
  have hstate : (block n).state.off queued = (block n).state ∧
      ¬ ((block n).state.has valid = true ∧ (block n).state.has invalid = true) := by
    rcases h.idle with h | h | h <;> rw [h] <;> decide
  simp only [loadEntry, if_neg (Nat.not_le.mpr hn), true_or, if_true, hstate.1, hstate.2,
    if_false, h.fits, not_true]

/-- A nonzero sector of set 0 does not shrink to zero. -/
theorem shrinkDbn_ne_zero (hmd : g.md8 = false) {i d : Nat} (hset : g.hashBlock d = i / g.assoc)
    (hi : i < g.assoc) (hd : d < g.diskSize) (h0 : g.shrinkDbn d = 0) : d = 0 := by
  have hexp := g.expandBits_shrinkDbn hset.ge
    (Nat.lt_of_lt_of_le hd (Geom.diskSize_le_of_not_md8 hmd))
  rw [← hset, g.moved_self, hset, h0, Meta.expandBits_zero_set hi] at hexp
  exact hexp.symm

/-- Loading the next entry. The load begins with `index_zero` 0, which is a claim
about block 0 only once that block is loaded. -/
theorem LoadedUpTo.step (h : LoadedUpTo g block n md) (hb : Storable g n (block n)) :
    LoadedUpTo g block (n + 1) ((md.stateSet g n (block n).state).dbnSet g n (block n).dbn) where
  md8 := by
    intro hmd i hi
    by_cases hlast : i = n
    · subst hlast
      by_cases h0 : (block i).dbn = 0 <;>
        simp [Meta.dbnSet, Meta.stateSet, Meta.md8DbnSet, hmd, h0]
    · have hold := h.md8 hmd i (by omega)
      by_cases h0 : (block n).dbn = 0 <;>
        simpa [Meta.dbnSet, Meta.stateSet, Meta.md8DbnSet, hmd, h0, hlast] using hold
  md4 := by
    intro hmd i hi
    by_cases hlast : i = n
    · subst hlast
      by_cases h0 : (block i).dbn = 0 <;>
        simp [Meta.dbnSet, Meta.stateSet, Meta.md4DbnSet, hmd, h0]
    · have hold := h.md4 hmd i (by omega)
      by_cases h0 : (block n).dbn = 0 <;>
        simpa [Meta.dbnSet, Meta.stateSet, Meta.md4DbnSet, hmd, h0, hlast] using hold
  zero := by
    intro i hi heq hlt hvalid
    have hkeep : (md.stateSet g n (block n).state).indexZero = md.indexZero := by
      simp only [Meta.stateSet]
      split <;> rfl
    by_cases h0 : (block n).dbn = 0
    · -- the index moves here
      have hz : ((md.stateSet g n (block n).state).dbnSet g n (block n).dbn).indexZero = n := by
        simp [Meta.dbnSet, h0]
      rw [heq, hz]
      exact h0
    · have hz : ((md.stateSet g n (block n).state).dbnSet g n (block n).dbn).indexZero =
          Meta.forgetZero g md.indexZero n
            (if g.md8 then (block n).dbn else g.shrinkDbn (block n).dbn) := by
        by_cases hmd : g.md8 <;> simp [Meta.dbnSet, h0, hmd, Meta.md8DbnSet, Meta.md4DbnSet, hkeep]
      rw [hz] at heq hlt
      by_cases hforget : md.indexZero < g.assoc ∧ n = md.indexZero ∧
          (if g.md8 then (block n).dbn else g.shrinkDbn (block n).dbn) ≠ 0
      · rw [Meta.forgetZero, if_pos hforget] at hlt
        exact absurd hlt (Nat.lt_irrefl _)
      · rw [Meta.forgetZero, if_neg hforget] at heq hlt
        by_cases hlast : i = n
        · subst hlast
          obtain ⟨hset, hdisk⟩ := hb.placed hvalid
          have hbits : (if g.md8 then (block i).dbn else g.shrinkDbn (block i).dbn) = 0 := by
            by_contra hne
            exact hforget ⟨hlt, heq, hne⟩
          by_cases hmd : g.md8
          · rwa [if_pos hmd] at hbits
          · rw [if_neg hmd] at hbits
            exact shrinkDbn_ne_zero (by simpa using hmd) hset (heq ▸ hlt) hdisk hbits
        · exact h.zero i (by omega) heq hlt hvalid

theorem loadUpTo_clean (md₀ : Meta) {entry : Nat → MdEntry} (total : Nat) (htotal : total ≤ 2 ^ 31)
    (hentry : ∀ i < total, entry i = block i) (hb : ∀ i < total, Storable g i (block i)) :
    ∀ n ≤ total, ∃ md, loadUpTo g true entry md₀ n =
        some (md, (List.range n).countP fun i => (block i).state.has dirty) ∧
      LoadedUpTo g block n md := by
  intro n
  induction n with
  | zero => intro _; exact ⟨md₀, rfl, by simp, by simp, by simp⟩
  | succ n ih =>
    intro hn
    obtain ⟨md, hload, hinv⟩ := ih (by omega)
    refine ⟨_, ?_, hinv.step (hb n (by omega))⟩
    rw [loadUpTo, hload, Option.bind_some, hentry n (by omega),
      loadEntry_clean (by omega) (hb n (by omega)), Option.map_some, List.range_succ,
      List.countP_append, List.countP_singleton]

theorem LoadedUpTo.stateGet (h : LoadedUpTo g block n md) {i : Nat} (hi : i < n) :
    md.stateGet g i = (block i).state := by
  by_cases hmd : g.md8
  · rw [Meta.stateGet, if_pos hmd, h.md8 hmd i hi]
  · rw [Meta.stateGet, if_neg hmd, h.md4 (by simpa using hmd) i hi]

theorem LoadedUpTo.dbnGet (h : LoadedUpTo g block n md) {i : Nat} (hi : i < n)
    (hb : Storable g i (block i)) (hvalid : (block i).state.has valid = true) :
    md.dbnGet g i = (block i).dbn := by
  by_cases hmd : g.md8
  · rw [Meta.dbnGet, if_pos hmd, h.md8 hmd i hi]
  · have hmd' : g.md8 = false := by simpa using hmd
    obtain ⟨hset, hdisk⟩ := hb.placed hvalid
    have hne : (block i).state ≠ invalid := by
      intro heq
      rw [heq] at hvalid
      exact absurd hvalid (by decide)
    rw [Meta.dbnGet, if_neg hmd, Meta.expandDbn]
    split
    · next hz => exact (h.zero i hi hz.1 hz.2 hvalid).symm
    · rw [h.md4 hmd' i hi, if_neg (fun hinv => hne hinv.2),
        g.expandBits_shrinkDbn hset.ge
          (Nat.lt_of_lt_of_le hdisk (Geom.diskSize_le_of_not_md8 hmd')),
        ← hset, g.moved_self]

end

/-! ## The configuration of the load -/

section
variable {g : Geom} {cfg : Config} {diskSize : Nat}

/-- The geometry is that of the sizes; the mode may be another one. -/
theorem Config.geom_congr (cfg' : Config) (h : cfg.geom diskSize = some g)
    (hsize : cfg'.size = cfg.size) (hblock : cfg'.blockSize = cfg.blockSize)
    (hassoc : cfg'.assoc = cfg.assoc) :
    ∃ mode, cfg'.geom diskSize = some { g with mode := mode } := by
  simp only [geom, Option.dite_none_right_eq_some, Option.some.injEq] at h
  obtain ⟨hcond, rfl⟩ := h
  refine ⟨(Mode.ofCode cfg'.mode).getD .wt, ?_⟩
  simp only [geom, hsize, hblock, hassoc]
  rw [dif_pos hcond]

theorem Config.memInit_geom (h : cfg.geom diskSize = some g) :
    ∃ flags, cfg.memInit diskSize = some { cfg with cacheFlags := flags } := by
  simp only [geom, Option.dite_none_right_eq_some, Option.some.injEq] at h
  obtain ⟨hcond, rfl⟩ := h
  have hsets : cfg.size.toNat / cfg.assoc.toNat < 2 ^ 31 := hcond.2.2.2.2.1
  simp only [memInit, EnhanceIO.memInit,
    if_neg (show ¬ cfg.size.toNat / cfg.assoc.toNat > 2 ^ 32 - 1 by omega),
    if_neg (show ¬ 2 ^ 31 ≤ cfg.size.toNat / cfg.assoc.toNat by omega), Option.map_some]
  exact ⟨_, rfl⟩

end

theorem Storable.mode {i : Nat} {e : MdEntry} (mode : Mode) {g : Geom} (h : Storable g i e) :
    Storable { g with mode := mode } i e := ⟨h.idle, h.fits, h.placed⟩

theorem LoadedUpTo.mode {block : Nat → MdEntry} {n : Nat} {md : Meta} {mode : Mode} {g : Geom}
    (h : LoadedUpTo { g with mode := mode } block n md) : LoadedUpTo g block n md :=
  ⟨h.md8, h.md4, h.zero⟩

/-- A load after a clean shutdown, from a device that has the entries in place. -/
theorem LoadReq.mdLoad_clean (r : LoadReq) (ssd : Ssd) {g : Geom} (block : Nat → MdEntry)
    (hcheck : ssd.sb.check = none) (hclean : r.cleanShutdown ssd.sb = true)
    (hn : 1 ≤ r.nrPages) (hflags : r.cacheFlags &&& (flagsFailed ||| flagsDegraded) = 0)
    (hpolicy : policyInit (r.readConfig ssd.sb).reqPolicy ≠ none)
    (hgeom : (r.readConfig ssd.sb).geom r.diskSize = some g) (hsize : g.size ≤ 2 ^ 31)
    (hdev : ∀ i < g.size,
      ssd.md (mdSectorOf ssd.sb.cacheMdStartSect.toNat i) (mdByteOf i) = block i)
    (hb : ∀ i < g.size, Storable g i (block i))
    (hmode : ((List.range g.size).countP fun i => (block i).state.has dirty) ≠ 0 →
      (r.readConfig ssd.sb).mode = Mode.wb.code) :
    ∃ c loop ssd', r.mdLoad ssd = .loaded c loop ssd' ∧ LoadedUpTo g block g.size c.md ∧
      ReadIn ssd.sb.cacheMdStartSect.toNat
        (ssd.sb.cacheMdStartSect.toNat + (g.size + 31) / 32) loop.reads := by
  obtain ⟨policy, hp⟩ := Option.ne_none_iff_exists'.mp hpolicy
  obtain ⟨mode, hgeom'⟩ := Config.geom_congr
    { r.readConfig ssd.sb with reqPolicy := policy } hgeom rfl rfl rfl
  obtain ⟨flags, hmem⟩ := Config.memInit_geom hgeom'
  obtain ⟨mode', hgeom''⟩ := Config.geom_congr
    { r.readConfig ssd.sb with reqPolicy := policy, cacheFlags := flags } hgeom rfl rfl rfl
  have hload : r.loadConfig ssd.sb =
      some { r.readConfig ssd.sb with reqPolicy := policy, cacheFlags := flags } := by
    simp only [loadConfig, hp, Option.bind_some, hmem]
  have hpos : (r.readConfig ssd.sb).size ≠ 0 := by
    intro hzero
    have hlt : 0 < g.size := Nat.mul_pos g.assoc_pos g.numSets_pos
    rw [Config.geom_size hgeom, hzero] at hlt
    exact absurd hlt (by decide)
  -- the loop
  obtain ⟨md, hup, hloaded⟩ := loadUpTo_clean (g := { g with mode := mode' }) r.md g.size hsize hdev
    (fun i hi => (hb i hi).mode mode') g.size (Nat.le_refl _)
  have hspec := mdReadIn_spec { g with mode := mode' } true ssd.md r.md
    ssd.sb.cacheMdStartSect.toNat hn g.size
  rw [hup, Option.map_eq_some_iff] at hspec
  obtain ⟨⟨st, hst, heq⟩, hreads⟩ := hspec
  have hblocks : r.readBlocks ssd =
      some ({ r.readConfig ssd.sb with reqPolicy := policy, cacheFlags := flags }, st) := by
    simp only [readBlocks, hload, Option.bind_some, if_neg hpos, hgeom'', hclean]
    rw [Option.map_eq_some_iff]
    exact ⟨st, hst, rfl⟩
  have hsectors := readBlocks_sectors hn hblocks
  have hdirty : ¬ (st.dirtyLoaded ≠ 0 ∧ (r.readConfig ssd.sb).mode ≠ Mode.wb.code) := by
    rintro ⟨hd, hm⟩
    have hcount : st.dirtyLoaded = (List.range g.size).countP fun i => (block i).state.has dirty :=
      congrArg Prod.snd heq
    exact hm (hmode (hcount ▸ hd))
  simp only [mdLoad, hflags, ne_eq, not_true, if_false, hcheck, hp, reduceCtorEq, hblocks, finish,
    if_neg hdirty, hsectors]
  refine ⟨_, _, _, rfl, ?_, (hreads st hst).2⟩
  rw [show st.md = md from congrArg Prod.fst heq]
  exact hloaded.mode

/-! ## The round trip -/

section
variable {g : Geom} {s : Sys} {P : Sys → Act → Prop}

/-- The blocks of a reachable state without I/O under way can be stored. -/
theorem Reachable.storable (h : Reachable g P s) (hl : g.Lossless)
    (hidle : ∀ i < g.size, s.st g i = invalid ∨ s.st g i = valid ∨ s.st g i = alreadyDirty)
    {i : Nat} (hi : i < g.size) : Storable g i (s.md.block g i) where
  idle := hidle i hi
  fits := by
    rcases h.inv.blk.onDisk i with h0 | hlt
    · rw [show (s.md.block g i).dbn = 0 from h0]
      simp [Geom.dbnFits, Geom.shrinkDbn]
    · exact g.dbnFits_of_lt hl hlt
  placed := fun hvalid =>
    have hplaced := h.inv.blk.placed (i := i) hvalid
    ⟨hplaced.inSet, hplaced.onDisk⟩

theorem numDirty_pos_iff {md : Meta}
    (hidle : ∀ i < g.size, md.stateGet g i = invalid ∨ md.stateGet g i = valid ∨
      md.stateGet g i = alreadyDirty) :
    md.numDirty g ≠ 0 ↔ ∃ i < g.size, md.stateGet g i = alreadyDirty := by
  rw [Meta.numDirty, ← Nat.pos_iff_ne_zero, List.countP_pos_iff]
  constructor
  · rintro ⟨i, hi, hdirty⟩
    rw [List.mem_range] at hi
    refine ⟨i, hi, ?_⟩
    rcases hidle i hi with h | h | h
    · rw [h] at hdirty
      exact absurd hdirty (by decide)
    · rw [h] at hdirty
      exact absurd hdirty (by decide)
    · exact h
  · rintro ⟨i, hi, h⟩
    exact ⟨i, List.mem_range.mpr hi, by rw [h]; decide⟩

/-- **A clean shutdown round trip.** From any reachable state with no I/O under way, a
store without write errors followed by a load gives back the flags of every block
and the sector of every valid one. The superblock says whether there are dirty
blocks, and the load reads the sectors that the store wrote. -/
theorem clean_shutdown_round_trip (h : Reachable g P s)
    (hidle : ∀ i < g.size, s.st g i = invalid ∨ s.st g i = valid ∨ s.st g i = alreadyDirty)
    (hsize : g.size < 2 ^ 31) (hl : g.Lossless)
    (c : Cache) (hgeom : c.cfg.geom c.diskSize = some g) (hmd : c.md = s.md)
    (hversion : c.sbVersion = eioSbVersion)
    (hstores : c.cfg.has flagsFailed = false ∧ c.cfg.has flagsDegraded = false ∧
      c.cfg.has flagsFastRemove = false)
    (env : StoreEnv) (hn : 1 ≤ env.nrPages) (hok : (∀ k, env.fault k = none) ∧ env.sbFails = false)
    (ssd : Ssd) (r : LoadReq) (hn' : 1 ≤ r.nrPages) (hcold : r.coldBoot = 0)
    (hdisk : r.diskSize = c.diskSize)
    (hflags : r.cacheFlags &&& (flagsFailed ||| flagsDegraded) = 0)
    (hpolicy : policyInit (r.readConfig (c.superblock env.forceWarmBoot)).reqPolicy ≠ none)
    (hmode : (∃ i < g.size, s.st g i = alreadyDirty) →
      (r.readConfig (c.superblock env.forceWarmBoot)).mode = Mode.wb.code) :
    ((¬ ∃ i < g.size, s.st g i = alreadyDirty) →
      (c.mdStore g env ssd).sb.cacheSbState = mdStateClean) ∧
    ((∃ i < g.size, s.st g i = alreadyDirty) →
      (c.mdStore g env ssd).sb.cacheSbState = mdStateFastclean) ∧
    ∃ c' loop ssd', r.mdLoad (c.mdStore g env ssd) = .loaded c' loop ssd' ∧
      (∀ i < g.size, c'.md.stateGet g i = s.st g i ∧
        ((s.st g i).has valid = true → c'.md.dbnGet g i = s.dbn g i)) ∧
      ∀ x, (∃ region ∈ loop.reads, region.Has x) ↔
        ∃ w ∈ mdStoreWrites g env.nrPages c.cfg.mdStartSect.toNat env.pages c.md,
          w.region.Has x := by
  obtain ⟨hfault, hsb⟩ := hok
  have hstorable := fun i hi => h.storable hl hidle (i := i) hi
  -- the writes and what they leave on the device
  have hout : WrittenOut c.cfg.mdStartSect.toNat (fun i => storeEntry (c.md.block g i)) g.size
      (c.cfg.mdStartSect.toNat + (g.size + 31) / 32)
      (mdStoreWrites g env.nrPages c.cfg.mdStartSect.toNat env.pages c.md) :=
    (mdWriteOut_spec hn g.size env.pages).1
  have hwrite : c.writeMd g env ssd.md =
      ((mdStoreWrites g env.nrPages c.cfg.mdStartSect.toNat env.pages c.md).foldl MdIo.apply
        ssd.md, 0) := applyWrites_ok _ hfault _ _ _
  have hdev : ∀ i < g.size, (c.writeMd g env ssd.md).1 (mdSectorOf c.cfg.mdStartSect.toNat i)
      (mdByteOf i) = s.md.block g i := by
    intro i hi
    rw [hwrite, ← storeEntry_idle (hstorable i hi).idle, ← hmd]
    exact hout.device ssd.md hi
  have hcount : c.md.numDirty g ≠ 0 ↔ ∃ i < g.size, s.st g i = alreadyDirty := by
    rw [hmd]
    exact numDirty_pos_iff hidle
  have hcount_lt : c.md.numDirty g % 2 ^ 32 = c.md.numDirty g := by
    refine Nat.mod_eq_of_lt ?_
    have hle : c.md.numDirty g ≤ (List.range g.size).length := List.countP_le_length
    rw [List.length_range] at hle
    omega
  have hstore : c.mdStore g env ssd =
      ⟨Cache.superblock
        { c with sbState := if c.md.numDirty g = 0 then mdStateClean else mdStateFastclean }
        env.forceWarmBoot, (c.writeMd g env ssd.md).1⟩ := by
    simp only [Cache.mdStore, hstores, Bool.false_eq_true, or_self, if_false, Cache.sbStore, hsb,
      Cache.storedState, hwrite, if_true, hcount_lt]
  have hstate : (c.mdStore g env ssd).sb.cacheSbState =
      if c.md.numDirty g = 0 then mdStateClean else mdStateFastclean := by rw [hstore]; rfl
  refine ⟨fun hno => ?_, fun hyes => ?_, ?_⟩
  · rw [hstate, if_pos (not_not.mp (mt hcount.mp hno))]
  · rw [hstate, if_neg (hcount.mpr hyes)]
  · have hcheck : (c.mdStore g env ssd).sb.check = none := by
      rw [Superblock.check_eq (by rw [hstore]; exact hversion)
        (by rw [hstore]; simp [Cache.superblock, hversion, eioSbVersion]), hstate]
      split <;> decide
    have hclean : r.cleanShutdown (c.mdStore g env ssd).sb = true := by
      have hwarm : ¬ (r.coldBoot ≠ 0 ∧ (c.mdStore g env ssd).sb.coldBoot &&& 2 = 0) := by
        simp [hcold]
      rw [LoadReq.cleanShutdown, if_neg hwarm, hstate]
      split <;> decide
    obtain ⟨mode, hgeom'⟩ := Config.geom_congr (r.readConfig (c.mdStore g env ssd).sb) hgeom (by
        rw [hstore]
        have htwice := (setWidth_twice_eq_iff c.cfg.size).mpr (by
          rw [← Config.geom_size hgeom]; omega)
        simp only [LoadReq.readConfig, Cache.superblock, htwice]) (by rw [hstore]; rfl)
      (by rw [hstore]; rfl)
    rw [← hdisk] at hgeom'
    obtain ⟨c', loop, ssd', hload, hloaded, hreads⟩ := r.mdLoad_clean (c.mdStore g env ssd)
      (s.md.block g) hcheck hclean hn' hflags (by rw [hstore]; exact hpolicy) hgeom' hsize.le
      (by rw [hstore]; exact hdev) (fun i hi => (hstorable i hi).mode mode)
      (fun hd => by rw [hstore]; exact hmode ((numDirty_pos_iff hidle).mp hd))
    refine ⟨c', loop, ssd', hload, fun i hi => ⟨hloaded.mode.stateGet hi, fun hvalid =>
      hloaded.mode.dbnGet hi (hstorable i hi) hvalid⟩, fun x => ?_⟩
    -- both are the sectors of the metadata
    have hstart : (c.mdStore g env ssd).sb.cacheMdStartSect = c.cfg.mdStartSect := by
      rw [hstore]; rfl
    rw [hstart] at hreads
    constructor
    · rintro ⟨region, hregion, hx⟩
      obtain ⟨hlo, hhi⟩ := hreads.within region hregion x hx
      exact hout.covered x hlo hhi
    · rintro ⟨w, hw, hx⟩
      obtain ⟨hlo, hhi⟩ := hout.within w hw x hx
      exact hreads.covered x hlo hhi

end

/-- The configuration of `smallCache`. -/
def smallConfig : Config where
  size := 1024
  blockSize := 8
  assoc := 256
  mdStartSect := 145
  mdSectors := 193
  mode := Mode.wb.code
  reqPolicy := 1
  cacheFlags := flagsMd8
  thresholds := ⟨30, 10, 100, 30, 0, 128⟩

theorem smallConfig_geom : smallConfig.geom (2 ^ 21) = some smallCache := by
  have ha : Nat.log2 smallConfig.assoc.toNat = 8 := by decide
  have hb : Nat.log2 smallConfig.blockSize.toNat = 3 := by decide
  have hn : smallConfig.size.toNat / smallConfig.assoc.toNat = 4 := by decide
  simp only [Config.geom, ha, hb, hn]
  rw [dif_pos (by decide)]
  rfl

/-- A running cache with the geometry of `smallCache`. -/
def smallCacheOf (md : Meta) : Cache where
  cfg := smallConfig
  diskSize := 2 ^ 21
  sbState := mdStateDirty
  sbVersion := eioSbVersion
  coldBoot := 0
  md := md

theorem smallCache_dirty_idle : ∃ s, Reachable smallCache (fun _ _ => True) s ∧
    s.st smallCache 256 = alreadyDirty ∧
      ∀ i ∈ List.range 1024, s.st smallCache i = invalid ∨ s.st smallCache i = valid ∨
        s.st smallCache i = alreadyDirty :=
  Reachable.run _ dirtyingWrite (by decide +kernel)

/-- A cache with one dirty block is stored and loaded, with buffers of different
sizes. -/
theorem clean_shutdown_round_trip_dirty : ∃ s, Reachable smallCache (fun _ _ => True) s ∧
    s.st smallCache 256 = alreadyDirty ∧
    ∃ c loop ssd,
      (plainLoad (2 ^ 21)).mdLoad ((smallCacheOf s.md).mdStore smallCache
        { plainStore with nrPages := 3 }
          ⟨(smallCacheOf s.md).superblock false, fun _ _ => ⟨0, 0⟩⟩) =
          .loaded c loop ssd ∧
      c.md.stateGet smallCache 256 = alreadyDirty ∧
      c.md.dbnGet smallCache 256 = s.dbn smallCache 256 := by
  obtain ⟨s, hs, hdirty, hidle⟩ := smallCache_dirty_idle
  have hflags : smallConfig.has flagsFailed = false ∧ smallConfig.has flagsDegraded = false ∧
      smallConfig.has flagsFastRemove = false := by decide
  obtain ⟨-, -, c, loop, ssd, hload, hblocks, -⟩ := clean_shutdown_round_trip hs
    (fun i hi => hidle i (List.mem_range.mpr hi)) (by decide) (by decide) (smallCacheOf s.md)
    smallConfig_geom rfl rfl hflags { plainStore with nrPages := 3 } (by decide) ⟨fun _ => rfl, rfl⟩
      ⟨(smallCacheOf s.md).superblock false, fun _ _ => ⟨0, 0⟩⟩
    (plainLoad (2 ^ 21)) (by decide) rfl rfl rfl (by exact Option.some_ne_none _) (fun _ => rfl)
  obtain ⟨hstate, hdbn⟩ := hblocks 256 (by decide)
  rw [hdirty] at hstate hdbn
  exact ⟨s, hs, hdirty, c, loop, ssd, hload, hstate, hdbn (by decide)⟩

end EnhanceIO
