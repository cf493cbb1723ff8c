import EnhanceIO.Super

/-!
# Storing, loading and deleting a cache

`eio_md_store` writes all metadata and then the superblock, `eio_md_load` reads them
back, `eio_cache_delete` ends with a store. The parts that run before the store in
a deletion (flushing dirty blocks, waiting for I/O) are given by their result.
-/

namespace EnhanceIO

/-! ## `eio_md_store` -/

/-- What a store depends on besides the cache: the buffer and what it happens to
hold, and which transfers fail. A failed write of metadata leaves the device as the
given function says, a failed write of the superblock changes nothing. -/
structure StoreEnv where
  nrPages : Nat
  pages : MdMem
  fault : Nat → Option (MdDev → MdDev)
  sbFails : Bool
  forceWarmBoot : Bool

/-- The writes one after the other, from the `k`-th on: the device after them and
the number of those that failed. -/
def applyWrites (fault : Nat → Option (MdDev → MdDev)) :
    Nat → List MdIo → MdDev → MdDev × Nat
  | _, [], dev => (dev, 0)
  | k, w :: writes, dev =>
    match fault k with
    | none => applyWrites fault (k + 1) writes (w.apply dev)
    | some f =>
      let r := applyWrites fault (k + 1) writes (f dev)
      (r.1, r.2 + 1)

/-- `num_dirty` of `eio_md_store`. -/
def Meta.numDirty (g : Geom) (md : Meta) : Nat :=
  (List.range g.size).countP fun i => (md.stateGet g i).has State.dirty

/-- The device after the metadata is written, and the number of failed writes. -/
def Cache.writeMd (g : Geom) (env : StoreEnv) (c : Cache) (dev : MdDev) : MdDev × Nat :=
  applyWrites env.fault 0
    (mdStoreWrites g env.nrPages c.cfg.mdStartSect.toNat env.pages c.md) dev

/-- The state that `eio_md_store` gives the superblock; `num_dirty` is an int. -/
def Cache.storedState (g : Geom) (env : StoreEnv) (c : Cache) (dev : MdDev) : BitVec 32 :=
  if (c.writeMd g env dev).2 = 0 then
    if c.md.numDirty g % 2 ^ 32 = 0 then mdStateClean else mdStateFastclean
  else mdStateUnstable

/-- `eio_sb_store`. -/
def Cache.sbStore (env : StoreEnv) (c : Cache) (ssd : Ssd) : Ssd :=
  if env.sbFails then ssd else { ssd with sb := c.superblock env.forceWarmBoot }

/-- `eio_md_store`: what is on the device afterwards. -/
def Cache.mdStore (g : Geom) (env : StoreEnv) (c : Cache) (ssd : Ssd) : Ssd :=
  if c.cfg.has flagsFailed ∨ c.cfg.has flagsDegraded then ssd
  else if c.cfg.has flagsFastRemove then
    if c.sbVersion = 0 then c.sbStore env ssd else ssd
  else
    { c with sbState := c.storedState g env ssd.md }.sbStore env
      { ssd with md := (c.writeMd g env ssd.md).1 }

/-! ## `eio_md_load` -/

/-- `CACHE_MODE_*` read back. -/
def Mode.ofCode (code : BitVec 32) : Option Mode :=
  if code = 1 then some .wb else if code = 2 then some .ro else if code = 3 then some .wt else none

/-- The geometry of a configuration. The accessors of the metadata do not look at
the mode, so for an unknown one any will do. -/
def Config.geom (cfg : Config) (diskSize : Nat) : Option Geom :=
  let a := Nat.log2 cfg.assoc.toNat
  let b := Nat.log2 cfg.blockSize.toNat
  let n := cfg.size.toNat / cfg.assoc.toNat
  if h : (cfg.assoc.toNat = 2 ^ a ∧ cfg.blockSize.toNat = 2 ^ b ∧ cfg.size.toNat = 2 ^ a * n) ∧
      a ≤ 13 ∧ a + b ≤ 31 ∧ 0 < n ∧ n < 2 ^ 31 ∧ diskSize < 2 ^ 40 ∧
      diskSize / 2 ^ (a + b) < 2 ^ 32 then
    some
      { mode := (Mode.ofCode cfg.mode).getD .wt
        blockShift := b
        consecutiveShift := a
        numSets := n
        diskSize := diskSize
        assoc_le := h.2.1
        sectorsPerSet_lt := h.2.2.1
        numSets_pos := h.2.2.2.1
        numSets_lt := h.2.2.2.2.1
        diskSize_lt := h.2.2.2.2.2.1
        diskSets_lt := h.2.2.2.2.2.2 }
  else none

/-- How `eio_md_load` ends. -/
inductive LoadResult where
  /-- a non-zero return value -/
  | error
  /-- 0, and `dmc->persistence` is `CACHE_FORCECREATE` -/
  | recreate
  /-- 0 although `eio_policy_init` failed -/
  | noPolicy
  /-- a failed assertion, an index that does not fit, or a loop without end -/
  | stuck
  | loaded (c : Cache) (loop : LoadLoop) (ssd : Ssd)

/-- The checks of the version, the magic number and the state of the superblock. -/
def Superblock.check (sb : Superblock) : Option LoadResult :=
  if sb.cacheVersion ≠ eioSbVersion ∧ sb.cacheVersion = 0 then some .error
  else if eioSbVersion < sb.cacheVersion then some .error
  else if sb.cacheVersion ≠ eioSbVersion ∧ sb.mode = Mode.wb.code then some .error
  else if sb.cacheVersion ≠ eioSbVersion ∧ (sb.mode = Mode.ro.code ∨ sb.mode = Mode.wt.code) then
    some .recreate
  else if eioSbVersion ≤ sb.cacheVersion ∧ sb.magic ≠ eioMagic then some .error
  else if ¬ (sb.cacheSbState = mdStateDirty ∨ sb.cacheSbState = mdStateClean ∨
      sb.cacheSbState = mdStateFastclean) then some .error
  else none

/-- `clean_shutdown`. -/
def LoadReq.cleanShutdown (r : LoadReq) (sb : Superblock) : Bool :=
  if r.coldBoot ≠ 0 ∧ sb.coldBoot &&& 2 = 0 then false
  else sb.cacheSbState = mdStateClean ∨ sb.cacheSbState = mdStateFastclean

/-- The loop of `eio_md_load` with the configuration it uses; a cache of no blocks
has nothing to read. -/
def LoadReq.readBlocks (r : LoadReq) (ssd : Ssd) : Option (Config × LoadLoop) :=
  (r.loadConfig ssd.sb).bind fun cfg =>
    if cfg.size = 0 then
      some (cfg, { sector := cfg.mdStartSect.toNat, i := 0, dirtyLoaded := 0, sectorsRead := 0
                   md := r.md, reads := [] })
    else
      (cfg.geom r.diskSize).bind fun g =>
        (mdReadIn g (r.cleanShutdown ssd.sb) r.nrPages cfg.mdStartSect.toNat ssd.md g.size r.md).map
          fun st => (cfg, st)

/-- The end of `eio_md_load`: dirty blocks need write-back mode, the number of
sectors is checked, and the superblock becomes dirty. -/
def LoadReq.finish (r : LoadReq) (ssd : Ssd) (cfg : Config) (st : LoadLoop) : LoadResult :=
  if st.dirtyLoaded ≠ 0 ∧ cfg.mode ≠ Mode.wb.code then .error
  else if st.sectorsRead ≠ cfg.size.toNat / 32 + (if cfg.size.toNat % 32 ≠ 0 then 1 else 0) then
    .error
  else
    let c : Cache :=
      { cfg := cfg, diskSize := r.diskSize, sbState := mdStateDirty, sbVersion := eioSbVersion
        coldBoot := r.coldBoot, md := st.md }
    .loaded c st { ssd with sb := c.superblock r.forceWarmBoot }

/-- `eio_md_load`, when no transfer fails. -/
def LoadReq.mdLoad (r : LoadReq) (ssd : Ssd) : LoadResult :=
  if r.cacheFlags &&& (flagsFailed ||| flagsDegraded) ≠ 0 then .error
  else
    match ssd.sb.check with
    | some result => result
    | none =>
      if policyInit (r.readConfig ssd.sb).reqPolicy = none then .noPolicy
      else
        match r.readBlocks ssd with
        | none => .stuck
        | some (cfg, st) => r.finish ssd cfg st

/-! ## `eio_cache_delete` -/

/-- What a deletion depends on besides the cache. `deactivated` is the result of
`eio_ttc_deactivate`, which flushes the dirty blocks of a write-back cache and waits
for all I/O: the blocks and the metadata on the device after it, or its failure. -/
structure DeleteEnv where
  deactivated : Option (Meta × MdDev)
  store : StoreEnv

/-- How `eio_cache_delete` ends. -/
inductive DeleteResult where
  /-- a non-zero return value -/
  | refused
  /-- a failed assertion -/
  | crashed
  | deleted (ssd : Ssd)

/-- `eio_cache_delete` on a cache that exists. The argument `do_delete` is not used. -/
def Cache.delete (g : Geom) (env : DeleteEnv) (c : Cache) (ssd : Ssd) : DeleteResult :=
  if c.cfg.has flagsShutdownInprog ∨ c.cfg.has flagsModInprog then .refused
  else if c.cfg.has flagsStale ∧ c.cfg.has flagsFailed then .deleted ssd
  else if c.cfg.has flagsStale ∧ c.md.numDirty g ≠ 0 then .refused
  else
    match env.deactivated with
    | none => .refused
    | some (md, dev) =>
      if ¬ c.cfg.has flagsFailed ∧ ¬ (c.cfg.has flagsFastRemove ∨ md.numDirty g = 0) then .crashed
      else if c.cfg.has flagsFailed ∨ c.cfg.has flagsDegraded then .deleted { ssd with md := dev }
      else .deleted ({ c with md := md }.mdStore g env.store { ssd with md := dev })

/-! ## A deleted cache -/

section
variable {g : Geom} {r : LoadReq} {ssd : Ssd}

theorem Superblock.check_eq {sb : Superblock} (hversion : sb.cacheVersion = eioSbVersion)
    (hmagic : sb.magic = eioMagic) :
    sb.check =
      if sb.cacheSbState = mdStateDirty ∨ sb.cacheSbState = mdStateClean ∨
        sb.cacheSbState = mdStateFastclean then none else some .error := by
  simp only [check, hversion, hmagic]
  by_cases h : sb.cacheSbState = mdStateDirty ∨ sb.cacheSbState = mdStateClean ∨
    sb.cacheSbState = mdStateFastclean <;> simp [h]

theorem Config.geom_size {cfg : Config} {diskSize : Nat} (h : cfg.geom diskSize = some g) :
    g.size = cfg.size.toNat := by
  simp only [geom, Option.dite_none_right_eq_some, Option.some.injEq] at h
  obtain ⟨hcond, rfl⟩ := h
  exact hcond.1.2.2.symm

theorem LoadReq.readBlocks_sectors (hn : 1 ≤ r.nrPages) {cfg : Config} {st : LoadLoop}
    (h : r.readBlocks ssd = some (cfg, st)) :
    st.sectorsRead = cfg.size.toNat / 32 + (if cfg.size.toNat % 32 ≠ 0 then 1 else 0) := by
  simp only [readBlocks, Option.bind_eq_some_iff] at h
  obtain ⟨cfg', -, h⟩ := h
  split at h
  · next hzero =>
    cases h
    simp [hzero]
  · obtain ⟨g, hg, h⟩ := Option.bind_eq_some_iff.mp h
    obtain ⟨st', hread, heq⟩ := Option.map_eq_some_iff.mp h
    cases heq
    rw [((mdReadIn_spec g _ _ _ _ hn g.size).2 st hread).1, Config.geom_size hg]
    split <;> omega

/-- The entry does not stop a load that takes it over. -/
def MdEntry.Accepted (g : Geom) (cleanShutdown : Bool) (e : MdEntry) : Prop :=
  cleanShutdown = true ∨ e.state.has State.dirty = true →
    ¬ ((e.state.off State.queued).has State.valid = true ∧
      (e.state.off State.queued).has State.invalid = true) ∧ g.dbnFits e.dbn = true

end

def tinyLayout : Layout where
  mode := .wt
  blockSize := 8
  assoc := 2
  diskSize := 209715200
  cacheDevStartSect := 63
  mdStartSect := 145
  mdSectors := 161
  size := 8
  md8 := true

def tinyCache : Geom :=
  .ofSizes .wt 3 1 4 209715200 (by decide)

/-- Block 3 holds the sectors from 16 on. -/
def tinyMeta : Meta :=
  ((Meta.create tinyCache).stateSet tinyCache 3 State.valid).dbnSet tinyCache 3 16

def tinySsd : Ssd := ⟨(tinyLayout.newCache tinyMeta).superblock false, fun _ _ => ⟨0, 0⟩⟩

/-- A store without a failing write. -/
def plainStore : StoreEnv := ⟨16, fun _ _ => ⟨0, 0⟩, fun _ => none, false, false⟩

end EnhanceIO
