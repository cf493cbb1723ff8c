import EnhanceIO.MdIo

/-!
# The superblock, storing and loading a cache

`eio_sb_store`, `eio_md_store`, `eio_md_load` and `eio_cache_delete`. The fields have
the widths they have in the source; the host is little-endian, so the conversions
to and from the byte order of the disk only cut or extend. The names and paths of
the superblock are left out: they are only printed.
-/

namespace EnhanceIO

/-! ## What is kept of a configuration -/

/-- The thresholds of `sysctl_active` that are persistent. -/
structure Thresholds where
  dirtyHigh : BitVec 32
  dirtyLow : BitVec 32
  dirtySetHigh : BitVec 32
  dirtySetLow : BitVec 32
  timeBasedCleanInterval : BitVec 32
  autoclean : BitVec 32
  deriving DecidableEq

/-- The fields of `cache_c` that go through the superblock. -/
structure Config where
  size : BitVec 64
  blockSize : BitVec 32
  assoc : BitVec 32
  mdStartSect : BitVec 64
  mdSectors : BitVec 64
  mode : BitVec 32
  reqPolicy : BitVec 32
  cacheFlags : BitVec 32
  thresholds : Thresholds
  deriving DecidableEq

/-- `CACHE_FLAGS_*`. -/
def flagsFastRemove : BitVec 32 := 1 <<< 2
def flagsDegraded : BitVec 32 := 1 <<< 3
def flagsSsdAddInprog : BitVec 32 := 1 <<< 4
def flagsMd8 : BitVec 32 := 1 <<< 5
def flagsFailed : BitVec 32 := 1 <<< 6
def flagsStale : BitVec 32 := 1 <<< 7
def flagsShutdownInprog : BitVec 32 := 1 <<< 8
def flagsModInprog : BitVec 32 := 1 <<< 9
def flagsDeleted : BitVec 32 := 1 <<< 10

/-- `CACHE_FLAGS_INCORE_ONLY`. -/
def flagsIncoreOnly : BitVec 32 :=
  flagsDegraded ||| flagsSsdAddInprog ||| flagsFailed ||| flagsShutdownInprog |||
    flagsModInprog ||| flagsStale ||| flagsDeleted

/-- The flag is set. -/
def Config.has (cfg : Config) (flag : BitVec 32) : Bool := cfg.cacheFlags &&& flag != 0

/-- `CACHE_MD_STATE_*`. -/
def mdStateDirty : BitVec 32 := 0x55daddee
def mdStateClean : BitVec 32 := 0xacceded1
def mdStateFastclean : BitVec 32 := 0xcafebabf
def mdStateUnstable : BitVec 32 := 0xdeaddeee

/-- `EIO_MAGIC`, `EIO_BAD_MAGIC`, `EIO_SB_VERSION`. -/
def eioMagic : BitVec 32 := 0xE10CAC6E
def eioBadMagic : BitVec 32 := 0xBADCAC6E
def eioSbVersion : BitVec 32 := 3

/-- `union eio_superblock`. -/
structure Superblock where
  size : BitVec 64
  blockSize : BitVec 32
  assoc : BitVec 32
  cacheSbState : BitVec 32
  cacheVersion : BitVec 32
  mode : BitVec 32
  replPolicy : BitVec 32
  cacheFlags : BitVec 32
  magic : BitVec 32
  coldBoot : BitVec 32
  cacheMdStartSect : BitVec 64
  cacheDataStartSect : BitVec 64
  thresholds : Thresholds
  deriving DecidableEq

/-- A cache as far as storing and loading go. `diskSize` is the size of the source
device in sectors. -/
structure Cache where
  cfg : Config
  diskSize : Nat
  sbState : BitVec 32
  sbVersion : BitVec 32
  coldBoot : BitVec 32
  md : Meta

/-- What is on the cache device. -/
structure Ssd where
  sb : Superblock
  md : MdDev

/-- `eio_sb_store`, without the transfer; `forceWarmBoot` is the global
`eio_force_warm_boot`. The size goes through `cpu_to_le32`. -/
def Cache.superblock (c : Cache) (forceWarmBoot : Bool) : Superblock where
  size := (c.cfg.size.setWidth 32).setWidth 64
  blockSize := c.cfg.blockSize
  assoc := c.cfg.assoc
  cacheSbState := c.sbState
  cacheVersion := c.sbVersion
  mode := c.cfg.mode
  replPolicy := c.cfg.reqPolicy
  cacheFlags := c.cfg.cacheFlags &&& ~~~flagsIncoreOnly
  magic := if c.sbVersion ≠ 0 then eioMagic else eioBadMagic
  coldBoot := if c.coldBoot ≠ 0 ∧ forceWarmBoot then c.coldBoot ||| 2 else c.coldBoot
  cacheMdStartSect := c.cfg.mdStartSect
  cacheDataStartSect := c.cfg.mdSectors
  thresholds := c.cfg.thresholds

/-! ## `eio_md_load`: the superblock -/

/-- What the caller of `eio_md_load` has set in the `cache_c`, where 0 is "not
given", and what it finds in memory. -/
structure LoadReq where
  mode : BitVec 32
  reqPolicy : BitVec 32
  cacheFlags : BitVec 32
  coldBoot : BitVec 32
  diskSize : Nat
  nrPages : Nat
  forceWarmBoot : Bool
  md : Meta

/-- `eio_policy_init`, with the three policies loaded. -/
def policyInit (reqPolicy : BitVec 32) : Option (BitVec 32) :=
  let reqPolicy := if reqPolicy = 0 then 1 else reqPolicy
  if reqPolicy = 1 ∨ reqPolicy = 2 ∨ reqPolicy = 3 then some reqPolicy else none

/-- The fields that `eio_md_load` takes from the superblock. -/
def LoadReq.readConfig (r : LoadReq) (sb : Superblock) : Config where
  size := (sb.size.setWidth 32).setWidth 64
  blockSize := sb.blockSize
  assoc := sb.assoc
  mdStartSect := sb.cacheMdStartSect
  mdSectors := sb.cacheDataStartSect
  mode := if r.mode = 0 then sb.mode else r.mode
  reqPolicy := if r.reqPolicy = 0 then sb.replPolicy else r.reqPolicy
  cacheFlags := if r.cacheFlags = 0 then sb.cacheFlags else r.cacheFlags
  thresholds := sb.thresholds

/-- `eio_mem_init` on a configuration: `CACHE_FLAGS_MD8` is only ever set. -/
def Config.memInit (cfg : Config) (diskSize : Nat) : Option Config :=
  let needed := EnhanceIO.memInit cfg.size.toNat cfg.assoc.toNat
    (Nat.log2 cfg.assoc.toNat + Nat.log2 cfg.blockSize.toNat) diskSize
  needed.map fun md8 =>
    { cfg with cacheFlags := if md8 then cfg.cacheFlags ||| flagsMd8 else cfg.cacheFlags }

/-- The configuration that `eio_md_load` works with. -/
def LoadReq.loadConfig (r : LoadReq) (sb : Superblock) : Option Config :=
  let cfg := r.readConfig sb
  (policyInit cfg.reqPolicy).bind fun policy => { cfg with reqPolicy := policy }.memInit r.diskSize

/-! ## The configuration of a new cache -/

/-- The configuration of a cache of the given layout; the flags are what the caller
asks for and what `eio_mem_init` adds. -/
def Layout.config (l : Layout) (reqPolicy cacheFlags : BitVec 32) (t : Thresholds) : Config where
  size := BitVec.ofNat 64 l.size
  blockSize := BitVec.ofNat 32 l.blockSize
  assoc := BitVec.ofNat 32 l.assoc
  mdStartSect := BitVec.ofNat 64 l.mdStartSect
  mdSectors := BitVec.ofNat 64 l.mdSectors
  mode := l.mode.code
  reqPolicy := reqPolicy
  cacheFlags := if l.md8 then cacheFlags ||| flagsMd8 else cacheFlags
  thresholds := t

/-! ## The superblock read back -/

theorem setWidth_twice_eq_iff (x : BitVec 64) :
    ((x.setWidth 32).setWidth 64) = x ↔ x.toNat < 2 ^ 32 := by
  rw [← BitVec.toNat_inj, BitVec.toNat_setWidth, BitVec.toNat_setWidth]
  omega

/-- The flags that `eio_mem_init` may add are kept in the superblock. -/
theorem persistent_flags (md8 : Bool) (flags : BitVec 32) :
    (if md8 then ((if md8 then flags ||| flagsMd8 else flags) &&& ~~~flagsIncoreOnly) ||| flagsMd8
      else (if md8 then flags ||| flagsMd8 else flags) &&& ~~~flagsIncoreOnly) =
      (if md8 then flags ||| flagsMd8 else flags) &&& ~~~flagsIncoreOnly := by
  have hmd8 : flagsMd8 &&& ~~~flagsIncoreOnly = flagsMd8 := by decide
  cases md8 with
  | false => rfl
  | true =>
    simp only [if_true]
    rw [BitVec.and_comm, BitVec.and_or_distrib_left, BitVec.and_comm _ flagsMd8, hmd8,
      BitVec.or_assoc, BitVec.or_self]

/-- **The superblock round trip.** What `eio_md_load` reads from the superblock that
`eio_sb_store` wrote is the configuration that was stored, without the flags that
are in-core only, exactly for caches of fewer than `2 ^ 32` blocks: the block count
is cut to 32 bits on both sides. -/
theorem superblock_round_trip_iff (c : CreateArgs) (l : Layout) (h : c.create = some l)
    (policy flags : BitVec 32) (hpolicy : policy = 1 ∨ policy = 2 ∨ policy = 3) (t : Thresholds)
    (cache : Cache) (hcfg : cache.cfg = l.config policy flags t) (forceWarmBoot : Bool)
    (r : LoadReq) (hr : r.mode = 0 ∧ r.reqPolicy = 0 ∧ r.cacheFlags = 0 ∧ r.diskSize = l.diskSize) :
    r.loadConfig (cache.superblock forceWarmBoot) =
        some { cache.cfg with cacheFlags := cache.cfg.cacheFlags &&& ~~~flagsIncoreOnly } ↔
      l.size < 2 ^ 32 := by
  obtain ⟨hmode, hpol, hflags, hdisk⟩ := hr
  obtain ⟨b, a, sectors, ha, hab, hsect, hd, _, hmd⟩ := c.create_spec h
  obtain ⟨numSets, hnum, hfits, hmem, heq⟩ := mdCreate_spec hab hsect hmd
  have hsize : l.size = numSets * 2 ^ a := by rw [heq]
  have hassoc : l.assoc = 2 ^ a := by rw [heq]
  have hblock : l.blockSize = 2 ^ b := by rw [heq]
  have hdl : l.diskSize = toSector c.diskDevBytes := by rw [heq]
  have hlt64 : l.size < 2 ^ 64 := by
    have hdev : toSector c.cacheDevBytes < 2 ^ 64 :=
      lt_of_le_of_lt (Nat.div_le_self _ _) c.cacheDevBytes_lt
    have hle : l.size ≤ l.size * 2 ^ b := Nat.le_mul_of_pos_right _ (Nat.two_pow_pos b)
    rw [hsize] at hle ⊢
    omega
  have hsizeNat : (BitVec.ofNat 64 l.size).toNat = l.size := by
    rw [BitVec.toNat_ofNat, Nat.mod_eq_of_lt hlt64]
  have hassocNat : (BitVec.ofNat 32 l.assoc).toNat = 2 ^ a := by
    rw [BitVec.toNat_ofNat, hassoc,
      Nat.mod_eq_of_lt (Nat.pow_lt_pow_right (by decide) (by omega))]
  have hblockNat : (BitVec.ofNat 32 l.blockSize).toNat = 2 ^ b := by
    rw [BitVec.toNat_ofNat, hblock,
      Nat.mod_eq_of_lt (Nat.pow_lt_pow_right (by decide) (by omega))]
  have hpinit : policyInit policy = some policy := by
    rcases hpolicy with rfl | rfl | rfl <;> rfl
  constructor
  · intro hload
    simp only [LoadReq.loadConfig, LoadReq.readConfig, Cache.superblock, Config.memInit, hpol,
      if_true, hcfg, Layout.config, hpinit, Option.bind_some, Option.map_eq_some_iff,
      Config.mk.injEq] at hload
    obtain ⟨md8, -, hcut, -⟩ := hload
    have htwice := congrArg BitVec.toNat hcut
    simp only [BitVec.toNat_setWidth, hsizeNat] at htwice
    omega
  · intro hlt
    have hcut : ((((((BitVec.ofNat 64 l.size).setWidth 32).setWidth 64).setWidth 32).setWidth 64)) =
        BitVec.ofNat 64 l.size := by
      have hone := (setWidth_twice_eq_iff (BitVec.ofNat 64 l.size)).mpr
        (by rw [hsizeNat]; exact hlt)
      rw [hone, hone]
    have hmem' : EnhanceIO.memInit l.size (2 ^ a) (a + b) l.diskSize = some l.md8 := by
      rw [hsize, hdl]
      exact hmem
    clear hmem
    simp only [LoadReq.loadConfig, LoadReq.readConfig, Cache.superblock, Config.memInit, hpol,
      if_true, hmode, hflags, hdisk, hcfg, Layout.config, hpinit, Option.bind_some, hcut, hsizeNat,
      hassocNat, hblockNat, Nat.log2_two_pow, hmem', Option.map_some, persistent_flags]

/-- Memory that happens to be zero. -/
def zeroMeta : Meta := ⟨fun _ => ⟨0, 0⟩, fun _ => ⟨0, 0⟩, 0⟩

/-- A load in which the caller leaves everything to the superblock. -/
def plainLoad (diskSize : Nat) : LoadReq where
  mode := 0
  reqPolicy := 0
  cacheFlags := 0
  coldBoot := 0
  diskSize := diskSize
  nrPages := 16
  forceWarmBoot := false
  md := zeroMeta

/-- A running cache of the given layout with the default policy and thresholds. -/
def Layout.newCache (l : Layout) (md : Meta) : Cache where
  cfg := l.config 1 0 ⟨30, 10, 100, 30, 0, 128⟩
  diskSize := l.diskSize
  sbState := mdStateDirty
  sbVersion := eioSbVersion
  coldBoot := 0
  md := md

theorem superblock_round_trip_default :
    defaultArgs.create = some defaultLayout ∧
      (plainLoad defaultLayout.diskSize).loadConfig
          ((defaultLayout.newCache zeroMeta).superblock false) =
        some (defaultLayout.newCache zeroMeta).cfg := by
  have hcreate : defaultArgs.create = some defaultLayout := by decide +kernel
  exact ⟨hcreate, (superblock_round_trip_iff defaultArgs defaultLayout hcreate 1 0 (.inl rfl) _
    (defaultLayout.newCache zeroMeta) rfl false (plainLoad defaultLayout.diskSize)
    ⟨rfl, rfl, rfl, rfl⟩).mpr (by decide)⟩

/-- A cache device of a little over 2 TiB, cut into blocks of one sector. -/
def sectorArgs : CreateArgs :=
  { defaultArgs with
    mode := some .wt
    blksize := 512
    cacheDevBytes := 2 ^ 41 + 2 ^ 37
    cacheDevBytes_lt := by decide }

def sectorLayout : Layout where
  mode := .wt
  blockSize := 1
  assoc := 512
  diskSize := 209715200
  cacheDevStartSect := 63
  mdStartSect := 145
  mdSectors := 138150033
  size := 4420795904
  md8 := false

/-- Its `4420795904` blocks come back as `125828608`. -/
theorem superblock_size_cut :
    sectorArgs.create = some sectorLayout ∧
      ((plainLoad sectorLayout.diskSize).loadConfig
        ((sectorLayout.newCache zeroMeta).superblock false)).map (fun cfg => cfg.size.toNat) =
          some 125828608 ∧
      (sectorLayout.newCache zeroMeta).cfg.size.toNat = 4420795904 := by
  decide +kernel

end EnhanceIO
