import EnhanceIO.Geometry
import Mathlib.Data.Nat.Bitwise

/-!
# Creating a cache

How `eio_cache_create` arrives at a geometry (block size, associativity, the
limits on the source device) and how `eio_md_create` lays the cache device out:

    unused (64K) | superblock | align1 | metadata | red zone | align2 | data

All sizes are in sectors unless said otherwise. What is accepted is a `Geom`, and
the parts of the device are disjoint.
-/

namespace EnhanceIO

/-- What `eio_cache_create` reads to find the geometry: fields of the request
(`cr_*`, where 0 stands for "not given"), the sizes the kernel gives for the two
devices, in bytes, and the first sector of the cache device. -/
structure CreateArgs where
  mode : Option Mode
  blksize : Nat
  ssdSectorSize : Nat
  assoc : Nat
  ssdDevSize : Nat
  cacheDevBytes : Nat
  cacheDevStartSect : Nat
  diskDevBytes : Nat
  ssdDevSize_lt : ssdDevSize < 2 ^ 64
  cacheDevBytes_lt : cacheDevBytes < 2 ^ 64

/-- `eio_to_sector`. -/
def toSector (sizeInBytes : Nat) : Nat := sizeInBytes / 512

/-! ## The place of the metadata -/

/-- `EIO_ALIGN1_SECTORS`. -/
def align1Sectors (index : Nat) : Nat := if index % 16 ≠ 0 then 24 - index % 16 else 8

/-- `EIO_ALIGN2_SECTORS`. -/
def align2Sectors (index : Nat) : Nat := if index % 16 ≠ 0 then 16 - index % 16 else 0

/-- `EIO_SUPERBLOCK_START`. -/
def superblockStart : Nat := 128

/-- `EIO_SUPERBLOCK_SECTORS`. -/
def superblockSectors : Nat := 8

/-- `EIO_METADATA_START`. -/
def metadataStart (startSect : Nat) : Nat :=
  superblockStart + superblockSectors + align1Sectors startSect

/-- `EIO_EXTRA_SECTORS`. -/
def extraSectors (startSect mdSects : Nat) : Nat :=
  metadataStart startSect + 16 + align2Sectors mdSects

/-- The two statements that compute `md_sectors` for `blocks` blocks: 32 entries
to a sector, rounded down, and the extra sectors. -/
def mdSectorsFor (startSect blocks : Nat) : Nat :=
  blocks / 32 + extraSectors startSect (blocks / 32)

/-! ## `eio_mem_init` -/

/-- `eio_mem_init`: whether 8-byte metadata is used. `none` is the return value
`-1` and, from `2 ^ 31` sets on, the loop over the bits of the set number that
does not end. -/
def memInit (size assoc lsbBits diskSize : Nat) : Option Bool :=
  let numSets := size / assoc
  if numSets > 2 ^ 32 - 1 then none
  else if 2 ^ 31 ≤ numSets then none
  else
    let numSetsBits := numSets.size
    let msbBits24 := (2 ^ 32 + 24 - 1 - lsbBits) % 2 ^ 32
    let maxDbn := 2 ^ ((msbBits24 + numSetsBits + lsbBits) % 2 ^ 32)
    some (numSetsBits < 16 || diskSize > maxDbn)

/-! ## `eio_md_create` and `eio_cache_create` -/

/-- The fields of `cache_c` that fix the geometry and the layout. -/
structure Layout where
  mode : Mode
  blockSize : Nat
  assoc : Nat
  diskSize : Nat
  cacheDevStartSect : Nat
  mdStartSect : Nat
  mdSectors : Nat
  size : Nat
  md8 : Bool
  deriving DecidableEq, Repr

/-- The layout part of `eio_md_create`. `sectors` is `dmc->size` on entry,
`devSize` the size of the cache device; the arithmetic is unsigned 64-bit. -/
def mdCreate (mode : Mode) (sectors devSize startSect blockSize assoc diskSize : Nat) :
    Option Layout :=
  let avail := (sectors + 2 ^ 64 - mdSectorsFor startSect (sectors / blockSize)) % 2 ^ 64
  let size := avail / blockSize / assoc * assoc
  let mdSectors := mdSectorsFor startSect size
  (memInit size assoc (Nat.log2 assoc + Nat.log2 blockSize) diskSize).bind fun md8 =>
    let cacheSize := (mdSectors + size * blockSize) % 2 ^ 64
    if cacheSize > devSize then none
    else
      some
        { mode := mode
          blockSize := blockSize
          assoc := assoc
          diskSize := diskSize
          cacheDevStartSect := startSect
          mdStartSect := metadataStart startSect
          mdSectors := mdSectors
          size := size
          md8 := md8 }

namespace CreateArgs

variable (c : CreateArgs)

/-- `dmc->block_size`, an unsigned int. -/
def blockSizeOf : Option Nat :=
  if c.blksize ≠ 0 ∧ c.ssdSectorSize ≠ 0 then
    let blockSize := c.blksize / c.ssdSectorSize % 2 ^ 32
    if blockSize &&& (blockSize - 1) ≠ 0 then none
    else some (if blockSize = 0 then 8 else blockSize)
  else some 8

/-- `dmc->size` before `eio_md_create`: the size of the device, or the one the
caller gives when the kernel has none. -/
def sectorsOf : Option Nat :=
  let size := toSector c.cacheDevBytes
  let size :=
    if size = 0 ∧ c.ssdDevSize ≠ 0 ∧ c.ssdSectorSize ≠ 0 then c.ssdDevSize / c.ssdSectorSize
    else size
  if size = 0 then none else some size

/-- `dmc->assoc`, an unsigned int of at most `EIO_MAX_ASSOC`. -/
def assocOf (size : Nat) : Option Nat :=
  if c.assoc ≠ 0 then
    let assoc := c.assoc % 2 ^ 32
    if assoc &&& (assoc - 1) ≠ 0 ∨ assoc > 8192 ∨ size < assoc then none
    else some (if assoc = 0 then 512 else assoc)
  else some 512

/-- The geometry part of `eio_cache_create` for a cache that is not reloaded. The
number of sets of the source device is found with a 32-bit divisor; the division
faults when `assoc * block_size` is a multiple of `2 ^ 32`. -/
def create : Option Layout := do
  let diskSize := toSector c.diskDevBytes
  guard (diskSize < 2 ^ 40)
  let blockSize ← c.blockSizeOf
  let sectors ← c.sectorsOf
  let assoc ← c.assocOf sectors
  let divisor := assoc * blockSize % 2 ^ 32
  guard (divisor ≠ 0)
  guard (diskSize / divisor < 2 ^ 32)
  mdCreate (c.mode.getD .wt) sectors (toSector c.cacheDevBytes) c.cacheDevStartSect blockSize
    assoc diskSize

end CreateArgs

/-! ## Regions of the cache device -/

/-- `struct eio_io_region`, without the device. -/
structure IoRegion where
  sector : Nat
  count : Nat
  deriving DecidableEq, Repr

def IoRegion.Disjoint (r r' : IoRegion) : Prop :=
  r.sector + r.count ≤ r'.sector ∨ r'.sector + r'.count ≤ r.sector

def IoRegion.Within (r r' : IoRegion) : Prop :=
  r'.sector ≤ r.sector ∧ r.sector + r.count ≤ r'.sector + r'.count

namespace Layout

variable (l : Layout)

def superblock : IoRegion := ⟨superblockStart, superblockSectors⟩

/-- The sectors from `md_start_sect` to `md_start_sect + ⌈size / 32⌉`, the last
one included. -/
def metadata : IoRegion := ⟨l.mdStartSect, (l.size + 31) / 32 + 1⟩

/-- Where the data of block `i` is kept. -/
def slot (i : Nat) : IoRegion := ⟨l.mdSectors + i * l.blockSize, l.blockSize⟩

def regions : List IoRegion := superblock :: l.metadata :: (List.range l.size).map l.slot

/-- The cache region of `eio_new_job`: the part of block `index` that the ebio
covers, or the whole block when there is no ebio. -/
def newJob (index : Nat) : Option Seg → IoRegion
  | some seg =>
    ⟨((index <<< Nat.log2 l.blockSize) + l.mdSectors +
        (seg.sector - seg.sector / l.blockSize * l.blockSize)) % 2 ^ 64, seg.nsect⟩
  | none => ⟨((index <<< Nat.log2 l.blockSize) + l.mdSectors) % 2 ^ 64, l.blockSize⟩

end Layout

/-! ## Powers of two -/

theorem exists_two_pow {n : Nat} (h : n &&& (n - 1) = 0) (hn : n ≠ 0) : ∃ k, n = 2 ^ k :=
  (Nat.and_sub_one_eq_zero_iff_isPowerOfTwo hn).mp h

theorem CreateArgs.blockSizeOf_spec {c : CreateArgs} {blockSize : Nat}
    (h : c.blockSizeOf = some blockSize) : ∃ k, blockSize = 2 ^ k := by
  simp only [blockSizeOf] at h
  split at h
  · split at h
    · cases h
    · rename_i hpow
      rw [ne_eq, not_not] at hpow
      cases h
      split
      · exact ⟨3, rfl⟩
      · rename_i hpos
        exact exists_two_pow hpow hpos
  · cases h
    exact ⟨3, rfl⟩

theorem CreateArgs.assocOf_spec {c : CreateArgs} {size assoc : Nat}
    (h : c.assocOf size = some assoc) : ∃ k, assoc = 2 ^ k ∧ k ≤ 13 := by
  simp only [assocOf] at h
  split at h
  · split at h
    · cases h
    · rename_i hok
      simp only [ne_eq, not_or, not_not, not_lt] at hok
      cases h
      split
      · exact ⟨9, rfl, by decide⟩
      · rename_i hpos
        obtain ⟨k, hk⟩ := exists_two_pow hok.1 hpos
        refine ⟨k, hk, ?_⟩
        by_contra hlt
        have hle : 2 ^ 14 ≤ 2 ^ k := Nat.pow_le_pow_right (by decide) (by omega)
        omega
  · cases h
    exact ⟨9, rfl, by decide⟩

theorem CreateArgs.sectorsOf_lt {c : CreateArgs} {sectors : Nat}
    (h : c.sectorsOf = some sectors) : sectors < 2 ^ 64 := by
  have hdev : toSector c.cacheDevBytes < 2 ^ 64 :=
    lt_of_le_of_lt (Nat.div_le_self _ _) c.cacheDevBytes_lt
  have hssd : c.ssdDevSize / c.ssdSectorSize < 2 ^ 64 :=
    lt_of_le_of_lt (Nat.div_le_self _ _) c.ssdDevSize_lt
  simp only [sectorsOf, Option.ite_none_left_eq_some, Option.some.injEq] at h
  rw [← h.2]
  split <;> assumption

/-- A product of powers of two that is not a multiple of `2 ^ 32` is below it. -/
theorem two_pow_mul_mod {a b : Nat} (h : 2 ^ a * 2 ^ b % 2 ^ 32 ≠ 0) : a + b ≤ 31 := by
  by_contra hlt
  apply h
  rw [← Nat.pow_add]
  exact Nat.mod_eq_zero_of_dvd (Nat.pow_dvd_pow 2 (by omega))

/-! ## What is accepted -/

/-- An accepted request: block size and associativity are powers of two of the
given logarithms, with the bounds of a `Geom`, and `eio_md_create` got them. -/
theorem CreateArgs.create_spec {c : CreateArgs} {l : Layout} (h : c.create = some l) :
    ∃ blockShift consecutiveShift sectors, consecutiveShift ≤ 13 ∧
      consecutiveShift + blockShift ≤ 31 ∧ sectors < 2 ^ 64 ∧
      toSector c.diskDevBytes < 2 ^ 40 ∧
      toSector c.diskDevBytes / 2 ^ (consecutiveShift + blockShift) < 2 ^ 32 ∧
      mdCreate (c.mode.getD .wt) sectors (toSector c.cacheDevBytes) c.cacheDevStartSect
        (2 ^ blockShift) (2 ^ consecutiveShift) (toSector c.diskDevBytes) = some l := by
  simp only [create, bind, Option.bind_eq_some_iff, Option.guard_eq_some'] at h
  obtain ⟨_, hdisk, blockSize, hblock, sectors, hsect, assoc, hassoc, _, hdiv, _, hsets, h⟩ := h
  obtain ⟨b, rfl⟩ := blockSizeOf_spec hblock
  obtain ⟨a, rfl, ha⟩ := assocOf_spec hassoc
  have hle := two_pow_mul_mod hdiv
  have hmod : 2 ^ a * 2 ^ b % 2 ^ 32 = 2 ^ (a + b) := by
    rw [← Nat.pow_add]
    exact Nat.mod_eq_of_lt (Nat.pow_lt_pow_right (by decide) (by omega))
  rw [hmod] at hsets
  exact ⟨b, a, sectors, ha, hle, sectorsOf_lt hsect, hdisk, hsets, h⟩

theorem metadataStart_bounds (startSect : Nat) :
    144 ≤ metadataStart startSect ∧ metadataStart startSect ≤ 159 := by
  simp only [metadataStart, superblockStart, superblockSectors, align1Sectors]
  split <;> omega

theorem metadataStart_aligned (startSect : Nat) :
    (startSect + metadataStart startSect) % 16 = 0 := by
  simp only [metadataStart, superblockStart, superblockSectors, align1Sectors]
  split <;> omega

theorem align2Sectors_aligned (mdSects : Nat) : (mdSects + align2Sectors mdSects) % 16 = 0 := by
  simp only [align2Sectors]
  split <;> omega

theorem mdSectorsFor_aligned (startSect blocks : Nat) :
    (startSect + mdSectorsFor startSect blocks) % 16 = 0 := by
  have hmd := metadataStart_aligned startSect
  have halign := align2Sectors_aligned (blocks / 32)
  simp only [mdSectorsFor, extraSectors]
  omega

/-- The red zone leaves room for the entries of a last, partly filled sector. -/
theorem mdSectorsFor_lower (startSect blocks : Nat) :
    metadataStart startSect + (blocks + 31) / 32 < mdSectorsFor startSect blocks := by
  simp only [mdSectorsFor, extraSectors]
  omega

theorem mdSectorsFor_upper (startSect blocks : Nat) :
    mdSectorsFor startSect blocks ≤ blocks / 32 + 190 := by
  have hmd := metadataStart_bounds startSect
  have halign : align2Sectors (blocks / 32) ≤ 15 := by
    simp only [align2Sectors]
    split <;> omega
  simp only [mdSectorsFor, extraSectors]
  omega

theorem mdSectorsFor_mono (startSect : Nat) {blocks blocks' : Nat} (h : blocks ≤ blocks') :
    mdSectorsFor startSect blocks ≤ mdSectorsFor startSect blocks' := by
  have hdiv : blocks / 32 ≤ blocks' / 32 := Nat.div_le_div_right h
  simp only [mdSectorsFor, extraSectors, align2Sectors]
  split <;> split <;> omega

theorem memInit_lt {size assoc lsbBits diskSize : Nat} {md8 : Bool}
    (h : memInit size assoc lsbBits diskSize = some md8) : size / assoc < 2 ^ 31 := by
  simp only [memInit, Option.ite_none_left_eq_some] at h
  omega

/-- The subtraction of `eio_md_create` does not wrap on a device it accepts: if it
did, there would be more than `2 ^ 31` sets. -/
theorem mdSectorsFor_le_sectors {sectors startSect a b : Nat} (hab : a + b ≤ 31)
    (hsect : sectors < 2 ^ 64)
    (hsets : (sectors + 2 ^ 64 - mdSectorsFor startSect (sectors / 2 ^ b)) % 2 ^ 64 /
      2 ^ b / 2 ^ a < 2 ^ 31) :
    mdSectorsFor startSect (sectors / 2 ^ b) ≤ sectors := by
  by_contra hlt
  have hup := mdSectorsFor_upper startSect (sectors / 2 ^ b)
  have hdiv : sectors / 2 ^ b ≤ sectors := Nat.div_le_self _ _
  have hset : 2 ^ (b + a) ≤ 2 ^ 31 := Nat.pow_le_pow_right (by decide) (by omega)
  rw [Nat.div_div_eq_div_mul, ← Nat.pow_add, Nat.div_lt_iff_lt_mul (Nat.two_pow_pos _)] at hsets
  omega

/-- An accepted layout: the metadata and all blocks fit the device. -/
theorem mdCreate_spec {mode : Mode} {sectors devSize startSect a b diskSize : Nat} {l : Layout}
    (hab : a + b ≤ 31) (hsect : sectors < 2 ^ 64)
    (h : mdCreate mode sectors devSize startSect (2 ^ b) (2 ^ a) diskSize = some l) :
    ∃ numSets, numSets < 2 ^ 31 ∧
      mdSectorsFor startSect (numSets * 2 ^ a) + numSets * 2 ^ a * 2 ^ b ≤ devSize ∧
      memInit (numSets * 2 ^ a) (2 ^ a) (a + b) diskSize = some l.md8 ∧
      l = { mode := mode, blockSize := 2 ^ b, assoc := 2 ^ a, diskSize := diskSize
            cacheDevStartSect := startSect, mdStartSect := metadataStart startSect
            mdSectors := mdSectorsFor startSect (numSets * 2 ^ a)
            size := numSets * 2 ^ a, md8 := l.md8 } := by
  simp only [mdCreate, Nat.log2_two_pow, Option.bind_eq_some_iff, Option.ite_none_left_eq_some,
    Option.some.injEq, not_lt] at h
  obtain ⟨md8, hmem, hfit, rfl⟩ := h
  have hsets := memInit_lt hmem
  rw [Nat.mul_div_cancel _ (Nat.two_pow_pos a)] at hsets
  have hle := mdSectorsFor_le_sectors hab hsect hsets
  refine ⟨_, hsets, ?_, hmem, rfl⟩
  clear hmem
  have havail : (sectors + 2 ^ 64 - mdSectorsFor startSect (sectors / 2 ^ b)) % 2 ^ 64 =
      sectors - mdSectorsFor startSect (sectors / 2 ^ b) := by
    rw [Nat.add_comm, Nat.add_sub_assoc hle, Nat.add_mod_left, Nat.mod_eq_of_lt (by omega)]
  rw [havail] at hfit ⊢
  generalize hn : (sectors - mdSectorsFor startSect (sectors / 2 ^ b)) / 2 ^ b / 2 ^ a = numSets
    at hfit ⊢
  have hblocks : numSets * 2 ^ a ≤
      (sectors - mdSectorsFor startSect (sectors / 2 ^ b)) / 2 ^ b :=
    hn ▸ Nat.div_mul_le_self _ _
  have hdata : numSets * 2 ^ a * 2 ^ b ≤
      sectors - mdSectorsFor startSect (sectors / 2 ^ b) :=
    le_trans (Nat.mul_le_mul_right _ hblocks) (Nat.div_mul_le_self _ _)
  -- fewer blocks than sectors divided by the block size: `md_sectors` only shrank
  have hmono : mdSectorsFor startSect (numSets * 2 ^ a) ≤
      mdSectorsFor startSect (sectors / 2 ^ b) :=
    mdSectorsFor_mono _ (le_trans hblocks (Nat.div_le_div_right (Nat.sub_le _ _)))
  rwa [Nat.mod_eq_of_lt (by omega)] at hfit

/-! ## An accepted cache is a `Geom` with disjoint regions -/

/-- What an accepted request gives, in one record. -/
structure Layout.Accepted (l : Layout) (devSize : Nat) (blockShift : Nat) : Prop where
  blockSize : l.blockSize = 2 ^ blockShift
  mdStartSect : l.mdStartSect = metadataStart l.cacheDevStartSect
  mdSectors : l.mdSectors = mdSectorsFor l.cacheDevStartSect l.size
  fits : l.mdSectors + l.size * l.blockSize ≤ devSize
  assoc_dvd : l.assoc ∣ l.size

theorem CreateArgs.create_accepted {c : CreateArgs} {l : Layout} (h : c.create = some l) :
    ∃ blockShift, l.Accepted (toSector c.cacheDevBytes) blockShift := by
  obtain ⟨b, a, sectors, _, hab, hsect, _, _, hmd⟩ := create_spec h
  obtain ⟨numSets, _, hfit, _, heq⟩ := mdCreate_spec hab hsect hmd
  refine ⟨b, ?_⟩
  rw [heq]
  exact ⟨rfl, rfl, rfl, hfit, Dvd.intro_left _ rfl⟩

/-- The cache that an accepted request creates, if it has any block, is one of
the model. -/
theorem CreateArgs.create_geom {c : CreateArgs} {l : Layout} (h : c.create = some l)
    (hsize : 0 < l.size) :
    ∃ g : Geom, g.mode = l.mode ∧ g.blockSize = l.blockSize ∧ g.assoc = l.assoc ∧
      g.size = l.size ∧ g.diskSize = l.diskSize ∧ g.md8 = l.md8 := by
  obtain ⟨b, a, sectors, ha, hab, hsect, hdisk, hsets, hmd⟩ := create_spec h
  obtain ⟨numSets, hnum, _, hmem, heq⟩ := mdCreate_spec hab hsect hmd
  have hpos : 0 < numSets := by
    rw [heq] at hsize
    exact Nat.pos_of_mul_pos_right hsize
  let g : Geom :=
    { mode := l.mode, blockShift := b, consecutiveShift := a, numSets := numSets
      diskSize := toSector c.diskDevBytes, assoc_le := ha, sectorsPerSet_lt := hab
      numSets_pos := hpos, numSets_lt := hnum, diskSize_lt := hdisk, diskSets_lt := hsets }
  refine ⟨g, rfl, ?_, ?_, ?_, ?_, ?_⟩
  · rw [heq]; rfl
  · rw [heq]; rfl
  · rw [heq]; exact Nat.mul_comm _ _
  · rw [heq]
  · simp only [memInit, Option.ite_none_left_eq_some, Option.some.injEq,
      Nat.mul_div_cancel _ (Nat.two_pow_pos a)] at hmem
    exact hmem.2.2

namespace Layout.Accepted

variable {l : Layout} {devSize blockShift : Nat} (h : l.Accepted devSize blockShift)

include h

theorem superblock_metadata : superblock.Disjoint l.metadata := by
  have hmd := metadataStart_bounds l.cacheDevStartSect
  left
  simp only [superblock, metadata, h.mdStartSect, superblockStart, superblockSectors]
  omega

/-- The metadata and the superblock end before the data begins. -/
theorem metadata_lt : l.mdStartSect + (l.size + 31) / 32 + 1 ≤ l.mdSectors := by
  have hlow := mdSectorsFor_lower l.cacheDevStartSect l.size
  rw [h.mdStartSect, h.mdSectors]
  omega

theorem superblock_lt : superblockStart + superblockSectors ≤ l.mdSectors := by
  have hmd := metadataStart_bounds l.cacheDevStartSect
  have hlt := h.metadata_lt
  rw [h.mdStartSect] at hlt
  simp only [superblockStart, superblockSectors]
  omega

omit h in
theorem slot_disjoint {i j : Nat} (hij : i < j) : (l.slot i).Disjoint (l.slot j) := by
  have hmul := Nat.mul_le_mul_right l.blockSize (Nat.succ_le_of_lt hij)
  rw [Nat.succ_mul] at hmul
  left
  simp only [slot]
  omega

theorem slot_le {i : Nat} (hi : i < l.size) :
    l.mdSectors + i * l.blockSize + l.blockSize ≤ devSize := by
  have hmul := Nat.mul_le_mul_right l.blockSize (Nat.succ_le_of_lt hi)
  rw [Nat.succ_mul] at hmul
  have hfits := h.fits
  omega

theorem regions_pairwise : l.regions.Pairwise IoRegion.Disjoint := by
  have hmd := h.metadata_lt
  have hsb := h.superblock_lt
  have hslots : ((List.range l.size).map l.slot).Pairwise IoRegion.Disjoint := by
    rw [List.pairwise_map]
    exact List.pairwise_lt_range.imp slot_disjoint
  refine List.pairwise_cons.mpr ⟨?_, List.pairwise_cons.mpr ⟨?_, hslots⟩⟩
  · intro r hr
    rcases List.mem_cons.mp hr with rfl | hr
    · exact h.superblock_metadata
    · obtain ⟨i, -, rfl⟩ := List.mem_map.mp hr
      left
      simp only [superblock, slot]
      omega
  · intro r hr
    obtain ⟨i, -, rfl⟩ := List.mem_map.mp hr
    left
    simp only [metadata, slot]
    omega

theorem regions_le : ∀ r ∈ l.regions, r.sector + r.count ≤ devSize := by
  have hmd := h.metadata_lt
  have hsb := h.superblock_lt
  have hfits := h.fits
  intro r hr
  rcases List.mem_cons.mp hr with rfl | hr
  · simp only [superblock]
    omega
  rcases List.mem_cons.mp hr with rfl | hr
  · simp only [metadata]
    omega
  · obtain ⟨i, hi, rfl⟩ := List.mem_map.mp hr
    exact h.slot_le (List.mem_range.mp hi)

/-- The region of a job lies in the slot of its block, if the ebio lies in one
block. -/
theorem newJob_within (hdev : devSize < 2 ^ 64) {i : Nat} (hi : i < l.size) (seg : Option Seg)
    (hseg : ∀ s ∈ seg, s.nsect ≤ l.blockSize - s.sector % l.blockSize) :
    (l.newJob i seg).Within (l.slot i) := by
  have hle := h.slot_le hi
  have hpos : 0 < l.blockSize := h.blockSize ▸ Nat.two_pow_pos _
  have hshift : i <<< Nat.log2 l.blockSize = i * l.blockSize := by
    rw [h.blockSize, Nat.log2_two_pow, Nat.shiftLeft_eq]
  cases seg with
  | none =>
    simp only [newJob, slot, IoRegion.Within, hshift]
    rw [Nat.mod_eq_of_lt (by omega)]
    omega
  | some s =>
    have hfit := hseg s rfl
    have hmod := Nat.mod_lt s.sector hpos
    have hround : s.sector - s.sector / l.blockSize * l.blockSize =
        s.sector % l.blockSize := by
      rw [Nat.mul_comm, ← Nat.mod_eq_sub_mul_div]
    simp only [newJob, slot, IoRegion.Within, hshift, hround]
    rw [Nat.mod_eq_of_lt (by omega)]
    omega

end Layout.Accepted

/-- The layout of every cache that is created: superblock, metadata and data slots
are disjoint and on the device, metadata and data begin at multiples of 8 KiB of
the whole disk, the sets are full, and every job stays in the slot of its block. -/
theorem ssd_layout (c : CreateArgs) (l : Layout) (h : c.create = some l) :
    l.regions.Pairwise IoRegion.Disjoint ∧
      (∀ r ∈ l.regions, r.sector + r.count ≤ toSector c.cacheDevBytes) ∧
      (c.cacheDevStartSect + l.mdStartSect) % 16 = 0 ∧
      (c.cacheDevStartSect + l.mdSectors) % 16 = 0 ∧
      l.assoc ∣ l.size ∧
      ∀ i < l.size, (l.newJob i none).Within (l.slot i) ∧
        ∀ (g : Geom) (sector nsect : Nat) (segs : List Seg), g.blockSize = l.blockSize →
          g.split sector nsect = some segs →
          ∀ seg ∈ segs, (l.newJob i (some seg)).Within (l.slot i) := by
  obtain ⟨blockShift, hacc⟩ := c.create_accepted h
  have hstart : l.cacheDevStartSect = c.cacheDevStartSect := by
    obtain ⟨b, a, sectors, _, hab, hsect, _, _, hmd⟩ := c.create_spec h
    obtain ⟨_, _, _, _, heq⟩ := mdCreate_spec hab hsect hmd
    rw [heq]
  have hdev : toSector c.cacheDevBytes < 2 ^ 64 :=
    lt_of_le_of_lt (Nat.div_le_self _ _) c.cacheDevBytes_lt
  refine ⟨hacc.regions_pairwise, hacc.regions_le, ?_, ?_, hacc.assoc_dvd, ?_⟩
  · rw [hacc.mdStartSect, hstart]
    exact metadataStart_aligned _
  · rw [hacc.mdSectors, hstart]
    exact mdSectorsFor_aligned _ _
  · intro i hi
    refine ⟨hacc.newJob_within hdev hi none (by simp), ?_⟩
    intro g sector nsect segs hbs hsplit seg hmem
    have hfit := (g.splitLoop_within hsplit seg hmem).1.2
    rw [hbs] at hfit
    exact hacc.newJob_within hdev hi (some seg) (by simpa using hfit)

/-- A request for a 10 GiB cache device that starts at sector 63, with the default
block size and associativity, for a source of 100 GiB. -/
def defaultArgs : CreateArgs where
  mode := some .wb
  blksize := 0
  ssdSectorSize := 512
  assoc := 0
  ssdDevSize := 0
  cacheDevBytes := 10 * 2 ^ 30
  cacheDevStartSect := 63
  diskDevBytes := 100 * 2 ^ 30
  ssdDevSize_lt := by decide
  cacheDevBytes_lt := by decide

def defaultLayout : Layout where
  mode := .wb
  blockSize := 8
  assoc := 512
  diskSize := 209715200
  cacheDevStartSect := 63
  mdStartSect := 145
  mdSectors := 81745
  size := 2610688
  md8 := true

theorem ssd_layout_default :
    defaultArgs.create = some defaultLayout ∧
      defaultLayout.regions.Pairwise IoRegion.Disjoint ∧
      (defaultLayout.newJob 7 none).Within (defaultLayout.slot 7) := by
  have hcreate : defaultArgs.create = some defaultLayout := by decide +kernel
  obtain ⟨hdisjoint, -, -, -, -, hjobs⟩ := ssd_layout defaultArgs defaultLayout hcreate
  exact ⟨hcreate, hdisjoint, (hjobs 7 (by decide)).1⟩

theorem create_geom_default : ∃ g : Geom, g.mode = .wb ∧ g.blockSize = 8 ∧ g.assoc = 512 ∧
    g.size = 2610688 ∧ g.diskSize = 209715200 ∧ g.md8 = true :=
  CreateArgs.create_geom (c := defaultArgs) (l := defaultLayout) (by decide +kernel) (by decide)

end EnhanceIO
