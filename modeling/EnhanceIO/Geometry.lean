import Mathlib.Data.Nat.Size
import Mathlib.Tactic.Ring

/-!
# Cache geometry

The constants of a `cache_c` that are fixed when the cache is created
(`eio_cache_create`, `eio_mem_init`) and the arithmetic on them: which set a
source sector belongs to (`eio_mem.c`), how a bio is cut into blocks
(`eio_get_iosize`) and which sets it touches (`eio_acquire_set_locks`).
-/

namespace EnhanceIO

/-- `CACHE_MODE_WB`, `CACHE_MODE_RO`, `CACHE_MODE_WT`. -/
inductive Mode where
  | wb | ro | wt
  deriving DecidableEq, Repr

/-- `CACHE_MODE_*`. -/
def Mode.code : Mode → BitVec 32
  | .wb => 1
  | .ro => 2
  | .wt => 3

/-- The fixed part of a cache. The bounds are the ones `eio_cache_create` and
`eio_mem_init` enforce: associativity and block size are powers of two, the
associativity is at most `EIO_MAX_ASSOC`, the product of the two is used as a
32-bit divisor, the number of sets fits an unsigned int, and the source device
has fewer than `EIO_MAX_SECTOR` sectors and fewer than `2 ^ 32` stretches of
`SECTORS_PER_SET`. With `2 ^ 31` sets or more `eio_mem_init` does not come to an
end: its loop over the bits of the number shifts a 32-bit value by 32. -/
structure Geom where
  mode : Mode
  blockShift : Nat
  consecutiveShift : Nat
  numSets : Nat
  diskSize : Nat
  assoc_le : consecutiveShift ≤ 13
  sectorsPerSet_lt : consecutiveShift + blockShift ≤ 31
  numSets_pos : 0 < numSets
  numSets_lt : numSets < 2 ^ 31
  diskSize_lt : diskSize < 2 ^ 40
  diskSets_lt : diskSize / 2 ^ (consecutiveShift + blockShift) < 2 ^ 32

/-- A cache of given sizes, with the bounds on them as one decidable fact. -/
@[reducible]
def Geom.ofSizes (mode : Mode) (blockShift consecutiveShift numSets diskSize : Nat)
    (fits : consecutiveShift ≤ 13 ∧ consecutiveShift + blockShift ≤ 31 ∧ 0 < numSets ∧
      numSets < 2 ^ 31 ∧ diskSize < 2 ^ 40 ∧
      diskSize / 2 ^ (consecutiveShift + blockShift) < 2 ^ 32) : Geom where
  mode := mode
  blockShift := blockShift
  consecutiveShift := consecutiveShift
  numSets := numSets
  diskSize := diskSize
  assoc_le := fits.1
  sectorsPerSet_lt := fits.2.1
  numSets_pos := fits.2.2.1
  numSets_lt := fits.2.2.2.1
  diskSize_lt := fits.2.2.2.2.1
  diskSets_lt := fits.2.2.2.2.2

/-- The part of a bio one `eio_bio` stands for: `eb_sector` and `eb_size`, the
latter in sectors. -/
structure Seg where
  sector : Nat
  nsect : Nat
  deriving DecidableEq, Repr, Inhabited

/-- Sector `x` belongs to the segment. -/
def Seg.Covers (seg : Seg) (x : Nat) : Prop := seg.sector ≤ x ∧ x < seg.sector + seg.nsect

instance (seg : Seg) (x : Nat) : Decidable (seg.Covers x) :=
  inferInstanceAs (Decidable (_ ∧ _))

namespace Geom

variable (g : Geom)

def blockSize : Nat := 2 ^ g.blockShift
def assoc : Nat := 2 ^ g.consecutiveShift

/-- `dmc->size`, in blocks. -/
def size : Nat := g.assoc * g.numSets

/-- `SECTORS_PER_SET_SHIFT`. -/
def setShift : Nat := g.consecutiveShift + g.blockShift

/-- `SECTORS_PER_SET`. -/
def sectorsPerSet : Nat := g.assoc * g.blockSize

/-- `num_sets_bits`, the bit length of `num_sets` (the loop of `eio_mem_init`). -/
def numSetsBits : Nat := g.numSets.size

/-- `num_sets_mask`. -/
def numSetsMask : Nat := 2 ^ g.numSetsBits - 1

/-- The largest sector number 4-byte metadata can hold. `msb_bits_24` and the
shift are unsigned 32-bit expressions. -/
def maxDbn : Nat :=
  let msbBits24 := (2 ^ 32 + 24 - 1 - g.setShift) % 2 ^ 32
  2 ^ ((msbBits24 + g.numSetsBits + g.setShift) % 2 ^ 32)

/-- `EIO_MD8`: the decision of `eio_mem_init` for 8-byte metadata. -/
def md8 : Bool := g.numSetsBits < 16 || g.diskSize > g.maxDbn

/-- `EIO_DBN_TO_SET`: the set of a sector and whether the masked value wrapped. -/
def dbnToSet (dbn : Nat) : Nat × Nat :=
  let value := dbn >>> g.setShift
  let mid := value &&& g.numSetsMask
  if mid ≥ g.numSets then (mid - g.numSets, 1) else (mid, 0)

/-- `eio_hash_block`. -/
def hashBlock (dbn : Nat) : Nat := (g.dbnToSet dbn).1

/-- `EIO_ROUND_SECTOR`: the low `block_shift` bits cleared. -/
def roundSector (sector : Nat) : Nat := sector / g.blockSize * g.blockSize

/-- `EIO_ROUND_SET_SECTOR`. -/
def roundSetSector (sector : Nat) : Nat := sector / g.sectorsPerSet * g.sectorsPerSet

/-! ## Cutting a bio into blocks -/

/-- `eio_get_iosize`, in sectors: from `snum` to the end of its block, the
number of bytes cut to an unsigned int, and no more than the bio has left. -/
def getIosize (snum biosize : Nat) : Nat :=
  min ((g.blockSize - snum % g.blockSize) % 2 ^ 23) biosize

/-- The loop of `eio_map` that creates the ebios of a bio. With blocks of
4 GiB the cut size can be zero; the source then stops at the assertion of
`eio_new_ebio` on the number of vectors, and the result is `none`. `fuel` bounds the
number of rounds. -/
def splitLoop : Nat → Nat → Nat → Option (List Seg)
  | _, _, 0 => some []
  | 0, _, _ + 1 => none
  | fuel + 1, snum, biosize + 1 =>
    let iosize := g.getIosize snum (biosize + 1)
    if iosize = 0 then none
    else (splitLoop fuel (snum + iosize) (biosize + 1 - iosize)).map (⟨snum, iosize⟩ :: ·)

/-- The ebios of a bio of `nsect` sectors at `sector`, if there is memory for them all:
where `eio_new_ebio` finds none the source ends the bio with `-ENOMEM`. -/
def split (sector nsect : Nat) : Option (List Seg) := g.splitLoop nsect sector nsect

/-! ## The sets a bio locks -/

/-- `insert_set_seq`: add the run of sets `first..last` to a sorted list of
runs, letting the runs already there absorb what they overlap. -/
def insertSetSeq : List (Nat × Nat) → Nat → Nat → List (Nat × Nat)
  | [], first, last => [(first, last)]
  | (curFirst, curLast) :: rest, first, last =>
    if first > curLast then (curFirst, curLast) :: insertSetSeq rest first last
    else if last < curFirst then (first, last) :: (curFirst, curLast) :: rest
    else if last ≤ curLast then (min first curFirst, curLast) :: rest
    else (min first curFirst, curLast) :: insertSetSeq rest (curLast + 1) last

/-- The collecting loop of `eio_acquire_set_locks` over the sets the bio
touches, with the run being built in `run`. -/
def collectSeqs : List Nat → List (Nat × Nat) → Nat × Nat → List (Nat × Nat)
  | [], seqs, run => insertSetSeq seqs run.1 run.2
  | cur :: sets, seqs, run =>
    if cur = run.2 + 1 then collectSeqs sets seqs (run.1, cur)
    else collectSeqs sets (insertSetSeq seqs run.1 run.2) (cur, cur)

/-- The sets of a bio, one per stretch of `SECTORS_PER_SET` sectors it touches. -/
def spanSets (sector nsect : Nat) : List Nat :=
  let first := g.roundSetSector sector
  let count := (sector + nsect - first + g.sectorsPerSet - 1) / g.sectorsPerSet
  (List.range count).map fun j => g.hashBlock (first + j * g.sectorsPerSet)

/-- The read locks `eio_acquire_set_locks` takes for a bio, in order. Without memory for
its list it takes none, and the bio ends with `-ENOMEM`: that is left out. -/
def lockSets (sector nsect : Nat) : List Nat :=
  match g.spanSets sector nsect with
  | [] => []
  | set :: sets =>
    (collectSeqs sets [] (set, set)).flatMap fun run => List.range' run.1 (run.2 + 1 - run.1)

/-! ## Facts about sets and blocks -/

theorem blockSize_pos : 0 < g.blockSize := Nat.two_pow_pos _

theorem assoc_pos : 0 < g.assoc := Nat.two_pow_pos _

theorem sectorsPerSet_eq : g.sectorsPerSet = 2 ^ g.setShift := by
  simp only [sectorsPerSet, assoc, blockSize, setShift, Nat.pow_add]

theorem sectorsPerSet_pos : 0 < g.sectorsPerSet := by
  rw [sectorsPerSet_eq]; exact Nat.two_pow_pos _

theorem two_pow_bits_le : 2 ^ g.numSetsBits ≤ 2 * g.numSets := by
  have hpos : 0 < g.numSetsBits := Nat.size_pos.mpr g.numSets_pos
  have hle : 2 ^ (g.numSetsBits - 1) ≤ g.numSets :=
    Nat.lt_size.mp (Nat.sub_lt hpos Nat.one_pos)
  calc 2 ^ g.numSetsBits = 2 * 2 ^ (g.numSetsBits - 1) := by
        rw [← Nat.pow_succ', Nat.succ_eq_add_one, Nat.sub_add_cancel hpos]
    _ ≤ 2 * g.numSets := Nat.mul_le_mul_left 2 hle

theorem dbnToSet_eq (dbn : Nat) :
    g.dbnToSet dbn =
      if g.numSets ≤ dbn / g.sectorsPerSet % 2 ^ g.numSetsBits then
        (dbn / g.sectorsPerSet % 2 ^ g.numSetsBits - g.numSets, 1)
      else (dbn / g.sectorsPerSet % 2 ^ g.numSetsBits, 0) := by
  simp only [dbnToSet, numSetsMask, Nat.and_two_pow_sub_one_eq_mod, Nat.shiftRight_eq_div_pow,
    sectorsPerSet_eq, ge_iff_le]

/-- The assertion of `eio_hash_block` never fails. -/
theorem hashBlock_lt (dbn : Nat) : g.hashBlock dbn < g.numSets := by
  have hlt : dbn / g.sectorsPerSet % 2 ^ g.numSetsBits < 2 ^ g.numSetsBits :=
    Nat.mod_lt _ (Nat.two_pow_pos _)
  have hle := g.two_pow_bits_le
  rw [hashBlock, dbnToSet_eq]
  split <;> simp only <;> omega

/-- Sectors of one stretch of `SECTORS_PER_SET` sectors share their set. -/
theorem hashBlock_congr {x y : Nat} (h : x / g.sectorsPerSet = y / g.sectorsPerSet) :
    g.hashBlock x = g.hashBlock y := by
  simp only [hashBlock, dbnToSet_eq, h]

theorem roundSector_le (x : Nat) : g.roundSector x ≤ x := Nat.div_mul_le_self _ _

theorem roundSector_div (x : Nat) : g.roundSector x / g.blockSize = x / g.blockSize :=
  Nat.mul_div_cancel _ g.blockSize_pos

theorem div_sectorsPerSet (x : Nat) :
    x / g.sectorsPerSet = x / g.blockSize / g.assoc := by
  rw [sectorsPerSet, Nat.mul_comm, Nat.div_div_eq_div_mul]

/-- A block lies in one set. -/
theorem hashBlock_roundSector (x : Nat) :
    g.hashBlock (g.roundSector x) = g.hashBlock x := by
  apply hashBlock_congr
  rw [div_sectorsPerSet, div_sectorsPerSet, roundSector_div]

/-! ## What the ebios of a bio cover -/

theorem getIosize_le (snum biosize : Nat) : g.getIosize snum biosize ≤ biosize :=
  Nat.min_le_right _ _

theorem splitLoop_cons {fuel snum biosize : Nat} {segs : List Seg}
    (h : g.splitLoop fuel snum (biosize + 1) = some segs) :
    ∃ fuel' rest, 0 < g.getIosize snum (biosize + 1) ∧
      segs = ⟨snum, g.getIosize snum (biosize + 1)⟩ :: rest ∧
      g.splitLoop fuel' (snum + g.getIosize snum (biosize + 1))
        (biosize + 1 - g.getIosize snum (biosize + 1)) = some rest := by
  cases fuel with
  | zero => simp [splitLoop] at h
  | succ fuel =>
    simp only [splitLoop] at h
    split at h
    · simp at h
    · obtain ⟨rest, hrest, rfl⟩ := Option.map_eq_some_iff.mp h
      exact ⟨fuel, rest, by omega, rfl, hrest⟩

/-- A segment lies in the bio and ends with its block at the latest. -/
theorem splitLoop_within {segs : List Seg} : ∀ {fuel snum biosize : Nat},
    g.splitLoop fuel snum biosize = some segs → ∀ seg ∈ segs,
      (0 < seg.nsect ∧ seg.nsect ≤ g.blockSize - seg.sector % g.blockSize) ∧
        snum ≤ seg.sector ∧ seg.sector + seg.nsect ≤ snum + biosize := by
  induction segs with
  | nil => intro _ _ _ _ seg hmem; simp at hmem
  | cons head tail ih =>
    intro fuel snum biosize h seg hmem
    cases biosize with
    | zero => simp [splitLoop] at h
    | succ biosize =>
      obtain ⟨fuel', rest, hpos, hsegs, hrest⟩ := g.splitLoop_cons h
      have hle := g.getIosize_le snum (biosize + 1)
      obtain ⟨rfl, rfl⟩ := List.cons.inj hsegs
      rcases List.mem_cons.mp hmem with rfl | hmem
      · exact ⟨⟨hpos, Nat.le_trans (Nat.min_le_left _ _) (Nat.mod_le _ _)⟩, Nat.le_refl _,
          by simp only; omega⟩
      · obtain ⟨hfit, hin⟩ := ih hrest seg hmem
        exact ⟨hfit, by omega⟩

end Geom
end EnhanceIO
