import EnhanceIO.Create
import EnhanceIO.Policies

/-!
# The numbers of blocks and sets

The first block of a set is computed as an unsigned int in `eio_lookup` and in
`eio_fifo_cache_sets_init`, and as an int in `eio_inval_block_set_range`; the loops that set up
the replacement policies count sets and blocks in an int; and the part of a range that lies in
one set is a number of bytes in an unsigned int in `eio_inval_range`.

The functions are stated on plain numbers, so that they go as far as `eio_mem_init` lets the
number of sets go; those of the model are the same functions (`Geom.startIndex_eq`,
`Geom.invalInset_eq`). `index_exact_iff` says up to which sizes they are all right.
-/

namespace EnhanceIO

/-- The sizes of a cache: what `eio_cache_create` and `eio_mem_init` check of them. -/
structure Sizes where
  blockShift : Nat
  consecutiveShift : Nat
  numSets : Nat
  assoc_le : consecutiveShift ≤ 13
  sectorsPerSet_lt : consecutiveShift + blockShift ≤ 31
  numSets_le : numSets ≤ 2 ^ 32 - 1

/-- An unsigned int read as an int. -/
def toInt (n : Nat) : Int := if n % 2 ^ 32 < 2 ^ 31 then n % 2 ^ 32 else n % 2 ^ 32 - 2 ^ 32

theorem toInt_of_lt {n : Nat} (h : n < 2 ^ 31) : toInt n = n := by
  rw [toInt]
  split <;> omega

/-- `start_index` of `eio_lookup`. -/
def lookupStart (assoc setNumber : Nat) : Nat := assoc * setNumber % 2 ^ 32

/-- `start_index` of `eio_inval_block_set_range`. -/
def invalStart (assoc set : Nat) : Int := toInt (assoc * set % 2 ^ 32)

/-- `snext - snum` in `eio_inval_range`: the sectors from `snum` to the end of its set. -/
def restOfSet (shift snum : Nat) : Nat := (((snum >>> shift) + 1) <<< shift) - snum

/-- The number of bytes of them, before it is compared with the size of the range. -/
def restBytes (shift snum : Nat) : Nat := restOfSet shift snum * 512 % 2 ^ 32

namespace Sizes

variable (c : Sizes)

def assoc : Nat := 2 ^ c.consecutiveShift

/-- `dmc->size`, in blocks. -/
def size : Nat := c.assoc * c.numSets

/-- All of them are right: the first block of a set, the sets and blocks that the loops of the
FIFO and the LRU policy come to, in whatever memory they are given, and the bytes of a range in
one set, of which there are some. -/
structure IndexExact : Prop where
  lookup : ∀ s < c.numSets, lookupStart c.assoc s = c.assoc * s
  inval : ∀ s < c.numSets, invalStart c.assoc s = (c.assoc * s : Nat)
  fifo : ∀ (f : Fifo), ∀ s < c.numSets,
    (f.cacheSetsInit c.assoc c.numSets).fifoNext s = c.assoc * s ∧
      (f.cacheSetsInit c.assoc c.numSets).cleanNext s = c.assoc * s
  lruSets : ∀ (l : BlockLru), ∀ s < c.numSets,
    (l.cacheSetsInit c.numSets).head s = lruNull ∧ (l.cacheSetsInit c.numSets).tail s = lruNull
  lruBlocks : ∀ i < c.size, i ∈ List.range (intRounds c.size)
  invalRange : ∀ snum, restBytes (c.consecutiveShift + c.blockShift) snum =
      restOfSet (c.consecutiveShift + c.blockShift) snum * 512 ∧
    0 < restBytes (c.consecutiveShift + c.blockShift) snum

end Sizes

/-! ## The functions of the model -/

namespace Geom

variable (g : Geom)

theorem startIndex_eq (set : Nat) : Sys.startIndex g set = lookupStart g.assoc set := rfl

theorem invalNext_sub (snum : Nat) : Sys.invalNext g snum - snum = restOfSet g.setShift snum := by
  rw [Sys.invalNext, restOfSet, Nat.shiftLeft_eq, Nat.shiftRight_eq_div_pow, sectorsPerSet_eq]

theorem invalInset_eq (snum iosize : Nat) :
    Sys.invalInset g snum iosize = min (restBytes g.setShift snum) iosize := by
  rw [Sys.invalInset, invalNext_sub, restBytes]

end Geom

/-! ## When they are right -/

theorem restOfSet_le (shift snum : Nat) :
    0 < restOfSet shift snum ∧ restOfSet shift snum ≤ 2 ^ shift := by
  have hpos := Nat.two_pow_pos shift
  have hmod := Nat.mod_lt snum hpos
  have hdiv := Nat.div_add_mod snum (2 ^ shift)
  rw [restOfSet, Nat.shiftLeft_eq, Nat.shiftRight_eq_div_pow, Nat.add_mul, Nat.mul_comm]
  omega

/-- A set that is passed over from its beginning counts 0 bytes from 4 GiB on. -/
theorem restBytes_zero {shift : Nat} (h : 23 ≤ shift) : restBytes shift 0 = 0 := by
  have hrest : restOfSet shift 0 = 2 ^ shift := by
    simp [restOfSet, Nat.shiftLeft_eq]
  have hbytes : 2 ^ shift * 512 = 2 ^ (shift + 9) := (Nat.pow_add 2 shift 9).symm
  rw [restBytes, hrest, hbytes]
  exact Nat.mod_eq_zero_of_dvd (Nat.pow_dvd_pow 2 (by omega))

/-- What the loop of `eio_fifo_cache_sets_init` stores for the sets that it comes to. -/
theorem Fifo.cacheSetsInit_start (f : Fifo) (assoc numSets : Nat) :
    ∀ s < intRounds numSets, (f.cacheSetsInit assoc numSets).fifoNext s = s * assoc % 2 ^ 32 ∧
      (f.cacheSetsInit assoc numSets).cleanNext s = s * assoc % 2 ^ 32 := by
  rw [Fifo.cacheSetsInit]
  generalize intRounds numSets = n
  induction n with
  | zero =>
    intro s hs
    omega
  | succ n ih =>
    intro s hs
    rw [List.range_succ, List.foldl_append]
    simp only [List.foldl_cons, List.foldl_nil, Function.update_apply]
    by_cases heq : s = n
    · simp [heq]
    · simp only [heq, if_false]
      exact ih s (by omega)

namespace Sizes

variable {c : Sizes}

theorem mul_lt_size {s : Nat} (hs : s < c.numSets) : c.assoc * s < c.size :=
  Nat.mul_lt_mul_of_pos_left hs (Nat.two_pow_pos _)

theorem numSets_le_size : c.numSets ≤ c.size := Nat.le_mul_of_pos_left _ (Nat.two_pow_pos _)

/-- The numbers are right exactly if the cache has fewer than `2 ^ 31` blocks and its sets are
smaller than 4 GiB. -/
theorem index_exact_iff (c : Sizes) :
    c.IndexExact ↔ c.size < 2 ^ 31 ∧ c.consecutiveShift + c.blockShift ≤ 22 := by
  constructor
  · intro h
    constructor
    · -- the last block is one that the loop comes to
      by_contra hge
      have hlast := h.lruBlocks (c.size - 1) (by omega)
      have hrounds := intRounds_lt c.size
      rw [List.mem_range] at hlast
      omega
    · by_contra hge
      have hsome := (h.invalRange 0).2
      rw [restBytes_zero (by omega)] at hsome
      exact Nat.lt_irrefl 0 hsome
  · rintro ⟨hsize, hshift⟩
    have hsets : intRounds c.numSets = c.numSets :=
      intRounds_of_lt (Nat.lt_of_le_of_lt numSets_le_size hsize)
    constructor
    · intro s hs
      have hlt := mul_lt_size hs
      exact Nat.mod_eq_of_lt (by omega)
    · intro s hs
      have hlt := mul_lt_size hs
      rw [invalStart, Nat.mod_eq_of_lt (by omega), toInt_of_lt (by omega)]
    · intro f s hs
      have hlt := mul_lt_size hs
      have hstart := f.cacheSetsInit_start c.assoc c.numSets s (by rw [hsets]; exact hs)
      rw [Nat.mul_comm s, Nat.mod_eq_of_lt (by omega)] at hstart
      exact hstart
    · intro l s hs
      exact l.cacheSetsInit_null c.numSets s (by rw [hsets]; exact hs)
    · intro i hi
      rw [intRounds_of_lt hsize]
      exact List.mem_range.mpr hi
    · intro snum
      obtain ⟨hpos, hle⟩ := restOfSet_le (c.consecutiveShift + c.blockShift) snum
      have hpow : 2 ^ (c.consecutiveShift + c.blockShift) ≤ 2 ^ 22 :=
        Nat.pow_le_pow_right (by decide) hshift
      have hcut : restBytes (c.consecutiveShift + c.blockShift) snum =
          restOfSet (c.consecutiveShift + c.blockShift) snum * 512 :=
        Nat.mod_eq_of_lt (by omega)
      rw [hcut]
      exact ⟨rfl, by omega⟩

end Sizes

/-- The sizes of a cache that `eio_cache_create` accepts. -/
theorem CreateArgs.create_sizes {c : CreateArgs} {l : Layout} (h : c.create = some l) :
    ∃ s : Sizes, s.assoc = l.assoc ∧ 2 ^ s.blockShift = l.blockSize ∧ s.size = l.size := by
  obtain ⟨b, a, sectors, ha, hab, hsect, -, -, hmd⟩ := create_spec h
  obtain ⟨numSets, hnum, -, -, heq⟩ := mdCreate_spec hab hsect hmd
  refine ⟨⟨b, a, numSets, ha, hab, by omega⟩, ?_, ?_, ?_⟩
  · rw [heq]
    rfl
  · rw [heq]
  · rw [heq]
    exact Nat.mul_comm _ _

/-- A 32 TiB cache device with the default block size and associativity. -/
def manyBlocksArgs : CreateArgs := { defaultArgs with
  cacheDevBytes := 2 ^ 45
  cacheDevBytes_lt := by decide }

/-- Blocks of 8 MiB. -/
def wideSetsArgs : CreateArgs := { defaultArgs with blksize := 2 ^ 23 }

/-- Both requests are accepted. In the cache of the first one, set `2 ^ 23` begins at block
`2 ^ 32`; `eio_lookup` and `eio_inval_block_set_range` take it to begin at block 0. In the cache
of the second one, `eio_inval_range` takes a set to have no bytes. -/
theorem index_inexact :
    (∃ l, manyBlocksArgs.create = some l ∧ l.assoc = 512 ∧ 2 ^ 23 < l.size / 512 ∧
        lookupStart l.assoc (2 ^ 23) = 0 ∧ invalStart l.assoc (2 ^ 23) = 0 ∧
        intRounds l.size < l.size) ∧
      ∃ l, wideSetsArgs.create = some l ∧ l.assoc * l.blockSize = 2 ^ 23 ∧ 0 < l.size ∧
        restBytes 23 0 = 0 := by
  have hmany : manyBlocksArgs.create.any (fun l => decide (l.assoc = 512 ∧ 2 ^ 23 < l.size / 512 ∧
      lookupStart l.assoc (2 ^ 23) = 0 ∧ invalStart l.assoc (2 ^ 23) = 0 ∧
      intRounds l.size < l.size)) = true := by decide +kernel
  have hwide : wideSetsArgs.create.any (fun l => decide (l.assoc * l.blockSize = 2 ^ 23 ∧
      0 < l.size ∧ restBytes 23 0 = 0)) = true := by decide +kernel
  obtain ⟨l, hl, hp⟩ := (Option.any_eq_true _ _).mp hmany
  obtain ⟨l', hl', hp'⟩ := (Option.any_eq_true _ _).mp hwide
  exact ⟨⟨l, hl, of_decide_eq_true hp⟩, l', hl', of_decide_eq_true hp'⟩

end EnhanceIO
