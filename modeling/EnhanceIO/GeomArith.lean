import EnhanceIO.Create
import EnhanceIO.Meta

/-!
# The arithmetic of the geometry

The checks of `eio_cache_create` are on the block size, the associativity and the sizes of the
two devices one by one; what is computed from them is not checked:

* the divisor `assoc * block_size`, a product of unsigned ints;
* the shifts of 64-bit numbers in `eio_mem_init`, one of them by 64 less the bits of the number
  of sets;
* the 24 bits that `eio_shrink_dbn` leaves of a sector, if `eio_mem_init` says that they are
  enough.

`geometry_exact_iff` says for which accepted sizes all three are right.
-/

namespace EnhanceIO

/-! ## `eio_mem_init` -/

/-- What `eio_mem_init` did: the counts of its shifts of 64-bit numbers, and its result. -/
structure MemInit where
  shifts : List Nat
  ret : Int
  deriving DecidableEq

/-- `eio_mem_init`. With `2 ^ 31` sets or more its loop over the bits shifts an unsigned int by
32, and does not end. -/
def eioMemInit (size assoc blockSize diskSize : Nat) : Option MemInit :=
  let numSets := size / assoc
  if numSets > 2 ^ 32 - 1 then some ⟨[], -1⟩
  else if 2 ^ 31 ≤ numSets then none
  else
    let numSetsBits := numSets.size
    let maskShift := 64 - numSetsBits
    if numSetsBits < 16 then some ⟨[maskShift], 1⟩
    else
      let lsbBits := Nat.log2 assoc + Nat.log2 blockSize
      let msbBits24 := (2 ^ 32 + 24 - 1 - lsbBits) % 2 ^ 32
      let maxShift := (msbBits24 + numSetsBits + lsbBits) % 2 ^ 32
      if diskSize > 2 ^ maxShift then some ⟨[maskShift, maxShift], 1⟩
      else some ⟨[maskShift, maxShift], 0⟩

/-- What is kept of it in the layout of a cache. -/
theorem memInit_eq (size assoc blockSize diskSize : Nat) :
    memInit size assoc (Nat.log2 assoc + Nat.log2 blockSize) diskSize =
      (eioMemInit size assoc blockSize diskSize).bind fun r =>
        if r.ret = -1 then none else some (decide (r.ret = 1)) := by
  simp only [memInit, eioMemInit]
  split
  · rfl
  split
  · rfl
  split
  · next hbits =>
    rw [decide_eq_true hbits]
    rfl
  split
  · next hbits hbig =>
    rw [decide_eq_false hbits, decide_eq_true hbig]
    rfl
  · next hbits hbig =>
    rw [decide_eq_false hbits, decide_eq_false hbig]
    rfl

/-- The cases of `eio_mem_init`: `msb_bits_24` cancels out, so that the second shift depends on
the number of sets only. -/
theorem eioMemInit_cases {size assoc blockSize diskSize : Nat} {r : MemInit}
    (hlsb : Nat.log2 assoc + Nat.log2 blockSize ≤ 31)
    (h : eioMemInit size assoc blockSize diskSize = some r) :
    (2 ^ 32 ≤ size / assoc ∧ r = ⟨[], -1⟩) ∨
      size / assoc < 2 ^ 31 ∧
        (((size / assoc).size < 16 ∧ r = ⟨[64 - (size / assoc).size], 1⟩) ∨
          16 ≤ (size / assoc).size ∧
            ∃ ret, r = ⟨[64 - (size / assoc).size, 23 + (size / assoc).size], ret⟩ ∧
              (ret = 0 ↔ diskSize ≤ 2 ^ (23 + (size / assoc).size))) := by
  simp only [eioMemInit] at h
  split at h
  · next hmany =>
    cases h
    exact .inl ⟨by omega, rfl⟩
  split at h
  · cases h
  next hlt =>
    have hbits : (size / assoc).size ≤ 31 := Nat.size_le.mpr (Nat.lt_of_not_le hlt)
    have hshift : ((2 ^ 32 + 24 - 1 - (Nat.log2 assoc + Nat.log2 blockSize)) % 2 ^ 32 +
        (size / assoc).size + (Nat.log2 assoc + Nat.log2 blockSize)) % 2 ^ 32 =
          23 + (size / assoc).size := by
      omega
    rw [hshift] at h
    refine .inr ⟨Nat.lt_of_not_le hlt, ?_⟩
    split at h
    · next hfew =>
      cases h
      exact .inl ⟨hfew, rfl⟩
    next henough =>
      refine .inr ⟨Nat.le_of_not_lt henough, ?_⟩
      split at h
      · next hbig =>
        cases h
        refine ⟨1, rfl, ?_⟩
        simpa using hbig
      · next hsmall =>
        cases h
        exact ⟨0, rfl, by simpa using hsmall⟩

/-- A shift by 64 is made exactly if there is no set. -/
theorem eioMemInit_shifts (size diskSize : Nat) {assoc blockSize : Nat}
    (hlsb : Nat.log2 assoc + Nat.log2 blockSize ≤ 31) :
    (∀ r, eioMemInit size assoc blockSize diskSize = some r → ∀ n ∈ r.shifts, n < 64) ↔
      size / assoc ≠ 0 := by
  constructor
  · intro h hzero
    have hrun : eioMemInit size assoc blockSize diskSize = some ⟨[64], 1⟩ := by
      simp [eioMemInit, hzero]
    have := h _ hrun 64 List.mem_cons_self
    omega
  · intro hpos r hr n hn
    have hbits : 0 < (size / assoc).size := Nat.size_pos.mpr (Nat.pos_of_ne_zero hpos)
    rcases eioMemInit_cases hlsb hr with ⟨-, rfl⟩ | ⟨hlt, ⟨-, rfl⟩ | ⟨-, ret, rfl, -⟩⟩
    · cases hn
    · obtain rfl := List.mem_singleton.mp hn
      omega
    · have hle : (size / assoc).size ≤ 31 := Nat.size_le.mpr hlt
      simp only [List.mem_cons, List.not_mem_nil, or_false] at hn
      omega

/-! ## `eio_shrink_dbn` -/

/-- `eio_shrink_dbn` before the result is cut to an unsigned int. -/
def shrinkBits (assoc blockSize numSets dbn : Nat) : Nat :=
  if dbn = 0 then 0
  else
    let shift := Nat.log2 assoc + Nat.log2 blockSize
    let lsb := dbn &&& ((assoc * blockSize + 2 ^ 32 - 1) % 2 ^ 32)
    let mid := (dbn >>> shift) &&& (2 ^ numSets.size - 1)
    let wrapped := if mid ≥ numSets then 1 else 0
    let msb := dbn >>> (numSets.size + shift)
    lsb ||| (wrapped <<< shift) ||| (msb <<< (shift + 1))

namespace Geom

variable {g : Geom}

theorem log2_add : Nat.log2 g.assoc + Nat.log2 g.blockSize = g.setShift := by
  rw [assoc, blockSize, Nat.log2_two_pow, Nat.log2_two_pow, setShift]

theorem shrinkBits_eq (dbn : Nat) :
    shrinkBits g.assoc g.blockSize g.numSets dbn = g.packed dbn := by
  have hmask : (g.assoc * g.blockSize + 2 ^ 32 - 1) % 2 ^ 32 = g.sectorsPerSet - 1 := by
    have hpos := g.sectorsPerSet_pos
    have hle : g.sectorsPerSet ≤ 2 ^ 31 := by
      rw [sectorsPerSet_eq]
      exact Nat.pow_le_pow_right (by decide) g.sectorsPerSet_lt
    rw [← sectorsPerSet]
    omega
  have hwrapped : (if (dbn >>> g.setShift) &&& (2 ^ g.numSets.size - 1) ≥ g.numSets then 1 else 0) =
      (g.dbnToSet dbn).2 := by
    show (if (dbn >>> g.setShift) &&& g.numSetsMask ≥ g.numSets then 1 else 0) = _
    simp only [dbnToSet]
    split
    · rfl
    · rfl
  rw [shrinkBits]
  split
  · next hzero =>
    subst hzero
    simp [packed, dbnToSet_eq, g.numSets_pos.ne']
  · simp only [log2_add, hmask, hwrapped]
    exact packed_lor dbn

/-- With sets of `2 ^ 24` sectors or more nothing but the place in the set is left. -/
theorem packed_of_ge (hs : 24 ≤ g.setShift) {dbn : Nat} (h : dbn < 2 ^ (23 + g.numSetsBits)) :
    g.packed dbn = dbn % 2 ^ g.setShift := by
  have hbits : 0 < g.numSetsBits := Nat.size_pos.mpr g.numSets_pos
  have hmsb : dbn / 2 ^ (g.numSetsBits + g.setShift) = 0 :=
    Nat.div_eq_of_lt (Nat.lt_of_lt_of_le h (Nat.pow_le_pow_right (by decide) (by omega)))
  -- the number of the stretch has fewer bits than the number of sets
  have hhalf : 2 ^ (g.numSetsBits - 1) ≤ g.numSets := Nat.lt_size.mp (Nat.sub_lt hbits Nat.one_pos)
  have hstretch : dbn / g.sectorsPerSet < 2 ^ (g.numSetsBits - 1) := by
    rw [sectorsPerSet_eq, Nat.div_lt_iff_lt_mul (Nat.two_pow_pos _), ← Nat.pow_add]
    exact Nat.lt_of_lt_of_le h (Nat.pow_le_pow_right (by decide) (by omega))
  have hmod : dbn / g.sectorsPerSet % 2 ^ g.numSetsBits = dbn / g.sectorsPerSet :=
    Nat.mod_eq_of_lt (Nat.lt_of_lt_of_le hstretch
      (Nat.pow_le_pow_right (by decide) (Nat.sub_le _ _)))
  have hwrapped : (g.dbnToSet dbn).2 = 0 := by
    rw [dbnToSet_eq, hmod, if_neg (by omega)]
  rw [packed, hmsb, hwrapped, Nat.mul_zero, Nat.add_zero]

/-- If 4-byte metadata is chosen, its 24 bits are enough exactly if the sets or the source device
have no more than `2 ^ 24` sectors. -/
theorem packed_lt_iff (hdisk : g.diskSize ≤ 2 ^ (23 + g.numSetsBits)) :
    (∀ dbn < g.diskSize, g.packed dbn < 2 ^ 24) ↔ g.setShift ≤ 24 ∨ g.diskSize ≤ 2 ^ 24 := by
  by_cases hsmall : g.setShift ≤ 23
  · refine iff_of_true (fun dbn hdbn => ?_) (.inl (by omega))
    exact packed_lt hsmall (Nat.lt_of_lt_of_le hdbn hdisk)
  have hpacked : ∀ dbn < g.diskSize, g.packed dbn = dbn % 2 ^ g.setShift := fun dbn hdbn =>
    packed_of_ge (by omega) (Nat.lt_of_lt_of_le hdbn hdisk)
  constructor
  · intro h
    by_contra hcon
    rw [not_or, Nat.not_le, Nat.not_le] at hcon
    -- the first sector that needs 25 bits
    have hlt := h (2 ^ 24) hcon.2
    have hpow : 2 ^ 24 < 2 ^ g.setShift := Nat.pow_lt_pow_right (by decide) hcon.1
    rw [hpacked _ hcon.2, Nat.mod_eq_of_lt hpow] at hlt
    exact Nat.lt_irrefl _ hlt
  · intro h dbn hdbn
    rw [hpacked dbn hdbn]
    rcases h with hs | hd
    · obtain hs : g.setShift = 24 := by omega
      rw [hs]
      exact Nat.mod_lt _ (by decide)
    · exact Nat.lt_of_le_of_lt (Nat.mod_le _ _) (Nat.lt_of_lt_of_le hdbn hd)

end Geom

/-! ## What `eio_cache_create` computes -/

/-- `dmc->size` in blocks, as `eio_md_create` hands it to `eio_mem_init`. -/
def cacheBlocks (sectors startSect blockSize assoc : Nat) : Nat :=
  (sectors + 2 ^ 64 - mdSectorsFor startSect (sectors / blockSize)) % 2 ^ 64 /
    blockSize / assoc * assoc

namespace CreateArgs

/-- The checks of `eio_cache_create` let these sizes through. The last one divides by the
product of associativity and block size, cut to an unsigned int; it says nothing where the
divisor is 0. -/
structure Passes (c : CreateArgs) (blockSize sectors assoc : Nat) : Prop where
  disk : toSector c.diskDevBytes < 2 ^ 40
  blockSizeOf : c.blockSizeOf = some blockSize
  sectorsOf : c.sectorsOf = some sectors
  assocOf : c.assocOf sectors = some assoc
  sets : assoc * blockSize % 2 ^ 32 = 0 ∨
    toSector c.diskDevBytes / (assoc * blockSize % 2 ^ 32) < 2 ^ 32

/-- `eio_mem_init` for these sizes. -/
def memInitOf (c : CreateArgs) (blockSize sectors assoc : Nat) : Option MemInit :=
  eioMemInit (cacheBlocks sectors c.cacheDevStartSect blockSize assoc) assoc blockSize
    (toSector c.diskDevBytes)

/-- The number of sets. -/
def numSetsOf (c : CreateArgs) (blockSize sectors assoc : Nat) : Nat :=
  cacheBlocks sectors c.cacheDevStartSect blockSize assoc / assoc

/-- The arithmetic is right: the divisor is the product and not 0, no 64-bit number is shifted by
64 or more, and if 4-byte metadata is chosen, a shrunk sector is not cut and fits its 24 bits. -/
structure GeometryExact (c : CreateArgs) (blockSize sectors assoc : Nat) : Prop where
  divisor : assoc * blockSize % 2 ^ 32 = assoc * blockSize ∧ assoc * blockSize % 2 ^ 32 ≠ 0
  shifts : ∀ r, c.memInitOf blockSize sectors assoc = some r → ∀ n ∈ r.shifts, n < 64
  shrink : ∀ r, c.memInitOf blockSize sectors assoc = some r → r.ret = 0 →
    ∀ dbn < toSector c.diskDevBytes,
      shrinkBits assoc blockSize (c.numSetsOf blockSize sectors assoc) dbn < 2 ^ 32 ∧
        shrinkBits assoc blockSize (c.numSetsOf blockSize sectors assoc) dbn % 2 ^ 32 < 2 ^ 24

/-- An accepted cache has passed the checks, and `eio_mem_init` decided on its metadata. -/
theorem create_passes {c : CreateArgs} {l : Layout} (h : c.create = some l) :
    ∃ sectors, c.Passes l.blockSize sectors l.assoc ∧
      l.size = cacheBlocks sectors c.cacheDevStartSect l.blockSize l.assoc ∧
      ∃ r, c.memInitOf l.blockSize sectors l.assoc = some r ∧ r.ret ≠ -1 ∧
        l.md8 = decide (r.ret = 1) := by
  simp only [create, bind, Option.bind_eq_some_iff, Option.guard_eq_some'] at h
  obtain ⟨_, hdisk, blockSize, hblock, sectors, hsect, assoc, hassoc, _, hdiv, _, hsets, h⟩ := h
  simp only [mdCreate, memInit_eq, Option.bind_eq_some_iff] at h
  obtain ⟨md8, ⟨r, hr, hmd8⟩, h⟩ := h
  rw [Option.ite_none_left_eq_some] at hmd8 h
  obtain ⟨-, h⟩ := h
  cases h
  exact ⟨sectors, ⟨hdisk, hblock, hsect, hassoc, .inr hsets⟩, rfl, r, hr, hmd8.1,
    (Option.some.inj hmd8.2).symm⟩

/-- The cache for which `eio_mem_init` has chosen 4-byte metadata is one of the model. -/
theorem shrink_iff {c : CreateArgs} {sectors a b : Nat} (h : c.Passes (2 ^ b) sectors (2 ^ a))
    (ha : a ≤ 13) (hab : a + b ≤ 31) {r : MemInit}
    (hr : c.memInitOf (2 ^ b) sectors (2 ^ a) = some r) (hret : r.ret = 0) :
    (∀ dbn < toSector c.diskDevBytes,
        shrinkBits (2 ^ a) (2 ^ b) (c.numSetsOf (2 ^ b) sectors (2 ^ a)) dbn < 2 ^ 32 ∧
          shrinkBits (2 ^ a) (2 ^ b) (c.numSetsOf (2 ^ b) sectors (2 ^ a)) dbn % 2 ^ 32 < 2 ^ 24) ↔
      2 ^ a * 2 ^ b ≤ 2 ^ 24 ∨ toSector c.diskDevBytes ≤ 2 ^ 24 := by
  have hlsb : Nat.log2 (2 ^ a) + Nat.log2 (2 ^ b) ≤ 31 := by
    rw [Nat.log2_two_pow, Nat.log2_two_pow]
    exact hab
  have hprod : 2 ^ a * 2 ^ b % 2 ^ 32 = 2 ^ (a + b) := by
    rw [← Nat.pow_add]
    exact Nat.mod_eq_of_lt (Nat.pow_lt_pow_right (by decide) (by omega))
  have hdisk : toSector c.diskDevBytes / 2 ^ (a + b) < 2 ^ 32 := by
    have hsets := h.sets.resolve_left (by rw [hprod]; exact (Nat.two_pow_pos _).ne')
    rwa [hprod] at hsets
  rcases eioMemInit_cases hlsb hr with ⟨-, rfl⟩ | ⟨hlt, ⟨-, rfl⟩ | ⟨hbits, ret, rfl, hsmall⟩⟩
  · cases hret
  · cases hret
  · have hsetsPos : 0 < c.numSetsOf (2 ^ b) sectors (2 ^ a) :=
      Nat.size_pos.mp (Nat.lt_of_lt_of_le (by decide) hbits)
    let g : Geom :=
      { mode := .wb, blockShift := b, consecutiveShift := a
        numSets := c.numSetsOf (2 ^ b) sectors (2 ^ a), diskSize := toSector c.diskDevBytes
        assoc_le := ha, sectorsPerSet_lt := hab, numSets_pos := hsetsPos, numSets_lt := hlt
        diskSize_lt := h.disk, diskSets_lt := hdisk }
    have hbitsEq : ∀ dbn, shrinkBits (2 ^ a) (2 ^ b) (c.numSetsOf (2 ^ b) sectors (2 ^ a)) dbn =
        g.packed dbn := fun dbn => g.shrinkBits_eq dbn
    have hcut : ∀ n : Nat, n < 2 ^ 32 ∧ n % 2 ^ 32 < 2 ^ 24 ↔ n < 2 ^ 24 := by
      intro n
      omega
    have hshift : g.setShift ≤ 24 ↔ 2 ^ a * 2 ^ b ≤ 2 ^ 24 := by
      rw [← Nat.pow_add]
      exact (Nat.pow_le_pow_iff_right (by decide)).symm
    simp only [hbitsEq, hcut, ← hshift]
    exact g.packed_lt_iff (hsmall.mp hret)

/-- The arithmetic is right exactly if a set has less than `2 ^ 32` sectors, the cache has a set,
and, with 4-byte metadata, a set or the source device has no more than `2 ^ 24` sectors. -/
theorem geometry_exact_iff (c : CreateArgs) (blockSize sectors assoc : Nat)
    (h : c.Passes blockSize sectors assoc) :
    c.GeometryExact blockSize sectors assoc ↔
      assoc * blockSize < 2 ^ 32 ∧ c.numSetsOf blockSize sectors assoc ≠ 0 ∧
        ∀ r, c.memInitOf blockSize sectors assoc = some r → r.ret = 0 →
          assoc * blockSize ≤ 2 ^ 24 ∨ toSector c.diskDevBytes ≤ 2 ^ 24 := by
  obtain ⟨b, rfl⟩ := blockSizeOf_spec h.blockSizeOf
  obtain ⟨a, rfl, ha⟩ := assocOf_spec h.assocOf
  by_cases hprod : 2 ^ a * 2 ^ b < 2 ^ 32
  · have hab : a + b ≤ 31 := by
      rw [← Nat.pow_add] at hprod
      have := (Nat.pow_lt_pow_iff_right (by decide)).mp hprod
      omega
    have hlsb : Nat.log2 (2 ^ a) + Nat.log2 (2 ^ b) ≤ 31 := by
      rw [Nat.log2_two_pow, Nat.log2_two_pow]
      exact hab
    have hpos : 2 ^ a * 2 ^ b ≠ 0 := (Nat.mul_pos (Nat.two_pow_pos a) (Nat.two_pow_pos b)).ne'
    have hdiv : 2 ^ a * 2 ^ b % 2 ^ 32 = 2 ^ a * 2 ^ b := Nat.mod_eq_of_lt hprod
    have hshifts := eioMemInit_shifts (cacheBlocks sectors c.cacheDevStartSect (2 ^ b) (2 ^ a))
      (toSector c.diskDevBytes) hlsb
    have hshrink : ∀ r, c.memInitOf (2 ^ b) sectors (2 ^ a) = some r → r.ret = 0 →
        ((∀ dbn < toSector c.diskDevBytes,
            shrinkBits (2 ^ a) (2 ^ b) (c.numSetsOf (2 ^ b) sectors (2 ^ a)) dbn < 2 ^ 32 ∧
              shrinkBits (2 ^ a) (2 ^ b) (c.numSetsOf (2 ^ b) sectors (2 ^ a)) dbn % 2 ^ 32 <
                2 ^ 24) ↔
          2 ^ a * 2 ^ b ≤ 2 ^ 24 ∨ toSector c.diskDevBytes ≤ 2 ^ 24) :=
      fun r hr hret => shrink_iff h ha hab hr hret
    constructor
    · intro hexact
      exact ⟨hprod, hshifts.mp hexact.shifts, fun r hr hret =>
        (hshrink r hr hret).mp (hexact.shrink r hr hret)⟩
    · rintro ⟨-, hsets, hfits⟩
      refine ⟨⟨hdiv, hdiv.trans_ne hpos⟩, hshifts.mpr hsets, fun r hr hret => ?_⟩
      exact (hshrink r hr hret).mpr (hfits r hr hret)
  · refine iff_of_false (fun hexact => hprod ?_) (fun hcond => hprod hcond.1)
    rw [← hexact.divisor.1]
    exact Nat.mod_lt _ (by decide)

/-- A 200 GiB cache device with the default block size and associativity. -/
def large : CreateArgs := { defaultArgs with
  cacheDevBytes := 200 * 2 ^ 30
  cacheDevBytes_lt := by decide }

theorem large_passes : large.Passes 8 (200 * 2 ^ 21) 512 :=
  ⟨by decide, by decide, by decide, by decide, .inr (by decide)⟩

/-- With 4-byte metadata. -/
theorem geometry_exact_large :
    large.memInitOf 8 (200 * 2 ^ 21) 512 = some ⟨[47, 40], 0⟩ ∧
      large.GeometryExact 8 (200 * 2 ^ 21) 512 := by
  refine ⟨by decide +kernel, ?_⟩
  apply (geometry_exact_iff large 8 (200 * 2 ^ 21) 512 large_passes).mpr
  exact ⟨by decide, by decide +kernel, fun _ _ _ => .inl (by decide)⟩

/-- Blocks of 4 GiB. -/
def wideBlocks : CreateArgs := { defaultArgs with blksize := 2 ^ 32 }

/-- A cache device of 2 MiB, which is less than one set with its metadata. -/
def tinyDevice : CreateArgs := { defaultArgs with
  cacheDevBytes := 2 ^ 21
  cacheDevBytes_lt := by decide }

/-- Blocks of 32 MiB on a cache device of 1 PiB. -/
def hugeDevice : CreateArgs := { defaultArgs with
  blksize := 2 ^ 25
  cacheDevBytes := 2 ^ 50
  cacheDevBytes_lt := by decide }

/-- Three requests that pass the checks: the divisor of the first is 0, for the second a 64-bit
number is shifted by 64, and in the cache of the third, which uses 4-byte metadata, a sector does
not fit its 24 bits. -/
theorem geometry_inexact :
    (wideBlocks.Passes (2 ^ 23) (20 * 2 ^ 20) 512 ∧ 512 * 2 ^ 23 % 2 ^ 32 = 0) ∧
      (tinyDevice.Passes 8 (2 ^ 12) 512 ∧
        tinyDevice.memInitOf 8 (2 ^ 12) 512 = some ⟨[64], 1⟩) ∧
      hugeDevice.Passes (2 ^ 16) (2 ^ 41) 512 ∧
        hugeDevice.memInitOf (2 ^ 16) (2 ^ 41) 512 = some ⟨[48, 39], 0⟩ ∧
        2 ^ 24 < toSector hugeDevice.diskDevBytes ∧
        shrinkBits 512 (2 ^ 16) (hugeDevice.numSetsOf (2 ^ 16) (2 ^ 41) 512) (2 ^ 24) = 2 ^ 24 := by
  refine ⟨⟨⟨by decide, by decide, by decide, by decide, .inl (by decide)⟩, by decide⟩,
    ⟨⟨by decide, by decide, by decide, by decide, .inr (by decide)⟩, by decide +kernel⟩,
    ⟨by decide, by decide, by decide, by decide, .inr (by decide)⟩, by decide +kernel, by decide,
    by decide +kernel⟩

end CreateArgs

end EnhanceIO
