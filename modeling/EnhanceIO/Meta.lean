import EnhanceIO.CacheState
import EnhanceIO.Geometry
import Mathlib.Data.Nat.Bitwise

/-!
# In-core metadata

The array of block descriptors of a cache and its accessors (`eio.h`,
`eio_mem.c`). A descriptor packs the flag byte with the source sector of the
block. With 4-byte metadata (`EIO_MD8` off) only 24 bits are left for the
sector: the bits that the set number repeats are dropped by `eio_shrink_dbn`
and put back by `eio_expand_dbn`.

The laws at the end are all a user of the accessors needs: stores are seen by
loads, and stores elsewhere are not.
-/

namespace EnhanceIO

/-- `struct md4` or `struct md8`: the sector bits and the flag byte. -/
structure CacheBlock where
  dbn : Nat
  cacheState : State

/-- `cache`, `cache_md8` and `index_zero` of a `cache_c`. Which of the two
arrays is in use is fixed by `Geom.md8`. -/
structure Meta where
  cache : Nat → CacheBlock
  cacheMd8 : Nat → CacheBlock
  indexZero : Nat

namespace Geom

variable (g : Geom)

/-- `eio_shrink_dbn`. The result is cut to an unsigned int. -/
def shrinkDbn (dbn : Nat) : Nat :=
  if dbn = 0 then 0
  else
    let lsb := dbn &&& (g.sectorsPerSet - 1)
    let wrapped := (g.dbnToSet dbn).2
    let msb := dbn >>> (g.numSetsBits + g.setShift)
    (lsb ||| (wrapped <<< g.setShift) ||| (msb <<< (g.setShift + 1))) % 2 ^ 32

/-- The arithmetic of `eio_expand_dbn` for a descriptor of set `setNumber`. -/
def expandBits (setNumber dbn24 : Nat) : Nat :=
  let lsb := dbn24 &&& (g.sectorsPerSet - 1)
  let msb := dbn24 >>> (g.setShift + 1)
  if dbn24 &&& g.sectorsPerSet ≠ 0 then
    (msb <<< (g.numSetsBits + g.setShift)) ||| ((setNumber + g.numSets) <<< g.setShift) ||| lsb
  else
    (msb <<< (g.numSetsBits + g.setShift)) ||| (setNumber <<< g.setShift) ||| lsb

/-- The assertions of `eio_md4_dbn_set` and `eio_md8_dbn_set`. -/
def dbnFits (dbn : Nat) : Bool :=
  if g.md8 then dbn < 2 ^ 56 else g.shrinkDbn dbn < 2 ^ 24

end Geom

namespace Meta

variable (g : Geom)

/-- The descriptors of a freshly created cache: `EIO_MD4_INVALID` or
`EIO_MD8_INVALID` everywhere. -/
def create : Meta where
  cache := fun _ => ⟨0, State.invalid⟩
  cacheMd8 := fun _ => ⟨0, State.invalid⟩
  indexZero := g.assoc

/-- `EIO_CACHE_STATE_GET`. -/
def stateGet (m : Meta) (index : Nat) : State :=
  if g.md8 then (m.cacheMd8 index).cacheState else (m.cache index).cacheState

/-- `EIO_CACHE_STATE_SET`. -/
def stateSet (m : Meta) (index : Nat) (c : State) : Meta :=
  if g.md8 then
    { m with
      cacheMd8 := Function.update m.cacheMd8 index { m.cacheMd8 index with cacheState := c } }
  else
    { m with
      cache := Function.update m.cache index { m.cache index with cacheState := c } }

/-- `eio_expand_dbn`. -/
def expandDbn (m : Meta) (index : Nat) : Nat :=
  if index = m.indexZero ∧ m.indexZero < g.assoc then 0
  else if (m.cache index).dbn = 0 ∧ (m.cache index).cacheState = State.invalid then 0
  else g.expandBits (index / g.assoc) (m.cache index).dbn

/-- `EIO_DBN_GET`. -/
def dbnGet (m : Meta) (index : Nat) : Nat :=
  if g.md8 then (m.cacheMd8 index).dbn else m.expandDbn g index

/-- The part `eio_md4_dbn_set` and `eio_md8_dbn_set` share: sector 0 is being
replaced at the index that cached it. -/
def forgetZero (indexZero index bits : Nat) : Nat :=
  if indexZero < g.assoc ∧ index = indexZero ∧ bits ≠ 0 then g.assoc else indexZero

/-- `eio_md4_dbn_set`. -/
def md4DbnSet (m : Meta) (index dbn24 : Nat) : Meta :=
  { m with
    cache := Function.update m.cache index { m.cache index with dbn := dbn24 }
    indexZero := forgetZero g m.indexZero index dbn24 }

/-- `eio_md8_dbn_set`. -/
def md8DbnSet (m : Meta) (index dbn : Nat) : Meta :=
  { m with
    cacheMd8 := Function.update m.cacheMd8 index { m.cacheMd8 index with dbn := dbn }
    indexZero := forgetZero g m.indexZero index dbn }

/-- `EIO_DBN_SET`, where its assertion `Geom.dbnFits` holds. -/
def dbnSet (m : Meta) (index dbn : Nat) : Meta :=
  let m := if g.md8 then m.md8DbnSet g index dbn else m.md4DbnSet g index (g.shrinkDbn dbn)
  if dbn = 0 then { m with indexZero := index } else m

end Meta

/-! ## Shrinking and expanding -/

namespace Geom

variable {g : Geom}

theorem maxDbn_eq : g.maxDbn = 2 ^ (23 + g.numSetsBits) := by
  have hshift : g.setShift ≤ 31 := g.sectorsPerSet_lt
  have hbits : g.numSetsBits ≤ 31 := Nat.size_le.mpr g.numSets_lt
  simp only [maxDbn]
  congr 1
  omega

theorem diskSize_le_of_not_md8 (h : g.md8 = false) :
    g.diskSize ≤ 2 ^ (23 + g.numSetsBits) := by
  simp only [md8, Bool.or_eq_false_iff, decide_eq_false_iff_not, gt_iff_lt, maxDbn_eq] at h
  omega

/-- A cache with 8-byte metadata is small: more than `2 ^ 32` blocks need more than
`2 ^ 19` sets, and then 4 bytes hold every sector number. -/
theorem size_le_of_md8 (h : g.md8 = true) : g.size ≤ 2 ^ 32 := by
  by_contra hsize
  have hassoc : g.assoc ≤ 2 ^ 13 := Nat.pow_le_pow_right (by norm_num) g.assoc_le
  have hsets : 2 ^ 19 < g.numSets := by
    by_contra hle
    have hmul : g.size ≤ 2 ^ 13 * 2 ^ 19 := Nat.mul_le_mul hassoc (Nat.le_of_not_lt hle)
    omega
  have hbits : 19 < g.numSetsBits := Nat.lt_size.mpr hsets.le
  have hmax : 2 ^ 40 ≤ g.maxDbn := by
    rw [maxDbn_eq]
    exact Nat.pow_le_pow_right (by norm_num) (by omega)
  have hdisk := g.diskSize_lt
  simp only [md8, Bool.or_eq_true, decide_eq_true_eq] at h
  omega

/-- A sector in terms of what `eio_shrink_dbn` keeps and drops: the offset in
its stretch, the masked set value and the rest. -/
theorem dbn_decompose (dbn : Nat) :
    dbn = dbn % 2 ^ g.setShift + 2 ^ g.setShift *
      (dbn / g.sectorsPerSet % 2 ^ g.numSetsBits + 2 ^ g.numSetsBits *
        (dbn / 2 ^ (g.numSetsBits + g.setShift))) := by
  have h1 := Nat.mod_add_div dbn (2 ^ g.setShift)
  have h2 := Nat.mod_add_div (dbn / 2 ^ g.setShift) (2 ^ g.numSetsBits)
  rw [Nat.div_div_eq_div_mul, ← Nat.pow_add, Nat.add_comm g.setShift] at h2
  rw [sectorsPerSet_eq, h2, h1]

/-- `eio_shrink_dbn` before the cut, in plain arithmetic. -/
def packed (g : Geom) (dbn : Nat) : Nat :=
  dbn % 2 ^ g.setShift + 2 ^ g.setShift *
    ((g.dbnToSet dbn).2 + 2 * (dbn / 2 ^ (g.numSetsBits + g.setShift)))

theorem dbnToSet_snd_le (dbn : Nat) : (g.dbnToSet dbn).2 ≤ 1 := by
  rw [dbnToSet_eq]
  split <;> simp

theorem packed_lor (dbn : Nat) :
    (dbn &&& (g.sectorsPerSet - 1)) ||| ((g.dbnToSet dbn).2 <<< g.setShift) |||
      ((dbn >>> (g.numSetsBits + g.setShift)) <<< (g.setShift + 1)) = g.packed dbn := by
  have hw := g.dbnToSet_snd_le dbn
  have hlsb : dbn % 2 ^ g.setShift < 2 ^ g.setShift := Nat.mod_lt _ (Nat.two_pow_pos _)
  have hlow : (g.dbnToSet dbn).2 <<< g.setShift + dbn % 2 ^ g.setShift < 2 ^ (g.setShift + 1) := by
    rw [Nat.shiftLeft_eq, Nat.pow_succ]
    have := Nat.mul_le_mul_right (2 ^ g.setShift) hw
    omega
  rw [sectorsPerSet_eq, Nat.and_two_pow_sub_one_eq_mod, Nat.or_comm (dbn % _),
    ← Nat.shiftLeft_add_eq_or_of_lt hlsb, Nat.or_comm,
    ← Nat.shiftLeft_add_eq_or_of_lt hlow]
  simp only [packed, Nat.shiftLeft_eq, Nat.shiftRight_eq_div_pow, Nat.pow_succ]
  ring

/-- With a set of at most `2 ^ 23` sectors the shrunk sector fits its 24 bits. -/
theorem packed_lt (hs : g.setShift ≤ 23) {dbn : Nat} (h : dbn < 2 ^ (23 + g.numSetsBits)) :
    g.packed dbn < 2 ^ 24 := by
  have hw := g.dbnToSet_snd_le dbn
  have hlsb : dbn % 2 ^ g.setShift < 2 ^ g.setShift := Nat.mod_lt _ (Nat.two_pow_pos _)
  have hmsb : dbn / 2 ^ (g.numSetsBits + g.setShift) < 2 ^ (23 - g.setShift) := by
    rw [Nat.div_lt_iff_lt_mul (Nat.two_pow_pos _), ← Nat.pow_add]
    rwa [show 23 - g.setShift + (g.numSetsBits + g.setShift) = 23 + g.numSetsBits by omega]
  have hpow : 2 ^ g.setShift * 2 ^ (23 - g.setShift) = 2 ^ 23 := by
    rw [← Nat.pow_add, Nat.add_sub_cancel' hs]
  calc g.packed dbn < 2 ^ g.setShift + 2 ^ g.setShift *
        (1 + 2 * (2 ^ (23 - g.setShift) - 1)) := by
        apply Nat.add_lt_add_of_lt_of_le hlsb
        apply Nat.mul_le_mul_left
        omega
    _ = 2 ^ g.setShift * (2 * 2 ^ (23 - g.setShift)) := by
        have hpos := Nat.two_pow_pos (23 - g.setShift)
        rw [show 2 * 2 ^ (23 - g.setShift) = 1 + (1 + 2 * (2 ^ (23 - g.setShift) - 1)) by omega]
        ring
    _ = 2 ^ 24 := by rw [Nat.mul_left_comm, hpow]; rfl

theorem shrinkDbn_eq {dbn : Nat} (h : dbn < 2 ^ (23 + g.numSetsBits)) :
    g.shrinkDbn dbn = g.packed dbn := by
  have hlt : g.packed dbn < 2 ^ 32 := by
    by_cases hs : g.setShift ≤ 23
    · have := packed_lt hs h
      omega
    · -- nothing is left above the set number
      have hw := g.dbnToSet_snd_le dbn
      have hlsb : dbn % 2 ^ g.setShift < 2 ^ g.setShift := Nat.mod_lt _ (Nat.two_pow_pos _)
      have hmsb : dbn / 2 ^ (g.numSetsBits + g.setShift) = 0 :=
        Nat.div_eq_of_lt (Nat.lt_of_lt_of_le h (Nat.pow_le_pow_right (by omega) (by omega)))
      have hshift : 2 ^ g.setShift ≤ 2 ^ 31 := Nat.pow_le_pow_right (by omega) g.sectorsPerSet_lt
      have hmul := Nat.mul_le_mul_left (2 ^ g.setShift) hw
      simp only [packed, hmsb, Nat.mul_zero, Nat.add_zero]
      omega
  rw [shrinkDbn]
  split
  · next h0 =>
    subst h0
    simp [packed, dbnToSet_eq, g.numSets_pos.ne']
  · simp only [packed_lor]
    exact Nat.mod_eq_of_lt hlt

/-- The sector of set `n` that shares with `dbn` all that `eio_shrink_dbn` keeps
of it. -/
def moved (g : Geom) (n dbn : Nat) : Nat := dbn - (g.hashBlock dbn - n) * g.sectorsPerSet

theorem moved_self (dbn : Nat) : g.moved (g.hashBlock dbn) dbn = dbn := by
  simp [moved]

theorem moved_le (n dbn : Nat) : g.moved n dbn ≤ dbn := Nat.sub_le _ _

/-- The masked set value of a sector: the set, past `num_sets` if it wrapped. -/
theorem mid_eq (dbn : Nat) : dbn / g.sectorsPerSet % 2 ^ g.numSetsBits =
    g.hashBlock dbn + (g.dbnToSet dbn).2 * g.numSets := by
  rw [hashBlock, dbnToSet_eq]
  split <;> simp only <;> omega

theorem moved_eq {n dbn : Nat} (hn : n ≤ g.hashBlock dbn) :
    g.moved n dbn = dbn % 2 ^ g.setShift + 2 ^ g.setShift *
      (n + (g.dbnToSet dbn).2 * g.numSets + 2 ^ g.numSetsBits *
        (dbn / 2 ^ (g.numSetsBits + g.setShift))) := by
  have hdec := g.dbn_decompose dbn
  obtain ⟨d, hd⟩ := Nat.exists_eq_add_of_le hn
  have hsps := g.sectorsPerSet_eq
  rw [moved, hd, Nat.add_sub_cancel_left, hsps]
  rw [mid_eq, hd] at hdec
  conv_lhs => rw [hdec]
  rw [show n + d + (g.dbnToSet dbn).2 * g.numSets + 2 ^ g.numSetsBits *
      (dbn / 2 ^ (g.numSetsBits + g.setShift)) = d + (n + (g.dbnToSet dbn).2 * g.numSets +
        2 ^ g.numSetsBits * (dbn / 2 ^ (g.numSetsBits + g.setShift))) by omega, Nat.mul_add,
    Nat.mul_comm d]
  omega

/-- **Lossless metadata**: expanding in set `n` a sector that was shrunk gives
the sector moved to that set; in its own set, the sector itself. -/
theorem expandBits_shrinkDbn {n dbn : Nat} (hn : n ≤ g.hashBlock dbn)
    (h : dbn < 2 ^ (23 + g.numSetsBits)) :
    g.expandBits n (g.shrinkDbn dbn) = g.moved n dbn := by
  have hpow := Nat.two_pow_pos g.setShift
  have hlsb : dbn % 2 ^ g.setShift < 2 ^ g.setShift := Nat.mod_lt _ hpow
  have hw := g.dbnToSet_snd_le dbn
  rw [shrinkDbn_eq h]
  -- the three fields read back from the packed sector
  have hlow : g.packed dbn % 2 ^ g.setShift = dbn % 2 ^ g.setShift := by
    rw [packed, Nat.add_mul_mod_self_left, Nat.mod_mod]
  have hhigh : g.packed dbn / 2 ^ g.setShift =
      (g.dbnToSet dbn).2 + 2 * (dbn / 2 ^ (g.numSetsBits + g.setShift)) := by
    rw [packed, Nat.add_mul_div_left _ _ hpow, Nat.div_eq_of_lt hlsb, Nat.zero_add]
  have hmsb : g.packed dbn / 2 ^ (g.setShift + 1) = dbn / 2 ^ (g.numSetsBits + g.setShift) := by
    rw [Nat.pow_succ, ← Nat.div_div_eq_div_mul, hhigh]
    omega
  have hbit : (g.packed dbn &&& g.sectorsPerSet ≠ 0) ↔ (g.dbnToSet dbn).2 = 1 := by
    have htest : (g.packed dbn).testBit g.setShift = decide ((g.dbnToSet dbn).2 = 1) := by
      rw [Nat.testBit_eq_decide_div_mod_eq, hhigh]
      congr 1
      apply propext
      omega
    rw [sectorsPerSet_eq, Nat.and_two_pow, htest]
    by_cases h1 : (g.dbnToSet dbn).2 = 1 <;> simp [h1]
  -- both branches put the masked set value back
  have hset : ∀ mid, mid = n + (g.dbnToSet dbn).2 * g.numSets →
      ((dbn / 2 ^ (g.numSetsBits + g.setShift)) <<< (g.numSetsBits + g.setShift)) |||
        (mid <<< g.setShift) ||| (dbn % 2 ^ g.setShift) = g.moved n dbn := by
    intro mid hm
    have hmid : mid < 2 ^ g.numSetsBits := by
      have hlt : dbn / g.sectorsPerSet % 2 ^ g.numSetsBits < 2 ^ g.numSetsBits :=
        Nat.mod_lt _ (Nat.two_pow_pos _)
      rw [mid_eq] at hlt
      omega
    have hmid' : mid <<< g.setShift < 2 ^ (g.numSetsBits + g.setShift) := by
      rw [Nat.shiftLeft_eq, Nat.pow_add]
      exact Nat.mul_lt_mul_of_pos_right hmid hpow
    have hjoin : ((dbn / 2 ^ (g.numSetsBits + g.setShift)) <<< (g.numSetsBits + g.setShift)) +
        mid <<< g.setShift =
        (mid + 2 ^ g.numSetsBits * (dbn / 2 ^ (g.numSetsBits + g.setShift))) <<< g.setShift := by
      simp only [Nat.shiftLeft_eq, Nat.pow_add]
      ring
    rw [← Nat.shiftLeft_add_eq_or_of_lt hmid', hjoin, ← Nat.shiftLeft_add_eq_or_of_lt hlsb,
      moved_eq hn, ← hm, Nat.shiftLeft_eq]
    ring
  have hmask : g.packed dbn &&& (g.sectorsPerSet - 1) = dbn % 2 ^ g.setShift := by
    rw [sectorsPerSet_eq, Nat.and_two_pow_sub_one_eq_mod, hlow]
  simp only [expandBits, hmask, Nat.shiftRight_eq_div_pow, hmsb]
  by_cases h1 : (g.dbnToSet dbn).2 = 1
  · rw [if_pos (hbit.mpr h1)]
    apply hset
    rw [h1, Nat.one_mul]
  · rw [if_neg (fun hcon => h1 (hbit.mp hcon))]
    apply hset
    rw [show (g.dbnToSet dbn).2 = 0 by omega, Nat.zero_mul, Nat.add_zero]

theorem hashBlock_moved {n dbn : Nat} (hn : n ≤ g.hashBlock dbn) :
    g.hashBlock (g.moved n dbn) = n := by
  have hpow := Nat.two_pow_pos g.setShift
  have hlsb : dbn % 2 ^ g.setShift < 2 ^ g.setShift := Nat.mod_lt _ hpow
  have hlt : dbn / g.sectorsPerSet % 2 ^ g.numSetsBits < 2 ^ g.numSetsBits :=
    Nat.mod_lt _ (Nat.two_pow_pos _)
  rw [mid_eq] at hlt
  have hw := g.dbnToSet_snd_le dbn
  have hh := g.hashBlock_lt dbn
  have hmid : g.moved n dbn / g.sectorsPerSet % 2 ^ g.numSetsBits =
      n + (g.dbnToSet dbn).2 * g.numSets := by
    rw [moved_eq hn, sectorsPerSet_eq, Nat.add_mul_div_left _ _ hpow, Nat.div_eq_of_lt hlsb,
      Nat.zero_add, Nat.add_mul_mod_self_left]
    exact Nat.mod_eq_of_lt (by omega)
  have hm := g.mid_eq (g.moved n dbn)
  rw [hmid] at hm
  have hw' := g.dbnToSet_snd_le (g.moved n dbn)
  have hh' := g.hashBlock_lt (g.moved n dbn)
  -- the two quotients by `num_sets` agree
  rcases Nat.le_one_iff_eq_zero_or_eq_one.mp hw with h0 | h0 <;>
    rcases Nat.le_one_iff_eq_zero_or_eq_one.mp hw' with h1 | h1 <;> rw [h0, h1] at hm <;> omega

theorem roundSector_moved {n dbn : Nat} (hd : g.roundSector dbn = dbn) :
    g.roundSector (g.moved n dbn) = g.moved n dbn := by
  have hmul : g.blockSize ∣ dbn := ⟨dbn / g.blockSize, by
    rw [Nat.mul_comm]
    exact hd.symm⟩
  have hsps : g.blockSize ∣ (g.hashBlock dbn - n) * g.sectorsPerSet :=
    Nat.dvd_mul_left_of_dvd (Nat.dvd_mul_left _ _) _
  exact Nat.div_mul_cancel (Nat.dvd_sub hmul hsps)

/-- Sectors of a set number fewer than `2 ^ 23` where 4-byte metadata is used:
the condition for the assertion of `eio_md4_dbn_set` to hold. -/
def Lossless (g : Geom) : Prop := g.md8 = false → g.setShift ≤ 23

instance : Decidable g.Lossless := inferInstanceAs (Decidable (_ → _))

theorem dbnFits_of_lt (hl : g.Lossless) {dbn : Nat} (h : dbn < g.diskSize) :
    g.dbnFits dbn = true := by
  have hdisk := g.diskSize_lt
  rw [dbnFits]
  split
  · simpa using (by omega : dbn < 2 ^ 56)
  · next hmd =>
    have hmd : g.md8 = false := by simpa using hmd
    have hlt := Nat.lt_of_lt_of_le h (diskSize_le_of_not_md8 hmd)
    rw [shrinkDbn_eq hlt]
    simpa using packed_lt (hl hmd) hlt

end Geom

/-! ## Laws of the accessors -/

namespace Meta

variable {g : Geom} {m : Meta} {index j dbn : Nat} {c : State}

@[simp] theorem stateGet_create : (create g).stateGet g j = State.invalid := by
  simp [create, stateGet]

@[simp] theorem stateGet_stateSet :
    (m.stateSet g index c).stateGet g j = if j = index then c else m.stateGet g j := by
  simp only [stateGet, stateSet]
  split <;> by_cases h : j = index <;> simp [h]

@[simp] theorem stateGet_dbnSet : (m.dbnSet g index dbn).stateGet g j = m.stateGet g j := by
  simp only [stateGet, dbnSet]
  by_cases hmd : g.md8 <;> by_cases h0 : dbn = 0 <;> by_cases h : j = index <;>
    simp [hmd, h0, h, md8DbnSet, md4DbnSet]

/-- A change of flags leaves the sector alone, unless it makes or unmakes the
block `INVALID`: `eio_expand_dbn` looks at the flags of a zero descriptor. -/
theorem dbnGet_stateSet
    (h : j ≠ index ∨ (c ≠ State.invalid ∧ m.stateGet g index ≠ State.invalid)) :
    (m.stateSet g index c).dbnGet g j = m.dbnGet g j := by
  simp only [dbnGet, stateSet, expandDbn, stateGet] at h ⊢
  by_cases hmd : g.md8 <;> by_cases hj : j = index <;> simp_all

/-- At the block itself the sector stays, or reads as 0 now. -/
theorem dbnGet_stateSet_self (h : m.stateGet g index ≠ State.invalid) :
    (m.stateSet g index c).dbnGet g index = m.dbnGet g index ∨
      (m.stateSet g index c).dbnGet g index = 0 := by
  by_cases hc : c = State.invalid
  · simp only [dbnGet, stateSet, expandDbn, stateGet] at h ⊢
    by_cases hmd : g.md8
    · simp [hmd]
    · simp only [hmd, Bool.false_eq_true, if_false] at h ⊢
      by_cases h0 : (m.cache index).dbn = 0 <;> simp [h0, hc, h]
  · exact .inl (dbnGet_stateSet (.inr ⟨hc, h⟩))

/-- The index that caches sector 0 holds a zero descriptor. -/
def ZeroOk (g : Geom) (m : Meta) : Prop :=
  g.md8 = false → m.indexZero < g.assoc → (m.cache m.indexZero).dbn = 0

theorem ZeroOk.create (g : Geom) : ZeroOk g (create g) := by
  intro _ h
  simp [Meta.create] at h

theorem ZeroOk.stateSet (h : ZeroOk g m) : ZeroOk g (m.stateSet g index c) := by
  intro hmd hlt
  simp only [Meta.stateSet, hmd, Bool.false_eq_true, if_false] at hlt ⊢
  have := h hmd hlt
  by_cases hz : m.indexZero = index <;> simp_all

theorem ZeroOk.dbnSet (h : ZeroOk g m) : ZeroOk g (m.dbnSet g index dbn) := by
  intro hmd hlt
  by_cases h0 : dbn = 0
  · simp [Meta.dbnSet, hmd, h0, md4DbnSet, Geom.shrinkDbn]
  · simp only [Meta.dbnSet, hmd, h0, md4DbnSet, Bool.false_eq_true, if_false] at hlt ⊢
    simp only [forgetZero] at hlt ⊢
    split at hlt
    · omega
    · next hkeep =>
      rw [if_neg hkeep]
      by_cases hz : m.indexZero = index
      · simp_all
      · simpa [hz] using h hmd hlt

theorem expandBits_zero_set (hi : index < g.assoc) : g.expandBits (index / g.assoc) 0 = 0 := by
  simp [Geom.expandBits, Nat.div_eq_of_lt hi]

/-- `index_zero` is redundant: a zero descriptor of set 0 expands to sector 0
with or without it. -/
theorem ZeroOk.expandDbn_eq (hz : ZeroOk g m) (hmd : g.md8 = false) :
    m.expandDbn g j = if (m.cache j).dbn = 0 ∧ (m.cache j).cacheState = State.invalid then 0
      else g.expandBits (j / g.assoc) (m.cache j).dbn := by
  rw [expandDbn]
  split
  · next h =>
    obtain ⟨rfl, hlt⟩ := h
    rw [hz hmd hlt, expandBits_zero_set hlt]
    simp
  · rfl

/-- The sector stored at an index is read back there, moved to the set of the
index. -/
theorem dbnGet_dbnSet_self (hz : ZeroOk g m) (hdbn : dbn < g.diskSize)
    (hset : index / g.assoc ≤ g.hashBlock dbn)
    (hown : g.md8 = true → index / g.assoc = g.hashBlock dbn)
    (hstate : m.stateGet g index ≠ State.invalid) :
    (m.dbnSet g index dbn).dbnGet g index = g.moved (index / g.assoc) dbn := by
  by_cases hmd : g.md8
  · rw [hown hmd, g.moved_self]
    by_cases h0 : dbn = 0 <;> simp [dbnGet, dbnSet, hmd, h0, md8DbnSet]
  · have hmd' : g.md8 = false := by simpa using hmd
    have hlt := Nat.lt_of_lt_of_le hdbn (Geom.diskSize_le_of_not_md8 hmd')
    have hblock : (m.dbnSet g index dbn).cache index =
        { m.cache index with dbn := g.shrinkDbn dbn } := by
      by_cases h0 : dbn = 0 <;> simp [dbnSet, hmd, h0, md4DbnSet]
    simp only [stateGet, hmd', Bool.false_eq_true, if_false] at hstate
    simp only [dbnGet, hmd', Bool.false_eq_true, if_false, hz.dbnSet.expandDbn_eq hmd', hblock,
      hstate, and_false, Geom.expandBits_shrinkDbn hset hlt]

/-- Storing a sector at one index changes no other. -/
theorem dbnGet_dbnSet_ne (hz : ZeroOk g m) (hj : j ≠ index) :
    (m.dbnSet g index dbn).dbnGet g j = m.dbnGet g j := by
  by_cases hmd : g.md8
  · by_cases h0 : dbn = 0 <;> simp [dbnGet, dbnSet, hmd, h0, md8DbnSet, hj]
  · have hmd' : g.md8 = false := by simpa using hmd
    have hblock : (m.dbnSet g index dbn).cache j = m.cache j := by
      by_cases h0 : dbn = 0 <;> simp [dbnSet, hmd, h0, md4DbnSet, hj]
    simp only [dbnGet, hmd', Bool.false_eq_true, if_false, hz.dbnSet.expandDbn_eq hmd',
      hz.expandDbn_eq hmd', hblock]

end Meta
end EnhanceIO
