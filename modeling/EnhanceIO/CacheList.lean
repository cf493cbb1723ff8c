import Mathlib.Data.BitVec
import EnhanceIO.Lib.CStr
import EnhanceIO.Registry

/-!
# The list of caches for the user

`eio_get_cache_list` copies one record per active cache to the user, who says for how many of
them there is room. The room is a 64-bit number, the size of the buffer that is allocated for
the records an unsigned int, and so is the number of records written.

* `bufferSize` is the size as the source computes it; `bufferSize_eq` the product it is cut from;
* the two nested loops are one loop over the active caches (`fillBuckets_eq`), and what they
  write is `numbered`;
* `cacheList_in_buffer_iff` says for which numbers all of it is in the buffer.
-/

namespace EnhanceIO.CacheListing

/-! ## The request and the records -/

/-- What `eio_cache_rec_fill` reads of a cache. The sizes of the devices are in bytes. -/
structure CacheC where
  cacheName : CStr
  diskDevname : CStr
  cacheDevname : CStr
  diskDevSize : Nat
  cacheDevSize : Nat
  cacheFlags : BitVec 32
  reqPolicy : BitVec 32
  mode : BitVec 32
  persistence : BitVec 32
  blockSize : BitVec 32
  assoc : BitVec 32

/-- `struct cache_rec_short`. -/
structure CacheRecShort where
  crName : CStr
  crSrcDevname : CStr
  crSsdDevname : CStr
  crSsdUuid : CStr
  crSrcDevSize : Nat
  crSsdDevSize : Nat
  crSrcSectorSize : BitVec 32
  crSsdSectorSize : BitVec 32
  crFlags : BitVec 32
  crPolicy : BitVec 8
  crMode : BitVec 8
  crPersistence : BitVec 8
  crColdBoot : BitVec 8
  crBlksize : BitVec 64
  crAssoc : BitVec 64

/-- `sizeof(struct cache_rec_short)`: four names, two sizes, three ints, four characters and two
more 64-bit numbers, with no gap between them. -/
def sizeofCacheRecShort : Nat := (32 + 3 * 128) + 2 * 8 + 3 * 4 + 4 * 1 + 2 * 8

/-- `eio_cache_rec_fill`, in a record that is all zero. -/
def cacheRecFill (c : CacheC) : CacheRecShort where
  crName := c.cacheName.strncpy 31
  crSrcDevname := c.diskDevname.strncpy 127
  crSsdDevname := c.cacheDevname.strncpy 127
  crSsdUuid := .nil
  crSrcDevSize := c.diskDevSize
  crSsdDevSize := c.cacheDevSize
  crSrcSectorSize := 0
  crSsdSectorSize := 0
  crFlags := c.cacheFlags
  crPolicy := c.reqPolicy.setWidth 8
  crMode := c.mode.setWidth 8
  crPersistence := c.persistence.setWidth 8
  crColdBoot := 0
  crBlksize := c.blockSize.setWidth 64
  crAssoc := c.assoc.setWidth 64

/-- A record written to the buffer: its index, and what is written. -/
abbrev Write := Nat × CacheRecShort

/-- `size`: the product is a 64-bit number, of which an unsigned int is kept. -/
def bufferSize (ncaches : BitVec 64) : Nat :=
  ((ncaches * BitVec.ofNat 64 sizeofCacheRecShort).setWidth 32).toNat

/-! ## The loops -/

/-- The inner loop of `eio_get_cache_list`, from the record `i` on; `i` is an unsigned int. -/
def fillBucket (ncaches : Nat) : List CacheC → Nat → List Write → Nat × List Write
  | [], i, writes => (i, writes)
  | c :: caches, i, writes =>
    let writes := writes ++ [(i, cacheRecFill c)]
    let i := (i + 1) % 2 ^ 32
    if i = ncaches then (i, writes) else fillBucket ncaches caches i writes

/-- The outer loop, over the buckets that are left. -/
def fillBuckets (ncaches : Nat) : List (List CacheC) → Nat → List Write → Nat × List Write
  | [], i, writes => (i, writes)
  | bucket :: buckets, i, writes =>
    let r := fillBucket ncaches bucket i writes
    if r.1 = ncaches then r else fillBuckets ncaches buckets r.1 r.2

/-- The outcomes of the transfers and of the allocation. -/
structure Env where
  copyIn : Bool
  alloc : Bool
  copyRecs : Bool
  copyOut : Bool

/-- What a call did: its result, the size of the buffer that it allocated, the records that it
wrote there, and the number of bytes that it copied out of the buffer. -/
structure Outcome where
  error : Int
  bufferBytes : Nat
  writes : List Write
  copied : Option Nat

def EFAULT : Int := 14
def ENOMEM : Int := 12

/-- The buckets of `eio_ttc_list`. -/
def buckets (ttcList : Nat → List CacheC) : List (List CacheC) :=
  (List.range Ttc.eioHashtblSize).map ttcList

/-- `eio_get_cache_list`. There is no buffer of 0 bytes. -/
def eioGetCacheList (env : Env) (ttcList : Nat → List CacheC) (ncaches : BitVec 64) : Outcome :=
  let size := bufferSize ncaches
  if env.copyIn = false then ⟨-EFAULT, 0, [], none⟩
  else if env.alloc = false ∨ size = 0 then ⟨-ENOMEM, 0, [], none⟩
  else
    let writes := (fillBuckets ncaches.toNat (buckets ttcList) 0 []).2
    if env.copyRecs = false then ⟨-EFAULT, size, writes, some size⟩
    else if env.copyOut = false then ⟨-EFAULT, size, writes, some size⟩
    else ⟨0, size, writes, some size⟩

/-! ## What the loops write -/

/-- The caches in the order in which the loops come to them. -/
def active (ttcList : Nat → List CacheC) : List CacheC := (buckets ttcList).flatten

section
variable {ncaches : Nat}

/-- The inner loop goes on with a second list where it has not stopped in the first. -/
theorem fillBucket_append (xs ys : List CacheC) {i : Nat} (hi : i ≠ ncaches)
    (writes : List Write) :
    fillBucket ncaches (xs ++ ys) i writes =
      if (fillBucket ncaches xs i writes).1 = ncaches then fillBucket ncaches xs i writes
      else fillBucket ncaches ys (fillBucket ncaches xs i writes).1
        (fillBucket ncaches xs i writes).2 := by
  induction xs generalizing i writes with
  | nil => simp [fillBucket, hi]
  | cons c xs ih =>
    simp only [List.cons_append, fillBucket]
    by_cases hstop : (i + 1) % 2 ^ 32 = ncaches
    · simp only [hstop, if_true]
    · simp only [hstop, if_false]
      exact ih hstop _

/-- The two loops are one over all caches. -/
theorem fillBuckets_eq (bs : List (List CacheC)) {i : Nat} (hi : i ≠ ncaches)
    (writes : List Write) :
    fillBuckets ncaches bs i writes = fillBucket ncaches bs.flatten i writes := by
  induction bs generalizing i writes with
  | nil => rfl
  | cons b bs ih =>
    rw [fillBuckets, List.flatten_cons, fillBucket_append b bs.flatten hi]
    by_cases hstop : (fillBucket ncaches b i writes).1 = ncaches
    · simp only [hstop, if_true]
    · simp only [hstop, if_false]
      exact ih hstop _

/-- The records of some caches, from the index `i` on. -/
def numbered : Nat → List CacheC → List Write
  | _, [] => []
  | i, c :: caches => (i, cacheRecFill c) :: numbered ((i + 1) % 2 ^ 32) caches

/-- A number that an unsigned int cannot reach does not stop the loop. -/
theorem fillBucket_of_ge (hn : 2 ^ 32 ≤ ncaches) (caches : List CacheC) (i : Nat)
    (writes : List Write) :
    (fillBucket ncaches caches i writes).2 = writes ++ numbered i caches := by
  induction caches generalizing i writes with
  | nil => simp [fillBucket, numbered]
  | cons c caches ih =>
    have hlt : (i + 1) % 2 ^ 32 < 2 ^ 32 := Nat.mod_lt _ (by decide)
    have hgo : (i + 1) % 2 ^ 32 ≠ ncaches := by omega
    simp only [fillBucket, hgo, if_false, numbered]
    rw [ih, List.append_assoc]
    rfl

theorem fillBucket_of_lt (hn : ncaches < 2 ^ 32) (caches : List CacheC) {i : Nat}
    (hi : i < ncaches) (writes : List Write) :
    (fillBucket ncaches caches i writes).2 = writes ++ numbered i (caches.take (ncaches - i)) := by
  induction caches generalizing i writes with
  | nil => simp [fillBucket, numbered]
  | cons c caches ih =>
    obtain ⟨k, hk⟩ : ∃ k, ncaches - i = k + 1 := ⟨ncaches - i - 1, by omega⟩
    have hnext : (i + 1) % 2 ^ 32 = i + 1 := Nat.mod_eq_of_lt (by omega)
    simp only [fillBucket, hnext, hk, List.take_succ_cons, numbered]
    by_cases hstop : i + 1 = ncaches
    · obtain rfl : k = 0 := by omega
      simp [hstop, numbered]
    · have hrest : ncaches - (i + 1) = k := by omega
      rw [if_neg hstop, ih (by omega), hrest, List.append_assoc]
      rfl

end

/-- The caches of which the records are written. -/
def listed (ncaches : Nat) (caches : List CacheC) : List CacheC :=
  if ncaches < 2 ^ 32 then caches.take ncaches else caches

/-- What the loops write for a number other than 0. -/
theorem fillBuckets_writes {ncaches : Nat} (hn : ncaches ≠ 0) (ttcList : Nat → List CacheC) :
    (fillBuckets ncaches (buckets ttcList) 0 []).2 =
      numbered 0 (listed ncaches (active ttcList)) := by
  rw [fillBuckets_eq _ hn.symm, listed, ← active]
  split
  · next hlt =>
    rw [fillBucket_of_lt hlt _ (Nat.pos_of_ne_zero hn), Nat.sub_zero, List.nil_append]
  · next hge => rw [fillBucket_of_ge (Nat.le_of_not_lt hge), List.nil_append]

/-- All indices are below `bound`, a number that an unsigned int can reach, exactly if there are
no more records than that. -/
theorem numbered_lt_iff {bound : Nat} (hb : bound < 2 ^ 32) (caches : List CacheC) :
    ∀ i ≤ bound, (∀ w ∈ numbered i caches, w.1 < bound) ↔ caches.length ≤ bound - i := by
  induction caches with
  | nil => simp [numbered]
  | cons c caches ih =>
    intro i hi
    simp only [numbered, List.forall_mem_cons, List.length_cons]
    by_cases hlt : i < bound
    · have hnext : (i + 1) % 2 ^ 32 = i + 1 := Nat.mod_eq_of_lt (by omega)
      rw [hnext, ih (i + 1) hlt]
      omega
    · omega

/-! ## Inside the buffer -/

/-- The records written are whole records of the buffer, and what is copied out is all of it. -/
structure Outcome.InBuffer (out : Outcome) : Prop where
  writes : ∀ w ∈ out.writes, w.1 < out.bufferBytes / sizeofCacheRecShort
  copied : ∀ n ∈ out.copied, n = out.bufferBytes

theorem bufferSize_eq (ncaches : BitVec 64) :
    bufferSize ncaches = ncaches.toNat * sizeofCacheRecShort % 2 ^ 32 := by
  have hdvd : 2 ^ 32 ∣ 2 ^ 64 := Nat.pow_dvd_pow 2 (by decide)
  rw [bufferSize, BitVec.toNat_setWidth, BitVec.toNat_mul, Nat.mod_mod_of_dvd _ hdvd]
  rfl

theorem inBuffer_iff (ttcList : Nat → List CacheC) {ncaches : BitVec 64}
    (hsize : bufferSize ncaches ≠ 0) :
    (∀ env, (eioGetCacheList env ttcList ncaches).InBuffer) ↔
      (listed ncaches.toNat (active ttcList)).length ≤
        bufferSize ncaches / sizeofCacheRecShort := by
  have hn : ncaches.toNat ≠ 0 := by
    intro hzero
    apply hsize
    rw [bufferSize_eq, hzero, Nat.zero_mul, Nat.zero_mod]
  have hlt : bufferSize ncaches / sizeofCacheRecShort < 2 ^ 32 :=
    Nat.lt_of_le_of_lt (Nat.div_le_self _ _) (BitVec.isLt _)
  have hall := numbered_lt_iff hlt (listed ncaches.toNat (active ttcList)) 0 (Nat.zero_le _)
  rw [Nat.sub_zero] at hall
  rw [← hall]
  constructor
  · intro h
    have hin := (h ⟨true, true, true, true⟩).writes
    simp only [eioGetCacheList, hsize, reduceCtorEq, if_false, or_self, fillBuckets_writes hn]
      at hin
    exact hin
  · intro h env
    simp only [eioGetCacheList, hsize, or_false, fillBuckets_writes hn]
    split
    · exact ⟨by simp, by simp⟩
    split
    · exact ⟨by simp, by simp⟩
    split
    · exact ⟨h, by simp⟩
    split
    · exact ⟨h, by simp⟩
    · exact ⟨h, by simp⟩

/-- The call stays inside of its buffer exactly if the size of the buffer is the product, or it
is 0 so that there is no buffer, or there are not more caches than records in the buffer. -/
theorem cacheList_in_buffer_iff (ttcList : Nat → List CacheC) (ncaches : BitVec 64) :
    (∀ env, (eioGetCacheList env ttcList ncaches).InBuffer) ↔
      ncaches.toNat * sizeofCacheRecShort < 2 ^ 32 ∨
      2 ^ 32 ∣ ncaches.toNat * sizeofCacheRecShort ∨
      (active ttcList).length ≤
        ncaches.toNat * sizeofCacheRecShort % 2 ^ 32 / sizeofCacheRecShort := by
  by_cases hsize : bufferSize ncaches = 0
  · -- no buffer is allocated
    have hdvd : 2 ^ 32 ∣ ncaches.toNat * sizeofCacheRecShort := by
      rw [bufferSize_eq] at hsize
      exact Nat.dvd_of_mod_eq_zero hsize
    refine iff_of_true (fun env => ?_) (.inr (.inl hdvd))
    simp only [eioGetCacheList, hsize, or_true, if_true]
    split
    · exact ⟨by simp, by simp⟩
    · exact ⟨by simp, by simp⟩
  · have hndvd : ¬ 2 ^ 32 ∣ ncaches.toNat * sizeofCacheRecShort := by
      intro hdvd
      apply hsize
      rw [bufferSize_eq]
      exact Nat.mod_eq_zero_of_dvd hdvd
    rw [inBuffer_iff ttcList hsize, bufferSize_eq]
    simp only [hndvd, false_or]
    have hrec : sizeofCacheRecShort = 464 := rfl
    by_cases hfit : ncaches.toNat * sizeofCacheRecShort < 2 ^ 32
    · -- the records of as many caches as asked for fit
      refine iff_of_true ?_ (.inl hfit)
      have hn : ncaches.toNat < 2 ^ 32 := by
        rw [hrec] at hfit
        omega
      rw [Nat.mod_eq_of_lt hfit, Nat.mul_div_cancel _ (by decide), listed, if_pos hn,
        List.length_take]
      exact Nat.min_le_left _ _
    · simp only [hfit, false_or, listed]
      have hbuf : ncaches.toNat * sizeofCacheRecShort % 2 ^ 32 < 2 ^ 32 := Nat.mod_lt _ (by decide)
      split
      · -- fewer records fit than were asked for
        rw [List.length_take]
        rw [hrec] at hfit hbuf ⊢
        omega
      · rfl

/-- A cache with nothing but a name. -/
def named (byte : UInt8) (h : byte ≠ 0) : CacheC where
  cacheName := ⟨[byte], by simpa using h.symm⟩
  diskDevname := .nil
  cacheDevname := .nil
  diskDevSize := 0
  cacheDevSize := 0
  cacheFlags := 0
  reqPolicy := 0
  mode := 0
  persistence := 0
  blockSize := 0
  assoc := 0

/-- Two caches, in the buckets 0 and 1. -/
def twoCaches : Nat → List CacheC
  | 0 => [named 97 (by decide)]
  | 1 => [named 98 (by decide)]
  | _ => []

/-- For `2 ^ 28 + 1` records a buffer of one record is allocated, and two are written. -/
theorem cacheList_overruns :
    bufferSize (2 ^ 28 + 1) = sizeofCacheRecShort ∧
      ∃ w ∈ (eioGetCacheList ⟨true, true, true, true⟩ twoCaches (2 ^ 28 + 1)).writes, w.1 = 1 := by
  refine ⟨by decide, ?_⟩
  decide +kernel

end EnhanceIO.CacheListing
