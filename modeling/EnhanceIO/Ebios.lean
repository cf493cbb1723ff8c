import EnhanceIO.Dispatch
import EnhanceIO.Geometry
import Mathlib.Algebra.BigOperators.Ring.List

/-!
# The ebios of a bio

`eio_map` cuts a bio into ebios, one per cache block. `eio_get_iosize` gives the
size of the next one and `eio_new_ebio` the memory it covers. An ebio that
starts at the start of a segment of the bio uses the segments of the bio itself,
the last of them possibly longer than what belongs to it. One that starts inside
a segment gets copies, cut to size.

Where the cut is, is kept in two variables that go from call to call: the index
of the segment in the bio and the bytes of it that are used up. `posAt` is the
pair after so many bytes of the bio; the calls only ever move it forward.
-/

namespace EnhanceIO

/-! ## The two functions and the loop -/

/-- The value of an `int` after an assignment or an arithmetic operation. -/
def wrapInt (i : Int) : Int := (i + 2 ^ 31) % 2 ^ 32 - 2 ^ 31

/-- `eio_get_iosize`, in bytes. -/
def eioGetIosize (blockSize snum biosize : Nat) : Nat :=
  let swithinblock := snum &&& (blockSize - 1)
  let iosize :=
    if swithinblock ≠ 0 then (blockSize - swithinblock) * 512 % 2 ^ 32
    else blockSize * 512 % 2 ^ 32
  if biosize < iosize then biosize else iosize

/-- Where the next ebio starts: the segments from `bi_idx` on, and the bytes of the first of
them that are used up (`residual_biovec`). -/
structure BvecPos where
  rest : List IoVec
  residual : Nat
  deriving DecidableEq, Repr

/-- The fields of an ebio that say what it covers: `eb_sector`, `eb_size`, and the
`eb_nbvec` segments at `eb_bv`. The other fields are those of `Ebio.init`. -/
structure EbioVec where
  ebSector : Nat
  ebSize : Nat
  ebBv : List IoVec
  deriving DecidableEq, Repr

/-- The loop that counts the segments of an ebio to be copied, in ints; `none` if it reads
behind the end of the array. -/
def countBvecs (iosize : Int) (residual : Nat) : List IoVec → Int → Option Nat
  | [], ios => if 0 < ios then none else some 0
  | v :: rest, ios =>
    if 0 < ios then
      let len := wrapInt (if ios = iosize then (v.bvLen : Int) - residual else v.bvLen)
      let len := if ios < len then ios else len
      (countBvecs iosize residual rest (wrapInt (ios - len))).map (· + 1)
    else some 0

/-- The loop that copies them. -/
def copyBvecs : List IoVec → Nat → Nat → Option (List IoVec × BvecPos)
  | [], residual, ios => if ios = 0 then some ([], ⟨[], residual⟩) else none
  | v :: rest, residual, ios =>
    if ios = 0 then some ([], ⟨v :: rest, residual⟩)
    else if ios < v.bvLen - residual then
      some ([⟨v.bvPage, v.bvOffset + residual, ios⟩], ⟨v :: rest, residual + ios⟩)
    else
      (copyBvecs rest 0 (ios - (v.bvLen - residual))).map fun (rbv, pos) =>
        (⟨v.bvPage, v.bvOffset + residual, v.bvLen - residual⟩ :: rbv, pos)

/-- The loop over the segments of the bio itself: how many of them the ebio uses. -/
def aliasBvecs : List IoVec → Nat → Option (Nat × BvecPos)
  | [], ios => if ios = 0 then some (0, ⟨[], 0⟩) else none
  | v :: rest, ios =>
    if ios = 0 then some (0, ⟨v :: rest, 0⟩)
    else if ios < v.bvLen then some (1, ⟨v :: rest, ios⟩)
    else (aliasBvecs rest (ios - v.bvLen)).map fun (numbvecs, pos) => (numbvecs + 1, pos)

/-- `eio_new_ebio`; `none` if an assertion fails or it reads behind the array. `iosize` is an
int there: no loop runs on a negative one, and then `ios == 0` fails. -/
def eioNewEbio (pos : BvecPos) (snum iosize : Nat) : Option (EbioVec × BvecPos) :=
  let ios := wrapInt iosize
  if ios < 0 then none
  else if pos.residual ≠ 0 then
    (countBvecs ios pos.residual pos.rest ios).bind fun numbvecs =>
      (copyBvecs pos.rest pos.residual iosize).bind fun (rbv, pos') =>
        -- `rbvindex == numbvecs` and `numbvecs != 0`
        if rbv.length = numbvecs ∧ numbvecs ≠ 0 then some (⟨snum, iosize, rbv⟩, pos') else none
  else
    (aliasBvecs pos.rest iosize).bind fun (numbvecs, pos') =>
      if numbvecs ≠ 0 then some (⟨snum, iosize, pos.rest.take numbvecs⟩, pos') else none

/-- The loop of `eio_map` that creates the ebios of a bio, with at most `rounds` rounds. -/
def ebioLoop (blockSize : Nat) : Nat → Nat → Nat → BvecPos → Option (List EbioVec)
  | 0, _, biosize, _ => if biosize = 0 then some [] else none
  | rounds + 1, snum, biosize, pos =>
    if biosize = 0 then some []
    else
      let iosize := eioGetIosize blockSize snum biosize
      (eioNewEbio pos snum iosize).bind fun (ebio, pos) =>
        (ebioLoop blockSize rounds (snum + toSector iosize) (biosize - iosize) pos).map (ebio :: ·)

/-- The segments of a bio: none is empty, all hold whole sectors, and `bi_size`, their sum,
is an unsigned int. -/
structure BioVecs where
  vecs : List IoVec
  pos : ∀ v ∈ vecs, 0 < v.bvLen
  dvd : ∀ v ∈ vecs, 512 ∣ v.bvLen
  size_lt : totalLen vecs < 2 ^ 32

/-- `bi_size`. -/
def BioVecs.biSize (bio : BioVecs) : Nat := totalLen bio.vecs

/-- The ebios of a bio at `sector`. A bio has at least as many sectors as ebios. -/
def eioMapEbios (blockSize sector : Nat) (bio : BioVecs) : Option (List EbioVec) :=
  ebioLoop blockSize (bio.biSize / 512) sector bio.biSize ⟨bio.vecs, 0⟩

/-! ## Bytes and positions -/

/-- The bytes of a segment, as places in memory. -/
def IoVec.bytes (v : IoVec) : List (Nat × Nat) :=
  (List.range v.bvLen).map fun k => (v.bvPage, v.bvOffset + k)

/-- The bytes of an array of segments. -/
def bytesOf (vs : List IoVec) : List (Nat × Nat) := vs.flatMap IoVec.bytes

/-- The bytes of an ebio: the first `eb_size` of its segments. -/
def EbioVec.bytes (e : EbioVec) : List (Nat × Nat) := (bytesOf e.ebBv).take e.ebSize

theorem length_bytes (v : IoVec) : v.bytes.length = v.bvLen := by
  rw [IoVec.bytes, List.length_map, List.length_range]

theorem bytesOf_cons (v : IoVec) (vs : List IoVec) : bytesOf (v :: vs) = v.bytes ++ bytesOf vs :=
  List.flatMap_cons

theorem totalLen_cons (v : IoVec) (vs : List IoVec) :
    totalLen (v :: vs) = v.bvLen + totalLen vs := by
  rw [totalLen, totalLen, List.map_cons, List.sum_cons]

theorem length_bytesOf (vs : List IoVec) : (bytesOf vs).length = totalLen vs := by
  induction vs with
  | nil => rfl
  | cons v vs ih => rw [bytesOf_cons, List.length_append, length_bytes, ih, totalLen_cons]

theorem bytes_part (v : IoVec) (r len : Nat) (h : r + len ≤ v.bvLen) :
    (IoVec.mk v.bvPage (v.bvOffset + r) len).bytes = (v.bytes.drop r).take len := by
  apply List.ext_getElem
  · simp only [length_bytes, List.length_take, List.length_drop]
    omega
  · intro k hk hk'
    simp [IoVec.bytes, Nat.add_assoc]

/-- The position `n` bytes into an array of segments. -/
def posAt : List IoVec → Nat → BvecPos
  | [], _ => ⟨[], 0⟩
  | v :: rest, n => if n < v.bvLen then ⟨v :: rest, n⟩ else posAt rest (n - v.bvLen)

/-- The bytes of the segment at a position, from there on; none where a segment starts. -/
def BvecPos.inside (pos : BvecPos) : Nat :=
  match pos.rest with
  | [] => 0
  | v :: _ => if pos.residual = 0 then 0 else v.bvLen - pos.residual

theorem posAt_zero {vs : List IoVec} (h : ∀ v ∈ vs, 0 < v.bvLen) : posAt vs 0 = ⟨vs, 0⟩ := by
  cases vs with
  | nil => rfl
  | cons v vs => rw [posAt, if_pos (h v List.mem_cons_self)]

/-- What is left of the segments at a position. -/
structure PosOk (vs : List IoVec) (n : Nat) (pos : BvecPos) : Prop where
  sub : ∀ v ∈ pos.rest, v ∈ vs
  lt : ∀ v ∈ pos.rest.head?, pos.residual < v.bvLen
  le : pos.residual ≤ n
  bytes : (bytesOf pos.rest).drop pos.residual = (bytesOf vs).drop n
  left : totalLen pos.rest = pos.residual + (totalLen vs - n)
  next : ∀ m, posAt vs (n + m) = posAt pos.rest (pos.residual + m)

theorem posAt_ok {vs : List IoVec} {n : Nat} (h : n ≤ totalLen vs) : PosOk vs n (posAt vs n) := by
  induction vs generalizing n with
  | nil =>
    have h0 : n = 0 := Nat.le_zero.mp h
    subst h0
    exact ⟨fun v hv => hv, fun v hv => by simp [posAt] at hv, Nat.le_refl 0, rfl, rfl,
      fun m => by simp [posAt]⟩
  | cons v vs ih =>
    rw [totalLen_cons] at h
    rw [posAt]
    split
    · next hlt =>
      refine ⟨fun w hw => hw, ?_, Nat.le_refl n, rfl, ?_, fun m => rfl⟩
      · intro w hw
        obtain rfl : v = w := by simpa using hw
        exact hlt
      · show totalLen (v :: vs) = n + (totalLen (v :: vs) - n)
        rw [totalLen_cons]
        omega
    · next hge =>
      have hrest := ih (n := n - v.bvLen) (by omega)
      refine ⟨fun w hw => List.mem_cons_of_mem v (hrest.sub w hw), hrest.lt,
        hrest.le.trans (Nat.sub_le n _), ?_, ?_, ?_⟩
      · have hgone : v.bytes.drop n = [] := by
          apply List.drop_of_length_le
          rw [length_bytes]
          omega
        rw [hrest.bytes, bytesOf_cons, List.drop_append, length_bytes, hgone, List.nil_append]
      · rw [hrest.left, totalLen_cons]
        omega
      · intro m
        rw [posAt, if_neg (by omega), show n + m - v.bvLen = n - v.bvLen + m by omega]
        exact hrest.next m

/-- Past the first segment the position is one in the rest. -/
theorem posAt_cons_of_le {v : IoVec} {vs : List IoVec} {n : Nat} (h : v.bvLen ≤ n) :
    posAt (v :: vs) n = posAt vs (n - v.bvLen) := by
  rw [posAt, if_neg (by omega)]

/-! ## The loops over the segments -/

/-- The segments of the bio an ebio uses: their first bytes are the next of the bio. -/
theorem aliasBvecs_eq {vs : List IoVec} (ios : Nat) (hpos : ∀ v ∈ vs, 0 < v.bvLen)
    (h : ios ≤ totalLen vs) : ∃ num, aliasBvecs vs ios = some (num, posAt vs ios) ∧
      (num = 0 ↔ ios = 0) ∧ (bytesOf (vs.take num)).take ios = (bytesOf vs).take ios := by
  induction vs generalizing ios with
  | nil =>
    have h0 : ios = 0 := Nat.le_zero.mp h
    subst h0
    exact ⟨0, rfl, by simp, rfl⟩
  | cons v vs ih =>
    rw [totalLen_cons] at h
    have hv := hpos v List.mem_cons_self
    rw [aliasBvecs]
    by_cases h0 : ios = 0
    · subst h0
      exact ⟨0, by rw [if_pos rfl, posAt_zero hpos], by simp, by simp⟩
    · rw [if_neg h0]
      by_cases hlt : ios < v.bvLen
      · refine ⟨1, by rw [if_pos hlt, posAt, if_pos hlt], by simp [h0], ?_⟩
        rw [List.take_succ_cons, List.take_zero, bytesOf_cons, bytesOf_cons,
          List.take_append_of_le_length (by rw [length_bytes]; omega),
          List.take_append_of_le_length (by rw [length_bytes]; omega)]
      · obtain ⟨num, hrun, _, hbytes⟩ := ih (ios - v.bvLen)
          (fun w hw => hpos w (List.mem_cons_of_mem v hw)) (by omega)
        refine ⟨num + 1, ?_, by simp [h0], ?_⟩
        · rw [if_neg hlt, hrun, posAt_cons_of_le (by omega)]
          rfl
        · rw [List.take_succ_cons, bytesOf_cons, bytesOf_cons, List.take_append,
            List.take_append, length_bytes, hbytes]

theorem copyBvecs_eq {vs : List IoVec} (residual ios : Nat) (hpos : ∀ v ∈ vs, 0 < v.bvLen)
    (hr : ∀ v ∈ vs.head?, residual < v.bvLen) (hios : 0 < ios)
    (h : residual + ios ≤ totalLen vs) :
    ∃ rbv, copyBvecs vs residual ios = some (rbv, posAt vs (residual + ios)) ∧
      bytesOf rbv = ((bytesOf vs).drop residual).take ios := by
  induction vs generalizing residual ios with
  | nil =>
    simp only [totalLen, List.map_nil, List.sum_nil] at h
    omega
  | cons v vs ih =>
    rw [totalLen_cons] at h
    have hv : residual < v.bvLen := hr v rfl
    rw [copyBvecs, if_neg (by omega)]
    by_cases hlt : ios < v.bvLen - residual
    · refine ⟨_, by rw [if_pos hlt, posAt, if_pos (by omega)], ?_⟩
      rw [bytesOf_cons, bytesOf_cons, bytes_part v residual ios (by omega),
        List.drop_append_of_le_length (by rw [length_bytes]; omega),
        List.take_append_of_le_length (by rw [List.length_drop, length_bytes]; omega)]
      exact List.append_nil _
    · rw [if_neg hlt]
      have hdrop : (bytesOf (v :: vs)).drop residual = v.bytes.drop residual ++ bytesOf vs := by
        rw [bytesOf_cons, List.drop_append_of_le_length (by rw [length_bytes]; omega)]
      by_cases hend : ios = v.bvLen - residual
      · -- the ebio ends with the segment
        have hdone : copyBvecs vs 0 (ios - (v.bvLen - residual)) = some ([], posAt vs 0) := by
          rw [posAt_zero fun w hw => hpos w (List.mem_cons_of_mem v hw), hend, Nat.sub_self]
          cases vs <;> rw [copyBvecs, if_pos rfl]
        refine ⟨_, by
          rw [hdone, posAt_cons_of_le (by omega),
            show residual + ios - v.bvLen = 0 by omega, Option.map_some], ?_⟩
        rw [hdrop, List.take_append_of_le_length (by rw [List.length_drop, length_bytes]; omega),
          bytesOf_cons, bytes_part v residual _ (by omega), ← hend]
        exact List.append_nil _
      · obtain ⟨rbv, hrun, hbytes⟩ := ih 0 (ios - (v.bvLen - residual))
          (fun w hw => hpos w (List.mem_cons_of_mem v hw))
          (fun w hw => hpos w (List.mem_cons_of_mem v (List.mem_of_mem_head? hw)))
          (by omega) (by omega)
        refine ⟨_, by
          rw [hrun, posAt_cons_of_le (by omega), Option.map_some,
            show residual + ios - v.bvLen = 0 + (ios - (v.bvLen - residual)) by omega], ?_⟩
        have hall : ∀ n, v.bvLen - residual ≤ n →
            (v.bytes.drop residual).take n = v.bytes.drop residual := by
          intro n hn
          apply List.take_of_length_le
          rw [List.length_drop, length_bytes]
          exact hn
        rw [hdrop, List.take_append, List.length_drop, length_bytes, bytesOf_cons, hbytes,
          bytes_part v residual _ (by omega), List.drop_zero, hall _ (Nat.le_refl _),
          hall ios (by omega)]

theorem countBvecs_of_nonpos {iosize ios : Int} {residual : Nat} (vs : List IoVec) (h : ios ≤ 0) :
    countBvecs iosize residual vs ios = some 0 := by
  cases vs <;> rw [countBvecs, if_neg (by omega)]

theorem pos_of_countBvecs {iosize ios : Int} {residual num : Nat} {vs : List IoVec} (h : 0 < ios)
    (hnum : countBvecs iosize residual vs ios = some num) : 0 < num := by
  cases vs with
  | nil =>
    rw [countBvecs, if_pos h] at hnum
    cases hnum
  | cons v vs =>
    rw [countBvecs, if_pos h] at hnum
    obtain ⟨n, _, rfl⟩ := Option.map_eq_some_iff.mp hnum
    exact Nat.succ_pos n

/-- One round of the counting loop, at a segment with `len` bytes left. -/
theorem countBvecs_cons {iosize residual ios len : Nat} {v : IoVec} (vs : List IoVec)
    (hios : 0 < ios)
    (hlen : (if (ios : Int) = iosize then (v.bvLen : Int) - residual else v.bvLen) = len) :
    countBvecs iosize residual (v :: vs) ios =
      (countBvecs iosize residual vs
        (wrapInt (ios - if (ios : Int) < wrapInt len then (ios : Int) else wrapInt len))).map
        (· + 1) := by
  rw [countBvecs, if_pos (by omega)]
  simp only [hlen]

/-- What the counting loop makes of the segment an ebio ends in, with `ios` bytes to go: it
is the last one, unless more than 2^31 bytes of it are left behind the ebio. The number of
bytes is then negative as an int, and the loop goes on. -/
theorem wrapInt_last {ios len : Nat} (hios : 0 < ios) (hios' : ios < 2 ^ 31) (hlen : ios ≤ len)
    (hlen' : len < 2 ^ 32) :
    (wrapInt (ios - if (ios : Int) < wrapInt len then (ios : Int) else wrapInt len) ≤ 0 ↔
      len - ios ≤ 2 ^ 31) := by
  have hwrap : wrapInt len = if len < 2 ^ 31 then (len : Int) else len - 2 ^ 32 := by
    rw [wrapInt]
    split <;> omega
  rw [hwrap, wrapInt]
  split <;> split <;> omega

/-- The count agrees with the number of copies if no more than 2^31 bytes of the segment the
ebio ends in are left behind it, and is larger otherwise. -/
theorem countBvecs_eq {iosize residual r ios : Nat} {vs rbv : List IoVec} {pos : BvecPos}
    (hpos : ∀ v ∈ vs, 0 < v.bvLen) (hsize : totalLen vs < 2 ^ 32)
    (hr : ∀ v ∈ vs.head?, r < v.bvLen) (hios : 0 < ios) (hios' : ios < 2 ^ 31)
    (hfirst : (ios = iosize ∧ r = residual) ∨ (ios < iosize ∧ r = 0))
    (hcopy : copyBvecs vs r ios = some (rbv, pos)) :
    (pos.inside ≤ 2 ^ 31 → countBvecs iosize residual vs ios = some rbv.length) ∧
      (2 ^ 31 < pos.inside → ∀ num, countBvecs iosize residual vs ios = some num →
        rbv.length < num) := by
  induction vs generalizing r ios rbv pos with
  | nil =>
    rw [copyBvecs, if_neg (by omega)] at hcopy
    cases hcopy
  | cons v vs ih =>
    have hv : r < v.bvLen := hr v rfl
    rw [totalLen_cons] at hsize
    have hlen : (if (ios : Int) = iosize then (v.bvLen : Int) - residual else v.bvLen) =
        ((v.bvLen - r : Nat) : Int) := by
      split <;> omega
    rw [countBvecs_cons vs hios hlen]
    rw [copyBvecs, if_neg (by omega)] at hcopy
    by_cases hlt : ios < v.bvLen - r
    · -- the ebio ends inside this segment
      rw [if_pos hlt] at hcopy
      cases hcopy
      have hinside : BvecPos.inside ⟨v :: vs, r + ios⟩ = v.bvLen - r - ios := by
        simp only [BvecPos.inside]
        rw [if_neg (by omega)]
        omega
      have hlast := wrapInt_last hios hios' hlt.le (by omega : v.bvLen - r < 2 ^ 32)
      rw [hinside]
      constructor
      · intro hle
        rw [countBvecs_of_nonpos vs (hlast.mpr hle)]
        rfl
      · intro hgt num hnum
        obtain ⟨n, hn, rfl⟩ := Option.map_eq_some_iff.mp hnum
        have hn0 : 0 < n := pos_of_countBvecs (by
          by_contra hle
          exact absurd (hlast.mp (by omega)) (by omega)) hn
        show 1 < n + 1
        omega
    · rw [if_neg hlt] at hcopy
      obtain ⟨⟨rbv', pos'⟩, hrest, hcons⟩ := Option.map_eq_some_iff.mp hcopy
      cases hcons
      have hround : wrapInt (ios - if (ios : Int) < wrapInt ((v.bvLen - r : Nat) : Int) then
          (ios : Int) else wrapInt ((v.bvLen - r : Nat) : Int)) =
          ((ios - (v.bvLen - r) : Nat) : Int) := by
        have hwrap : wrapInt ((v.bvLen - r : Nat) : Int) = ((v.bvLen - r : Nat) : Int) := by
          rw [wrapInt]
          omega
        rw [hwrap, if_neg (by omega), wrapInt]
        omega
      rw [hround]
      by_cases hend : ios = v.bvLen - r
      · rw [hend, Nat.sub_self] at hrest ⊢
        have hdone : rbv' = [] ∧ pos.inside = 0 := by
          cases vs with
          | nil =>
            rw [copyBvecs, if_pos rfl] at hrest
            cases hrest
            exact ⟨rfl, rfl⟩
          | cons w vs =>
            rw [copyBvecs, if_pos rfl] at hrest
            cases hrest
            exact ⟨rfl, rfl⟩
        rw [hdone.1, hdone.2, countBvecs_of_nonpos vs (by simp)]
        exact ⟨fun _ => rfl, fun h => absurd h (by omega)⟩
      · obtain ⟨hagree, hmore⟩ := ih (fun w hw => hpos w (List.mem_cons_of_mem v hw)) (by omega)
          (fun w hw => hpos w (List.mem_cons_of_mem v (List.mem_of_mem_head? hw)))
          (by omega) (by omega) (.inr ⟨by omega, rfl⟩) hrest
        constructor
        · intro hle
          rw [hagree hle]
          rfl
        · intro hgt num hnum
          obtain ⟨n, hn, rfl⟩ := Option.map_eq_some_iff.mp hnum
          have := hmore hgt n hn
          rw [List.length_cons]
          omega

/-! ## One ebio -/

/-- What `eio_new_ebio` needs to make an ebio of `iosize` bytes: the size is a positive int,
and if the ebio starts inside a segment, the segment it ends in does not go on for more than
2^31 bytes. -/
structure EbioFits (vs : List IoVec) (n iosize : Nat) : Prop where
  pos : 0 < iosize
  int : iosize < 2 ^ 31
  left : (posAt vs n).residual ≠ 0 → (posAt vs (n + iosize)).inside ≤ 2 ^ 31

section
variable (bio : BioVecs) {n iosize : Nat}

theorem BioVecs.posAt_ok (h : n ≤ bio.biSize) : PosOk bio.vecs n (posAt bio.vecs n) :=
  EnhanceIO.posAt_ok h

theorem BioVecs.rest_pos (h : n ≤ bio.biSize) : ∀ v ∈ (posAt bio.vecs n).rest, 0 < v.bvLen :=
  fun v hv => bio.pos v ((bio.posAt_ok h).sub v hv)

/-- The copies of an ebio that starts inside a segment. -/
theorem BioVecs.copy_eq (hios : 0 < iosize) (h : n + iosize ≤ bio.biSize) :
    ∃ rbv, copyBvecs (posAt bio.vecs n).rest (posAt bio.vecs n).residual iosize =
        some (rbv, posAt bio.vecs (n + iosize)) ∧
      bytesOf rbv = ((bytesOf bio.vecs).drop n).take iosize := by
  have hok := bio.posAt_ok (n := n) (by omega)
  have hleft : totalLen (posAt bio.vecs n).rest =
      (posAt bio.vecs n).residual + (bio.biSize - n) := hok.left
  obtain ⟨rbv, hrun, hbytes⟩ := copyBvecs_eq _ iosize (bio.rest_pos (by omega)) hok.lt hios
    (by omega)
  exact ⟨rbv, by rw [hrun, hok.next], by rw [hbytes, hok.bytes]⟩

/-- The assertions on `rbvindex` for an ebio that starts inside a segment. -/
theorem BioVecs.count_eq (hios : 0 < iosize) (hint : iosize < 2 ^ 31)
    (h : n + iosize ≤ bio.biSize) {rbv : List IoVec}
    (hcopy : copyBvecs (posAt bio.vecs n).rest (posAt bio.vecs n).residual iosize =
      some (rbv, posAt bio.vecs (n + iosize))) :
    ((posAt bio.vecs (n + iosize)).inside ≤ 2 ^ 31 →
      countBvecs iosize (posAt bio.vecs n).residual (posAt bio.vecs n).rest iosize =
        some rbv.length) ∧
    (2 ^ 31 < (posAt bio.vecs (n + iosize)).inside →
      ∀ num, countBvecs iosize (posAt bio.vecs n).residual (posAt bio.vecs n).rest iosize =
        some num → rbv.length < num) := by
  have hok := bio.posAt_ok (n := n) (by omega)
  have hleft : totalLen (posAt bio.vecs n).rest =
      (posAt bio.vecs n).residual + (bio.biSize - n) := hok.left
  have hle := hok.le
  have hsize : bio.biSize < 2 ^ 32 := bio.size_lt
  exact countBvecs_eq (bio.rest_pos (by omega)) (by omega) hok.lt hios hint (.inl ⟨rfl, rfl⟩) hcopy

theorem wrapInt_of_lt (h : n < 2 ^ 31) : wrapInt n = n := by
  rw [wrapInt]
  omega

/-- An ebio that fits is made of the next bytes of the bio. -/
theorem BioVecs.eioNewEbio_eq (snum : Nat) (h : n + iosize ≤ bio.biSize)
    (hfits : EbioFits bio.vecs n iosize) :
    ∃ bv, eioNewEbio (posAt bio.vecs n) snum iosize =
        some (⟨snum, iosize, bv⟩, posAt bio.vecs (n + iosize)) ∧
      (bytesOf bv).take iosize = ((bytesOf bio.vecs).drop n).take iosize := by
  have hok := bio.posAt_ok (n := n) (by omega)
  have hint := wrapInt_of_lt hfits.int
  simp only [eioNewEbio, hint]
  rw [if_neg (by omega)]
  split
  · next hres =>
    obtain ⟨rbv, hcopy, hbytes⟩ := bio.copy_eq hfits.pos h
    have hcount := (bio.count_eq hfits.pos hfits.int h hcopy).1 (hfits.left hres)
    have hsome : rbv.length ≠ 0 := by
      intro h0
      have hnil : bytesOf rbv = [] := by rw [List.length_eq_zero_iff.mp h0]; rfl
      have hlen : (((bytesOf bio.vecs).drop n).take iosize).length = iosize := by
        rw [List.length_take, List.length_drop, length_bytesOf]
        have : n + iosize ≤ totalLen bio.vecs := h
        omega
      rw [← hbytes, hnil] at hlen
      exact absurd hlen hfits.pos.ne
    refine ⟨rbv, ?_, ?_⟩
    · rw [hcount, hcopy]
      simp [hsome]
    · rw [hbytes, List.take_take, Nat.min_self]
  · next hres =>
    have hres0 : (posAt bio.vecs n).residual = 0 := by simpa using hres
    have hleft : totalLen (posAt bio.vecs n).rest =
      (posAt bio.vecs n).residual + (bio.biSize - n) := hok.left
    have hbytes' := hok.bytes
    rw [hres0, List.drop_zero] at hbytes'
    obtain ⟨num, hrun, hnum, hbytes⟩ := aliasBvecs_eq iosize (bio.rest_pos (by omega))
      (by omega : iosize ≤ totalLen (posAt bio.vecs n).rest)
    have hnum0 : num ≠ 0 := fun h0 => hfits.pos.ne' (hnum.mp h0)
    refine ⟨(posAt bio.vecs n).rest.take num, ?_, ?_⟩
    · rw [hrun, hok.next, hres0, Nat.zero_add]
      simp [hnum0]
    · rw [hbytes, hbytes']

/-- One that does not fit fails an assertion. -/
theorem BioVecs.eioNewEbio_none (snum : Nat) (h : n + iosize ≤ bio.biSize)
    (hfits : ¬ EbioFits bio.vecs n iosize) : eioNewEbio (posAt bio.vecs n) snum iosize = none := by
  have hok := bio.posAt_ok (n := n) (by omega)
  have hsize : bio.biSize < 2 ^ 32 := bio.size_lt
  by_cases hint : iosize < 2 ^ 31
  · simp only [eioNewEbio, wrapInt_of_lt hint]
    rw [if_neg (by omega)]
    by_cases h0 : iosize = 0
    · subst h0
      split
      · rw [countBvecs_of_nonpos _ (by simp)]
        cases (posAt bio.vecs n).rest <;> simp [copyBvecs]
      · cases (posAt bio.vecs n).rest <;> simp [aliasBvecs]
    · have hios : 0 < iosize := Nat.pos_of_ne_zero h0
      have hbad : (posAt bio.vecs n).residual ≠ 0 ∧
          2 ^ 31 < (posAt bio.vecs (n + iosize)).inside := by
        by_contra hgood
        exact hfits ⟨hios, hint, fun hres => Nat.le_of_not_lt fun hgt => hgood ⟨hres, hgt⟩⟩
      obtain ⟨rbv, hcopy, _⟩ := bio.copy_eq hios h
      have hmore := (bio.count_eq hios hint h hcopy).2 hbad.2
      rw [if_pos hbad.1, hcopy]
      rcases hcount : countBvecs iosize (posAt bio.vecs n).residual (posAt bio.vecs n).rest iosize
        with _ | num
      · rfl
      · have hlt := hmore num hcount
        simp only [Option.bind_some]
        rw [if_neg fun hboth => hlt.ne hboth.1]
  · -- as an int the size is negative
    have hneg : wrapInt iosize < 0 := by
      rw [wrapInt]
      omega
    simp only [eioNewEbio]
    rw [if_pos hneg]

end

/-! ## Where the cuts are -/

/-- The size of the next ebio in sectors, with `rem` sectors to go. -/
def blockCut (k snum rem : Nat) : Nat := min ((2 ^ k - snum % 2 ^ k) % 2 ^ 23) rem

theorem eioGetIosize_eq (k snum rem : Nat) :
    eioGetIosize (2 ^ k) snum (512 * rem) = 512 * blockCut k snum rem := by
  have hmod : (2 ^ k - snum % 2 ^ k) * 512 % 2 ^ 32 =
      (2 ^ k - snum % 2 ^ k) % 2 ^ 23 * 512 := by
    rw [show 2 ^ 32 = 2 ^ 23 * 512 by norm_num, Nat.mul_mod_mul_right]
  have hsize : eioGetIosize (2 ^ k) snum (512 * rem) =
      min ((2 ^ k - snum % 2 ^ k) * 512 % 2 ^ 32) (512 * rem) := by
    simp only [eioGetIosize, Nat.and_two_pow_sub_one_eq_mod]
    split <;> split <;> simp_all <;> omega
  rw [hsize, hmod, blockCut]
  omega

theorem blockCut_le (k snum rem : Nat) : snum % 2 ^ k + blockCut k snum rem ≤ 2 ^ k := by
  have hlt := Nat.mod_lt snum (Nat.two_pow_pos k)
  have hle := Nat.mod_le (2 ^ k - snum % 2 ^ k) (2 ^ 23)
  rw [blockCut]
  omega

theorem blockCut_small {k : Nat} (hk : k ≤ 22) (snum rem : Nat) :
    blockCut k snum rem = min (2 ^ k - snum % 2 ^ k) rem := by
  have hpow : 2 ^ k ≤ 2 ^ 22 := Nat.pow_le_pow_right (by omega) hk
  rw [blockCut, Nat.mod_eq_of_lt (by omega)]

/-- Blocks of 4 GiB and more are cut at the multiples of 4 GiB. -/
theorem blockCut_large {k : Nat} (hk : 23 ≤ k) (snum rem : Nat) :
    blockCut k snum rem = min ((2 ^ 23 - snum % 2 ^ 23) % 2 ^ 23) rem := by
  have hdvd : 2 ^ 23 ∣ 2 ^ k := pow_dvd_pow 2 hk
  have hlt := Nat.mod_lt snum (Nat.two_pow_pos k)
  obtain ⟨b, hb⟩ := hdvd
  have hmod : snum % 2 ^ k % 2 ^ 23 = snum % 2 ^ 23 := Nat.mod_mod_of_dvd _ ⟨b, hb⟩
  rw [blockCut]
  congr 1
  rw [hb] at hlt hmod ⊢
  generalize snum % (2 ^ 23 * b) = m at *
  rw [← hmod]
  omega

/-- No ebio has a size that is 0 or negative as an int: blocks are of 1 GiB at most, or of
2 GiB with no whole block in the bio, or larger with a bio of less than 2 GiB that starts
behind a multiple of 4 GiB and does not pass the next. -/
def SizesOk (k snum rem : Nat) : Prop :=
  k ≤ 21 ∨ (k = 22 ∧ ∀ m, snum ≤ m → m % 2 ^ 22 = 0 → snum + rem < m + 2 ^ 22) ∨
    (23 ≤ k ∧ (rem = 0 ∨ snum % 2 ^ 23 ≠ 0 ∧ snum % 2 ^ 23 + rem ≤ 2 ^ 23 ∧ rem < 2 ^ 22))

/-- From `snum` on, where a whole block of the bio (sectors `sector` to `stop`) starts inside
a segment, no more than 2^31 bytes of a segment are left behind it. -/
def SegmentsOk (k : Nat) (vs : List IoVec) (sector stop snum : Nat) : Prop :=
  ∀ m, snum ≤ m → sector < m → m + 2 ^ k < stop → m % 2 ^ k = 0 →
    (posAt vs (512 * (m - sector))).residual ≠ 0 →
    (posAt vs (512 * (m + 2 ^ k - sector))).inside ≤ 2 ^ 31

theorem sizesOk_zero (k snum : Nat) : SizesOk k snum 0 := by
  rcases (by omega : k ≤ 21 ∨ k = 22 ∨ 23 ≤ k) with h | h | h
  · exact .inl h
  · exact .inr (.inl ⟨h, fun m hm _ => by omega⟩)
  · exact .inr (.inr ⟨h, .inl rfl⟩)

theorem segmentsOk_end (k : Nat) (vs : List IoVec) (sector stop : Nat) :
    SegmentsOk k vs sector stop stop := by
  intro m hm _ hlt
  omega

theorem inside_posAt_total (vs : List IoVec) : (posAt vs (totalLen vs)).inside = 0 := by
  induction vs with
  | nil => rfl
  | cons v vs ih =>
    rw [totalLen_cons, posAt_cons_of_le (Nat.le_add_right _ _), Nat.add_sub_cancel_left]
    exact ih

/-- A block boundary from `snum` on is `snum` or behind the next cut. -/
theorem boundary_cases {k snum m : Nat} (rem : Nat) (hm : snum ≤ m) (hal : m % 2 ^ k = 0) :
    m = snum ∨ snum + blockCut k snum rem ≤ m := by
  have hcut := blockCut_le k snum rem
  have hdiv := Nat.div_add_mod snum (2 ^ k)
  obtain ⟨b, rfl⟩ := Nat.dvd_of_mod_eq_zero hal
  by_cases hb : b = snum / 2 ^ k
  · left
    rw [hb] at hm ⊢
    omega
  · right
    have hlt : snum / 2 ^ k < b := by
      by_contra hge
      have hle : b + 1 ≤ snum / 2 ^ k := by omega
      have hmul := Nat.mul_le_mul_left (2 ^ k) hle
      rw [Nat.mul_succ] at hmul
      have hpow := Nat.two_pow_pos k
      omega
    have hmul := Nat.mul_le_mul_left (2 ^ k) hlt
    rw [Nat.mul_succ] at hmul
    omega

section
variable {k sector j rem : Nat} {vs : List IoVec}

/-- The sizes with blocks of 2 GiB at most: the next ebio is less than 2 GiB, and so are
those behind it. -/
theorem sizesOk_step_small (hk : k ≤ 22) (hrem : 0 < rem) (snum : Nat) :
    SizesOk k snum rem ↔ blockCut k snum rem < 2 ^ 22 ∧
      SizesOk k (snum + blockCut k snum rem) (rem - blockCut k snum rem) := by
  have hcut := blockCut_small hk snum rem
  have hlt := Nat.mod_lt snum (Nat.two_pow_pos k)
  rcases (by omega : k ≤ 21 ∨ k = 22) with h21 | rfl
  · have hpow : 2 ^ k ≤ 2 ^ 21 := Nat.pow_le_pow_right (by omega) h21
    exact ⟨fun _ => ⟨by omega, .inl h21⟩, fun _ => .inl h21⟩
  · have hblocks : ∀ n r, SizesOk 22 n r ↔
        ∀ m, n ≤ m → m % 2 ^ 22 = 0 → n + r < m + 2 ^ 22 := by
      intro n r
      refine ⟨fun h => ?_, fun h => .inr (.inl ⟨rfl, h⟩)⟩
      rcases h with h | h | h
      · omega
      · exact h.2
      · omega
    rw [hblocks, hblocks]
    constructor
    · intro h
      refine ⟨?_, fun m hm hal => ?_⟩
      · by_contra hge
        have := h snum (Nat.le_refl _) (by omega)
        omega
      · have := h m (by omega) hal
        omega
    · rintro ⟨hsmall, h⟩ m hm hal
      rcases boundary_cases rem hm hal with rfl | hnext
      · omega
      · have := h m hnext hal
        omega

/-- The segments with blocks of 2 GiB at most. -/
theorem segmentsOk_step_small (hk : k ≤ 22) (hpos : ∀ v ∈ vs, 0 < v.bvLen)
    (htotal : 512 * (j + rem) = totalLen vs)
    (hal : j = 0 ∨ (sector + j) % 2 ^ k = 0) :
    SegmentsOk k vs sector (sector + j + rem) (sector + j) ↔
      ((posAt vs (512 * j)).residual ≠ 0 →
        (posAt vs (512 * j + 512 * blockCut k (sector + j) rem)).inside ≤ 2 ^ 31) ∧
      SegmentsOk k vs sector (sector + j + rem) (sector + j + blockCut k (sector + j) rem) := by
  have hcut := blockCut_small hk (sector + j) rem
  constructor
  · intro h
    refine ⟨fun hres => ?_, fun m hm => h m (by omega)⟩
    have hj : 0 < j := by
      by_contra h0
      obtain rfl : j = 0 := by omega
      rw [Nat.mul_zero, posAt_zero hpos] at hres
      exact hres rfl
    have haligned : (sector + j) % 2 ^ k = 0 := hal.resolve_left (by omega)
    rw [haligned, Nat.sub_zero] at hcut
    by_cases hin : sector + j + 2 ^ k < sector + j + rem
    · have hm := h (sector + j) (Nat.le_refl _) (by omega) hin haligned
      rw [show 512 * (sector + j - sector) = 512 * j by omega,
        show 512 * (sector + j + 2 ^ k - sector) = 512 * j + 512 * 2 ^ k by omega] at hm
      rw [show blockCut k (sector + j) rem = 2 ^ k by omega]
      exact hm hres
    · -- the ebio ends with the bio
      rw [show blockCut k (sector + j) rem = rem by omega, ← Nat.mul_add, htotal,
        inside_posAt_total]
      omega
  · rintro ⟨hfirst, h⟩ m hm hlo hhi halm hres
    rcases boundary_cases rem hm halm with rfl | hnext
    · rw [halm, Nat.sub_zero] at hcut
      rw [show 512 * (sector + j + 2 ^ k - sector) =
        512 * j + 512 * blockCut k (sector + j) rem by omega]
      rw [show 512 * (sector + j - sector) = 512 * j by omega] at hres
      exact hfirst hres
    · exact h m hnext hlo hhi halm hres

/-- Both, with larger blocks: there is one ebio. -/
theorem ok_step_large (hk : 23 ≤ k) (hrem : 0 < rem) (htotal : 512 * (j + rem) = totalLen vs) :
    (SizesOk k (sector + j) rem ∧ SegmentsOk k vs sector (sector + j + rem) (sector + j)) ↔
      EbioFits vs (512 * j) (512 * blockCut k (sector + j) rem) ∧
      SizesOk k (sector + j + blockCut k (sector + j) rem) (rem - blockCut k (sector + j) rem) ∧
      SegmentsOk k vs sector (sector + j + rem) (sector + j + blockCut k (sector + j) rem) := by
  have hcut := blockCut_large hk (sector + j) rem
  have hlt := Nat.mod_lt (sector + j) (Nat.two_pow_pos 23)
  have hsizes : ∀ n r, SizesOk k n r ↔
      r = 0 ∨ n % 2 ^ 23 ≠ 0 ∧ n % 2 ^ 23 + r ≤ 2 ^ 23 ∧ r < 2 ^ 22 := by
    intro n r
    refine ⟨fun h => ?_, fun h => .inr (.inr ⟨hk, h⟩)⟩
    rcases h with h | h | h
    · omega
    · omega
    · exact h.2
  constructor
  · rintro ⟨hs, _⟩
    rw [hsizes] at hs
    have hone : blockCut k (sector + j) rem = rem := by omega
    rw [hone]
    refine ⟨⟨by omega, by omega, fun _ => ?_⟩, by rw [Nat.sub_self]; exact sizesOk_zero _ _,
      segmentsOk_end _ _ _ _⟩
    rw [← Nat.mul_add, htotal, inside_posAt_total]
    omega
  · rintro ⟨hfits, hs, _⟩
    have hpos := hfits.pos
    have hint := hfits.int
    rw [hsizes] at hs ⊢
    have hone : blockCut k (sector + j) rem = rem := by omega
    rw [hone] at hcut hint
    refine ⟨by omega, ?_⟩
    -- the bio has no block boundary inside
    intro m hm hlo hhi hal
    have hdvd : 2 ^ 23 ∣ m := (pow_dvd_pow 2 hk).trans (Nat.dvd_of_mod_eq_zero hal)
    omega

/-- One round of the loop: the conditions from here on are that the next ebio fits, and the
conditions behind it. -/
theorem ok_step (hrem : 0 < rem) (hpos : ∀ v ∈ vs, 0 < v.bvLen)
    (htotal : 512 * (j + rem) = totalLen vs)
    (hal : k ≤ 22 → j = 0 ∨ (sector + j) % 2 ^ k = 0) :
    (SizesOk k (sector + j) rem ∧ SegmentsOk k vs sector (sector + j + rem) (sector + j)) ↔
      EbioFits vs (512 * j) (512 * blockCut k (sector + j) rem) ∧
      SizesOk k (sector + j + blockCut k (sector + j) rem) (rem - blockCut k (sector + j) rem) ∧
      SegmentsOk k vs sector (sector + j + rem) (sector + j + blockCut k (sector + j) rem) := by
  rcases Nat.lt_or_ge 22 k with hk | hk
  · exact ok_step_large hk hrem htotal
  · have hcut := blockCut_small hk (sector + j) rem
    have hlt := Nat.mod_lt (sector + j) (Nat.two_pow_pos k)
    rw [sizesOk_step_small hk hrem, segmentsOk_step_small hk hpos htotal (hal hk)]
    constructor
    · rintro ⟨⟨hint, hs⟩, hleft, hg⟩
      exact ⟨⟨by omega, by omega, hleft⟩, hs, hg⟩
    · rintro ⟨hfits, hs, hg⟩
      have hint := hfits.int
      exact ⟨⟨by omega, hs⟩, hfits.left, hg⟩

/-- Behind the first ebio the next one starts with its block. -/
theorem aligned_next (hk : k ≤ 22) (hlt : blockCut k (sector + j) rem < rem) :
    (sector + (j + blockCut k (sector + j) rem)) % 2 ^ k = 0 := by
  have hcut := blockCut_small hk (sector + j) rem
  have hmod := Nat.mod_lt (sector + j) (Nat.two_pow_pos k)
  rw [← Nat.add_assoc, Nat.add_mod, show blockCut k (sector + j) rem =
    2 ^ k - (sector + j) % 2 ^ k by omega]
  generalize (sector + j) % 2 ^ k = r at *
  rcases Nat.eq_zero_or_pos r with rfl | hr
  · simp
  · rw [Nat.mod_eq_of_lt (by omega : 2 ^ k - r < 2 ^ k), Nat.add_sub_cancel' hmod.le, Nat.mod_self]

end

/-! ## All ebios -/

/-- The ebios follow one another from sector `start` to `stop`. -/
def Contiguous : Nat → List EbioVec → Nat → Prop
  | start, [], stop => start = stop
  | start, e :: es, stop => e.ebSector = start ∧ Contiguous (start + toSector e.ebSize) es stop

/-- An ebio of whole sectors inside a cache block. -/
structure InBlock (blockSize : Nat) (e : EbioVec) : Prop where
  pos : 0 < e.ebSize
  dvd : 512 ∣ e.ebSize
  le : e.ebSector % blockSize + toSector e.ebSize ≤ blockSize

theorem ebioLoop_succ (k rounds snum rem : Nat) (pos : BvecPos) (hrem : 0 < rem) :
    ebioLoop (2 ^ k) (rounds + 1) snum (512 * rem) pos =
      (eioNewEbio pos snum (512 * blockCut k snum rem)).bind fun (ebio, pos) =>
        (ebioLoop (2 ^ k) rounds (snum + blockCut k snum rem)
          (512 * (rem - blockCut k snum rem)) pos).map (ebio :: ·) := by
  have hsect : toSector (512 * blockCut k snum rem) = blockCut k snum rem :=
    Nat.mul_div_cancel_left _ (by decide)
  rw [ebioLoop, if_neg (by omega), eioGetIosize_eq]
  simp only [hsect, Nat.mul_sub]

section
variable (bio : BioVecs) {k sector : Nat}

/-- The loop makes ebios of all that is left, if the conditions hold from there on. -/
theorem BioVecs.ebioLoop_eq : ∀ rounds j rem, rem ≤ rounds → 512 * (j + rem) = bio.biSize →
    (0 < rem → k ≤ 22 → j = 0 ∨ (sector + j) % 2 ^ k = 0) →
    SizesOk k (sector + j) rem → SegmentsOk k bio.vecs sector (sector + j + rem) (sector + j) →
    ∃ ebs, ebioLoop (2 ^ k) rounds (sector + j) (512 * rem) (posAt bio.vecs (512 * j)) = some ebs ∧
      Contiguous (sector + j) ebs (sector + j + rem) ∧ (∀ e ∈ ebs, InBlock (2 ^ k) e) ∧
      ebs.flatMap EbioVec.bytes = (bytesOf bio.vecs).drop (512 * j) := by
  have hdone : ∀ rounds j, 512 * (j + 0) = bio.biSize →
      ∃ ebs, ebioLoop (2 ^ k) rounds (sector + j) (512 * 0) (posAt bio.vecs (512 * j)) = some ebs ∧
        Contiguous (sector + j) ebs (sector + j + 0) ∧ (∀ e ∈ ebs, InBlock (2 ^ k) e) ∧
        ebs.flatMap EbioVec.bytes = (bytesOf bio.vecs).drop (512 * j) := by
    intro rounds j htotal
    refine ⟨[], by cases rounds <;> rw [ebioLoop, if_pos rfl], rfl, by simp, ?_⟩
    have hend : bio.biSize = (bytesOf bio.vecs).length := (length_bytesOf _).symm
    rw [List.flatMap_nil, List.drop_of_length_le (by omega)]
  intro rounds
  induction rounds with
  | zero =>
    intro j rem hle htotal _ _ _
    obtain rfl : rem = 0 := Nat.le_zero.mp hle
    exact hdone 0 j htotal
  | succ rounds ih =>
    intro j rem hle htotal hal hs hg
    rcases Nat.eq_zero_or_pos rem with rfl | hrem
    · exact hdone (rounds + 1) j htotal
    obtain ⟨hfits, hs', hg'⟩ := (ok_step hrem bio.pos htotal (hal hrem)).mp ⟨hs, hg⟩
    have hcut := hfits.pos
    have hle' : blockCut k (sector + j) rem ≤ rem := Nat.min_le_right _ _
    have hblock := blockCut_le k (sector + j) rem
    generalize hc : blockCut k (sector + j) rem = c at *
    obtain ⟨bv, hnew, hbytes⟩ := bio.eioNewEbio_eq (sector + j) (by omega) hfits
    have hnext : k ≤ 22 → c < rem → (sector + (j + c)) % 2 ^ k = 0 := by
      intro hk hlt
      rw [← hc] at hlt ⊢
      exact aligned_next hk hlt
    obtain ⟨ebs, hrun, hcont, hin, hrest⟩ := ih (j + c) (rem - c) (by omega) (by omega)
      (fun h hk => .inr (hnext hk (by omega))) (by rw [← Nat.add_assoc]; exact hs')
      (by rw [show sector + (j + c) + (rem - c) = sector + j + rem by omega,
        ← Nat.add_assoc]; exact hg')
    have hsect : toSector (512 * c) = c := Nat.mul_div_cancel_left _ (by decide)
    refine ⟨⟨sector + j, 512 * c, bv⟩ :: ebs, ?_, ?_, ?_, ?_⟩
    · rw [ebioLoop_succ k rounds _ _ _ hrem, hc, hnew]
      simp only [Option.bind_some]
      rw [← Nat.mul_add, Nat.add_assoc, hrun]
      rfl
    · refine ⟨rfl, ?_⟩
      rw [hsect, Nat.add_assoc sector j c, show sector + j + rem =
        sector + (j + c) + (rem - c) by omega]
      exact hcont
    · intro e he
      rcases List.mem_cons.mp he with rfl | he
      · exact ⟨hfits.pos, ⟨c, rfl⟩, by rw [hsect]; exact hblock⟩
      · exact hin e he
    · have hhead : EbioVec.bytes ⟨sector + j, 512 * c, bv⟩ =
          ((bytesOf bio.vecs).drop (512 * j)).take (512 * c) := hbytes
      rw [List.flatMap_cons, hhead, hrest, Nat.mul_add, ← List.drop_drop,
        List.take_append_drop]

/-- The loop fails if they do not. -/
theorem BioVecs.ok_of_ebioLoop : ∀ rounds j rem ebs, 512 * (j + rem) = bio.biSize →
    (0 < rem → k ≤ 22 → j = 0 ∨ (sector + j) % 2 ^ k = 0) →
    ebioLoop (2 ^ k) rounds (sector + j) (512 * rem) (posAt bio.vecs (512 * j)) = some ebs →
    SizesOk k (sector + j) rem ∧
      SegmentsOk k bio.vecs sector (sector + j + rem) (sector + j) := by
  intro rounds
  induction rounds with
  | zero =>
    intro j rem ebs _ _ hrun
    rcases Nat.eq_zero_or_pos rem with rfl | hrem
    · exact ⟨sizesOk_zero _ _, segmentsOk_end _ _ _ _⟩
    · rw [ebioLoop, if_neg (by omega)] at hrun
      cases hrun
  | succ rounds ih =>
    intro j rem ebs htotal hal hrun
    rcases Nat.eq_zero_or_pos rem with rfl | hrem
    · exact ⟨sizesOk_zero _ _, segmentsOk_end _ _ _ _⟩
    have hle' : blockCut k (sector + j) rem ≤ rem := Nat.min_le_right _ _
    rw [ebioLoop_succ k rounds _ _ _ hrem] at hrun
    rw [ok_step hrem bio.pos htotal (hal hrem)]
    have hnext : k ≤ 22 → blockCut k (sector + j) rem < rem →
        (sector + (j + blockCut k (sector + j) rem)) % 2 ^ k = 0 := aligned_next
    generalize blockCut k (sector + j) rem = c at *
    by_cases hfits : EbioFits bio.vecs (512 * j) (512 * c)
    · obtain ⟨bv, hnew, _⟩ := bio.eioNewEbio_eq (sector + j) (by omega) hfits
      rw [hnew] at hrun
      simp only [Option.bind_some] at hrun
      obtain ⟨ebs', hrest, _⟩ := Option.map_eq_some_iff.mp hrun
      rw [← Nat.mul_add, Nat.add_assoc] at hrest
      obtain ⟨hs, hg⟩ := ih (j + c) (rem - c) ebs' (by omega)
        (fun h hk => .inr (hnext hk (by omega))) hrest
      rw [← Nat.add_assoc] at hs
      rw [show sector + (j + c) + (rem - c) = sector + j + rem by omega,
        ← Nat.add_assoc] at hg
      exact ⟨hfits, hs, hg⟩
    · rw [bio.eioNewEbio_none (sector + j) (by omega) hfits] at hrun
      cases hrun

theorem BioVecs.biSize_eq : 512 * (0 + bio.biSize / 512) = bio.biSize := by
  have hdvd : 512 ∣ bio.biSize := by
    apply List.dvd_sum
    intro len hlen
    obtain ⟨v, hv, rfl⟩ := List.mem_map.mp hlen
    exact bio.dvd v hv
  omega

/-- The loop in sectors, from the start of the bio. -/
theorem BioVecs.eioMapEbios_eq (blockSize : Nat) : eioMapEbios blockSize sector bio =
    ebioLoop blockSize (toSector bio.biSize) (sector + 0) (512 * toSector bio.biSize)
      (posAt bio.vecs (512 * 0)) := by
  have hsize : 512 * toSector bio.biSize = bio.biSize := by
    rw [← Nat.zero_add (toSector bio.biSize)]
    exact bio.biSize_eq
  rw [hsize, Nat.mul_zero, posAt_zero bio.pos]
  rfl

end

/-- The ebios are the bio, cut at its block boundaries. -/
structure SplitsBio (blockSize sector : Nat) (bio : BioVecs) (ebs : List EbioVec) : Prop where
  contiguous : Contiguous sector ebs (sector + toSector bio.biSize)
  inBlock : ∀ e ∈ ebs, InBlock blockSize e
  full : ∀ e ∈ ebs, toSector e.ebSize = blockSize → e.ebSector % blockSize = 0
  bytes : ebs.flatMap EbioVec.bytes = bytesOf bio.vecs

/-- A bio comes out as its ebios, with no assertion failing, just if no ebio of it is empty or
of 2 GiB, and no segment goes on for more than 2 GiB behind an ebio that starts inside a
segment. -/
theorem ebios_split_iff (k sector : Nat) (bio : BioVecs) :
    (∃ ebs, eioMapEbios (2 ^ k) sector bio = some ebs ∧ SplitsBio (2 ^ k) sector bio ebs) ↔
      SizesOk k sector (toSector bio.biSize) ∧
        SegmentsOk k bio.vecs sector (sector + toSector bio.biSize) sector := by
  rw [bio.eioMapEbios_eq]
  constructor
  · rintro ⟨ebs, hrun, _⟩
    exact bio.ok_of_ebioLoop _ 0 _ ebs bio.biSize_eq (fun _ _ => .inl rfl) hrun
  · rintro ⟨hs, hg⟩
    obtain ⟨ebs, hrun, hcont, hin, hbytes⟩ := bio.ebioLoop_eq _ 0
      (toSector bio.biSize) (Nat.le_refl _) bio.biSize_eq (fun _ _ => .inl rfl) hs hg
    refine ⟨ebs, hrun, hcont, hin, ?_, hbytes⟩
    intro e he hfull
    have hle := (hin e he).le
    omega

/-- One page. -/
def pageBio : BioVecs where
  vecs := [⟨0, 0, 4096⟩]
  pos := by decide
  dvd := by decide
  size_lt := by decide

/-- With blocks of 4 GiB the ebio of a page at the start of the device has no bytes, and an
assertion fails. -/
theorem ebios_assertion_fails : eioMapEbios (2 ^ 23) 0 pageBio = none := by
  decide +kernel

/-! ## The segments of the driver model -/

/-- The sectors of an ebio. -/
def EbioVec.seg (e : EbioVec) : Seg := ⟨e.ebSector, toSector e.ebSize⟩

/-- One round of the splitting loop of the driver model, which cuts at the same places. -/
theorem splitLoop_succ (g : Geom) (fuel snum rem : Nat)
    (hpos : 0 < blockCut g.blockShift snum (rem + 1)) :
    g.splitLoop (fuel + 1) snum (rem + 1) =
      (g.splitLoop fuel (snum + blockCut g.blockShift snum (rem + 1))
        (rem + 1 - blockCut g.blockShift snum (rem + 1))).map
        (⟨snum, blockCut g.blockShift snum (rem + 1)⟩ :: ·) := by
  have hcut : g.getIosize snum (rem + 1) = blockCut g.blockShift snum (rem + 1) := rfl
  rw [Geom.splitLoop, if_neg (by omega), hcut]

theorem BioVecs.splitLoop_of_ebioLoop (bio : BioVecs) (g : Geom) (sector : Nat) :
    ∀ rounds j rem ebs, 512 * (j + rem) = bio.biSize →
      ebioLoop g.blockSize rounds (sector + j) (512 * rem) (posAt bio.vecs (512 * j)) = some ebs →
      g.splitLoop rounds (sector + j) rem = some (ebs.map EbioVec.seg) := by
  intro rounds
  induction rounds with
  | zero =>
    intro j rem ebs _ hrun
    cases rem with
    | zero =>
      rw [ebioLoop, if_pos rfl] at hrun
      cases hrun
      rfl
    | succ rem =>
      rw [ebioLoop, if_neg (by omega)] at hrun
      cases hrun
  | succ rounds ih =>
    intro j rem ebs htotal hrun
    cases rem with
    | zero =>
      rw [ebioLoop, if_pos rfl] at hrun
      cases hrun
      rfl
    | succ rem =>
      have hle : blockCut g.blockShift (sector + j) (rem + 1) ≤ rem + 1 := Nat.min_le_right _ _
      rw [Geom.blockSize, ebioLoop_succ _ rounds _ _ _ (Nat.succ_pos rem)] at hrun
      have hsplit := splitLoop_succ g rounds (sector + j) rem
      generalize blockCut g.blockShift (sector + j) (rem + 1) = c at *
      by_cases hfits : EbioFits bio.vecs (512 * j) (512 * c)
      · obtain ⟨bv, hnew, _⟩ := bio.eioNewEbio_eq (sector + j) (by omega) hfits
        rw [hnew] at hrun
        simp only [Option.bind_some] at hrun
        obtain ⟨ebs', hrest, rfl⟩ := Option.map_eq_some_iff.mp hrun
        rw [← Nat.mul_add, Nat.add_assoc] at hrest
        have hpos := hfits.pos
        have hsect : toSector (512 * c) = c := Nat.mul_div_cancel_left _ (by decide)
        rw [hsplit (by omega), Nat.add_assoc, ih (j + c) (rem + 1 - c) ebs' (by omega) hrest]
        simp [EbioVec.seg, hsect]
      · rw [bio.eioNewEbio_none (sector + j) (by omega) hfits] at hrun
        cases hrun

/-- The ebios are the segments the driver model works with. -/
theorem split_of_eioMapEbios (g : Geom) (sector : Nat) (bio : BioVecs) {ebs : List EbioVec}
    (h : eioMapEbios g.blockSize sector bio = some ebs) :
    g.split sector (toSector bio.biSize) = some (ebs.map EbioVec.seg) := by
  rw [bio.eioMapEbios_eq] at h
  exact bio.splitLoop_of_ebioLoop g sector _ 0 _ ebs bio.biSize_eq h

/-- Three pages that begin in the middle of a block of 4 KiB. -/
theorem split_of_eioMapEbios_pages : ∃ bio ebs, eioMapEbios (2 ^ 3) 4 bio = some ebs ∧
    (Geom.ofSizes .wb 3 8 4 (2 ^ 21) (by decide)).split 4 (toSector bio.biSize) =
      some (ebs.map EbioVec.seg) :=
  ⟨⟨[⟨0, 0, 4096⟩, ⟨1, 0, 4096⟩, ⟨2, 0, 4096⟩], by decide, by decide, by decide⟩, _, rfl,
    split_of_eioMapEbios _ 4 _ rfl⟩

end EnhanceIO
