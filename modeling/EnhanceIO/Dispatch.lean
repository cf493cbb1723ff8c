import EnhanceIO.Create

/-!
# Dispatch of an I/O to a device

`eio_dispatch_io` and `eio_dispatch_io_pages` of `eio_ttc.c`. An I/O is a region of a device
and an array of memory segments; the driver fills bios with segments as long as the device
takes them, and goes on with a fresh bio when it does not. `bio_add_page` is a parameter, a
function of all that has been submitted and added so far.
-/

namespace EnhanceIO

/-- The fields of a `bio_vec`, with no condition on them. -/
structure IoVec where
  bvPage : Nat
  bvOffset : Nat
  bvLen : Nat
  deriving DecidableEq, Repr

/-- The place of 512 bytes in memory: a page and a byte offset. -/
abbrev MemUnit := Nat × Nat

/-- The pieces of 512 bytes of a segment. -/
def IoVec.units (v : IoVec) : List MemUnit :=
  (List.range (v.bvLen / 512)).map fun k => (v.bvPage, v.bvOffset + 512 * k)

/-- A bio handed to the device, with the pages added to it. -/
structure SubBio where
  biSector : Nat
  vecs : List IoVec
  deriving DecidableEq, Repr

/-- A sector of the device, and the memory it is read to or written from. -/
abbrev Transfer := Nat × MemUnit

/-- Consecutive sectors and pieces of memory. Sector numbers have 64 bits. -/
def transfersAt (sector : Nat) (units : List MemUnit) : List Transfer :=
  units.mapIdx fun k u => ((sector + k) % 2 ^ 64, u)

/-- What the device does with a bio. -/
def SubBio.transfers (bio : SubBio) : List Transfer :=
  transfersAt bio.biSector (bio.vecs.flatMap IoVec.units)

/-- Whether `bio_add_page` takes a segment, by the bios submitted before and the segments
already in the bio. -/
abbrev AddPage := List SubBio → List IoVec → IoVec → Bool

/-- Where the loops of a dispatch are: the rest of the array, and the two counters. -/
structure DispatchPos where
  bvec : List IoVec
  remaining : Nat
  remainingBvecs : Int

/-- The loop that fills a bio; `none` if it reads behind the end of the array. -/
def fillBio (addPage : List IoVec → IoVec → Bool) (remaining : Nat) (remainingBvecs : Int) :
    List IoVec → List IoVec → Option (List IoVec × DispatchPos)
  | added, [] => if remaining = 0 then some (added, ⟨[], 0, remainingBvecs⟩) else none
  | added, v :: bvec =>
    if remaining = 0 then some (added, ⟨v :: bvec, 0, remainingBvecs⟩)
    else
      -- `to_bytes` makes an unsigned long of the sectors left
      let len := min v.bvLen (remaining * 512 % 2 ^ 64)
      let page : IoVec := ⟨v.bvPage, v.bvOffset, len⟩
      if addPage added page then
        fillBio addPage (remaining - toSector len) (remainingBvecs - 1) (added ++ [page]) bvec
      else some (added, ⟨v :: bvec, remaining, remainingBvecs⟩)

/-- The loop over the bios, with a bound on the rounds. -/
def dispatchLoop (addPage : AddPage) (region : IoRegion) (shift : Nat) :
    Nat → List SubBio → DispatchPos → Option (List SubBio × DispatchPos)
  | 0, _, _ => none
  | rounds + 1, bios, pos =>
    let sector := (region.sector + (region.count - pos.remaining) + shift) % 2 ^ 64
    (fillBio (addPage bios) pos.remaining pos.remainingBvecs [] pos.bvec).bind
      fun (added, pos) =>
        let bios := bios ++ [⟨sector, added⟩]
        if pos.remaining = 0 then some (bios, pos)
        else dispatchLoop addPage region shift rounds bios pos

/-- `eio_dispatch_io`: the bios submitted; `none` if the loops do not end within the rounds,
read behind the array, or the last assertion fails. -/
def dispatchIo (addPage : AddPage) (rounds : Nat) (region : IoRegion) (devStartSect : Nat)
    (hddio : Bool) (bvec : List IoVec) : Option (List SubBio) :=
  let shift := if hddio then devStartSect else 0
  (dispatchLoop addPage region shift rounds [] ⟨bvec, region.count, bvec.length⟩).bind
    fun (bios, pos) => if pos.remainingBvecs = 0 then some bios else none

/-- A page of the array of `eio_dispatch_io_pages`, as a segment. -/
def pageVec (page : Nat) : IoVec := ⟨page, 0, 4096⟩

/-- `eio_dispatch_io_pages`: the same loops over whole pages. -/
def dispatchIoPages (addPage : AddPage) (rounds : Nat) (region : IoRegion) (devStartSect : Nat)
    (hddio : Bool) (pagelist : List Nat) : Option (List SubBio) :=
  dispatchIo addPage rounds region devStartSect hddio (pagelist.map pageVec)

/-! ## Segments and transfers -/

theorem length_units (v : IoVec) : v.units.length = v.bvLen / 512 := by
  rw [IoVec.units, List.length_map, List.length_range]

theorem units_cut (v : IoVec) {len : Nat} (h : len ≤ v.bvLen) :
    (IoVec.mk v.bvPage v.bvOffset len).units = v.units.take (len / 512) := by
  rw [IoVec.units, IoVec.units, ← List.map_take, List.take_range,
    Nat.min_eq_left (Nat.div_le_div_right h)]

theorem transfersAt_append (sector : Nat) (us vs : List MemUnit) :
    transfersAt sector (us ++ vs) =
      transfersAt sector us ++ transfersAt (sector + us.length) vs := by
  rw [transfersAt, List.mapIdx_append]
  congr 1
  apply List.mapIdx_eq_mapIdx_iff.mpr
  intro k hk
  show ((sector + (k + us.length)) % 2 ^ 64, _) = ((sector + us.length + k) % 2 ^ 64, _)
  rw [Nat.add_comm k, Nat.add_assoc]

theorem transfersAt_mod (sector : Nat) (us : List MemUnit) :
    transfersAt (sector % 2 ^ 64) us = transfersAt sector us := by
  apply List.mapIdx_eq_mapIdx_iff.mpr
  intro k hk
  rw [Nat.mod_add_mod]

/-! ## Just enough segments -/

/-- The bytes of an array of segments. -/
def totalLen (bvec : List IoVec) : Nat := (bvec.map IoVec.bvLen).sum

/-- The segments hold whole sectors, reach for `count` sectors, and none of them is in
excess. The bounds are those of `bv_len` and `num_vecs`. -/
structure JustEnough (bvec : List IoVec) (count : Nat) : Prop where
  dvd : ∀ v ∈ bvec, 512 ∣ v.bvLen
  len_lt : ∀ v ∈ bvec, v.bvLen < 2 ^ 32
  length_lt : bvec.length < 2 ^ 31
  needed : totalLen bvec.dropLast < 512 * count
  enough : 512 * count ≤ totalLen bvec

/-- The same, on the way: what is left of the array is what is left of the region. -/
def Enough : List IoVec → Nat → Prop
  | [], n => n = 0
  | v :: bvec, n => 0 < n ∧ 512 ∣ v.bvLen ∧ Enough bvec (n - v.bvLen / 512)

theorem enough_of_needed : ∀ {bvec : List IoVec} {n : Nat}, (∀ v ∈ bvec, 512 ∣ v.bvLen) →
    bvec ≠ [] → totalLen bvec.dropLast < 512 * n → 512 * n ≤ totalLen bvec → Enough bvec n := by
  intro bvec
  induction bvec with
  | nil =>
    intro n _ hne
    exact absurd rfl hne
  | cons v bvec ih =>
    intro n hdvd _ hneeded henough
    obtain ⟨m, hm⟩ := hdvd v List.mem_cons_self
    refine ⟨by omega, ⟨m, hm⟩, ?_⟩
    have hsectors : v.bvLen / 512 = m := by omega
    rw [totalLen, List.map_cons, List.sum_cons] at henough
    cases bvec with
    | nil =>
      rw [List.map_nil, List.sum_nil] at henough
      show n - v.bvLen / 512 = 0
      omega
    | cons w bvec =>
      rw [List.dropLast_cons_cons, totalLen, List.map_cons, List.sum_cons] at hneeded
      apply ih (fun x hx => hdvd x (List.mem_cons_of_mem _ hx)) (by simp)
      · rw [totalLen, hsectors]
        omega
      · rw [totalLen, hsectors]
        omega

theorem totalLen_lt : ∀ {bvec : List IoVec}, (∀ v ∈ bvec, v.bvLen < 2 ^ 32) →
    totalLen bvec ≤ bvec.length * 2 ^ 32 := by
  intro bvec
  induction bvec with
  | nil =>
    intro _
    exact Nat.zero_le _
  | cons v bvec ih =>
    intro hlen
    have hv := hlen v List.mem_cons_self
    have hrest := ih fun w hw => hlen w (List.mem_cons_of_mem _ hw)
    show v.bvLen + totalLen bvec ≤ (bvec.length + 1) * 2 ^ 32
    omega

theorem totalLen_of_len {len : Nat} : ∀ {bvec : List IoVec}, (∀ v ∈ bvec, v.bvLen = len) →
    totalLen bvec = bvec.length * len := by
  intro bvec
  induction bvec with
  | nil =>
    intro _
    rw [List.length_nil, Nat.zero_mul]
    rfl
  | cons v bvec ih =>
    intro hlen
    have hrest := ih fun w hw => hlen w (List.mem_cons_of_mem _ hw)
    show v.bvLen + totalLen bvec = (bvec.length + 1) * len
    rw [hrest, hlen v List.mem_cons_self, Nat.succ_mul, Nat.add_comm]

namespace JustEnough

variable {bvec : List IoVec} {count : Nat}

theorem ne_nil (h : JustEnough bvec count) : bvec ≠ [] := by
  rintro rfl
  have hneeded := h.needed
  have henough := h.enough
  simp only [totalLen, List.dropLast_nil, List.map_nil, List.sum_nil] at hneeded henough
  omega

theorem count_pos (h : JustEnough bvec count) : 0 < count := by
  have := h.needed
  omega

/-- The region does not reach the end of the 64-bit byte numbers. -/
theorem count_lt (h : JustEnough bvec count) : count * 512 < 2 ^ 64 := by
  have htotal := totalLen_lt h.len_lt
  have hlength := h.length_lt
  have henough := h.enough
  omega

/-- Segments of one length, for as many sectors as they hold. -/
theorem of_len {n q : Nat} (hn : bvec.length = n) (hpos : 0 < n) (hlength : n < 2 ^ 31)
    (hlen : ∀ v ∈ bvec, v.bvLen = 512 * q) (hq : 0 < q) (hlt : q < 2 ^ 23) :
    JustEnough bvec (n * q) := by
  subst hn
  have htotal : totalLen bvec = bvec.length * (512 * q) := totalLen_of_len hlen
  have hshort : totalLen bvec.dropLast = (bvec.length - 1) * (512 * q) := by
    rw [totalLen_of_len fun v hv => hlen v ((List.dropLast_sublist bvec).subset hv),
      List.length_dropLast]
  refine ⟨?_, ?_, hlength, ?_, ?_⟩
  · intro v hv
    exact ⟨q, hlen v hv⟩
  · intro v hv
    rw [hlen v hv]
    omega
  · rw [hshort, Nat.mul_left_comm]
    exact Nat.mul_lt_mul_of_pos_left (Nat.mul_lt_mul_of_pos_right (by omega) hq) (by decide)
  · rw [htotal, Nat.mul_left_comm]

theorem toEnough (h : JustEnough bvec count) : Enough bvec count :=
  enough_of_needed h.dvd h.ne_nil h.needed h.enough

end JustEnough

/-- The memory behind the sectors left. -/
theorem Enough.length_units_le : ∀ {bvec : List IoVec} {n : Nat}, Enough bvec n →
    n ≤ (bvec.flatMap IoVec.units).length := by
  intro bvec
  induction bvec with
  | nil =>
    intro n h
    exact Nat.le_of_eq h
  | cons v bvec ih =>
    rintro n ⟨-, -, h⟩
    rw [List.flatMap_cons, List.length_append, length_units]
    have := ih h
    omega

theorem Enough.eq_nil {bvec : List IoVec} (h : Enough bvec 0) : bvec = [] := by
  cases bvec with
  | nil => rfl
  | cons v bvec => exact absurd h.1 (Nat.lt_irrefl 0)

/-! ## The loops -/

/-- What filling a bio makes of an array that is just enough: the segments `new`. -/
structure Filled (bvec : List IoVec) (remaining : Nat) (remainingBvecs : Int)
    (new : List IoVec) (pos : DispatchPos) : Prop where
  left : Enough pos.bvec pos.remaining
  le : pos.remaining ≤ remaining
  units : new.flatMap IoVec.units ++ (pos.bvec.flatMap IoVec.units).take pos.remaining =
    (bvec.flatMap IoVec.units).take remaining
  count : (new.flatMap IoVec.units).length = remaining - pos.remaining
  vecs : bvec.length = new.length + pos.bvec.length
  rest : pos.remainingBvecs = remainingBvecs - new.length

theorem Filled.nothing {bvec : List IoVec} {remaining : Nat} {remainingBvecs : Int}
    (h : Enough bvec remaining) :
    Filled bvec remaining remainingBvecs [] ⟨bvec, remaining, remainingBvecs⟩ where
  left := h
  le := Nat.le_refl _
  units := rfl
  count := by simp
  vecs := by simp
  rest := by simp

theorem Filled.cons {v : IoVec} {bvec new : List IoVec} {remaining : Nat} {remainingBvecs : Int}
    {pos : DispatchPos} (henough : Enough (v :: bvec) remaining)
    (h : Filled bvec (remaining - v.bvLen / 512) (remainingBvecs - 1) new pos) :
    Filled (v :: bvec) remaining remainingBvecs
      (⟨v.bvPage, v.bvOffset, min v.bvLen (remaining * 512)⟩ :: new) pos := by
  obtain ⟨-, ⟨m, hm⟩, -⟩ := henough
  have hsectors : min v.bvLen (remaining * 512) / 512 = min (v.bvLen / 512) remaining := by omega
  have hcut := units_cut v (Nat.min_le_left v.bvLen (remaining * 512))
  rw [hsectors] at hcut
  have hlen := length_units v
  refine ⟨h.left, h.le.trans (Nat.sub_le _ _), ?_, ?_, ?_, ?_⟩
  · have htake : v.units.take (min (v.bvLen / 512) remaining) = v.units.take remaining := by
      rw [List.take_eq_take_iff, hlen]
      omega
    rw [List.flatMap_cons, hcut, List.append_assoc, h.units, List.flatMap_cons, List.take_append,
      hlen, htake]
  · rw [List.flatMap_cons, List.length_append, h.count, hcut, List.length_take]
    have := h.le
    omega
  · rw [List.length_cons, List.length_cons, h.vecs]
    omega
  · rw [h.rest, List.length_cons]
    omega

theorem fillBio_filled (addPage : List IoVec → IoVec → Bool) :
    ∀ {bvec : List IoVec} (added : List IoVec) {remaining : Nat} (remainingBvecs : Int),
      Enough bvec remaining → remaining * 512 < 2 ^ 64 →
      ∃ new pos, fillBio addPage remaining remainingBvecs added bvec = some (added ++ new, pos) ∧
        Filled bvec remaining remainingBvecs new pos ∧
        (0 < remaining → (∀ v, addPage added v = true) → new ≠ []) := by
  intro bvec
  induction bvec with
  | nil =>
    intro added remaining remainingBvecs henough _
    have hzero : remaining = 0 := henough
    subst hzero
    refine ⟨[], ⟨[], 0, remainingBvecs⟩, ?_, Filled.nothing rfl, nofun⟩
    rw [fillBio, if_pos rfl, List.append_nil]
  | cons v bvec ih =>
    intro added remaining remainingBvecs henough hlt
    obtain ⟨hpos, ⟨m, hm⟩, hrest⟩ := id henough
    have hlen : min v.bvLen (remaining * 512 % 2 ^ 64) = min v.bvLen (remaining * 512) := by
      rw [Nat.mod_eq_of_lt hlt]
    have hsub : remaining - toSector (min v.bvLen (remaining * 512)) =
        remaining - v.bvLen / 512 := by
      rw [toSector]
      omega
    have hless : (remaining - v.bvLen / 512) * 512 < 2 ^ 64 :=
      Nat.lt_of_le_of_lt (Nat.mul_le_mul_right _ (Nat.sub_le _ _)) hlt
    rw [fillBio, if_neg (by omega)]
    simp only [hlen, hsub]
    split
    · obtain ⟨new, pos, hfill, hfilled, -⟩ :=
        ih (added ++ [⟨v.bvPage, v.bvOffset, min v.bvLen (remaining * 512)⟩])
          (remainingBvecs - 1) hrest hless
      refine ⟨_ :: new, pos, ?_, hfilled.cons henough, fun _ _ => by simp⟩
      rw [hfill, List.append_assoc]
      rfl
    · next hrefused =>
      refine ⟨[], ⟨v :: bvec, remaining, remainingBvecs⟩, by rw [List.append_nil],
        Filled.nothing henough, fun _ haccept => ?_⟩
      exact absurd (haccept _) hrefused

/-- The loop over the bios, from any of its rounds: `bios` have been submitted, and the part
of the region before the sectors left is done. -/
theorem dispatchLoop_eq {addPage : AddPage} (hfresh : ∀ bios v, addPage bios [] v = true)
    (region : IoRegion) (shift : Nat) : ∀ (rounds : Nat) (bios : List SubBio) (pos : DispatchPos),
    Enough pos.bvec pos.remaining → 0 < pos.remaining → pos.remaining ≤ region.count →
    region.count * 512 < 2 ^ 64 → pos.bvec.length ≤ rounds →
    ∃ new, dispatchLoop addPage region shift rounds bios pos =
        some (bios ++ new, ⟨[], 0, pos.remainingBvecs - pos.bvec.length⟩) ∧
      new.flatMap SubBio.transfers =
        transfersAt (region.sector + (region.count - pos.remaining) + shift)
          ((pos.bvec.flatMap IoVec.units).take pos.remaining) ∧
      new.length ≤ pos.bvec.length := by
  intro rounds
  induction rounds with
  | zero =>
    intro bios pos henough hpos _ _ hrounds
    have hnil : pos.bvec = [] := List.length_eq_zero_iff.mp (Nat.le_zero.mp hrounds)
    rw [hnil] at henough
    exact absurd henough hpos.ne'
  | succ rounds ih =>
    intro bios pos henough hpos hle hlt hrounds
    obtain ⟨new, pos', hfill, hfilled, hnew⟩ :=
      fillBio_filled (addPage bios) [] pos.remainingBvecs henough
        (Nat.lt_of_le_of_lt (Nat.mul_le_mul_right _ hle) hlt)
    have hsome : 0 < new.length := List.length_pos_iff.mpr (hnew hpos (hfresh bios))
    have hvecs := hfilled.vecs
    rw [dispatchLoop, hfill]
    simp only [Option.bind_some, List.nil_append]
    generalize hbio : SubBio.mk ((region.sector + (region.count - pos.remaining) + shift) %
      2 ^ 64) new = bio
    have htransfers : bio.transfers =
        transfersAt (region.sector + (region.count - pos.remaining) + shift)
          (new.flatMap IoVec.units) := by
      rw [← hbio]
      exact transfersAt_mod _ _
    have hunits := hfilled.units
    have hcount := hfilled.count
    have hrest := hfilled.rest
    split
    · next hdone =>
      have hnil : pos'.bvec = [] := Enough.eq_nil (hdone ▸ hfilled.left)
      rw [hdone, List.take_zero, List.append_nil] at hunits
      rw [hnil, List.length_nil] at hvecs
      refine ⟨[bio], ?_, ?_, by simp only [List.length_singleton]; omega⟩
      · obtain ⟨bvec', remaining', remainingBvecs'⟩ := pos'
        simp only at hdone hnil hrest hvecs
        rw [hdone, hnil, hrest, hvecs, Nat.add_zero]
      · rw [List.flatMap_singleton, htransfers, hunits]
    · next hmore =>
      obtain ⟨later, hloop, hlater, hlength⟩ := ih (bios ++ [bio]) pos' hfilled.left
        (Nat.pos_of_ne_zero hmore) (hfilled.le.trans hle) hlt (by omega)
      refine ⟨bio :: later, ?_, ?_, by simp only [List.length_cons]; omega⟩
      · rw [hloop, List.append_assoc, hrest, hvecs, Nat.cast_add, Int.sub_sub]
        rfl
      · have hsector : region.sector + (region.count - pos.remaining) + shift +
            (new.flatMap IoVec.units).length =
              region.sector + (region.count - pos'.remaining) + shift := by
          have := hfilled.le
          omega
        rw [List.flatMap_cons, hlater, htransfers, ← hunits, transfersAt_append, hsector]

/-! ## The bios tile the region -/

/-- The bios transfer each sector of the region once and in order, to or from the memory at
the same place of the array. -/
structure Tiles (region : IoRegion) (shift : Nat) (bvec : List IoVec) (bios : List SubBio) :
    Prop where
  sectors : (bios.flatMap SubBio.transfers).map Prod.fst =
    (List.range region.count).map fun k => (region.sector + k + shift) % 2 ^ 64
  memory : (bios.flatMap SubBio.transfers).map Prod.snd =
    (bvec.flatMap IoVec.units).take region.count
  bios_le : bios.length ≤ bvec.length

theorem transfersAt_memory (sector : Nat) (us : List MemUnit) :
    (transfersAt sector us).map Prod.snd = us := by
  apply List.ext_getElem
  · simp [transfersAt]
  · intro k _ _
    simp [transfersAt]

theorem transfersAt_sectors (sector : Nat) (us : List MemUnit) :
    (transfersAt sector us).map Prod.fst =
      (List.range us.length).map fun k => (sector + k) % 2 ^ 64 := by
  apply List.ext_getElem
  · simp [transfersAt]
  · intro k _ _
    simp [transfersAt]

theorem dispatchIo_tiles {addPage : AddPage} (hfresh : ∀ bios v, addPage bios [] v = true)
    {region : IoRegion} {bvec : List IoVec} (h : JustEnough bvec region.count)
    (devStartSect : Nat) (hddio : Bool) {rounds : Nat} (hrounds : bvec.length ≤ rounds) :
    ∃ bios, dispatchIo addPage rounds region devStartSect hddio bvec = some bios ∧
      bios.flatMap SubBio.transfers =
        transfersAt (region.sector + if hddio then devStartSect else 0)
          ((bvec.flatMap IoVec.units).take region.count) ∧
      Tiles region (if hddio then devStartSect else 0) bvec bios := by
  generalize hshift : (if hddio then devStartSect else 0) = shift
  obtain ⟨bios, hloop, htransfers, hlength⟩ := dispatchLoop_eq hfresh region shift rounds []
    ⟨bvec, region.count, bvec.length⟩ h.toEnough h.count_pos (Nat.le_refl _) h.count_lt
    hrounds
  simp only [Nat.sub_self, Nat.add_zero] at htransfers
  refine ⟨bios, ?_, htransfers, ?_, ?_, hlength⟩
  · simp only [dispatchIo, hshift]
    rw [hloop]
    simp
  · have hunits : ((bvec.flatMap IoVec.units).take region.count).length = region.count := by
      rw [List.length_take, Nat.min_eq_left h.toEnough.length_units_le]
    rw [htransfers, transfersAt_sectors, hunits]
    apply List.map_congr_left
    intro k _
    rw [Nat.add_right_comm]
  · rw [htransfers, transfersAt_memory]

/-- A region of no sectors leaves the segments, and the last assertion fails. -/
theorem dispatchIo_of_empty (addPage : AddPage) (rounds sector devStartSect : Nat) (hddio : Bool)
    (v : IoVec) (bvec : List IoVec) :
    dispatchIo addPage rounds ⟨sector, 0⟩ devStartSect hddio (v :: bvec) = none := by
  cases rounds with
  | zero => rfl
  | succ rounds =>
    rw [dispatchIo, dispatchLoop, fillBio, if_pos rfl]
    simp only [Option.bind_some, if_true, List.length_cons]
    exact if_neg (by omega)

/-- Both dispatches end, whatever the device takes into a bio, as long as it takes the first
page of each, and the bios they submit tile the region. -/
theorem dispatch_tiles_region (addPage : AddPage) (hfresh : ∀ bios v, addPage bios [] v = true)
    (region : IoRegion) (devStartSect : Nat) (hddio : Bool) :
    (∀ bvec, JustEnough bvec region.count → ∀ rounds, bvec.length ≤ rounds →
      ∃ bios, dispatchIo addPage rounds region devStartSect hddio bvec = some bios ∧
        Tiles region (if hddio then devStartSect else 0) bvec bios) ∧
    ∀ pagelist, JustEnough (pagelist.map pageVec) region.count → ∀ rounds,
      pagelist.length ≤ rounds →
      ∃ bios, dispatchIoPages addPage rounds region devStartSect hddio pagelist = some bios ∧
        Tiles region (if hddio then devStartSect else 0) (pagelist.map pageVec) bios := by
  constructor
  · intro bvec h rounds hrounds
    obtain ⟨bios, hbios, -, htiles⟩ := dispatchIo_tiles hfresh h devStartSect hddio hrounds
    exact ⟨bios, hbios, htiles⟩
  · intro pagelist h rounds hrounds
    rw [← List.length_map pageVec] at hrounds
    obtain ⟨bios, hbios, -, htiles⟩ := dispatchIo_tiles hfresh h devStartSect hddio hrounds
    exact ⟨bios, hbios, htiles⟩

/-- Three sectors of a partition from two segments, the second with more than is left, on a
device that takes one page at a time. -/
theorem dispatch_tiles_two_bios :
    let addPage : AddPage := fun _ added _ => added.isEmpty
    let bvec : List IoVec := [⟨7, 3584, 512⟩, ⟨9, 0, 4096⟩]
    let bios : List SubBio := [⟨2056, [⟨7, 3584, 512⟩]⟩, ⟨2057, [⟨9, 0, 1024⟩]⟩]
    dispatchIo addPage 2 ⟨8, 3⟩ 2048 true bvec = some bios ∧ Tiles ⟨8, 3⟩ 2048 bvec bios := by
  intro addPage bvec bios
  have hbvec : JustEnough bvec 3 := by
    refine ⟨?_, ?_, ?_, ?_, ?_⟩ <;> decide
  obtain ⟨bios', hbios', htiles⟩ :=
    (dispatch_tiles_region addPage (fun _ _ => rfl) ⟨8, 3⟩ 2048 true).1 bvec hbvec 2 (by decide)
  have hrun : dispatchIo addPage 2 ⟨8, 3⟩ 2048 true bvec = some bios := by decide +kernel
  have hsame : bios' = bios := Option.some.inj (hbios'.symm.trans hrun)
  rw [hsame] at htiles
  exact ⟨hrun, htiles⟩

end EnhanceIO
