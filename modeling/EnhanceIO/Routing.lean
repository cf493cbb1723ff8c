import EnhanceIO.Registry

/-!
# Routing bios to caches

`eio_make_request_fn` gets every bio of a disk that has a cached device. It looks
through the caches of the disk for one that contains the bio, or for one that the bio
overlaps; then it calls `eio_map`, splits the bio into bios of one sector for which it
calls itself, or passes it on to the disk's own function. The numbers of sectors are
64-bit: the last sector of a bio of no sectors at sector 0 is `2 ^ 64 - 1`.
-/

namespace EnhanceIO.Ttc

/-! ## Bios -/

/-- A `bio_vec`: whole sectors, at least one. -/
structure BioVec where
  bvPage : Nat
  bvOffset : Nat
  bvLen : Nat
  bvLen_pos : 0 < bvLen
  bvLen_dvd : 512 ∣ bvLen
deriving DecidableEq, Repr

/-- A bio as it comes from the block layer. -/
structure BlkBio where
  biBdev : BlockDevice
  biSector : Nat
  biSize : Nat
  biIdx : Nat
  biIoVec : List BioVec
  write : Bool
  discard : Bool
deriving DecidableEq, Repr

/-- The disk a bio goes to. -/
abbrev BlkBio.disk (bio : BlkBio) : DevT := bio.biBdev.bdContains

/-- `eio_to_sector(bio->bi_size)`. -/
def BlkBio.sectors (bio : BlkBio) : Nat := bio.biSize / 512

/-- `bi_sector + eio_to_sector(bi_size) - 1`. -/
def BlkBio.lastSector (bio : BlkBio) : Nat :=
  (bio.biSector + bio.sectors + (2 ^ 64 - 1)) % 2 ^ 64

/-- The memory of one sector: a page and an offset in it. -/
abbrev Mem := Nat × Nat

/-- The memory of the sectors of a segment. -/
def BioVec.mems (bv : BioVec) : List Mem :=
  (List.range' 0 (bv.bvLen / 512)).map fun k => (bv.bvPage, bv.bvOffset + 512 * k)

/-- The memory of the sectors of a bio, in order. -/
def BlkBio.mems (bio : BlkBio) : List Mem :=
  ((bio.biIoVec.drop bio.biIdx).flatMap BioVec.mems).take bio.sectors

/-! ## `eio_overlap_split_bio` -/

/-- The bio of one sector that `eio_split_new_bio` builds. -/
def BlkBio.oneSector (bio : BlkBio) (snum : Nat) (mem : Mem) : BlkBio where
  biBdev := bio.biBdev
  biSector := snum
  biSize := 512
  biIdx := 0
  biIoVec := [⟨mem.1, mem.2, 512, by decide, by decide⟩]
  write := bio.write
  discard := bio.discard

/-- `eio_split_new_bio`: the cursor is the segment and the bytes used of it. `none` is
a failed assertion. -/
def BlkBio.eioSplitNewBio (bio : BlkBio) (snum : Nat) (cursor : Nat × Nat) :
    Option (BlkBio × (Nat × Nat)) := do
  let bv ← bio.biIoVec[cursor.1]?
  if bv.bvLen < 512 then none
  else if bv.bvLen ≤ cursor.2 then
    if bv.bvLen = cursor.2 then
      let next ← bio.biIoVec[cursor.1 + 1]?
      some (bio.oneSector snum (next.bvPage, next.bvOffset), (cursor.1 + 1, 512))
    else none
  else
    some (bio.oneSector snum (bv.bvPage, bv.bvOffset + cursor.2), (cursor.1, cursor.2 + 512))

/-- The loop that builds `nbios` bios. -/
def BlkBio.splitLoop (bio : BlkBio) : Nat → Nat → Nat × Nat → Option (List BlkBio)
  | 0, _, _ => some []
  | nbios + 1, snum, cursor => do
      let (cbio, cursor') ← bio.eioSplitNewBio snum cursor
      let rest ← bio.splitLoop nbios (snum + 1) cursor'
      some (cbio :: rest)

/-- `eio_overlap_split_bio`, if there is memory for the bios: otherwise the source ends the
bio with `-ENOMEM`. -/
def BlkBio.eioOverlapSplitBio (bio : BlkBio) : Option (List BlkBio) :=
  bio.splitLoop bio.sectors bio.biSector (bio.biIdx, 0)

/-! ## `eio_make_request_fn` -/

/-- What the loop over the caches of the bucket ends with. -/
inductive Found where
  | cache (c : CacheC)
  | overlap
  | nothing (origmfn : Option Mfn)
deriving DecidableEq, Repr

/-- The loop, for a bio from sector `s` to sector `e`. -/
def lookupScan (disk : DevT) (s e : Nat) : Option Mfn → List CacheC → Found
  | origmfn, [] => .nothing origmfn
  | origmfn, c :: cs =>
    if c.disk ≠ disk then lookupScan disk s e origmfn cs
    else if c.devInfo = .wholeDisk then .cache c
    else if s ≥ c.devStartSect ∧ e ≤ c.devEndSect then .cache c
    else if (s ≥ c.devStartSect ∧ s ≤ c.devEndSect) ∨
        (e ≥ c.devStartSect ∧ e ≤ c.devEndSect) then .overlap
    else lookupScan disk s e (some (origmfn.getD c.origmfn)) cs

/-- What a bio is given to. -/
inductive Call where
  | map (c : CacheC) (bio : BlkBio)
  | orig (f : Mfn) (bio : BlkBio)
  | endio (bio : BlkBio) (error : Int)
deriving DecidableEq, Repr

def EOPNOTSUPP : Int := 95

/-- `eio_make_request_fn`; a call and a `goto re_lookup` take fuel. `none` is a failed
assertion, or no fuel left. -/
def Registry.eioMakeRequestFn (reg : Registry) : Nat → BlkBio → Option (List Call)
  | 0, _ => none
  | fuel + 1, bio =>
    let disk := bio.biBdev.bdContains
    match lookupScan disk bio.biSector bio.lastSector none
        (reg.ttcList (eioHashBdev disk)) with
    | .overlap =>
      if bio.discard then some [.endio bio (-EOPNOTSUPP)]
      else do
        let bios ← bio.eioOverlapSplitBio
        let calls ← bios.mapM (reg.eioMakeRequestFn fuel)
        some calls.flatten
    | .cache c =>
      if bio.biSector = 0 then some [.map c bio]
      else if bio.biSector < c.devStartSect then none
      else some [.map c { bio with biSector := bio.biSector - c.devStartSect }]
    | .nothing origmfn =>
      match origmfn.getD (reg.mfn disk) with
      | .eio => reg.eioMakeRequestFn fuel bio
      | .other id => some [.orig (.other id) bio]

/-- The function returns `calls`, whatever further fuel it is given. -/
def Registry.Returns (reg : Registry) (bio : BlkBio) (calls : List Call) : Prop :=
  ∃ n, ∀ fuel, n ≤ fuel → reg.eioMakeRequestFn fuel bio = some calls

/-! ## What a split bio is made of -/

theorem BioVec.length_mems (bv : BioVec) : bv.mems.length = bv.bvLen / 512 := by
  simp [BioVec.mems]

theorem BioVec.drop_mems (bv : BioVec) {j : Nat} (hj : j < bv.bvLen / 512) :
    bv.mems.drop j = (bv.bvPage, bv.bvOffset + 512 * j) :: bv.mems.drop (j + 1) := by
  rw [List.drop_eq_getElem_cons (bv.length_mems.symm ▸ hj)]
  simp [BioVec.mems]

namespace BlkBio

variable (bio : BlkBio)

/-- The memory from the cursor on. -/
def rest (cursor : Nat × Nat) : List Mem :=
  ((bio.biIoVec.drop cursor.1).flatMap BioVec.mems).drop (cursor.2 / 512)

/-- The cursor is between two sectors of a segment of the bio. -/
structure CursorOk (cursor : Nat × Nat) : Prop where
  dvd : 512 ∣ cursor.2
  seg : ∃ bv, bio.biIoVec[cursor.1]? = some bv ∧ cursor.2 ≤ bv.bvLen

theorem drop_of_getElem? {i : Nat} {bv : BioVec} (h : bio.biIoVec[i]? = some bv) :
    bio.biIoVec.drop i = bv :: bio.biIoVec.drop (i + 1) := by
  obtain ⟨hlt, hget⟩ := List.getElem?_eq_some_iff.mp h
  rw [List.drop_eq_getElem_cons hlt, hget]

/-- Within a segment, the next sector is the one at the cursor. -/
theorem rest_within {i used : Nat} {bv : BioVec} (hbv : bio.biIoVec[i]? = some bv)
    (hdvd : 512 ∣ used) (hlt : used < bv.bvLen) :
    bio.rest (i, used) = (bv.bvPage, bv.bvOffset + used) :: bio.rest (i, used + 512) := by
  obtain ⟨j, rfl⟩ := hdvd
  obtain ⟨k, hk⟩ := bv.bvLen_dvd
  have hj : j < bv.bvLen / 512 := by omega
  have hdiv : (512 * j + 512) / 512 = j + 1 := by omega
  have hlen := bv.length_mems
  simp only [rest, bio.drop_of_getElem? hbv, List.flatMap_cons, hdiv, Nat.mul_div_cancel_left j
    (by decide : 0 < 512)]
  rw [List.drop_append_of_le_length (by omega), List.drop_append_of_le_length (by omega),
    bv.drop_mems hj, List.cons_append]

/-- At the end of a segment, what is left is what the next one begins with. -/
theorem rest_end {i : Nat} {bv : BioVec} (hbv : bio.biIoVec[i]? = some bv) :
    bio.rest (i, bv.bvLen) = bio.rest (i + 1, 0) := by
  simp only [rest, bio.drop_of_getElem? hbv, List.flatMap_cons, ← bv.length_mems,
    List.drop_left, Nat.zero_div, List.drop_zero]

/-- `eio_split_new_bio` takes the next sector of memory and leaves the others. -/
theorem eioSplitNewBio_eq (snum : Nat) {cursor : Nat × Nat} (h : bio.CursorOk cursor)
    {mem : Mem} {mems : List Mem} (hrest : bio.rest cursor = mem :: mems) :
    ∃ cursor', bio.eioSplitNewBio snum cursor = some (bio.oneSector snum mem, cursor') ∧
      bio.CursorOk cursor' ∧ bio.rest cursor' = mems := by
  obtain ⟨i, used⟩ := cursor
  obtain ⟨hdvd, bv, hbv, hle⟩ := h
  have hlen : 512 ≤ bv.bvLen := Nat.le_of_dvd bv.bvLen_pos bv.bvLen_dvd
  rcases Nat.lt_or_eq_of_le hle with hlt | heq
  · rw [bio.rest_within hbv hdvd hlt, List.cons.injEq] at hrest
    obtain ⟨rfl, rfl⟩ := hrest
    refine ⟨(i, used + 512), ?_, ⟨?_, bv, hbv, ?_⟩, rfl⟩
    · simp [eioSplitNewBio, hbv, Nat.not_lt.mpr hlen, Nat.not_le.mpr hlt]
    · exact Nat.dvd_add hdvd (Nat.dvd_refl _)
    · -- the segment is a whole number of sectors
      obtain ⟨j, rfl⟩ := hdvd
      obtain ⟨k, hk⟩ := bv.bvLen_dvd
      simp only at hlt ⊢
      omega
  · simp only at heq
    subst heq
    rw [bio.rest_end hbv] at hrest
    cases hnext : bio.biIoVec[i + 1]? with
    | none =>
      rw [rest, List.drop_eq_nil_of_le (List.getElem?_eq_none_iff.mp hnext)] at hrest
      simp at hrest
    | some next =>
      rw [bio.rest_within hnext (Nat.dvd_zero _) next.bvLen_pos, List.cons.injEq] at hrest
      obtain ⟨rfl, rfl⟩ := hrest
      refine ⟨(i + 1, 512), ?_, ⟨Nat.dvd_refl _, next, hnext, ?_⟩, rfl⟩
      · simp [eioSplitNewBio, hbv, hnext, Nat.not_lt.mpr hlen]
      · exact Nat.le_of_dvd next.bvLen_pos next.bvLen_dvd

/-- The loop builds a bio for each of the next `nbios` sectors. -/
theorem splitLoop_eq (nbios snum : Nat) (cursor : Nat × Nat)
    (h : 0 < nbios → bio.CursorOk cursor) (hlen : nbios ≤ (bio.rest cursor).length) :
    bio.splitLoop nbios snum cursor = some
      ((((bio.rest cursor).take nbios).zipIdx snum).map fun p => bio.oneSector p.2 p.1) := by
  induction nbios generalizing snum cursor with
  | zero => rfl
  | succ nbios ih =>
    cases hrest : bio.rest cursor with
    | nil => simp [hrest] at hlen
    | cons mem mems =>
      obtain ⟨cursor', hnew, hok, hrest'⟩ :=
        bio.eioSplitNewBio_eq snum (h (Nat.succ_pos _)) hrest
      rw [hrest, List.length_cons] at hlen
      have htail := ih (snum + 1) cursor' (fun _ => hok) (by rw [hrest']; omega)
      rw [hrest'] at htail
      simp [splitLoop, hnew, htail, List.zipIdx_cons]

/-- A bio of whole sectors on its disk, whose segments hold them all. -/
structure Ok (capacity : Nat) (bio : BlkBio) : Prop where
  dvd : 512 ∣ bio.biSize
  pos : 0 < bio.sectors
  range : bio.biSector + bio.sectors ≤ capacity
  segs : bio.biSize ≤ ((bio.biIoVec.drop bio.biIdx).map BioVec.bvLen).sum
  discard : bio.discard = false

theorem length_flatMap_mems (bvs : List BioVec) :
    512 * (bvs.flatMap BioVec.mems).length = (bvs.map BioVec.bvLen).sum := by
  induction bvs with
  | nil => rfl
  | cons bv bvs ih =>
    simp only [List.flatMap_cons, List.length_append, List.map_cons, List.sum_cons,
      bv.length_mems, Nat.mul_add, ih, Nat.mul_div_cancel' bv.bvLen_dvd]

variable {bio} {capacity : Nat}

theorem Ok.sectors_le (h : bio.Ok capacity) :
    bio.sectors ≤ (bio.rest (bio.biIdx, 0)).length := by
  have hsegs := h.segs
  rw [← length_flatMap_mems] at hsegs
  simp only [rest, Nat.zero_div, List.drop_zero, sectors]
  omega

theorem Ok.length_mems (h : bio.Ok capacity) : bio.mems.length = bio.sectors := by
  have hle := h.sectors_le
  simp only [rest, Nat.zero_div, List.drop_zero] at hle
  rw [mems, List.length_take, Nat.min_eq_left hle]

theorem Ok.split (h : bio.Ok capacity) : bio.eioOverlapSplitBio =
    some ((bio.mems.zipIdx bio.biSector).map fun p => bio.oneSector p.2 p.1) := by
  have hcursor : bio.CursorOk (bio.biIdx, 0) := by
    refine ⟨Nat.dvd_zero _, ?_⟩
    cases hbv : bio.biIoVec[bio.biIdx]? with
    | none =>
      have hle := h.sectors_le
      rw [rest, List.drop_eq_nil_of_le (List.getElem?_eq_none_iff.mp hbv), List.flatMap_nil,
        List.drop_nil] at hle
      exact absurd hle (Nat.not_le.mpr h.pos)
    | some bv => exact ⟨bv, rfl, Nat.zero_le _⟩
  have hmems : bio.mems = (bio.rest (bio.biIdx, 0)).take bio.sectors := by
    simp [mems, rest]
  rw [eioOverlapSplitBio, bio.splitLoop_eq _ _ _ (fun _ => hcursor) h.sectors_le, hmems]

theorem lastSector_eq (hpos : 0 < bio.sectors) (hlt : bio.biSector + bio.sectors ≤ 2 ^ 64) :
    bio.lastSector = bio.biSector + bio.sectors - 1 := by
  have hsum : bio.biSector + bio.sectors + (2 ^ 64 - 1) =
      bio.biSector + bio.sectors - 1 + 2 ^ 64 := by omega
  rw [lastSector, hsum, Nat.add_mod_right, Nat.mod_eq_of_lt (by omega)]

/-- The sectors of a bio lie between its first and its last. -/
theorem Ok.sector_mem (h : bio.Ok capacity) {p : Mem × Nat}
    (hp : p ∈ bio.mems.zipIdx bio.biSector) :
    bio.biSector ≤ p.2 ∧ p.2 < bio.biSector + bio.sectors := by
  have hlt := List.snd_lt_add_of_mem_zipIdx hp
  rw [h.length_mems] at hlt
  exact ⟨List.le_snd_of_mem_zipIdx hp, by omega⟩

end BlkBio

/-! ## The caches of a disk -/

def CacheC.Contains (c : CacheC) (sector : Nat) : Prop :=
  c.devStartSect ≤ sector ∧ sector ≤ c.devEndSect

instance (c : CacheC) (sector : Nat) : Decidable (c.Contains sector) :=
  inferInstanceAs (Decidable (_ ∧ _))

def Registry.onDisk (reg : Registry) (disk : DevT) : List CacheC :=
  reg.active.filter fun c => c.disk == disk

/-- The caches of a disk of `capacity` sectors whose queue has the function `own`: one
on the whole disk, or some on disjoint partitions. -/
structure DiskOk (reg : Registry) (disk : DevT) (own : Nat) (capacity : Nat) : Prop where
  capacity_lt : capacity < 2 ^ 64
  mfn : reg.onDisk disk = [] → reg.mfn disk = .other own
  origmfn : ∀ c ∈ reg.onDisk disk, c.origmfn = .other own
  range : ∀ c ∈ reg.onDisk disk, c.devStartSect ≤ c.devEndSect ∧ c.devEndSect < capacity
  caches : (∃ c, reg.onDisk disk = [c] ∧ c.devInfo = .wholeDisk ∧ c.devStartSect = 0 ∧
      c.devEndSect + 1 = capacity) ∨
    ((∀ c ∈ reg.onDisk disk, c.devInfo = .partition) ∧
      (reg.onDisk disk).Pairwise fun c c' => ∀ sector, ¬ (c.Contains sector ∧ c'.Contains sector))

/-- The caches of other disks in the bucket are passed over. -/
theorem lookupScan_filter (disk : DevT) (s e : Nat) (origmfn : Option Mfn) (cs : List CacheC) :
    lookupScan disk s e origmfn cs =
      lookupScan disk s e origmfn (cs.filter fun c => c.disk == disk) := by
  induction cs generalizing origmfn with
  | nil => rfl
  | cons c cs ih =>
    by_cases hd : c.disk = disk
    · rw [List.filter_cons_of_pos (by simp [hd])]
      simp only [lookupScan, ih]
    · rw [List.filter_cons_of_neg (by simp [hd]), ← ih, lookupScan, if_pos hd]

/-- What the loop ends with for a bio. -/
abbrev Registry.found (reg : Registry) (bio : BlkBio) : Found :=
  lookupScan bio.disk bio.biSector bio.lastSector none (reg.onDisk bio.disk)

theorem Registry.lookup_eq (reg : Registry) (disk : DevT) (s e : Nat) :
    lookupScan disk s e none (reg.ttcList (eioHashBdev disk)) =
      lookupScan disk s e none (reg.onDisk disk) := by
  rw [lookupScan_filter, Registry.ttcList, List.filter_filter]
  congr 1
  refine List.filter_congr fun c _ => ?_
  by_cases hd : c.disk = disk <;> simp [hd]

theorem lookupScan_partition {disk : DevT} {s e : Nat} {origmfn : Option Mfn} {c : CacheC}
    {cs : List CacheC} (hdisk : c.disk = disk) (hinfo : c.devInfo = .partition) :
    lookupScan disk s e origmfn (c :: cs) =
      if c.devStartSect ≤ s ∧ e ≤ c.devEndSect then .cache c
      else if c.Contains s ∨ c.Contains e then .overlap
      else lookupScan disk s e (some (origmfn.getD c.origmfn)) cs := by
  rw [lookupScan, if_neg (not_not.mpr hdisk), if_neg (by simp [hinfo])]
  rfl

/-- The three ways the loop over partitions of one disk ends. -/
theorem lookupScan_cases {disk : DevT} {own : Nat} (s e : Nat) (cs : List CacheC)
    (origmfn : Option Mfn) (horig : origmfn = none ∨ origmfn = some (.other own))
    (hcs : ∀ c ∈ cs, c.disk = disk ∧ c.devInfo = .partition ∧ c.origmfn = .other own) :
    (∃ c ∈ cs, lookupScan disk s e origmfn cs = .cache c ∧ c.devStartSect ≤ s ∧
      e ≤ c.devEndSect) ∨
    (lookupScan disk s e origmfn cs = .overlap ∧ ∃ c ∈ cs, (c.Contains s ∨ c.Contains e) ∧
      ¬ (c.devStartSect ≤ s ∧ e ≤ c.devEndSect)) ∨
    ((∃ origmfn', lookupScan disk s e origmfn cs = .nothing origmfn' ∧
      (origmfn' = some (.other own) ∨ cs = [] ∧ origmfn' = origmfn)) ∧
      ∀ c ∈ cs, ¬ c.Contains s ∧ ¬ c.Contains e) := by
  induction cs generalizing origmfn with
  | nil => exact .inr (.inr ⟨⟨origmfn, rfl, .inr ⟨rfl, rfl⟩⟩, by simp⟩)
  | cons c cs ih =>
    obtain ⟨⟨hdisk, hinfo, hown⟩, hrest⟩ := List.forall_mem_cons.mp hcs
    have hnext : some (origmfn.getD c.origmfn) = some (Mfn.other own) := by
      rcases horig with rfl | rfl <;> simp [hown]
    rw [lookupScan_partition hdisk hinfo]
    by_cases hfits : c.devStartSect ≤ s ∧ e ≤ c.devEndSect
    · rw [if_pos hfits]
      exact .inl ⟨c, List.mem_cons_self, rfl, hfits⟩
    · rw [if_neg hfits]
      by_cases hover : c.Contains s ∨ c.Contains e
      · rw [if_pos hover]
        exact .inr (.inl ⟨rfl, c, List.mem_cons_self, hover, hfits⟩)
      · rw [if_neg hover, hnext]
        obtain ⟨hs, he⟩ := not_or.mp hover
        -- the loop goes on with the function of this cache in hand
        rcases ih (some (.other own)) (.inr rfl) hrest with
          ⟨c', hmem, h⟩ | ⟨h, c', hmem, hc'⟩ | ⟨⟨origmfn', h, horig'⟩, hall⟩
        · exact .inl ⟨c', List.mem_cons_of_mem _ hmem, h⟩
        · exact .inr (.inl ⟨h, c', List.mem_cons_of_mem _ hmem, hc'⟩)
        · refine .inr (.inr ⟨⟨origmfn', h, .inl ?_⟩,
            List.forall_mem_cons.mpr ⟨⟨hs, he⟩, hall⟩⟩)
          exact horig'.elim id (·.2)

/-! ## The server of each sector -/

/-- The cache of the disk whose range contains the sector. -/
def Registry.owner (reg : Registry) (disk : DevT) (sector : Nat) : Option CacheC :=
  (reg.onDisk disk).find? fun c => c.Contains sector

inductive Server where
  | map (c : CacheC)
  | orig (f : Mfn)
deriving DecidableEq, Repr

/-- One sector is read to or written from `mem`, under the number `sector`. -/
structure Service where
  server : Server
  sector : Nat
  mem : Mem
deriving DecidableEq, Repr

/-- The services of a call. -/
def Call.services : Call → List Service
  | .map c bio => (bio.mems.zipIdx bio.biSector).map fun p => ⟨.map c, p.2, p.1⟩
  | .orig f bio => (bio.mems.zipIdx bio.biSector).map fun p => ⟨.orig f, p.2, p.1⟩
  | .endio _ _ => []

/-- The service a sector of the disk is due. -/
def Registry.due (reg : Registry) (disk : DevT) (own sector : Nat) (mem : Mem) : Service :=
  match reg.owner disk sector with
  | some c => ⟨.map c, sector - c.devStartSect, mem⟩
  | none => ⟨.orig (.other own), sector, mem⟩

/-- One pass serves each sector of the bio once, in order, as it is due. -/
def Registry.Passes (reg : Registry) (own : Nat) (bio : BlkBio) : Prop :=
  ∃ calls, (∀ fuel, reg.eioMakeRequestFn (fuel + 1) bio = some calls) ∧
    calls.flatMap Call.services =
      (bio.mems.zipIdx bio.biSector).map fun p => reg.due bio.disk own p.2 p.1

/-- The function returns, and each sector of the bio is served once, in order, as it
is due. -/
def Registry.Routed (reg : Registry) (own : Nat) (bio : BlkBio) : Prop :=
  ∃ calls, reg.Returns bio calls ∧ calls.flatMap Call.services =
    (bio.mems.zipIdx bio.biSector).map fun p => reg.due bio.disk own p.2 p.1

section Disk

variable {reg : Registry} {disk : DevT} {own capacity : Nat}

theorem Registry.Returns.unique {bio : BlkBio} {calls calls' : List Call}
    (h : reg.Returns bio calls) (h' : reg.Returns bio calls') : calls = calls' := by
  obtain ⟨n, hn⟩ := h
  obtain ⟨n', hn'⟩ := h'
  have heq := (hn (max n n') (Nat.le_max_left _ _)).symm.trans (hn' _ (Nat.le_max_right _ _))
  exact Option.some.inj heq

/-- A result that takes one pass. -/
theorem Registry.Returns.of_pass {bio : BlkBio} {calls : List Call}
    (h : ∀ fuel, reg.eioMakeRequestFn (fuel + 1) bio = some calls) : reg.Returns bio calls := by
  refine ⟨1, fun fuel hfuel => ?_⟩
  obtain ⟨fuel, rfl⟩ := Nat.exists_eq_add_of_le' hfuel
  exact h fuel

theorem Registry.mem_onDisk {c : CacheC} :
    c ∈ reg.onDisk disk ↔ c ∈ reg.active ∧ c.disk = disk := by
  simp [Registry.onDisk]

/-- No sector belongs to two caches of the disk. -/
theorem DiskOk.disjoint (h : DiskOk reg disk own capacity) {c c' : CacheC} {sector : Nat}
    (hc : c ∈ reg.onDisk disk) (hc' : c' ∈ reg.onDisk disk) (hs : c.Contains sector)
    (hs' : c'.Contains sector) : c = c' := by
  rcases h.caches with ⟨c₀, hone, -⟩ | ⟨-, hdisj⟩
  · rw [hone, List.mem_singleton] at hc hc'
    rw [hc, hc']
  · by_contra hne
    have : Std.Symm fun c c' : CacheC =>
        ∀ sector, ¬ (c.Contains sector ∧ c'.Contains sector) :=
      ⟨fun _ _ hr sector hboth => hr sector hboth.symm⟩
    exact hdisj.forall hc hc' hne sector ⟨hs, hs'⟩

theorem mem_of_owner {sector : Nat} {c : CacheC} (h : reg.owner disk sector = some c) :
    c ∈ reg.onDisk disk ∧ c.Contains sector := by
  have hs := List.find?_some h
  exact ⟨List.mem_of_find?_eq_some h, of_decide_eq_true hs⟩

theorem owner_eq_none {sector : Nat} (h : ∀ c ∈ reg.onDisk disk, ¬ c.Contains sector) :
    reg.owner disk sector = none :=
  List.find?_eq_none.mpr fun c hc => by simpa using h c hc

theorem DiskOk.owner_eq (h : DiskOk reg disk own capacity) {c : CacheC} {sector : Nat}
    (hc : c ∈ reg.onDisk disk) (hs : c.Contains sector) : reg.owner disk sector = some c := by
  cases ho : reg.owner disk sector with
  | none => exact absurd (decide_eq_true hs) (List.find?_eq_none.mp ho c hc)
  | some c' =>
    obtain ⟨hc', hs'⟩ := mem_of_owner ho
    rw [h.disjoint hc hc' hs hs']

/-! ## One pass of the function -/

/-- A bio that lies in a cache goes to it, numbered from the start of its device. -/
theorem eioMakeRequestFn_cache {bio : BlkBio} {c : CacheC} (fuel : Nat)
    (hl : reg.found bio = .cache c)
    (hle : c.devStartSect ≤ bio.biSector) : reg.eioMakeRequestFn (fuel + 1) bio =
      some [.map c { bio with biSector := bio.biSector - c.devStartSect }] := by
  simp only [Registry.eioMakeRequestFn, reg.lookup_eq, hl]
  split
  · next hzero =>
    have hsub : bio.biSector - c.devStartSect = bio.biSector := by omega
    rw [hsub]
  · rw [if_neg (Nat.not_lt.mpr hle)]

theorem eioMakeRequestFn_nothing {bio : BlkBio} {origmfn : Option Mfn} (fuel : Nat)
    (hl : reg.found bio = .nothing origmfn)
    (hown : origmfn.getD (reg.mfn bio.disk) = .other own) :
    reg.eioMakeRequestFn (fuel + 1) bio = some [.orig (.other own) bio] := by
  simp only [Registry.eioMakeRequestFn, reg.lookup_eq, hl, hown]

theorem eioMakeRequestFn_overlap {bio : BlkBio} {bios : List BlkBio} {calls : List (List Call)}
    (fuel : Nat)
    (hl : reg.found bio = .overlap)
    (hdiscard : bio.discard = false) (hsplit : bio.eioOverlapSplitBio = some bios)
    (hcalls : bios.mapM (reg.eioMakeRequestFn fuel) = some calls) :
    reg.eioMakeRequestFn (fuel + 1) bio = some calls.flatten := by
  rw [Registry.eioMakeRequestFn]
  simp [reg.lookup_eq, hl, hdiscard, hsplit, hcalls]

theorem map_zipIdx_sub {α β : Type*} (f : α × Nat → β) (l : List α) {n k : Nat} (hk : k ≤ n) :
    (l.zipIdx (n - k)).map f = (l.zipIdx n).map fun p => f (p.1, p.2 - k) := by
  induction l generalizing n with
  | nil => rfl
  | cons a l ih =>
    have hsucc : n - k + 1 = n + 1 - k := by omega
    simp only [List.zipIdx_cons, List.map_cons, hsucc, ih (Nat.le_succ_of_le hk)]

/-- The loop on a disk: the bio lies in a cache, begins or ends in one that does not
contain it, or neither begins nor ends in any. -/
theorem DiskOk.lookup_cases (h : DiskOk reg disk own capacity) {s e : Nat} (hse : s ≤ e)
    (he : e < capacity) :
    (∃ c ∈ reg.onDisk disk, lookupScan disk s e none (reg.onDisk disk) = .cache c ∧
      c.Contains s ∧ c.Contains e) ∨
    (lookupScan disk s e none (reg.onDisk disk) = .overlap ∧ ∃ c ∈ reg.onDisk disk,
      (c.Contains s ∨ c.Contains e) ∧ ¬ (c.devStartSect ≤ s ∧ e ≤ c.devEndSect)) ∨
    ((∃ origmfn, lookupScan disk s e none (reg.onDisk disk) = .nothing origmfn ∧
      origmfn.getD (reg.mfn disk) = .other own) ∧
      ∀ c ∈ reg.onDisk disk, ¬ c.Contains s ∧ ¬ c.Contains e) := by
  rcases h.caches with ⟨c, hone, hinfo, hstart, hend⟩ | ⟨hinfo, -⟩
  · have hdisk : c.disk = disk := (Registry.mem_onDisk.mp (hone ▸ List.mem_singleton_self c)).2
    refine .inl ⟨c, hone ▸ List.mem_singleton_self c, ?_, ⟨by omega, by omega⟩,
      ⟨by omega, by omega⟩⟩
    rw [hone, lookupScan, if_neg (not_not.mpr hdisk), if_pos hinfo]
  · rcases lookupScan_cases s e (reg.onDisk disk) none (.inl rfl) fun c hc =>
        ⟨(Registry.mem_onDisk.mp hc).2, hinfo c hc, h.origmfn c hc⟩ with
      ⟨c, hc, hl, hs, he'⟩ | hover | ⟨⟨origmfn, hl, horig⟩, hfree⟩
    · exact .inl ⟨c, hc, hl, ⟨hs, by omega⟩, by omega, he'⟩
    · exact .inr (.inl hover)
    · refine .inr (.inr ⟨⟨origmfn, hl, ?_⟩, hfree⟩)
      rcases horig with rfl | ⟨hnil, rfl⟩
      · rfl
      · exact h.mfn hnil

theorem DiskOk.pass_cache (bio : BlkBio) (h : DiskOk reg bio.disk own capacity)
    (hbio : bio.Ok capacity) {c : CacheC} (hc : c ∈ reg.onDisk bio.disk)
    (hl : reg.found bio = .cache c) (hs : c.Contains bio.biSector)
    (he : c.Contains (bio.biSector + bio.sectors - 1)) : reg.Passes own bio := by
  refine ⟨_, fun fuel => eioMakeRequestFn_cache fuel hl hs.1, ?_⟩
  have hmems : { bio with biSector := bio.biSector - c.devStartSect }.mems = bio.mems := rfl
  simp only [List.flatMap_cons, List.flatMap_nil, List.append_nil, Call.services, hmems]
  rw [map_zipIdx_sub _ _ hs.1]
  refine List.map_congr_left fun p hp => ?_
  obtain ⟨hlo, hhi⟩ := hbio.sector_mem hp
  have hin : c.Contains p.2 :=
    ⟨Nat.le_trans hs.1 hlo, Nat.le_trans (Nat.le_sub_one_of_lt hhi) he.2⟩
  rw [Registry.due, h.owner_eq hc hin]

theorem DiskOk.pass_nothing (bio : BlkBio) (hbio : bio.Ok capacity) {origmfn : Option Mfn}
    (hl : reg.found bio = .nothing origmfn)
    (hown : origmfn.getD (reg.mfn bio.disk) = .other own)
    (hfree : ∀ c ∈ reg.onDisk bio.disk, ∀ sector, bio.biSector ≤ sector →
      sector < bio.biSector + bio.sectors → ¬ c.Contains sector) : reg.Passes own bio := by
  refine ⟨_, fun fuel => eioMakeRequestFn_nothing fuel hl hown, ?_⟩
  simp only [List.flatMap_cons, List.flatMap_nil, List.append_nil, Call.services]
  refine List.map_congr_left fun p hp => ?_
  obtain ⟨hlo, hhi⟩ := hbio.sector_mem hp
  rw [Registry.due, owner_eq_none fun c hc => hfree c hc p.2 hlo hhi]

theorem BlkBio.sectors_oneSector (bio : BlkBio) (snum : Nat) (mem : Mem) :
    (bio.oneSector snum mem).sectors = 1 := by
  simp [BlkBio.sectors, BlkBio.oneSector]

theorem BlkBio.mems_oneSector (bio : BlkBio) (snum : Nat) (mem : Mem) :
    (bio.oneSector snum mem).mems = [mem] := by
  simp [BlkBio.mems, BlkBio.sectors, BlkBio.oneSector, BioVec.mems]

theorem BlkBio.Ok.oneSector {bio : BlkBio} (hdiscard : bio.discard = false) {snum : Nat}
    (hsnum : snum < capacity) (mem : Mem) : (bio.oneSector snum mem).Ok capacity where
  dvd := Nat.dvd_refl 512
  pos := by rw [BlkBio.sectors_oneSector]; exact Nat.one_pos
  range := by rw [BlkBio.sectors_oneSector]; exact hsnum
  segs := Nat.le_refl 512
  discard := hdiscard

/-- A bio of one sector is served as its sector is due. -/
theorem DiskOk.pass_oneSector {bio : BlkBio} (h : DiskOk reg bio.disk own capacity)
    (hdiscard : bio.discard = false) {snum : Nat} (hsnum : snum < capacity) (mem : Mem) :
    ∃ calls, (∀ fuel, reg.eioMakeRequestFn (fuel + 1) (bio.oneSector snum mem) = some calls) ∧
      calls.flatMap Call.services = [reg.due bio.disk own snum mem] := by
  have hbio := BlkBio.Ok.oneSector hdiscard hsnum mem
  have hlast : (bio.oneSector snum mem).lastSector = snum := by
    rw [BlkBio.lastSector_eq hbio.pos (Nat.le_of_lt (Nat.lt_of_le_of_lt hbio.range h.capacity_lt)),
      BlkBio.sectors_oneSector]
    rfl
  have hdue : ((bio.oneSector snum mem).mems.zipIdx snum).map
      (fun p => reg.due bio.disk own p.2 p.1) =
      [reg.due bio.disk own snum mem] := by
    rw [BlkBio.mems_oneSector]
    rfl
  rw [← hdue]
  rcases h.lookup_cases (Nat.le_refl snum) hsnum with
    ⟨c, hc, hl, hs, he⟩ | ⟨-, c, -, hin, hnot⟩ | ⟨⟨origmfn, hl, hown⟩, hfree⟩
  · refine DiskOk.pass_cache (bio.oneSector snum mem) h hbio hc ?_ hs ?_
    · rw [Registry.found, hlast]
      exact hl
    · rw [BlkBio.sectors_oneSector]
      exact he
  · exact absurd (hin.elim id id) hnot
  · refine DiskOk.pass_nothing (bio.oneSector snum mem) hbio ?_ hown
      fun c hc sector hlo hhi => ?_
    · rw [Registry.found, hlast]
      exact hl
    · rw [BlkBio.sectors_oneSector] at hhi
      obtain rfl : sector = snum := Nat.le_antisymm (Nat.le_of_lt_succ hhi) hlo
      exact (hfree c hc).1

/-- The calls for a list of bios that are each served as they are due. -/
theorem mapM_services {ι : Type*} {f : Nat → BlkBio → Option (List Call)} {bios : ι → BlkBio}
    {due : ι → Service} (l : List ι)
    (h : ∀ p ∈ l, ∃ calls, (∀ fuel, f (fuel + 1) (bios p) = some calls) ∧
      calls.flatMap Call.services = [due p]) :
    ∃ calls, (∀ fuel, (l.map bios).mapM (f (fuel + 1)) = some calls) ∧
      calls.flatten.flatMap Call.services = l.map due := by
  induction l with
  | nil => exact ⟨[], fun _ => rfl, rfl⟩
  | cons p l ih =>
    obtain ⟨⟨calls, hcalls, hdue⟩, hrest⟩ := List.forall_mem_cons.mp h
    obtain ⟨callss, hcallss, hdues⟩ := ih hrest
    refine ⟨calls :: callss, fun fuel => ?_, ?_⟩
    · simp [hcalls, hcallss]
    · rw [List.flatten_cons, List.flatMap_append, hdue, hdues]
      rfl

/-- A bio that is split is served as its sectors are due. -/
theorem DiskOk.pass_overlap {bio : BlkBio} (h : DiskOk reg bio.disk own capacity)
    (hbio : bio.Ok capacity)
    (hl : reg.found bio = .overlap) : reg.Routed own bio := by
  obtain ⟨calls, hcalls, hdue⟩ :=
    mapM_services (f := reg.eioMakeRequestFn) (bio.mems.zipIdx bio.biSector) fun p hp =>
      h.pass_oneSector hbio.discard
        (Nat.lt_of_lt_of_le (hbio.sector_mem hp).2 hbio.range) p.1
  refine ⟨calls.flatten, ⟨2, fun fuel hfuel => ?_⟩, hdue⟩
  obtain ⟨fuel, rfl⟩ := Nat.exists_eq_add_of_le' hfuel
  exact eioMakeRequestFn_overlap _ hl hbio.discard hbio.split (hcalls fuel)

theorem Registry.Routed.of_pass {bio : BlkBio} (h : reg.Passes own bio) : reg.Routed own bio := by
  obtain ⟨calls, hcalls, hdue⟩ := h
  exact ⟨calls, .of_pass hcalls, hdue⟩

/-- A bio that neither begins nor ends in a cached device but reaches into one goes
past the cache. -/
theorem DiskOk.not_routed {bio : BlkBio} (hbio : bio.Ok capacity) {origmfn : Option Mfn}
    (h : DiskOk reg bio.disk own capacity)
    (hl : reg.found bio = .nothing origmfn)
    (hown : origmfn.getD (reg.mfn bio.disk) = .other own)
    {c : CacheC} (hc : c ∈ reg.onDisk bio.disk) (sector : Nat)
    (hlo : bio.biSector ≤ sector) (hhi : sector < bio.biSector + bio.sectors)
    (hin : c.Contains sector) : ¬ reg.Routed own bio := by
  rintro ⟨calls, hreturns, hdue⟩
  have hreturns' : reg.Returns bio [.orig (.other own) bio] :=
    .of_pass fun fuel => eioMakeRequestFn_nothing fuel hl hown
  rw [hreturns.unique hreturns'] at hdue
  have hindex : sector - bio.biSector < bio.mems.length := by
    rw [hbio.length_mems]
    omega
  have hmem : (bio.mems[sector - bio.biSector], sector) ∈ bio.mems.zipIdx bio.biSector := by
    rw [List.mk_mem_zipIdx_iff_le_and_getElem?_sub]
    exact ⟨hlo, List.getElem?_eq_getElem hindex⟩
  have hserved := List.mem_map_of_mem
    (f := fun p => reg.due bio.disk own p.2 p.1) hmem
  rw [← hdue] at hserved
  simp [Call.services, Registry.due, h.owner_eq hc hin] at hserved

/-- Every bio on a disk with cached devices is served sector by sector as it is due,
unless it begins and ends outside all of them and encloses one. -/
theorem routed_iff (bio : BlkBio) (h : DiskOk reg bio.disk own capacity)
    (hbio : bio.Ok capacity) :
    reg.Routed own bio ↔
      (∃ c ∈ reg.onDisk bio.disk,
        c.Contains bio.biSector ∨ c.Contains (bio.biSector + bio.sectors - 1)) ∨
      ∀ c ∈ reg.onDisk bio.disk,
        ¬ (bio.biSector < c.devStartSect ∧ c.devEndSect < bio.biSector + bio.sectors - 1) := by
  have hpos := hbio.pos
  have hrange := hbio.range
  have hcap := h.capacity_lt
  have hlast : bio.lastSector = bio.biSector + bio.sectors - 1 :=
    BlkBio.lastSector_eq hpos (by omega)
  have hfound : reg.found bio = lookupScan bio.disk bio.biSector (bio.biSector + bio.sectors - 1)
      none (reg.onDisk bio.disk) := by rw [Registry.found, hlast]
  rcases h.lookup_cases (s := bio.biSector) (e := bio.biSector + bio.sectors - 1)
      (by omega) (by omega) with
    ⟨c, hc, hl, hs, he⟩ | ⟨hl, c, hc, hin, -⟩ | ⟨⟨origmfn, hl, hown⟩, hfree⟩
  · exact iff_of_true (.of_pass (DiskOk.pass_cache bio h hbio hc (hfound.trans hl) hs he))
      (.inl ⟨c, hc, .inl hs⟩)
  · exact iff_of_true (h.pass_overlap hbio (hfound.trans hl)) (.inl ⟨c, hc, hin⟩)
  · constructor
    · intro hrouted
      refine .inr fun c hc hinside => ?_
      have hcrange := (h.range c hc).1
      exact DiskOk.not_routed hbio h (hfound.trans hl) hown hc c.devStartSect (by omega)
        (by omega) ⟨Nat.le_refl _, hcrange⟩ hrouted
    · rintro (⟨c, hc, hin⟩ | hnone)
      · exact absurd hin (not_or.mpr (hfree c hc))
      · refine .of_pass (DiskOk.pass_nothing bio hbio (hfound.trans hl) hown
        fun c hc x hlo hhi hin => ?_)
        -- a cache that has a sector of the bio but neither its first nor its last lies inside
        obtain ⟨hs, he⟩ := hfree c hc
        obtain ⟨hstart, hend⟩ := hin
        simp only [CacheC.Contains, not_and, Nat.not_le] at hs he
        exact hnone c hc ⟨by omega, by omega⟩

end Disk

/-! ## Two partitions -/

/-- Caches on `sda1`, sectors 64 to 1087, and `sda2`, sectors 2048 to 3071. -/
def twoPartitions : Registry where
  active := [Creation.activated ⟨1, "a", sda1, ssd⟩ .partition (.other 0),
    Creation.activated ⟨2, "b", sda2, ssd⟩ .partition (.other 0)]
  mfn _ := .eio
  checked := []
  deleting := []

theorem diskOk_twoPartitions : DiskOk twoPartitions ⟨8, 0⟩ 0 4096 where
  capacity_lt := by decide
  mfn h := absurd h (by decide)
  origmfn := by decide
  range := by decide
  caches := by
    refine .inr ⟨by decide, List.pairwise_pair.mpr fun sector hin => ?_⟩
    simp only [CacheC.Contains, Creation.activated, sda1, sda2] at hin
    omega

/-- A write of `n` sectors from sector `s` of `sda`. -/
def writeSda (s n : Nat) (hn : 0 < n) : BlkBio where
  biBdev := sda
  biSector := s
  biSize := 512 * n
  biIdx := 0
  biIoVec := [⟨0, 0, 512 * n, by omega, Nat.dvd_mul_right _ _⟩]
  write := true
  discard := false

theorem ok_writeSda {s n : Nat} (hn : 0 < n) (hle : s + n ≤ 4096) :
    (writeSda s n hn).Ok 4096 where
  dvd := Nat.dvd_mul_right _ _
  pos := by simp [writeSda, BlkBio.sectors, hn]
  range := by simpa [writeSda, BlkBio.sectors] using hle
  segs := by simp [writeSda]
  discard := rfl

/-- A write that runs over the end of `sda1`. -/
theorem routed_over_end :
    twoPartitions.Routed 0 (writeSda 1000 200 (by decide)) ∧
      ∃ c ∈ twoPartitions.onDisk ⟨8, 0⟩, c.Contains 1000 := by
  have hin : ∃ c ∈ twoPartitions.onDisk ⟨8, 0⟩, c.Contains 1000 := by decide
  obtain ⟨c, hc, hcont⟩ := hin
  exact ⟨(routed_iff (writeSda 1000 200 (by decide)) diskOk_twoPartitions
    (ok_writeSda (by decide) (by decide))).mpr (.inl ⟨c, hc, .inl hcont⟩), c, hc, hcont⟩

/-- A write over the whole of `sda1`, from before it to behind it, goes to the disk as a
whole: the cache never sees it. -/
theorem enclosing_not_routed :
    (∀ fuel, twoPartitions.eioMakeRequestFn (fuel + 1) (writeSda 32 1200 (by decide)) =
      some [.orig (.other 0) (writeSda 32 1200 (by decide))]) ∧
    (twoPartitions.owner ⟨8, 0⟩ 64).isSome ∧
    ¬ twoPartitions.Routed 0 (writeSda 32 1200 (by decide)) := by
  have hlast : (writeSda 32 1200 (by decide)).lastSector = 1231 := by
    simp [BlkBio.lastSector, BlkBio.sectors, writeSda]
  have hl : lookupScan ⟨8, 0⟩ 32 (writeSda 32 1200 (by decide)).lastSector none
      (twoPartitions.onDisk ⟨8, 0⟩) = .nothing (some (.other 0)) := by
    rw [hlast]
    decide
  have hin : ∃ c ∈ twoPartitions.onDisk ⟨8, 0⟩, c.Contains 64 := by decide
  obtain ⟨c, hc, hcont⟩ := hin
  refine ⟨fun fuel => eioMakeRequestFn_nothing fuel hl rfl, by decide, ?_⟩
  refine DiskOk.not_routed (ok_writeSda (by decide) (by decide)) diskOk_twoPartitions hl rfl hc 64
    (by decide) ?_ hcont
  simp [writeSda, BlkBio.sectors]

/-! ## The disks of the registry -/

/-- The devices of a disk: the whole of it, and partitions that share no sector. -/
structure Table (disk : DevT) (capacity : Nat) (devs : BlockDevice → Prop) : Prop where
  capacity_lt : capacity < 2 ^ 64
  range : ∀ b, devs b → 0 < b.nrSects ∧ b.startSect + b.nrSects ≤ capacity
  whole : ∀ b, devs b → b.wholedisk = true → b.startSect = 0 ∧ b.nrSects = capacity
  disjoint : ∀ b b', devs b → devs b' → b.wholedisk = false → b'.wholedisk = false →
    b.bdDev ≠ b'.bdDev →
    b.startSect + b.nrSects ≤ b'.startSect ∨ b'.startSect + b'.nrSects ≤ b.startSect

section

variable {reg : Registry} {disk : DevT} {own capacity : Nat} {orig : DevT → Mfn}
  {diskOf : DevT → DevT} {devs : BlockDevice → Prop}

/-- The range of an active cache is that of its device. -/
theorem Registry.Inv.range_eq (h : reg.Inv orig) (ht : Table disk capacity devs) {c : CacheC}
    (hc : c ∈ reg.active) (hdev : devs c.diskDev) : c.devStartSect = c.diskDev.startSect ∧
      c.devEndSect + 1 = c.diskDev.startSect + c.diskDev.nrSects := by
  obtain ⟨hpos, hle⟩ := ht.range _ hdev
  have hcap := ht.capacity_lt
  have hsects := h.sects c hc
  have hsum : c.diskDev.startSect + c.diskDev.nrSects + (2 ^ 64 - 1) =
      c.diskDev.startSect + c.diskDev.nrSects - 1 + 2 ^ 64 := by omega
  have hend : c.devEndSect = c.diskDev.startSect + c.diskDev.nrSects - 1 := by
    rw [hsects]
    simp only [Creation.activated]
    rw [hsum, Nat.add_mod_right, Nat.mod_eq_of_lt (by omega)]
  exact ⟨congrArg CacheC.devStartSect hsects, by omega⟩

/-- As long as the registry is in order, the caches of a disk are as the routing needs
them. -/
theorem Registry.Inv.diskOk (h : reg.Inv orig) (ht : Table disk capacity devs)
    (hown : orig disk = .other own) (hdevs : ∀ c ∈ reg.onDisk disk, devs c.diskDev) :
    DiskOk reg disk own capacity where
  capacity_lt := ht.capacity_lt
  mfn hnil := by
    rw [← hown]
    refine h.idle disk fun heio => ?_
    obtain ⟨c, hc, hdisk⟩ := (h.mfn disk).mp heio
    exact List.not_mem_nil (hnil ▸ Registry.mem_onDisk.mpr ⟨hc, hdisk⟩)
  origmfn c hc := by
    obtain ⟨hact, hdisk⟩ := Registry.mem_onDisk.mp hc
    rw [h.origmfn c hact, hdisk, hown]
  range c hc := by
    obtain ⟨hact, -⟩ := Registry.mem_onDisk.mp hc
    obtain ⟨hstart, hend⟩ := h.range_eq ht hact (hdevs c hc)
    obtain ⟨hpos, hle⟩ := ht.range _ (hdevs c hc)
    omega
  caches := by
    by_cases hwhole : ∃ c ∈ reg.onDisk disk, c.devInfo = .wholeDisk
    · obtain ⟨c, hc, hinfo⟩ := hwhole
      obtain ⟨hact, hdisk⟩ := Registry.mem_onDisk.mp hc
      have hw := (h.info c hact).mp hinfo
      obtain ⟨hstart, hend⟩ := h.range_eq ht hact (hdevs c hc)
      obtain ⟨hzero, hcap⟩ := ht.whole _ (hdevs c hc) hw
      refine .inl ⟨c, ?_, hinfo, by omega, by omega⟩
      -- any other cache of the disk would be a partition beside the whole disk
      have hall : ∀ c' ∈ reg.onDisk disk, c' = c := by
        intro c' hc'
        obtain ⟨hact', hdisk'⟩ := Registry.mem_onDisk.mp hc'
        by_contra hne
        have hpart := (h.partitions hact hact' hne (hdisk'.trans hdisk.symm)).2
        simp [hw] at hpart
      have hnodup : (reg.onDisk disk).Nodup := by
        refine List.Nodup.filter _ (List.Nodup.of_map (·.addr) ?_)
        exact (List.nodup_append.mp (List.nodup_append.mp h.addrs).1).1
      have hrep := List.eq_replicate_of_mem hall
      rw [hrep] at hnodup hc ⊢
      have hlen := List.nodup_replicate.mp hnodup
      have hpos : (reg.onDisk disk).length ≠ 0 := (List.mem_replicate.mp hc).1
      rw [show (reg.onDisk disk).length = 1 by omega]
      rfl
    · have hinfo : ∀ c ∈ reg.onDisk disk, c.devInfo = .partition := by
        intro c hc
        cases hi : c.devInfo with
        | partition => rfl
        | wholeDisk => exact absurd ⟨c, hc, hi⟩ hwhole
      have hpart : ∀ c ∈ reg.onDisk disk, c.diskDev.wholedisk = false := by
        intro c hc
        rw [← Bool.not_eq_true, ← h.info c (Registry.mem_onDisk.mp hc).1, hinfo c hc]
        simp
      refine .inr ⟨hinfo, (h.device.filter _).imp_of_mem fun {c c'} hc hc' hne sector hin => ?_⟩
      obtain ⟨hstart, hend⟩ := h.range_eq ht (Registry.mem_onDisk.mp hc).1 (hdevs c hc)
      obtain ⟨hstart', hend'⟩ := h.range_eq ht (Registry.mem_onDisk.mp hc').1 (hdevs c' hc')
      have hdisj := ht.disjoint _ _ (hdevs c hc) (hdevs c' hc') (hpart c hc) (hpart c' hc') hne
      simp only [CacheC.Contains] at hin
      omega

/-- In every state of a run of creations and deletions in which nobody is overtaken, each
disk has one cache on the whole of it or caches on disjoint partitions, and its queue is
hooked as they need it. -/
theorem orderly_disk_ok (horig : ∀ disk, orig disk ≠ .eio)
    (h : Registry.Reachable orig (Registry.Orderly diskOf) reg) (ht : Table disk capacity devs)
    (hown : orig disk = .other own) (hdevs : ∀ c ∈ reg.onDisk disk, devs c.diskDev) :
    DiskOk reg disk own capacity :=
  (Registry.Reachable.inv horig h).diskOk ht hown hdevs

end

theorem orderly_disk_ok_sda : ∃ reg, Registry.Reachable ownMfn (Registry.Orderly sdDisk) reg ∧
    reg.active.map (·.diskDev) = [sda1, sda2] ∧ DiskOk reg ⟨8, 0⟩ 0 4096 := by
  obtain ⟨reg, hreg, hdevs⟩ : ∃ reg, Registry.Reachable ownMfn (Registry.Orderly sdDisk) reg ∧
      reg.active.map (·.diskDev) = [sda1, sda2] :=
    Run.Reach.of_run (fun reg a => decide (reg.Orderly sdDisk a)) (fun _ _ h => of_decide_eq_true h)
      (create ⟨1, "a", sda1, ssd⟩ ++ create ⟨2, "b", sda2, ssd⟩) (by decide +kernel)
  have htable : Table ⟨8, 0⟩ 4096 (· ∈ [sda1, sda2]) := by
    refine ⟨by decide, by decide, by decide, fun b b' hb hb' => ?_⟩
    rcases List.mem_pair.mp hb with rfl | rfl <;>
      rcases List.mem_pair.mp hb' with rfl | rfl <;> decide
  refine ⟨reg, hreg, hdevs, orderly_disk_ok (by simp [ownMfn]) hreg htable rfl fun c hc => ?_⟩
  exact hdevs ▸ List.mem_map_of_mem (Registry.mem_onDisk.mp hc).1

/-! ## Flushes -/

/-- What `eio_map` reads of the state of the cache before it comes to an empty bio. -/
structure Status where
  failed : Bool
  rdonly : Bool
deriving DecidableEq, Repr

/-- What happens to an empty bio. -/
inductive Flush where
  | ssd (dev : BlockDevice)
  | hdd (f : Mfn) (dev : BlockDevice)
  | endio (error : Int)
deriving DecidableEq, Repr

def EPERM : Int := 1
def ENODEV : Int := 19

def CacheC.eioProcessZeroSizeBio (c : CacheC) : List Flush :=
  [.ssd c.cacheDev, .hdd c.origmfn c.diskDev]

/-- `eio_map` of a bio with `bi_size` 0. -/
def CacheC.eioMapEmpty (c : CacheC) (status : Status) (bio : BlkBio) : List Flush :=
  if bio.discard then [.endio 0]
  else if status.rdonly && bio.write then [.endio (-EPERM)]
  else if status.failed then [.endio (-ENODEV)]
  else c.eioProcessZeroSizeBio

/-- The bio is given to `eio_map` of the cache, which sends the flush to both devices. -/
def Registry.FlushesBoth (reg : Registry) (c : CacheC) (status : Status) (bio : BlkBio) : Prop :=
  reg.Returns bio [.map c bio] ∧
    c.eioMapEmpty status bio = [.ssd c.cacheDev, .hdd c.origmfn c.diskDev]

/-- A flush as the block layer issues it: empty, at sector 0. -/
structure BlkBio.IsFlush (bio : BlkBio) : Prop where
  sector : bio.biSector = 0
  size : bio.biSize = 0
  discard : bio.discard = false

section

variable {reg : Registry} {own capacity : Nat} {bio : BlkBio} {c : CacheC}

theorem BlkBio.IsFlush.lastSector (h : bio.IsFlush) : bio.lastSector = 2 ^ 64 - 1 := by
  simp [BlkBio.lastSector, BlkBio.sectors, h.sector, h.size]

/-- A flush of a disk with cached partitions is lost, or goes to the disk alone. -/
theorem DiskOk.flush_partition (h : DiskOk reg bio.disk own capacity)
    (hbio : bio.IsFlush)
    (hinfo : ∀ c ∈ reg.onDisk bio.disk, c.devInfo = .partition) :
    reg.Returns bio [] ∨ reg.Returns bio [.orig (.other own) bio] := by
  have hcap := h.capacity_lt
  rcases lookupScan_cases bio.biSector bio.lastSector (reg.onDisk bio.disk) none
      (.inl rfl) fun c hc => ⟨(Registry.mem_onDisk.mp hc).2, hinfo c hc, h.origmfn c hc⟩ with
    ⟨c, hc, -, -, hend⟩ | ⟨hl, -⟩ | ⟨⟨origmfn, hl, horig⟩, -⟩
  · -- no device reaches to the last of all sectors
    have hrange := (h.range c hc).2
    rw [hbio.lastSector] at hend
    omega
  · refine .inl (.of_pass fun fuel => ?_)
    have hsplit : bio.eioOverlapSplitBio = some [] := by
      simp [BlkBio.eioOverlapSplitBio, BlkBio.sectors, hbio.size, BlkBio.splitLoop]
    exact eioMakeRequestFn_overlap fuel hl hbio.discard hsplit rfl
  · refine .inr (.of_pass fun fuel => eioMakeRequestFn_nothing fuel hl ?_)
    rcases horig with rfl | ⟨hnil, rfl⟩
    · rfl
    · exact h.mfn hnil

theorem DiskOk.flush_whole (h : DiskOk reg bio.disk own capacity)
    (hbio : bio.IsFlush) (hc : c ∈ reg.onDisk bio.disk)
    (hinfo : c.devInfo = .wholeDisk) : reg.Returns bio [.map c bio] := by
  have hone : reg.onDisk bio.disk = [c] := by
    rcases h.caches with ⟨c', hone, -⟩ | ⟨hpart, -⟩
    · rw [hone, List.mem_singleton] at hc
      rw [hone, hc]
    · simp [hpart c hc] at hinfo
  have hl : reg.found bio = .cache c := by
    rw [Registry.found, hone, lookupScan, if_neg (not_not.mpr (Registry.mem_onDisk.mp hc).2),
      if_pos hinfo]
  refine .of_pass fun fuel => ?_
  simp only [Registry.eioMakeRequestFn, reg.lookup_eq, hl]
  rw [if_pos hbio.sector]

/-- A flush issued to a cached device reaches the SSD and the HDD exactly if the device
is a whole disk and the cache neither failed nor closed to writes. -/
theorem flushesBoth_iff (bio : BlkBio) (status : Status)
    (h : DiskOk reg bio.disk own capacity) (hc : c ∈ reg.active)
    (hdev : bio.biBdev = c.diskDev) (hbio : bio.IsFlush) :
    reg.FlushesBoth c status bio ↔
      c.devInfo = .wholeDisk ∧ status.failed = false ∧ (status.rdonly && bio.write) = false := by
  have hdisk : c ∈ reg.onDisk bio.disk :=
    Registry.mem_onDisk.mpr ⟨hc, by rw [BlkBio.disk, hdev]; rfl⟩
  have hmap : c.eioMapEmpty status bio = [.ssd c.cacheDev, .hdd c.origmfn c.diskDev] ↔
      status.failed = false ∧ (status.rdonly && bio.write) = false := by
    cases hf : status.failed <;> cases hr : status.rdonly && bio.write <;>
      simp [CacheC.eioMapEmpty, CacheC.eioProcessZeroSizeBio, hbio.discard, hf, hr]
  rw [Registry.FlushesBoth, hmap]
  refine and_congr_left fun _ => ⟨fun hreturns => ?_, h.flush_whole hbio hdisk⟩
  by_contra hinfo
  have hpart : ∀ c' ∈ reg.onDisk bio.disk, c'.devInfo = .partition := by
    rcases h.caches with ⟨c', hone, hinfo', -⟩ | ⟨hpart, -⟩
    · rw [hone, List.mem_singleton] at hdisk
      exact absurd (hdisk ▸ hinfo') hinfo
    · exact hpart
  rcases h.flush_partition hbio hpart with hlost | horig
  · simpa using hreturns.unique hlost
  · simpa using hreturns.unique horig

end

/-- A flush of a device. -/
def flushOf (dev : BlockDevice) : BlkBio where
  biBdev := dev
  biSector := 0
  biSize := 0
  biIdx := 0
  biIoVec := []
  write := true
  discard := false

/-- A cache on the whole of `sda`. -/
def wholeDisk : Registry where
  active := [wholeSda]
  mfn _ := .eio
  checked := []
  deleting := []

theorem diskOk_wholeDisk : DiskOk wholeDisk ⟨8, 0⟩ 0 4096 where
  capacity_lt := by decide
  mfn h := absurd h (by decide)
  origmfn := by decide
  range := by decide
  caches := .inl ⟨wholeSda, by decide⟩

theorem flushesBoth_wholeDisk : wholeDisk.FlushesBoth wholeSda ⟨false, false⟩ (flushOf sda) :=
  (flushesBoth_iff (flushOf sda) ⟨false, false⟩ diskOk_wholeDisk List.mem_cons_self rfl
    ⟨rfl, rfl, rfl⟩).mpr ⟨rfl, rfl, rfl⟩

/-- A flush of the cached partition `sda1` goes to the function of the disk, past the
cache. -/
theorem partition_not_flushed :
    (∀ fuel, twoPartitions.eioMakeRequestFn (fuel + 1) (flushOf sda1) =
      some [.orig (.other 0) (flushOf sda1)]) ∧
    ∃ c ∈ twoPartitions.active, c.diskDev = sda1 ∧
      ¬ twoPartitions.FlushesBoth c ⟨false, false⟩ (flushOf sda1) := by
  have hlast : (flushOf sda1).lastSector = 2 ^ 64 - 1 := BlkBio.IsFlush.lastSector ⟨rfl, rfl, rfl⟩
  have hl : lookupScan ⟨8, 0⟩ 0 (flushOf sda1).lastSector none
      (twoPartitions.onDisk ⟨8, 0⟩) = .nothing (some (.other 0)) := by
    rw [hlast]
    decide
  have hpass : ∀ fuel, twoPartitions.eioMakeRequestFn (fuel + 1) (flushOf sda1) =
      some [.orig (.other 0) (flushOf sda1)] := fun fuel => eioMakeRequestFn_nothing fuel hl rfl
  refine ⟨hpass, _, List.mem_cons_self, rfl, fun hboth => ?_⟩
  simpa using hboth.1.unique (.of_pass hpass)

end EnhanceIO.Ttc
