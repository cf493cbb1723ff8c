import EnhanceIO.MdIo
import EnhanceIO.WriteBack

/-!
# The metadata pages of one set

`eio_do_mdupdate` and `eio_clean_set` build the on-disk entries of a set in at
most two pages, which both reach through a local array `pg_virt_addr[2]`. The
first then writes, of each page, the sectors between the first and the last one
that holds a pending block; the second writes all of them. Here both are
followed down to the page pointer, the sector bitmaps and the array accesses, and
compared with the places that `eio_md_store` and `eio_md_load` use.
-/

namespace EnhanceIO

open State

/-- `IO_PAGE_COUNT` of the metadata of a set: `mdbvec_count` and `mdpage_count`. -/
def mdPageCount (assoc : Nat) : Nat := (assoc * 16 + 4095) / 4096

/-! ## Filling the pages -/

/-- The variables of the two filling loops. `mdBlocks` is the pointer as page and
entry, `left` the int that counts down to the end of the page, and `addrs` are the
elements of `pg_virt_addr` used so far. -/
structure FillLoop where
  pages : MdMem
  mdBlocks : Nat × Nat
  left : Int
  pindex : Nat
  addrs : List Nat

namespace FillLoop

def init (pages : MdMem) : FillLoop where
  pages := pages
  mdBlocks := (0, 0)
  left := 256
  pindex := 0
  addrs := [0]

/-- One round of a filling loop; `more p` says whether it turns to page `p`. -/
def step (more : Nat → Bool) (st : FillLoop) (entry : MdEntry) : FillLoop :=
  let st :=
    { st with
      pages := Paged.put st.pages st.mdBlocks.1 st.mdBlocks.2 entry
      mdBlocks := (st.mdBlocks.1, st.mdBlocks.2 + 1)
      left := st.left - 1 }
  if st.left = 0 then
    let st := { st with pindex := st.pindex + 1 }
    if more st.pindex then
      { st with mdBlocks := (st.pindex, 0), left := 256, addrs := st.addrs ++ [st.pindex] }
    else st
  else st

end FillLoop

/-- After `n` entries of at least `total`: they are the first entries of the pages,
and the pages turned to are those the loop allows. -/
structure FillInv (more : Nat → Bool) (entry : Nat → MdEntry) (total n : Nat)
    (st : FillLoop) : Prop where
  stored : ∀ k < n, Paged.stream 256 st.pages k = entry k
  pindex : st.pindex = n / 256
  ptr : n < total → st.mdBlocks = (n / 256, n % 256) ∧ st.left = 256 - (n % 256 : Nat)
  addrs : st.addrs = (List.range (n / 256 + 1)).filter more

section
variable {more : Nat → Bool} {entry : Nat → MdEntry} {total n : Nat} {st : FillLoop}

theorem FillInv.init (hmore : more 0 = true) (pages : MdMem) :
    FillInv more entry total 0 (FillLoop.init pages) where
  stored := by simp
  pindex := rfl
  ptr := fun _ => ⟨rfl, rfl⟩
  addrs := by simp [FillLoop.init, hmore]

theorem FillInv.step (h : FillInv more entry total n st) (hn : n < total)
    (hmore : ∀ p, 256 * p < total → more p = true) :
    FillInv more entry total (n + 1) (st.step more (entry n)) := by
  obtain ⟨hptr, hleft⟩ := h.ptr hn
  have hstored : ∀ k < n + 1,
      Paged.stream 256 (Paged.put st.pages (n / 256) (n % 256) (entry n)) k = entry k := by
    intro k hk
    rw [Paged.stream_put (Nat.mod_lt _ (by decide)), Nat.div_add_mod]
    by_cases hlast : k = n
    · rw [if_pos hlast, hlast]
    · rw [if_neg hlast, h.stored k (by omega)]
  simp only [FillLoop.step, hptr, hleft, h.pindex]
  split
  · next hend =>
    have hdiv : (n + 1) / 256 = n / 256 + 1 := by omega
    have hmod : (n + 1) % 256 = 0 := by omega
    have haddrs : (List.range ((n + 1) / 256 + 1)).filter more =
        st.addrs ++ if more (n / 256 + 1) then [n / 256 + 1] else [] := by
      rw [hdiv, List.range_succ, List.filter_append, h.addrs]
      congr 1
      split <;> simp [*]
    split
    · next hturn =>
      refine ⟨hstored, hdiv.symm, fun _ => ⟨by rw [hdiv, hmod], by simp [hmod]⟩, ?_⟩
      rw [haddrs, if_pos hturn]
    · next hturn =>
      refine ⟨hstored, hdiv.symm, fun hlt => ?_, ?_⟩
      · exact absurd (hmore (n / 256 + 1) (by omega)) hturn
      · rw [haddrs, if_neg hturn, List.append_nil]
  · next hend =>
    have hdiv : (n + 1) / 256 = n / 256 := by omega
    have hmod : (n + 1) % 256 = n % 256 + 1 := by omega
    refine ⟨hstored, hdiv.symm, fun _ => ⟨by rw [hdiv, hmod], ?_⟩, ?_⟩
    · simp only [hmod]
      omega
    · rw [hdiv]
      exact h.addrs

theorem FillInv.run (h : FillInv more entry total 0 st)
    (hmore : ∀ p, 256 * p < total → more p = true) :
    ∀ n ≤ total, FillInv more entry total n
      (((List.range n).map entry).foldl (FillLoop.step more) st) := by
  intro n
  induction n with
  | zero => intro _; exact h
  | succ n ih =>
    intro hn
    rw [List.range_succ, List.map_append, List.foldl_append]
    exact (ih (by omega)).step hn hmore

end

/-! ## `eio_do_mdupdate` -/

/-- The entry of a block before the pending list is looked at. -/
def mdupdateFill (block : MdEntry) : MdEntry :=
  ⟨block.dbn,
    if block.state = alreadyDirty then valid ||| dirty else invalid⟩

/-- The pages of `eio_do_mdupdate` while it goes through the pending list, with the
sector bitmaps of the pages. -/
structure MdupdatePages where
  pages : MdMem
  sectorBits : Nat → BitVec 8
  addrs : List Nat

/-- One round of the loop over the pending list, for the block `ebIndex`. -/
def MdupdatePages.mark (startIndex : Nat) (st : MdupdatePages) (ebIndex : Nat) :
    MdupdatePages :=
  let pindex := (ebIndex - startIndex) / 256
  let blkIndex := (ebIndex - startIndex) % 256
  { pages := Paged.put st.pages pindex blkIndex
      { st.pages pindex blkIndex with state := valid ||| dirty }
    sectorBits := Function.update st.sectorBits pindex
      (st.sectorBits pindex ||| 1#8 <<< (blkIndex / 32))
    addrs := st.addrs ++ [pindex] }

/-- `eio_do_mdupdate` up to the submissions: `block i` is what `EIO_DBN_GET` and
`EIO_CACHE_STATE_GET` give for block `i`, `pending` are the blocks of the pending
list, `pages` what the pages happen to hold. -/
def mdupdatePages (assoc set : Nat) (block : Nat → MdEntry) (pending : List Nat)
    (pages : MdMem) : MdupdatePages :=
  let startIndex := set * assoc
  let count := mdPageCount assoc
  let fill := ((List.range assoc).map fun k => mdupdateFill (block (startIndex + k))).foldl
    (FillLoop.step fun p => decide (p < count)) (FillLoop.init pages)
  pending.foldl (MdupdatePages.mark startIndex)
    { pages := fill.pages
      sectorBits := fun _ => 0
      addrs := List.range count ++ fill.addrs ++ [0] }

/-- The two scans over the bitmap of a page, up from bit 0 and down from bit 7. -/
def startbit (bits : BitVec 8) : Option Nat := (List.range 8).find? fun j => bits.getLsbD j
def endbit (bits : BitVec 8) : Option Nat :=
  ((List.range 8).find? fun j => bits.getLsbD (7 - j)).map (7 - ·)

/-- The submission for page `i`, from byte `startbit * 512` of the page on; a page
with no bit is skipped. -/
def mdupdateSubmit (mdStartSect startIndex : Nat) (st : MdupdatePages) (i : Nat) : Option MdIo :=
  (startbit (st.sectorBits i)).bind fun startbit =>
    (endbit (st.sectorBits i)).map fun endbit =>
      { region := ⟨mdStartSect + startIndex / 32 + i * 8 + startbit, endbit - startbit + 1⟩
        data := fun n => st.pages i (32 * startbit + n) }

/-- What `eio_do_mdupdate` submits; `none` if one of its assertions fails. -/
def mdupdateWrites (mdStartSect assoc set : Nat) (block : Nat → MdEntry) (pending : List Nat)
    (pages : MdMem) : Option (List MdIo) :=
  let count := mdPageCount assoc
  let st := mdupdatePages assoc set block pending pages
  let writes := (List.range count).filterMap (mdupdateSubmit mdStartSect (set * assoc) st)
  if ¬ (count ≠ 0 ∧ count ≤ 2) then none
  else if ¬ (assoc = 512 ∨ count = 1) then none
  else if ∃ i ∈ pending, (block i).state ≠ dirtyInprog then none
  else if ∃ p < count, ∃ b ∈ endbit (st.sectorBits p), ¬ (assoc ≠ 128 ∨ b ≤ 3) then none
  else if ∃ w ∈ writes, ¬ (w.region.sector ≤ mdStartSect + (set * assoc + assoc) / 32) then none
  else some writes

/-! ## `eio_clean_set` -/

/-- The entry of a block in the metadata of a clean. -/
def cleanEntry (block : MdEntry) : MdEntry :=
  ⟨block.dbn,
    if block.state = cleanInprog then invalid
    else if block.state = alreadyDirty then valid ||| dirty
    else invalid⟩

/-- The filling loop of `eio_clean_set`, after the pages are mapped. It always turns
to the next page. -/
def cleanPages (assoc set : Nat) (block : Nat → MdEntry) (pages : MdMem) : FillLoop :=
  let fill := ((List.range assoc).map fun k => cleanEntry (block (set * assoc + k))).foldl
    (FillLoop.step fun _ => true) (FillLoop.init pages)
  { fill with addrs := List.range (mdPageCount assoc) ++ fill.addrs }

/-- What `eio_clean_set` submits; `none` if its assertion on the pages fails. -/
def cleanWrite (mdStartSect assoc set : Nat) (block : Nat → MdEntry)
    (pages : MdMem) : Option MdIo :=
  if ¬ mdPageCount assoc ≤ 2 then none
  else
    some
      { region := ⟨mdStartSect + set * assoc / 32, toSector (assoc * 16)⟩
        data := Paged.stream 256 (cleanPages assoc set block pages).pages }

/-- `setup_bio_vecs`: the first of the preallocated vectors to use and their
number. -/
def setupBioVecs (blockIndex blockSize total : Nat) : Option (Nat × Nat) :=
  if blockSize = 4 ∨ blockSize = 8 then some (blockIndex, total)
  else if blockSize = 16 then some (blockIndex * 2, total * 2)
  else none

/-! ## Where the entries go -/

theorem startbit_spec {bits : BitVec 8} {a : Nat} (h : startbit bits = some a) :
    a < 8 ∧ bits.getLsbD a = true ∧ ∀ j, bits.getLsbD j = true → a ≤ j := by
  obtain ⟨ha, hmem, hmin⟩ := List.find?_range_eq_some.mp h
  refine ⟨List.mem_range.mp hmem, ha, fun j hj => ?_⟩
  by_contra hlt
  simpa [hj] using hmin j (by omega)

theorem endbit_spec {bits : BitVec 8} {b : Nat} (h : endbit bits = some b) :
    b < 8 ∧ bits.getLsbD b = true ∧ ∀ j < 8, bits.getLsbD j = true → j ≤ b := by
  obtain ⟨k, hk, rfl⟩ := Option.map_eq_some_iff.mp h
  obtain ⟨hbit, hmem, hmin⟩ := List.find?_range_eq_some.mp hk
  refine ⟨by omega, hbit, fun j hj hset => ?_⟩
  by_contra hlt
  have hnot := hmin (7 - j) (by omega)
  rw [show 7 - (7 - j) = j by omega, hset] at hnot
  exact absurd hnot (by decide)

theorem startbit_of_bit {bits : BitVec 8} {j : Nat} (hj : j < 8) (h : bits.getLsbD j = true) :
    ∃ a, startbit bits = some a := by
  rw [← Option.isSome_iff_exists, startbit, List.find?_isSome]
  exact ⟨j, List.mem_range.mpr hj, h⟩

theorem endbit_of_bit {bits : BitVec 8} {j : Nat} (hj : j < 8) (h : bits.getLsbD j = true) :
    ∃ b, endbit bits = some b := by
  rw [← Option.isSome_iff_exists, endbit, Option.isSome_map, List.find?_isSome]
  refine ⟨7 - j, List.mem_range.mpr (by omega), ?_⟩
  rw [show 7 - (7 - j) = j by omega]
  exact h

section
variable {startIndex : Nat} {st : MdupdatePages}

/-- Going through the pending list sets the bit of the sector of each block on it,
and no other. -/
theorem MdupdatePages.mark_bits (pending : List Nat) {p q : Nat} (hq : q < 8) :
    ((pending.foldl (mark startIndex) st).sectorBits p).getLsbD q = true ↔
      (st.sectorBits p).getLsbD q = true ∨
        ∃ i ∈ pending, (i - startIndex) / 256 = p ∧ (i - startIndex) % 256 / 32 = q := by
  induction pending generalizing st with
  | nil => simp
  | cons i pending ih =>
    have hbit : ((st.mark startIndex i).sectorBits p).getLsbD q = true ↔
        (st.sectorBits p).getLsbD q = true ∨
          ((i - startIndex) / 256 = p ∧ (i - startIndex) % 256 / 32 = q) := by
      by_cases hp : (i - startIndex) / 256 = p
      · subst hp
        simp only [mark, Function.update_self, BitVec.getLsbD_or, Bool.or_eq_true, true_and]
        refine or_congr_right ?_
        simp only [BitVec.getLsbD_shiftLeft, hq, decide_true, Bool.true_and, BitVec.getLsbD_one,
          Bool.and_eq_true, Bool.not_eq_true', decide_eq_false_iff_not, decide_eq_true_eq]
        omega
      · simp [mark, Function.update_of_ne (Ne.symm hp), hp]
    rw [List.foldl_cons, ih, hbit]
    simp only [List.mem_cons, exists_eq_or_imp]
    tauto

/-- The entries of the blocks on the list become dirty, the others stay. -/
theorem MdupdatePages.mark_pages (pending : List Nat) (k : Nat) :
    Paged.stream 256 (pending.foldl (mark startIndex) st).pages k =
      if ∃ i ∈ pending, i - startIndex = k then
        { Paged.stream 256 st.pages k with state := valid ||| dirty }
      else Paged.stream 256 st.pages k := by
  induction pending generalizing st with
  | nil => simp
  | cons i pending ih =>
    have hput : Paged.stream 256 (st.mark startIndex i).pages k =
        if i - startIndex = k then
          { Paged.stream 256 st.pages k with state := valid ||| dirty }
        else Paged.stream 256 st.pages k := by
      simp only [mark]
      rw [Paged.stream_put (Nat.mod_lt _ (by decide)), Nat.div_add_mod]
      by_cases hk : i - startIndex = k
      · rw [if_pos hk, if_pos hk.symm, ← hk]
        rfl
      · rw [if_neg hk, if_neg (Ne.symm hk)]
    rw [List.foldl_cons, ih, hput]
    by_cases hk : i - startIndex = k <;>
      by_cases hrest : ∃ j ∈ pending, j - startIndex = k <;> simp [hk, hrest]

theorem MdupdatePages.mark_addrs (pending : List Nat) (a : Nat) :
    a ∈ (pending.foldl (mark startIndex) st).addrs ↔
      a ∈ st.addrs ∨ ∃ i ∈ pending, (i - startIndex) / 256 = a := by
  induction pending generalizing st with
  | nil => simp
  | cons i pending ih =>
    rw [List.foldl_cons, ih]
    simp only [mark, List.mem_append, List.mem_cons, exists_eq_or_imp]
    tauto

end

/-- The entry `eio_do_mdupdate` makes for block `i`. -/
def mdupdateEntry (block : Nat → MdEntry) (pending : List Nat) (i : Nat) : MdEntry :=
  ⟨(block i).dbn,
    if (block i).state = alreadyDirty ∨ i ∈ pending then valid ||| dirty
    else invalid⟩

/-- The transfers stay within the sectors of the blocks from `lo` to `hi`, and carry
the entry of such a block to its own place. -/
structure AtHome (mdStartSect lo hi : Nat) (entry : Nat → MdEntry) (writes : List MdIo) :
    Prop where
  within : ∀ w ∈ writes, ∀ x, w.region.Has x →
    ∃ i, lo ≤ i ∧ i < hi ∧ x = mdSectorOf mdStartSect i
  placed : ∀ w ∈ writes, ∀ i, lo ≤ i → i < hi → w.region.Has (mdSectorOf mdStartSect i) →
    w.entryAt (mdSectorOf mdStartSect i) (mdByteOf i) = entry i

/-- One of the transfers has the entry of block `i`. -/
def Carried (mdStartSect : Nat) (writes : List MdIo) (i : Nat) : Prop :=
  ∃ w ∈ writes, w.region.Has (mdSectorOf mdStartSect i)

section
variable {mdStartSect assoc set : Nat} {block : Nat → MdEntry} {pending : List Nat}
  {pages : MdMem}

theorem mdPageCount_lt {p : Nat} (h : 256 * p < assoc) : p < mdPageCount assoc := by
  simp only [mdPageCount]
  omega

theorem mdupdateFill_inv (set : Nat) (block : Nat → MdEntry) (pages : MdMem) (hpos : 0 < assoc) :
    FillInv (fun p => decide (p < mdPageCount assoc))
      (fun k => mdupdateFill (block (set * assoc + k))) assoc assoc
      (((List.range assoc).map fun k => mdupdateFill (block (set * assoc + k))).foldl
        (FillLoop.step fun p => decide (p < mdPageCount assoc)) (FillLoop.init pages)) := by
  have hmore : ∀ p, 256 * p < assoc → decide (p < mdPageCount assoc) = true := fun p hp =>
    decide_eq_true (mdPageCount_lt hp)
  exact (FillInv.init (hmore 0 (by omega)) pages).run hmore assoc (Nat.le_refl _)

/-- The pages before the submissions hold the entry of every block of the set. -/
theorem mdupdatePages_stream (block : Nat → MdEntry) (pages : MdMem) {k : Nat} (hk : k < assoc)
    (hpending : ∀ i ∈ pending, set * assoc ≤ i) :
    Paged.stream 256 (mdupdatePages assoc set block pending pages).pages k =
      mdupdateEntry block pending (set * assoc + k) := by
  have hmem : (∃ i ∈ pending, i - set * assoc = k) ↔ set * assoc + k ∈ pending := by
    constructor
    · rintro ⟨i, hi, rfl⟩
      rwa [Nat.add_sub_cancel' (hpending i hi)]
    · exact fun h => ⟨_, h, Nat.add_sub_cancel_left _ _⟩
  have hfill := (mdupdateFill_inv set block pages (by omega)).stored k hk
  simp only [mdupdatePages, MdupdatePages.mark_pages]
  rw [hfill]
  simp only [hmem, mdupdateEntry, mdupdateFill]
  by_cases hp : set * assoc + k ∈ pending <;> simp [hp]

theorem mdupdatePages_bits (block : Nat → MdEntry) (pages : MdMem) {p q : Nat} (hq : q < 8) :
    ((mdupdatePages assoc set block pending pages).sectorBits p).getLsbD q = true ↔
      ∃ i ∈ pending, (i - set * assoc) / 256 = p ∧ (i - set * assoc) % 256 / 32 = q := by
  simp [mdupdatePages, MdupdatePages.mark_bits pending hq]

/-- A submission is a run of sectors of one page, from one with a pending block to
another. -/
theorem mdupdateSubmit_spec {p : Nat} {w : MdIo}
    (h : mdupdateSubmit mdStartSect (set * assoc) (mdupdatePages assoc set block pending pages) p =
      some w) :
    ∃ a b, a ≤ b ∧ b < 8 ∧
      w.region = ⟨mdStartSect + set * assoc / 32 + p * 8 + a, b - a + 1⟩ ∧
      (∀ n, w.data n = (mdupdatePages assoc set block pending pages).pages p (32 * a + n)) ∧
      (∃ i ∈ pending, (i - set * assoc) / 256 = p ∧ (i - set * assoc) % 256 / 32 = a) ∧
      ∃ i ∈ pending, (i - set * assoc) / 256 = p ∧ (i - set * assoc) % 256 / 32 = b := by
  obtain ⟨a, ha, h⟩ := Option.bind_eq_some_iff.mp h
  obtain ⟨b, hb, rfl⟩ := Option.map_eq_some_iff.mp h
  obtain ⟨ha8, habit, -⟩ := startbit_spec ha
  obtain ⟨hb8, hbbit, hmax⟩ := endbit_spec hb
  exact ⟨a, b, hmax a ha8 habit, hb8, rfl, fun _ => rfl,
    (mdupdatePages_bits block pages ha8).mp habit,
    (mdupdatePages_bits block pages hb8).mp hbbit⟩

theorem mdupdateSubmit_of_mem (mdStartSect : Nat) (block : Nat → MdEntry)
    (pages : MdMem) {i : Nat} (hi : i ∈ pending) :
    ∃ w a b, mdupdateSubmit mdStartSect (set * assoc)
        (mdupdatePages assoc set block pending pages) ((i - set * assoc) / 256) = some w ∧
      w.region = ⟨mdStartSect + set * assoc / 32 + (i - set * assoc) / 256 * 8 + a, b - a + 1⟩ ∧
      a ≤ (i - set * assoc) % 256 / 32 ∧ (i - set * assoc) % 256 / 32 ≤ b := by
  have hbit := (mdupdatePages_bits block pages (q := (i - set * assoc) % 256 / 32)
    (by omega)).mpr ⟨i, hi, rfl, rfl⟩
  obtain ⟨a, ha⟩ := startbit_of_bit (by omega) hbit
  obtain ⟨b, hb⟩ := endbit_of_bit (by omega) hbit
  rw [mdupdateSubmit, ha, Option.bind_some, hb]
  exact ⟨_, a, b, rfl, rfl, (startbit_spec ha).2.2 _ hbit, (endbit_spec hb).2.2 _ (by omega) hbit⟩

/-- `eio_do_mdupdate` for a list of blocks of the set that are being dirtied. -/
theorem mdupdateWrites_home (h32 : 32 ∣ assoc)
    (hpending : ∀ i ∈ pending, set * assoc ≤ i ∧ i < set * assoc + assoc) {writes : List MdIo}
    (h : mdupdateWrites mdStartSect assoc set block pending pages = some writes) :
    AtHome mdStartSect (set * assoc) (set * assoc + assoc) (mdupdateEntry block pending) writes ∧
      ∀ i ∈ pending, Carried mdStartSect writes i := by
  obtain ⟨m, hm⟩ : 32 ∣ set * assoc := Dvd.dvd.mul_left h32 set
  obtain ⟨c, hc⟩ := h32
  simp only [mdupdateWrites, Option.ite_none_left_eq_some, Option.some.injEq] at h
  obtain ⟨-, -, -, -, -, rfl⟩ := h
  refine ⟨⟨?_, ?_⟩, ?_⟩
  · intro w hw x hx
    obtain ⟨p, -, hsub⟩ := List.mem_filterMap.mp hw
    obtain ⟨a, b, hab, hb8, hregion, -, -, i, hi, hip, hib⟩ := mdupdateSubmit_spec hsub
    have hin := hpending i hi
    rw [hregion] at hx
    simp only [IoRegion.Has] at hx
    refine ⟨32 * (x - mdStartSect), ?_, ?_, ?_⟩
    · omega
    · omega
    · simp only [mdSectorOf]
      omega
  · intro w hw i hlo hhi hx
    obtain ⟨p, -, hsub⟩ := List.mem_filterMap.mp hw
    obtain ⟨a, b, hab, hb8, hregion, hdata, -, -⟩ := mdupdateSubmit_spec hsub
    rw [hregion] at hx
    simp only [IoRegion.Has, mdSectorOf] at hx
    -- the entry is at the same distance from the start of the page as in the set
    have hpos : (512 * (mdSectorOf mdStartSect i -
        (mdStartSect + set * assoc / 32 + p * 8 + a)) + mdByteOf i) / 16 =
        (i - set * assoc) % 256 - 32 * a := by
      simp only [mdSectorOf, mdByteOf]
      omega
    have hstream := mdupdatePages_stream block pages (k := i - set * assoc) (by omega) fun j hj =>
      (hpending j hj).1
    rw [Nat.add_sub_cancel' hlo] at hstream
    rw [MdIo.entryAt, hregion, hpos, hdata, ← hstream, Paged.stream]
    congr 1 <;> omega
  · intro i hi
    have hin := hpending i hi
    obtain ⟨w, a, b, hsub, hregion, hmin, hmax⟩ := mdupdateSubmit_of_mem mdStartSect block pages hi
    refine ⟨w, List.mem_filterMap.mpr ⟨_, List.mem_range.mpr (mdPageCount_lt (by omega)), hsub⟩, ?_⟩
    rw [hregion]
    simp only [IoRegion.Has, mdSectorOf]
    omega

/-- The assertions of `eio_do_mdupdate` hold for such a list when the metadata of a
set fits its pages. -/
theorem mdupdateWrites_isSome (mdStartSect : Nat) (block : Nat → MdEntry)
    (pages : MdMem) (hpos : 0 < assoc) (hassoc : assoc = 512 ∨ assoc ≤ 256)
    (hpending : ∀ i ∈ pending, set * assoc ≤ i ∧ i < set * assoc + assoc ∧
      (block i).state = dirtyInprog) :
    (mdupdateWrites mdStartSect assoc set block pending pages).isSome = true := by
  have hcount : mdPageCount assoc = if assoc = 512 then 2 else 1 := by
    simp only [mdPageCount]
    split <;> omega
  have h1 : mdPageCount assoc ≠ 0 ∧ mdPageCount assoc ≤ 2 := by
    rw [hcount]
    split <;> decide
  have h2 : assoc = 512 ∨ mdPageCount assoc = 1 := by
    rw [hcount]
    by_cases h : assoc = 512 <;> simp [h]
  have h3 : ¬ ∃ i ∈ pending, (block i).state ≠ dirtyInprog := by
    rintro ⟨i, hi, hne⟩
    exact hne (hpending i hi).2.2
  have h4 : ¬ ∃ p < mdPageCount assoc,
      ∃ b ∈ endbit ((mdupdatePages assoc set block pending pages).sectorBits p),
        ¬ (assoc ≠ 128 ∨ b ≤ 3) := by
    rintro ⟨p, -, b, hb, hne⟩
    obtain ⟨hb8, hbit, -⟩ := endbit_spec hb
    obtain ⟨i, hi, -, hib⟩ := (mdupdatePages_bits block pages hb8).mp hbit
    have hin := hpending i hi
    omega
  have h5 : ¬ ∃ w ∈ (List.range (mdPageCount assoc)).filterMap
      (mdupdateSubmit mdStartSect (set * assoc) (mdupdatePages assoc set block pending pages)),
        ¬ (w.region.sector ≤ mdStartSect + (set * assoc + assoc) / 32) := by
    rintro ⟨w, hw, hne⟩
    obtain ⟨p, -, hsub⟩ := List.mem_filterMap.mp hw
    obtain ⟨a, b, hab, hb8, hregion, -, -, i, hi, hip, hib⟩ := mdupdateSubmit_spec hsub
    have hin := hpending i hi
    rw [hregion] at hne
    simp only at hne
    omega
  simp only [mdupdateWrites, if_neg (not_not.mpr h1), if_neg (not_not.mpr h2), if_neg h3, if_neg h4,
    if_neg h5, Option.isSome_some]

theorem cleanFill_inv (assoc set : Nat) (block : Nat → MdEntry) (pages : MdMem) :
    FillInv (fun _ => true) (fun k => cleanEntry (block (set * assoc + k))) assoc assoc
      (((List.range assoc).map fun k => cleanEntry (block (set * assoc + k))).foldl
        (FillLoop.step fun _ => true) (FillLoop.init pages)) :=
  (FillInv.init rfl pages).run (fun _ _ => rfl) assoc (Nat.le_refl _)

/-- `eio_clean_set` writes the metadata of the whole set. -/
theorem cleanWrite_home (h32 : 32 ∣ assoc) {w : MdIo}
    (h : cleanWrite mdStartSect assoc set block pages = some w) :
    AtHome mdStartSect (set * assoc) (set * assoc + assoc) (fun i => cleanEntry (block i)) [w] ∧
      ∀ i, set * assoc ≤ i → i < set * assoc + assoc → Carried mdStartSect [w] i := by
  obtain ⟨m, hm⟩ : 32 ∣ set * assoc := Dvd.dvd.mul_left h32 set
  obtain ⟨c, hc⟩ := h32
  simp only [cleanWrite, Option.ite_none_left_eq_some, Option.some.injEq] at h
  obtain ⟨-, rfl⟩ := h
  refine ⟨⟨?_, ?_⟩, ?_⟩
  · intro w hw x hx
    obtain rfl := List.mem_singleton.mp hw
    simp only [IoRegion.Has, toSector] at hx
    refine ⟨32 * (x - mdStartSect), ?_, ?_, ?_⟩
    · omega
    · omega
    · simp only [mdSectorOf]
      omega
  · intro w hw i hlo hhi hx
    obtain rfl := List.mem_singleton.mp hw
    have hpos : (512 * (mdSectorOf mdStartSect i - (mdStartSect + set * assoc / 32)) +
        mdByteOf i) / 16 = i - set * assoc := by
      simp only [mdSectorOf, mdByteOf]
      omega
    have hstored := (cleanFill_inv assoc set block pages).stored (i - set * assoc) (by omega)
    rw [Nat.add_sub_cancel' hlo] at hstored
    rw [MdIo.entryAt]
    simp only
    rw [hpos]
    exact hstored
  · intro i hlo hhi
    refine ⟨_, List.mem_singleton.mpr rfl, ?_⟩
    simp only [IoRegion.Has, mdSectorOf, toSector]
    omega

theorem WrittenOut.home {n : Nat} {entry : Nat → MdEntry} {writes : List MdIo}
    (h : WrittenOut mdStartSect entry n (mdStartSect + (n + 31) / 32) writes) :
    AtHome mdStartSect 0 n entry writes ∧ ∀ i < n, Carried mdStartSect writes i := by
  refine ⟨⟨fun w hw x hx => ?_, fun w hw i _ hi hx => h.placed w hw i hi hx⟩, fun i hi => ?_⟩
  · obtain ⟨hlo, hhi⟩ := h.within w hw x hx
    refine ⟨32 * (x - mdStartSect), Nat.zero_le _, by omega, ?_⟩
    simp only [mdSectorOf]
    omega
  · refine h.covered _ ?_ ?_ <;> simp only [mdSectorOf] <;> omega

end

theorem Geom.assoc_dvd (g : Geom) (h : 32 ≤ g.assoc) : 32 ∣ g.assoc := by
  rw [assoc, show 32 = 2 ^ 5 from rfl, Nat.pow_le_pow_iff_right (by decide)] at h
  exact Nat.pow_dvd_pow 2 h

theorem Geom.assoc_eq_or_le (g : Geom) (h : g.assoc ≤ 512) : g.assoc = 512 ∨ g.assoc ≤ 256 := by
  rw [assoc, show 512 = 2 ^ 9 from rfl, Nat.pow_le_pow_iff_right (by decide)] at h
  rcases Nat.lt_or_eq_of_le h with hlt | heq
  · exact .inr (Nat.pow_le_pow_right (by decide) (Nat.le_of_lt_succ hlt))
  · exact .inl (by rw [assoc, heq]; rfl)

/-- **One place for an entry.** Whatever the blocks hold, `eio_do_mdupdate` (for any
pending list of the set), `eio_clean_set`, `eio_md_store` and `eio_md_create` write
the entry of block `i` at byte `(i % 32) * 16` of sector `md_start_sect + i / 32`. The
first two write no sector of another set; the first writes every pending entry, the
second all entries of the set, the last two those of all blocks; and `eio_md_load` takes
each entry from that same place. -/
theorem entry_places (g : Geom) (h32 : 32 ≤ g.assoc) (h512 : g.assoc ≤ 512) (md : Meta)
    (mdStartSect set : Nat) (pending : List Nat)
    (hpending : ∀ i ∈ pending, set * g.assoc ≤ i ∧ i < set * g.assoc + g.assoc ∧
      md.stateGet g i = dirtyInprog)
    (pages : MdMem) (nrPages : Nat) (hn : 1 ≤ nrPages) :
    (∃ writes, mdupdateWrites mdStartSect g.assoc set (md.block g) pending pages = some writes ∧
      AtHome mdStartSect (set * g.assoc) (set * g.assoc + g.assoc)
        (mdupdateEntry (md.block g) pending) writes ∧
      ∀ i ∈ pending, Carried mdStartSect writes i) ∧
    (∃ w, cleanWrite mdStartSect g.assoc set (md.block g) pages = some w ∧
      AtHome mdStartSect (set * g.assoc) (set * g.assoc + g.assoc)
        (fun i => cleanEntry (md.block g i)) [w] ∧
      ∀ i, set * g.assoc ≤ i → i < set * g.assoc + g.assoc → Carried mdStartSect [w] i) ∧
    (AtHome mdStartSect 0 g.size (fun i => storeEntry (md.block g i))
        (mdStoreWrites g nrPages mdStartSect pages md) ∧
      ∀ i < g.size, Carried mdStartSect (mdStoreWrites g nrPages mdStartSect pages md) i) ∧
    (AtHome mdStartSect 0 g.size
        (fun i => storeEntry
          (((List.range g.size).foldl (fun md i => md.invalidateMd g i) md).block g i))
        (mdCreateWrites g nrPages mdStartSect pages md) ∧
      ∀ i < g.size, Carried mdStartSect (mdCreateWrites g nrPages mdStartSect pages md) i) ∧
    ∀ (dev : MdDev) (cleanShutdown : Bool) (md₀ : Meta),
      (mdReadIn g cleanShutdown nrPages mdStartSect dev g.size md₀).map (fun st => st.md) =
        (loadUpTo g cleanShutdown (fun i => dev (mdSectorOf mdStartSect i) (mdByteOf i)) md₀
          g.size).map (fun x => x.1) := by
  have hdvd : 32 ∣ g.assoc := g.assoc_dvd h32
  have hpages : g.assoc = 512 ∨ g.assoc ≤ 256 := g.assoc_eq_or_le h512
  refine ⟨?_, ?_, ?_, ?_, ?_⟩
  · obtain ⟨writes, hw⟩ := Option.isSome_iff_exists.mp
      (mdupdateWrites_isSome mdStartSect (md.block g) pages (by omega) hpages hpending)
    obtain ⟨hhome, hcover⟩ := mdupdateWrites_home hdvd
      (fun i hi => ⟨(hpending i hi).1, (hpending i hi).2.1⟩) hw
    exact ⟨writes, hw, hhome, hcover⟩
  · have hcount : mdPageCount g.assoc ≤ 2 := by
      simp only [mdPageCount]
      omega
    have hw : cleanWrite mdStartSect g.assoc set (md.block g) pages = some _ :=
      if_neg (not_not.mpr hcount)
    exact ⟨_, hw, cleanWrite_home hdvd hw⟩
  · exact (mdWriteOut_spec hn g.size pages).1.home
  · exact (mdWriteOut_spec hn g.size pages).1.home
  · intro dev cleanShutdown md₀
    have hread := (mdReadIn_spec g cleanShutdown dev md₀ mdStartSect hn g.size).1
    rw [← hread, Option.map_map]
    rfl

/-- A write-back cache of four sets whose metadata takes two pages. -/
def twoPageCache : Geom :=
  .ofSizes .wb 3 9 4 (2 ^ 21) (by decide)

/-- Blocks 515 and 900, of the second set, are being dirtied. -/
def twoPageBlocks : Meta :=
  ((Meta.create twoPageCache).stateSet twoPageCache 515 dirtyInprog).stateSet twoPageCache
    900 dirtyInprog

theorem entry_places_two_pages :
    (∀ i ∈ [515, 900], twoPageBlocks.stateGet twoPageCache i = dirtyInprog) ∧
      ∃ writes, mdupdateWrites 145 512 1 (twoPageBlocks.block twoPageCache) [515, 900]
          (fun _ _ => ⟨0, 0⟩) = some writes ∧
        ∀ i ∈ [515, 900], Carried 145 writes i := by
  have hpending : ∀ i ∈ [515, 900], 1 * twoPageCache.assoc ≤ i ∧
      i < 1 * twoPageCache.assoc + twoPageCache.assoc ∧
      twoPageBlocks.stateGet twoPageCache i = dirtyInprog := by decide +kernel
  obtain ⟨⟨writes, hw, -, hcover⟩, -⟩ := entry_places twoPageCache (by decide) (by decide)
    twoPageBlocks 145 1 [515, 900] hpending (fun _ _ => ⟨0, 0⟩) 16 (by decide)
  exact ⟨fun i hi => (hpending i hi).2.2, writes, hw, hcover⟩

/-! ## The geometries the write-back code is made for -/

/-- What `eio_do_mdupdate` and `eio_clean_set` rely on for a set, whatever its blocks
and the pending list hold: their assertions, the bounds of `pg_virt_addr`, and
metadata that starts on a sector boundary. -/
structure SetSupported (l : Layout) (set : Nat) : Prop where
  update : ∀ (block : Nat → MdEntry) (pending : List Nat) (pages : MdMem),
    (∀ i ∈ pending, set * l.assoc ≤ i ∧ i < set * l.assoc + l.assoc ∧
      (block i).state = dirtyInprog) →
    (mdupdateWrites l.mdStartSect l.assoc set block pending pages).isSome = true
  updateAddrs : ∀ (block : Nat → MdEntry) (pending : List Nat) (pages : MdMem),
    (∀ i ∈ pending, set * l.assoc ≤ i ∧ i < set * l.assoc + l.assoc) →
    ∀ a ∈ (mdupdatePages l.assoc set block pending pages).addrs, a < 2
  clean : ∀ (block : Nat → MdEntry) (pages : MdMem),
    (cleanWrite l.mdStartSect l.assoc set block pages).isSome = true
  cleanAddrs : ∀ (block : Nat → MdEntry) (pages : MdMem),
    ∀ a ∈ (cleanPages l.assoc set block pages).addrs, a < 2
  bvecs : ∀ blockIndex total, (setupBioVecs blockIndex l.blockSize total).isSome = true
  aligned : set * l.assoc * 16 % 512 = 0

section
variable {assoc set : Nat} {block : Nat → MdEntry} {pending : List Nat}
  {pages : MdMem}

/-- The elements of `pg_virt_addr` that `eio_do_mdupdate` uses. -/
theorem mdupdatePages_addrs (hpos : 0 < assoc)
    (hpending : ∀ i ∈ pending, set * assoc ≤ i ∧ i < set * assoc + assoc) {a : Nat}
    (ha : a ∈ (mdupdatePages assoc set block pending pages).addrs) : a < mdPageCount assoc := by
  have hfill := (mdupdateFill_inv set block pages hpos).addrs
  simp only [mdupdatePages, MdupdatePages.mark_addrs, hfill, List.mem_append, List.mem_range,
    List.mem_filter, decide_eq_true_eq, List.mem_singleton] at ha
  rcases ha with ((ha | ⟨-, ha⟩) | rfl) | ⟨i, hi, rfl⟩
  · exact ha
  · exact ha
  · exact mdPageCount_lt (by omega)
  · have hin := hpending i hi
    exact mdPageCount_lt (by omega)

/-- The elements of `pg_virt_addr` that `eio_clean_set` uses: with full pages one
more than there are pages. -/
theorem cleanPages_addrs {a : Nat} :
    a ∈ (cleanPages assoc set block pages).addrs ↔ a < mdPageCount assoc ∨ a ≤ assoc / 256 := by
  have hfill := (cleanFill_inv assoc set block pages).addrs
  simp only [cleanPages, List.mem_append, List.mem_range]
  rw [hfill]
  simp only [List.mem_filter, List.mem_range, Nat.lt_succ_iff, and_true]

end

theorem setupBioVecs_isSome {blockIndex blockSize total : Nat} :
    (setupBioVecs blockIndex blockSize total).isSome = true ↔
      blockSize = 4 ∨ blockSize = 8 ∨ blockSize = 16 := by
  simp only [setupBioVecs]
  split
  · next h => simp; tauto
  · next h =>
    split
    · next h' => simp [h']
    · next h' => simp; tauto

/-- **The supported geometries.** Of the caches that `eio_cache_create` accepts, the
write-back code is right for those with blocks of 2, 4 or 8 KiB, at most 256 blocks
to a set and, unless there is only one set, at least 32. -/
theorem geometry_supported_iff (c : CreateArgs) (l : Layout) (h : c.create = some l) :
    (∀ set < l.size / l.assoc, SetSupported l set) ↔
      l.size = 0 ∨ ((l.blockSize = 4 ∨ l.blockSize = 8 ∨ l.blockSize = 16) ∧ l.assoc ≤ 256 ∧
        (32 ≤ l.assoc ∨ l.size = l.assoc)) := by
  obtain ⟨a, numSets, hassoc, hsize⟩ : ∃ a numSets, l.assoc = 2 ^ a ∧
      l.size = numSets * l.assoc := by
    obtain ⟨b, a, sectors, _, hab, hsect, _, _, hmd⟩ := c.create_spec h
    obtain ⟨numSets, _, _, _, heq⟩ := mdCreate_spec hab hsect hmd
    exact ⟨a, numSets, by rw [heq], by rw [heq]⟩
  have hpos : 0 < l.assoc := hassoc ▸ Nat.two_pow_pos a
  have hsets : l.size / l.assoc = numSets := by rw [hsize, Nat.mul_div_cancel _ hpos]
  rw [hsets]
  constructor
  · intro hsup
    rcases Nat.eq_zero_or_pos numSets with rfl | hnum
    · exact .inl (by rw [hsize, Nat.zero_mul])
    refine .inr ⟨setupBioVecs_isSome.mp ((hsup 0 hnum).bvecs 0 1), ?_, ?_⟩
    · -- page `assoc / 256` is turned to
      have haddr := (hsup 0 hnum).cleanAddrs (fun _ => ⟨0, 0⟩) (fun _ _ => ⟨0, 0⟩) (l.assoc / 256)
        (cleanPages_addrs.mpr (.inr (Nat.le_refl _)))
      have hlt : 2 ^ a < 2 ^ 9 := by omega
      rw [Nat.pow_lt_pow_iff_right (by decide)] at hlt
      rw [hassoc]
      exact Nat.pow_le_pow_right (by decide) (Nat.le_of_lt_succ hlt)
    · by_cases hone : numSets = 1
      · exact .inr (by rw [hsize, hone, Nat.one_mul])
      · have haligned := (hsup 1 (by omega)).aligned
        left
        omega
  · rintro (hzero | ⟨hblock, hle, hmin⟩) set hset
    · have : numSets = 0 := by
        rw [hsize] at hzero
        exact (Nat.mul_eq_zero.mp hzero).resolve_right hpos.ne'
      omega
    · have hcount : mdPageCount l.assoc = 1 := by
        simp only [mdPageCount]
        omega
      refine ⟨?_, ?_, ?_, ?_, fun _ _ => setupBioVecs_isSome.mpr hblock, ?_⟩
      · intro block pending pages hpending
        exact mdupdateWrites_isSome _ block pages hpos (.inr hle) hpending
      · intro block pending pages hpending a ha
        have := mdupdatePages_addrs hpos hpending ha
        omega
      · intro block pages
        simp [cleanWrite, hcount]
      · intro block pages a ha
        have := cleanPages_addrs.mp ha
        omega
      · rcases hmin with hmin | hone
        · have h5 : 5 ≤ a := by
            rw [hassoc, show 32 = 2 ^ 5 from rfl, Nat.pow_le_pow_iff_right (by decide)] at hmin
            exact hmin
          obtain ⟨m, hm⟩ : 32 ∣ set * l.assoc := by
            rw [hassoc]
            exact Dvd.dvd.mul_left (Nat.pow_dvd_pow 2 h5) set
          omega
        · have hnum : numSets = 1 := by
            rw [hone] at hsize
            exact (Nat.eq_of_mul_eq_mul_right hpos
              (by omega : 1 * l.assoc = numSets * l.assoc)).symm
          have : set = 0 := by omega
          rw [this]
          simp

/-- The default geometry, with 512 blocks to a set, makes `eio_clean_set` read
`pg_virt_addr[2]`. -/
theorem default_geometry_unsupported :
    defaultArgs.create = some defaultLayout ∧ defaultLayout.mode = .wb ∧
      ¬ ∀ set < defaultLayout.size / defaultLayout.assoc, SetSupported defaultLayout set := by
  refine ⟨by decide +kernel, rfl, fun hsup => ?_⟩
  have haddr := (hsup 0 (by decide)).cleanAddrs (fun _ => ⟨0, 0⟩) (fun _ _ => ⟨0, 0⟩) 2
    (cleanPages_addrs.mpr (.inr (by decide)))
  exact absurd haddr (by decide)

/-- The same request with 256 blocks to a set. -/
def halfArgs : CreateArgs := { defaultArgs with assoc := 256 }

def halfLayout : Layout :=
  { defaultLayout with assoc := 256, mdSectors := 81761, size := 2610944 }

theorem half_geometry_supported :
    halfArgs.create = some halfLayout ∧
      ∀ set < halfLayout.size / halfLayout.assoc, SetSupported halfLayout set := by
  have hcreate : halfArgs.create = some halfLayout := by decide +kernel
  exact ⟨hcreate, (geometry_supported_iff halfArgs halfLayout hcreate).mpr
    (.inr (by decide))⟩

/-! ## The pages and the state of the driver

`Sys` keeps of a metadata update the image and the bits of the sectors; these are
the pages and the transfers of the loops above. -/

section
variable {g : Geom} {s : Sys} {set : Nat} {pending : List EbId}

/-- The blocks of a pending list. -/
def Sys.pendingBlocks (s : Sys) (pending : List EbId) : List Nat :=
  pending.map fun e => (s.ebio e).index.getD 0

theorem Sys.mdImage_eq
    (hpending : ∀ i ∈ s.pendingBlocks pending, set * g.assoc ≤ i) {pos : Nat}
    (hpos : pos < g.assoc) :
    s.mdImage g set pending pos =
      mdupdateEntry (s.md.block g) (s.pendingBlocks pending) (set * g.assoc + pos) := by
  have hmem : (∃ e ∈ pending, s.mdPos g set e = pos) ↔
      set * g.assoc + pos ∈ s.pendingBlocks pending := by
    simp only [pendingBlocks, List.mem_map] at hpending ⊢
    constructor
    · rintro ⟨e, he, rfl⟩
      refine ⟨e, he, ?_⟩
      have := hpending _ ⟨e, he, rfl⟩
      simp only [mdPos, setStart]
      omega
    · rintro ⟨e, he, heq⟩
      refine ⟨e, he, ?_⟩
      simp only [mdPos, setStart, heq]
      omega
  simp only [mdImage, setStart, if_neg (Nat.not_le.mpr hpos), mdupdateEntry, hmem]
  rfl

/-- The sectors between `startbit` and `endbit` of the run model are the ones that
are submitted. -/
theorem Sys.mdupdate_region {mdStartSect : Nat} {pages : MdMem} {writes : List MdIo} {r : MdReq}
    (hbits : ∀ page sector, r.bits page sector = decide (∃ e ∈ pending,
      s.mdPos g set e / 256 = page ∧ s.mdPos g set e % 256 / 32 = sector))
    (hpending : ∀ i ∈ s.pendingBlocks pending, set * g.assoc ≤ i ∧ i < set * g.assoc + g.assoc)
    (h : mdupdateWrites mdStartSect g.assoc set (s.md.block g) (s.pendingBlocks pending) pages =
      some writes) {p q : Nat} (hq : q < 8) :
    (∃ w ∈ writes, w.region.Has (mdStartSect + set * g.assoc / 32 + p * 8 + q)) ↔
      r.inRegion p q = true := by
  have hbit : ∀ page sector, r.bits page sector = true ↔ ∃ i ∈ s.pendingBlocks pending,
      (i - set * g.assoc) / 256 = page ∧ (i - set * g.assoc) % 256 / 32 = sector := by
    intro page sector
    rw [hbits, decide_eq_true_iff]
    simp only [pendingBlocks, List.mem_map, exists_exists_and_eq_and, mdPos, setStart]
  simp only [mdupdateWrites, Option.ite_none_left_eq_some, Option.some.injEq] at h
  obtain ⟨-, -, -, -, -, rfl⟩ := h
  simp only [MdReq.inRegion, Bool.and_eq_true, List.any_eq_true, List.mem_range,
    List.mem_range'_1, hbit]
  constructor
  · rintro ⟨w, hw, hx⟩
    obtain ⟨p', -, hsub⟩ := List.mem_filterMap.mp hw
    obtain ⟨a, b, hab, hb8, hregion, -, ⟨i, hi, hip, hia⟩, j, hj, hjp, hjb⟩ :=
      mdupdateSubmit_spec hsub
    rw [hregion] at hx
    simp only [IoRegion.Has] at hx
    obtain rfl : p' = p := by omega
    exact ⟨⟨a, by omega, i, hi, hip, hia⟩, b, by omega, j, hj, hjp, hjb⟩
  · rintro ⟨⟨a, ha, i, hi, hip, hia⟩, b, hb, j, hj, hjp, hjb⟩
    have hin := hpending i hi
    obtain ⟨w, a', b', hsub, hregion, hmin, -⟩ := mdupdateSubmit_of_mem mdStartSect
      (s.md.block g) pages hi
    obtain ⟨w', a'', b'', hsub', hregion', -, hmax⟩ := mdupdateSubmit_of_mem mdStartSect
      (s.md.block g) pages hj
    -- both blocks are in the page, so it is the same submission
    rw [hip] at hsub hregion
    rw [hjp, hsub] at hsub'
    rw [hjp] at hregion'
    cases hsub'
    refine ⟨w, List.mem_filterMap.mpr ⟨p, List.mem_range.mpr (mdPageCount_lt (by omega)), hsub⟩, ?_⟩
    rw [hregion] at hregion'
    simp only [IoRegion.mk.injEq] at hregion'
    rw [hregion]
    simp only [IoRegion.Has]
    omega

end

end EnhanceIO
