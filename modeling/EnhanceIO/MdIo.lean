import EnhanceIO.Compressed
import EnhanceIO.Create
import EnhanceIO.Types
import EnhanceIO.Lib.Paged

/-!
# Writing all metadata out and reading it back

The loop of `eio_md_store`, which `eio_md_create` repeats, and the loop of
`eio_md_load`. Entries of 16 bytes go through a buffer of `nr_pages` pages, 256
entries to a page and 32 to a sector; a full buffer, and at the end a partly
filled one, is one transfer. What the chunks add up to does not depend on the
buffer: entry `i` is at byte `(i % 32) * 16` of sector `md_start_sect + i / 32`.
-/

namespace EnhanceIO

/-! ## Transfers of metadata -/

/-- One transfer between the cache device and memory: `data n` is the entry at
byte `16 * n` of the memory side. -/
structure MdIo where
  region : IoRegion
  data : Nat → MdEntry

/-- Contents of the metadata area: the entry at a byte offset of a sector. -/
abbrev MdDev := Nat → Nat → MdEntry

/-- Contents of the metadata pages: the entry at a place of a page. -/
abbrev MdMem := Nat → Nat → MdEntry

def IoRegion.Has (r : IoRegion) (sector : Nat) : Prop :=
  r.sector ≤ sector ∧ sector < r.sector + r.count

instance (r : IoRegion) (sector : Nat) : Decidable (r.Has sector) :=
  inferInstanceAs (Decidable (_ ∧ _))

namespace MdIo

/-- What the transfer has for a byte of a sector. -/
def entryAt (w : MdIo) (sector byte : Nat) : MdEntry :=
  w.data ((512 * (sector - w.region.sector) + byte) / 16)

/-- The device after a write. -/
def apply (dev : MdDev) (w : MdIo) : MdDev := fun sector byte =>
  if w.region.Has sector then w.entryAt sector byte else dev sector byte

end MdIo

/-- The sector and the byte at which the entry of block `i` belongs. -/
def mdSectorOf (mdStartSect i : Nat) : Nat := mdStartSect + i / 32
def mdByteOf (i : Nat) : Nat := i % 32 * 16

/-! ## `eio_md_store` -/

/-- The variables of the loop of `eio_md_store`; `nextPtr` is given as page and
entry, `writes` are the transfers so far. -/
structure StoreLoop where
  pages : MdMem
  nextPtr : Nat × Nat
  j : Nat
  pageIndex : Nat
  slotsWritten : Nat
  sector : Nat
  sectorsWritten : Nat
  writes : List MdIo

namespace StoreLoop

def init (mdStartSect : Nat) (pages : MdMem) : StoreLoop where
  pages := pages
  nextPtr := (0, 0)
  j := 256
  pageIndex := 0
  slotsWritten := 0
  sector := mdStartSect
  sectorsWritten := 0
  writes := []

/-- Submit `count` sectors from the pages. -/
def submit (st : StoreLoop) (count : Nat) : StoreLoop :=
  { st with
    sectorsWritten := st.sectorsWritten + count
    writes := st.writes ++ [⟨⟨st.sector, count⟩, Paged.stream 256 st.pages⟩]
    sector := st.sector + count }

/-- The end of a page, after `page_index++`: a full buffer is written, and the
pointer goes to the next page. `nr_pages` is at most `MD_MAX_NR_PAGES`, so the
cast of the size of the buffer to an int changes nothing. -/
def turnPage (nrPages : Nat) (st : StoreLoop) : StoreLoop :=
  let st :=
    if st.slotsWritten = 256 * nrPages then
      { st.submit (st.slotsWritten / 32) with slotsWritten := 0, pageIndex := 0 }
    else st
  { st with nextPtr := (st.pageIndex, 0), j := 256 }

/-- One round of the loop. -/
def step (nrPages : Nat) (st : StoreLoop) (entry : MdEntry) : StoreLoop :=
  let st :=
    { st with
      pages := Paged.put st.pages st.nextPtr.1 st.nextPtr.2 entry
      nextPtr := (st.nextPtr.1, st.nextPtr.2 + 1)
      slotsWritten := st.slotsWritten + 1
      j := st.j - 1 }
  if st.j = 0 then turnPage nrPages { st with pageIndex := st.pageIndex + 1 } else st

/-- After the loop: what is left in the pages is written, the rest of the last
page zeroed. -/
def finish (st : StoreLoop) : StoreLoop :=
  if st.nextPtr ≠ (0, 0) then
    let count := st.slotsWritten / 32 + if st.slotsWritten % 32 ≠ 0 then 1 else 0
    let st :=
      if st.nextPtr ≠ (st.pageIndex, 0) then
        { st with
          pages := Function.update st.pages st.pageIndex fun q =>
            if st.slotsWritten % 256 ≤ q then ⟨0, 0⟩ else st.pages st.pageIndex q }
      else st
    st.submit count
  else st

end StoreLoop

/-- The metadata that `eio_md_store` and `eio_md_create` write out for `size`
blocks with the given entries. -/
def mdWriteOut (nrPages mdStartSect size : Nat) (pages : MdMem)
    (entry : Nat → MdEntry) : StoreLoop :=
  (((List.range size).map entry).foldl (StoreLoop.step nrPages)
    (StoreLoop.init mdStartSect pages)).finish

/-- What `EIO_DBN_GET` and `EIO_CACHE_STATE_GET` give for block `i`. -/
def Meta.block (g : Geom) (md : Meta) (i : Nat) : MdEntry := ⟨md.dbnGet g i, md.stateGet g i⟩

/-- The entry `eio_md_store` and `eio_md_create` make for a block: the flags of I/O
under way are masked. -/
def storeEntry (block : MdEntry) : MdEntry :=
  ⟨block.dbn, block.state &&& (State.invalid ||| State.valid ||| State.dirty)⟩

/-- The metadata writes of `eio_md_store`. -/
def mdStoreWrites (g : Geom) (nrPages mdStartSect : Nat) (pages : MdMem) (md : Meta) : List MdIo :=
  (mdWriteOut nrPages mdStartSect g.size pages fun i => storeEntry (md.block g i)).writes

/-- The metadata writes of a cold `eio_md_create`, which invalidates every block
first. The function gives up at the first write that fails, so these are all it may
issue. -/
def mdCreateWrites (g : Geom) (nrPages mdStartSect : Nat) (pages : MdMem) (md : Meta) : List MdIo :=
  mdStoreWrites g nrPages mdStartSect pages
    ((List.range g.size).foldl (fun md i => md.invalidateMd g i) md)

/-! ## What has been written -/

/-- The transfers put every entry before `n` in its place, and touch no sector but
those up to `upto`. -/
structure WrittenOut (mdStartSect : Nat) (entry : Nat → MdEntry) (n upto : Nat)
    (writes : List MdIo) : Prop where
  within : ∀ w ∈ writes, ∀ x, w.region.Has x → mdStartSect ≤ x ∧ x < upto
  covered : ∀ x, mdStartSect ≤ x → x < upto → ∃ w ∈ writes, w.region.Has x
  placed : ∀ w ∈ writes, ∀ i < n, w.region.Has (mdSectorOf mdStartSect i) →
    w.entryAt (mdSectorOf mdStartSect i) (mdByteOf i) = entry i

/-- After `n` entries: `32 * (sector - mdStartSect)` of them are on the device,
the others are the first `slotsWritten` entries of the pages. -/
structure StoreInv (nrPages mdStartSect : Nat) (entry : Nat → MdEntry) (n : Nat)
    (st : StoreLoop) : Prop where
  le : mdStartSect ≤ st.sector
  total : 32 * (st.sector - mdStartSect) + st.slotsWritten = n
  room : st.slotsWritten < 256 * nrPages
  ptr : st.nextPtr.1 = st.pageIndex ∧ st.nextPtr.2 < 256 ∧
    st.slotsWritten = 256 * st.pageIndex + st.nextPtr.2 ∧ st.j = 256 - st.nextPtr.2
  count : st.sectorsWritten = st.sector - mdStartSect
  buffered : ∀ k < st.slotsWritten, Paged.stream 256 st.pages k =
    entry (32 * (st.sector - mdStartSect) + k)
  written : WrittenOut mdStartSect entry (32 * (st.sector - mdStartSect)) st.sector st.writes

section
variable {nrPages mdStartSect n : Nat} {entry : Nat → MdEntry} {st : StoreLoop}

theorem StoreInv.init (hn : 1 ≤ nrPages) (pages : MdMem) :
    StoreInv nrPages mdStartSect entry 0 (StoreLoop.init mdStartSect pages) where
  le := Nat.le_refl _
  total := by simp [StoreLoop.init]
  room := by simp only [StoreLoop.init]; omega
  ptr := by simp [StoreLoop.init]
  count := by simp [StoreLoop.init]
  buffered := by simp [StoreLoop.init]
  written := by
    refine ⟨by simp [StoreLoop.init], fun x h1 h2 => ?_, by simp [StoreLoop.init]⟩
    simp only [StoreLoop.init] at h2
    omega

/-- One more transfer from the pages, of `count` sectors that hold the entries
from the sector on up to `n`. -/
theorem WrittenOut.submit {sector : Nat} {writes : List MdIo} {data : Nat → MdEntry}
    (count : Nat)
    (h : WrittenOut mdStartSect entry (32 * (sector - mdStartSect)) sector writes)
    (hle : mdStartSect ≤ sector)
    (hdata : ∀ k, 32 * (sector - mdStartSect) + k < n →
      data k = entry (32 * (sector - mdStartSect) + k)) :
    WrittenOut mdStartSect entry n (sector + count) (writes ++ [⟨⟨sector, count⟩, data⟩]) where
  within := by
    intro w hw x hx
    rcases List.mem_append.mp hw with hw | hw
    · have := h.within w hw x hx
      omega
    · obtain rfl := List.mem_singleton.mp hw
      simp only [IoRegion.Has] at hx
      omega
  covered := by
    intro x hlo hhi
    by_cases hx : x < sector
    · obtain ⟨w, hw, hhas⟩ := h.covered x hlo hx
      exact ⟨w, List.mem_append_left _ hw, hhas⟩
    · exact ⟨_, List.mem_append_right _ (List.mem_singleton_self _), by
        simp only [IoRegion.Has]; omega⟩
  placed := by
    intro w hw i hi hhas
    rcases List.mem_append.mp hw with hw | hw
    · refine h.placed w hw i ?_ hhas
      have := h.within w hw _ hhas
      simp only [mdSectorOf] at this
      omega
    · obtain rfl := List.mem_singleton.mp hw
      simp only [IoRegion.Has, mdSectorOf] at hhas
      have hk : (512 * (mdSectorOf mdStartSect i - sector) + mdByteOf i) / 16 =
          i - 32 * (sector - mdStartSect) := by
        simp only [mdSectorOf, mdByteOf]
        omega
      have hback : 32 * (sector - mdStartSect) + (i - 32 * (sector - mdStartSect)) = i := by omega
      simp only [MdIo.entryAt, hk]
      rw [hdata _ (by omega), hback]

/-- The first half of a round: the entry is in the pages. -/
theorem StoreInv.put (h : StoreInv nrPages mdStartSect entry n st) :
    ∀ k < st.slotsWritten + 1,
      Paged.stream 256 (Paged.put st.pages st.nextPtr.1 st.nextPtr.2 (entry n)) k =
        entry (32 * (st.sector - mdStartSect) + k) := by
  obtain ⟨hpage, hlt, hslots, -⟩ := h.ptr
  have htotal := h.total
  intro k hk
  rw [Paged.stream_put hlt, hpage]
  by_cases hlast : k = st.slotsWritten
  · rw [if_pos (hlast.trans hslots)]
    congr 1
    omega
  · rw [if_neg (by omega), h.buffered k (by omega)]

theorem StoreInv.step (h : StoreInv nrPages mdStartSect entry n st) :
    StoreInv nrPages mdStartSect entry (n + 1) (st.step nrPages (entry n)) := by
  obtain ⟨hpage, hlt, hslots, hj⟩ := h.ptr
  have hle := h.le
  have htotal := h.total
  have hroom := h.room
  have hcount := h.count
  have hput := h.put
  simp only [StoreLoop.step]
  split
  · next hj0 =>
    simp only [StoreLoop.turnPage]
    split
    · next hfull =>
      -- the buffer is full: all of it goes to the device
      have hmore : 32 * (st.sector + (st.slotsWritten + 1) / 32 - mdStartSect) = n + 1 := by
        omega
      have hnew := h.written.submit (n := n + 1) ((st.slotsWritten + 1) / 32)
        hle fun k hk => hput k (by omega)
      simp only [StoreLoop.submit]
      refine ⟨by simp only; omega, by simp only; omega, by simp only; omega, by simp,
        by simp only; omega, by simp, ?_⟩
      simp only
      rw [hmore]
      exact hnew
    · next hfull =>
      refine ⟨hle, by simp only; omega, by simp only at hfull ⊢; omega,
        ⟨rfl, by simp, by simp only; omega, rfl⟩, hcount, hput, h.written⟩
  · next hj0 =>
    refine ⟨hle, by simp only; omega, by simp only at hj0 ⊢; omega,
      ⟨hpage, by simp only at hj0 ⊢; omega, by simp only; omega, by simp only; omega⟩, hcount,
      hput, h.written⟩

theorem StoreInv.run (h : StoreInv nrPages mdStartSect entry 0 st) :
    ∀ n, StoreInv nrPages mdStartSect entry n
      (((List.range n).map entry).foldl (StoreLoop.step nrPages) st) := by
  intro n
  induction n with
  | zero => simpa using h
  | succ n ih =>
    rw [List.range_succ, List.map_append, List.foldl_append]
    exact ih.step

theorem StoreInv.finish (h : StoreInv nrPages mdStartSect entry n st) :
    WrittenOut mdStartSect entry n (mdStartSect + (n + 31) / 32) st.finish.writes ∧
      st.finish.sectorsWritten = (n + 31) / 32 := by
  obtain ⟨hpage, hlt, hslots, -⟩ := h.ptr
  have hle := h.le
  have htotal := h.total
  have hcount := h.count
  simp only [StoreLoop.finish]
  split
  · next hne =>
    have hcnt : st.sector + (st.slotsWritten / 32 + if st.slotsWritten % 32 ≠ 0 then 1 else 0) =
        mdStartSect + (n + 31) / 32 := by
      split <;> omega
    -- zeroing the end of the last page leaves the entries alone
    have hbuf : ∀ k < st.slotsWritten, Paged.stream 256
        (if st.nextPtr ≠ (st.pageIndex, 0) then
          Function.update st.pages st.pageIndex fun q =>
            if st.slotsWritten % 256 ≤ q then ⟨0, 0⟩ else st.pages st.pageIndex q
        else st.pages) k = entry (32 * (st.sector - mdStartSect) + k) := by
      intro k hk
      rw [← h.buffered k hk]
      split
      · simp only [Paged.stream]
        by_cases hp : k / 256 = st.pageIndex
        · rw [hp, Function.update_self, if_neg (by omega)]
        · rw [Function.update_of_ne hp]
      · rfl
    have hnew := h.written.submit (n := n)
      (st.slotsWritten / 32 + if st.slotsWritten % 32 ≠ 0 then 1 else 0) hle
      fun k hk => hbuf k (by omega)
    rw [hcnt] at hnew
    simp only [StoreLoop.submit]
    split
    · next hzero =>
      rw [if_pos hzero] at hnew
      exact ⟨hnew, by simp only; omega⟩
    · next hzero =>
      rw [if_neg hzero] at hnew
      exact ⟨hnew, by omega⟩
  · next heq =>
    have hnil : st.nextPtr = (0, 0) := by simpa using heq
    have hzero : st.slotsWritten = 0 := by simp [hslots, ← hpage, hnil]
    have hn : n = 32 * (st.sector - mdStartSect) := by omega
    have hend : mdStartSect + (n + 31) / 32 = st.sector := by omega
    rw [hend, hn]
    exact ⟨h.written, by omega⟩

/-- Writing out puts every entry in its place and writes no other sector, whatever
the size of the buffer. -/
theorem mdWriteOut_spec (hn : 1 ≤ nrPages) (size : Nat) (pages : MdMem) :
    WrittenOut mdStartSect entry size (mdStartSect + (size + 31) / 32)
        (mdWriteOut nrPages mdStartSect size pages entry).writes ∧
      (mdWriteOut nrPages mdStartSect size pages entry).sectorsWritten = (size + 31) / 32 :=
  ((StoreInv.init hn pages).run size).finish

end

/-! ## `eio_md_load` -/

/-- The innermost statements of `eio_md_load`, for one entry. After an unclean
shutdown only dirty blocks are loaded. `none` is a failed assertion, or an index
that does not fit the int `i`. -/
def loadEntry (g : Geom) (cleanShutdown : Bool) (md : Meta) (i : Nat) (entry : MdEntry) :
    Option Meta :=
  if 2 ^ 31 ≤ i then none
  else if cleanShutdown ∨ entry.state.has State.dirty then
    let c := entry.state.off State.queued
    if c.has State.valid ∧ c.has State.invalid then none
    else if ¬ g.dbnFits entry.dbn then none
    else some ((md.stateSet g i c).dbnSet g i entry.dbn)
  else some (md.invalidateMd g i)

/-- The variables of the loop over the slots of one transfer. -/
structure LoadSlots where
  nextPtr : Nat × Nat
  pageIndex : Nat
  i : Nat
  dirtyLoaded : Nat
  md : Meta

/-- One slot. -/
def LoadSlots.step (g : Geom) (cleanShutdown : Bool) (pages : MdMem)
    (st : LoadSlots) (j : Nat) : Option LoadSlots :=
  let st :=
    if j % 256 = 0 then { st with nextPtr := (st.pageIndex, 0), pageIndex := st.pageIndex + 1 }
    else st
  let entry := pages st.nextPtr.1 st.nextPtr.2
  (loadEntry g cleanShutdown st.md st.i entry).map fun md =>
    { st with
      md := md
      dirtyLoaded := st.dirtyLoaded + if entry.state.has State.dirty then 1 else 0
      nextPtr := (st.nextPtr.1, st.nextPtr.2 + 1)
      i := st.i + 1 }

/-- The variables of the loop of `eio_md_load`; `reads` are the transfers so far. -/
structure LoadLoop where
  sector : Nat
  i : Nat
  dirtyLoaded : Nat
  sectorsRead : Nat
  md : Meta
  reads : List IoRegion

/-- The loop of `eio_md_load`: `size` is what is left to read. -/
def LoadLoop.run (g : Geom) (cleanShutdown : Bool) (nrPages : Nat) (dev : MdDev) :
    Nat → Nat → LoadLoop → Option LoadLoop
  | _, 0, st => some st
  | 0, _ + 1, _ => none
  | fuel + 1, size + 1, st =>
    let slotsRead := min (size + 1) (256 * nrPages)
    let count :=
      if slotsRead % 32 ≠ 0 then 1 + slotsRead / 32 else slotsRead / 32
    let pages := fun p q =>
      dev (st.sector + (256 * p + q) / 32) ((256 * p + q) % 32 * 16)
    let slots : LoadSlots :=
      { nextPtr := (0, 0), pageIndex := 0, i := st.i, dirtyLoaded := st.dirtyLoaded, md := st.md }
    ((List.range slotsRead).foldlM (LoadSlots.step g cleanShutdown pages) slots).bind fun slots =>
      LoadLoop.run g cleanShutdown nrPages dev fuel (size + 1 - slotsRead)
        { sector := st.sector + count
          i := slots.i
          dirtyLoaded := slots.dirtyLoaded
          sectorsRead := st.sectorsRead + count
          md := slots.md
          reads := st.reads ++ [⟨st.sector, count⟩] }

/-- All of the loop, from the metadata `md` that memory happens to hold. -/
def mdReadIn (g : Geom) (cleanShutdown : Bool) (nrPages mdStartSect : Nat) (dev : MdDev)
    (size : Nat) (md : Meta) : Option LoadLoop :=
  LoadLoop.run g cleanShutdown nrPages dev size size
    { sector := mdStartSect, i := 0, dirtyLoaded := 0, sectorsRead := 0, md := md, reads := [] }

/-- Loading the entries of the blocks before `n` from their places, one by one. -/
def loadUpTo (g : Geom) (cleanShutdown : Bool) (entry : Nat → MdEntry) (md : Meta) :
    Nat → Option (Meta × Nat)
  | 0 => some (md, 0)
  | n + 1 =>
    (loadUpTo g cleanShutdown entry md n).bind fun x =>
      (loadEntry g cleanShutdown x.1 n (entry n)).map fun md =>
        (md, x.2 + if (entry n).state.has State.dirty then 1 else 0)

section
variable {g : Geom} {clean : Bool} {entry : Nat → MdEntry} {md₀ : Meta} {dev : MdDev}
  {mdStartSect nrPages : Nat}

theorem loadUpTo_none {n : Nat} (h : loadUpTo g clean entry md₀ n = none) (k : Nat) :
    loadUpTo g clean entry md₀ (n + k) = none := by
  induction k with
  | zero => exact h
  | succ k ih => rw [← Nat.add_assoc, loadUpTo, ih, Option.bind_none]

/-- The variables after `k` slots of a transfer that starts at block `i`. -/
def LoadSlots.after (i k : Nat) (x : Meta × Nat) : LoadSlots where
  nextPtr := if k = 0 then (0, 0) else ((k - 1) / 256, (k - 1) % 256 + 1)
  pageIndex := (k + 255) / 256
  i := i + k
  dirtyLoaded := x.2
  md := x.1

/-- The pointer of the next slot, turned to a new page if need be. -/
theorem LoadSlots.turn (i k : Nat) (x : Meta × Nat) :
    (if k % 256 = 0 then
      { after i k x with
        nextPtr := ((after i k x).pageIndex, 0), pageIndex := (after i k x).pageIndex + 1 }
    else after i k x) =
      { after i k x with nextPtr := (k / 256, k % 256), pageIndex := k / 256 + 1 } := by
  split
  · next h0 =>
    have h1 : (k + 255) / 256 = k / 256 := by omega
    simp only [after, h1, h0]
  · next h0 =>
    have h1 : (k + 255) / 256 = k / 256 + 1 := by omega
    have h2 : (k - 1) / 256 = k / 256 ∧ (k - 1) % 256 + 1 = k % 256 := by omega
    have hpos : k ≠ 0 := by omega
    simp only [after, h1, h2.1, h2.2, if_neg hpos]

/-- The loop over the slots of a transfer takes the entries from their places. -/
theorem LoadSlots.run (pages : MdMem) (i : Nat) (x : Meta × Nat) (total : Nat)
    (hstart : loadUpTo g clean entry md₀ i = some x)
    (hpages : ∀ k < total, Paged.stream 256 pages k = entry (i + k)) :
    ∀ k ≤ total, (List.range k).foldlM (LoadSlots.step g clean pages) (after i 0 x) =
      (loadUpTo g clean entry md₀ (i + k)).map (after i k) := by
  intro k
  induction k with
  | zero => intro _; simp [hstart]
  | succ k ih =>
    intro hk
    rw [List.range_succ, List.foldlM_append, ih (by omega), ← Nat.add_assoc, loadUpTo]
    cases hy : loadUpTo g clean entry md₀ (i + k) with
    | none => rfl
    | some y =>
      have hentry : pages (k / 256) (k % 256) = entry (i + k) := hpages k (by omega)
      simp only [Option.bind_eq_bind, Option.map_some, Option.bind_some, List.foldlM_cons,
        List.foldlM_nil, LoadSlots.step, turn, hentry, Option.map_map]
      cases hload : loadEntry g clean y.1 (i + k) (entry (i + k)) with
      | none =>
        have hload' : loadEntry g clean (after i k y).md (after i k y).i (entry (i + k)) =
            none := hload
        rw [hload']
        rfl
      | some md =>
        have hload' : loadEntry g clean (after i k y).md (after i k y).i (entry (i + k)) =
            some md := hload
        have hpage : k / 256 + 1 = (k + 1 + 255) / 256 := by omega
        rw [hload']
        simp only [Option.map_some, Function.comp_apply, after, hpage, Nat.add_sub_cancel,
          Nat.add_assoc, if_neg (Nat.succ_ne_zero k)]
        rfl

/-- The transfers of the loop read each sector from `mdStartSect` to `upto`, and no
other. -/
structure ReadIn (mdStartSect upto : Nat) (reads : List IoRegion) : Prop where
  within : ∀ r ∈ reads, ∀ x, r.Has x → mdStartSect ≤ x ∧ x < upto
  covered : ∀ x, mdStartSect ≤ x → x < upto → ∃ r ∈ reads, r.Has x

theorem ReadIn.read {sector count : Nat} {reads : List IoRegion}
    (h : ReadIn mdStartSect sector reads) (hle : mdStartSect ≤ sector) :
    ReadIn mdStartSect (sector + count) (reads ++ [⟨sector, count⟩]) where
  within := by
    intro r hr x hx
    rcases List.mem_append.mp hr with hr | hr
    · have := h.within r hr x hx
      omega
    · obtain rfl := List.mem_singleton.mp hr
      simp only [IoRegion.Has] at hx
      omega
  covered := by
    intro x hlo hhi
    by_cases hx : x < sector
    · obtain ⟨r, hr, hhas⟩ := h.covered x hlo hx
      exact ⟨r, List.mem_append_left _ hr, hhas⟩
    · exact ⟨_, List.mem_append_right _ (List.mem_singleton_self _), by
        simp only [IoRegion.Has]; omega⟩

/-- The loop from any round on: `st.i` entries are loaded, `size` are left. -/
theorem LoadLoop.run_spec (clean : Bool) (dev : MdDev) (md₀ : Meta) (mdStartSect : Nat)
    (hn : 1 ≤ nrPages) :
    ∀ (fuel size : Nat) (st : LoadLoop), size ≤ fuel →
    (0 < size → st.i = 32 * (st.sector - mdStartSect)) → mdStartSect ≤ st.sector →
    st.sector = mdStartSect + (st.i + 31) / 32 → st.sectorsRead = st.sector - mdStartSect →
    ReadIn mdStartSect st.sector st.reads →
    loadUpTo g clean (fun i => dev (mdSectorOf mdStartSect i) (mdByteOf i)) md₀ st.i =
      some (st.md, st.dirtyLoaded) →
    (LoadLoop.run g clean nrPages dev fuel size st).map (fun st' => (st'.md, st'.dirtyLoaded)) =
        loadUpTo g clean (fun i => dev (mdSectorOf mdStartSect i) (mdByteOf i)) md₀
          (st.i + size) ∧
      ∀ st', LoadLoop.run g clean nrPages dev fuel size st = some st' →
        st'.sectorsRead = (st.i + size + 31) / 32 ∧
          ReadIn mdStartSect (mdStartSect + (st.i + size + 31) / 32) st'.reads := by
  intro fuel
  induction fuel with
  | zero =>
    intro size st hfuel _ _ hsect hread hreads hload
    obtain rfl : size = 0 := by omega
    refine ⟨hload.symm, ?_⟩
    rintro st' ⟨⟩
    rw [Nat.add_zero, ← hsect]
    exact ⟨by omega, hreads⟩
  | succ fuel ih =>
    intro size st hfuel hdone hle hsect hread hreads hload
    cases size with
    | zero =>
      refine ⟨hload.symm, ?_⟩
      rintro st' ⟨⟩
      rw [Nat.add_zero, ← hsect]
      exact ⟨by omega, hreads⟩
    | succ size =>
      have hi := hdone (by omega)
      obtain ⟨slotsRead, hslots⟩ : ∃ k, k = min (size + 1) (256 * nrPages) := ⟨_, rfl⟩
      obtain ⟨count, hcount⟩ : ∃ c, c =
          if slotsRead % 32 ≠ 0 then 1 + slotsRead / 32 else slotsRead / 32 := ⟨_, rfl⟩
      have hcount' : count = (slotsRead + 31) / 32 := by
        rw [hcount]
        split <;> omega
      have hleft : st.i + slotsRead + (size + 1 - slotsRead) = st.i + (size + 1) := by omega
      -- what the transfer brings are the entries of the next blocks
      have hrun := LoadSlots.run
        (fun p q => dev (st.sector + (256 * p + q) / 32) ((256 * p + q) % 32 * 16))
        st.i (st.md, st.dirtyLoaded) slotsRead hload (fun k hk => by
          simp only [Paged.stream, mdSectorOf, mdByteOf, Nat.div_add_mod]
          congr 1 <;> omega) slotsRead (Nat.le_refl _)
      rw [LoadLoop.run]
      simp only [← hslots, ← hcount]
      rw [show (⟨(0, 0), 0, st.i, st.dirtyLoaded, st.md⟩ : LoadSlots) =
        LoadSlots.after st.i 0 (st.md, st.dirtyLoaded) from rfl, hrun]
      cases hy : loadUpTo g clean (fun i => dev (mdSectorOf mdStartSect i) (mdByteOf i)) md₀
          (st.i + slotsRead) with
      | none =>
        rw [← hleft, loadUpTo_none hy]
        exact ⟨rfl, by simp⟩
      | some y =>
        have hnext := ih (size + 1 - slotsRead)
          { sector := st.sector + count, i := st.i + slotsRead, dirtyLoaded := y.2
            sectorsRead := st.sectorsRead + count, md := y.1
            reads := st.reads ++ [⟨st.sector, count⟩] }
          (by omega) (by simp only; omega) (by simp only; omega) (by simp only; omega)
          (by simp only; omega) (hreads.read hle) hy
        simp only [hleft] at hnext
        exact hnext

/-- Reading in takes every entry from its place and reads no other sector,
whatever the size of the buffer. -/
theorem mdReadIn_spec (g : Geom) (clean : Bool) (dev : MdDev) (md₀ : Meta) (mdStartSect : Nat)
    (hn : 1 ≤ nrPages) (size : Nat) :
    (mdReadIn g clean nrPages mdStartSect dev size md₀).map (fun st => (st.md, st.dirtyLoaded)) =
        loadUpTo g clean (fun i => dev (mdSectorOf mdStartSect i) (mdByteOf i)) md₀ size ∧
      ∀ st, mdReadIn g clean nrPages mdStartSect dev size md₀ = some st →
        st.sectorsRead = (size + 31) / 32 ∧
          ReadIn mdStartSect (mdStartSect + (size + 31) / 32) st.reads := by
  have h := LoadLoop.run_spec (g := g) clean dev md₀ mdStartSect hn size size
    { sector := mdStartSect, i := 0, dirtyLoaded := 0, sectorsRead := 0, md := md₀, reads := [] }
    (Nat.le_refl _) (by simp) (Nat.le_refl _) (by simp) (by simp)
    ⟨by simp, fun x h1 h2 => absurd h2 (by simpa using h1)⟩ rfl
  simpa [mdReadIn] using h

end
end EnhanceIO
