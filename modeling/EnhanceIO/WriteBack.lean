import EnhanceIO.Request

/-!
# Metadata updates and cleaning

The write-back part of `eio_main.c`. A write that dirties blocks waits on
`bc_mdlist` until all of them are written, then joins the metadata update of
each set (`eio_enq_mdupdate`, `eio_do_mdupdate`, `eio_post_mdupdate`).
`eio_clean_set` copies dirty blocks back under the exclusive lock of the set.
-/

namespace EnhanceIO

open State

/-- A page has something to write. -/
def MdReq.hasBits (r : MdReq) (page : Nat) : Bool := (List.range 8).any (r.bits page)

/-- Sector `q` of the page is between `startbit` and `endbit`. -/
def MdReq.inRegion (r : MdReq) (page q : Nat) : Bool :=
  (List.range (q + 1)).any (r.bits page) && (List.range' q (8 - q)).any (r.bits page)

namespace Sys

variable (g : Geom) (s : Sys)

@[simps]
def updMd (set : Nat) (f : MdReq → MdReq) : Sys :=
  { s with mdreq := Function.update s.mdreq set ((s.mdreq set).map f) }

/-- Metadata pages of a set: 256 entries of 16 bytes in each. -/
def mdPages : Nat := (g.assoc * 16 + 4095) / 4096

/-- First block of a set in `eio_do_mdupdate` and `eio_clean_set`, where the
set number is a long. -/
def setStart (set : Nat) : Nat := set * g.assoc

/-! ## Enqueueing -/

/-- `eio_enq_mdupdate` on one ebio of the set. -/
def enqOne (set : Nat) (s : Sys) (e : EbId) : Sys :=
  let s := s.updEb e fun eb => { eb with st := .mdPend }
  match s.mdreq set with
  | some _ => s.updMd set fun r => { r with pending := e :: r.pending }
  | none =>
    if (s.bio e.1).mdreqs = 0 then s.fail .enqMdupdate
    else
      { s.updBio e.1 fun bc => { bc with mdreqs := bc.mdreqs - 1 } with
        mdreq := Function.update s.mdreq set (some { MdReq.init with pending := [e] }) }

/-- `eio_enq_mdupdate` for the first set of `bc_mdlist`: one locked section. -/
def enqMdupdate (b : Nat) : Sys :=
  let mdlist := (s.bio b).mdlist
  let setOf := fun k => g.hashBlock (s.seg (b, k)).sector
  match mdlist with
  | [] => s.updBio b fun bc => { bc with enq := false }
  | k :: _ =>
    let group := mdlist.takeWhile fun j => setOf j = setOf k
    let rest := mdlist.drop group.length
    (group.map fun j => (b, j)).foldl (enqOne (setOf k))
      (s.updBio b fun bc => { bc with mdlist := rest, enq := rest ≠ [] })

/-! ## `eio_do_mdupdate` -/

/-- The position of an ebio's block in the metadata pages of the set. -/
def mdPos (set : Nat) (e : EbId) : Nat := ((s.ebio e).index.getD 0) - setStart g set

/-- The entry `eio_do_mdupdate` writes for the block at `pos`. -/
def mdImage (set : Nat) (pending : List EbId) (pos : Nat) : MdEntry :=
  let i := setStart g set + pos
  if g.assoc ≤ pos then ⟨0, 0⟩
  else
    ⟨s.dbn g i,
      if s.st g i = alreadyDirty ∨ ∃ e ∈ pending, s.mdPos g set e = pos then
        alreadyDirty
      else invalid⟩

/-- `eio_do_mdupdate` up to the submissions. -/
def doMdupdate (set : Nat) (r : MdReq) : Sys :=
  let pages := mdPages g
  if 2 < pages ∨ (g.assoc ≠ 512 ∧ pages ≠ 1) then s.fail .mdPages
  else if ∃ e ∈ r.pending, s.st g ((s.ebio e).index.getD 0) ≠ dirtyInprog then
    s.fail .doMdupdate
  else if ∃ e ∈ r.pending, (s.ebio e).index.getD 0 < setStart g set ∨
      setStart g set + g.assoc ≤ (s.ebio e).index.getD 0 then s.fail .mdIndex
  else
    (r.pending.foldl (fun s e => s.updEb e fun eb => { eb with st := .mdProg }) s).updMd set
      fun r =>
        { r with
          phase := .submit 0
          pending := []
          inprog := r.pending
          holdcount := 1
          error := 0
          image := s.mdImage g set r.pending
          bits := fun page sector => decide (∃ e ∈ r.pending,
            s.mdPos g set e / 256 = page ∧ s.mdPos g set e % 256 / 32 = sector)
          page := fun _ => .idle
          xfer := fun _ _ => false }

/-- One round of the submission loop of `eio_do_mdupdate`; `refused` is the
error of a submission that fails. The reference taken for a refused page is
kept, as in the source. -/
def mdSubmit (set : Nat) (r : MdReq) (p : Nat) (refused : Int) : Sys :=
  if p < mdPages g then
    if r.hasBits p then
      s.updMd set fun r =>
        { r with
          phase := .submit (p + 1)
          holdcount := r.holdcount + 1
          error := if refused ≠ 0 ∧ r.error = 0 then refused else r.error
          page := if refused = 0 then Function.update r.page p .inflight else r.page }
    else s.updMd set fun r => { r with phase := .submit (p + 1) }
  else
    s.updMd set fun r =>
      { r with
        phase := if r.holdcount - 1 = 0 then .post else .wait
        holdcount := r.holdcount - 1 }

/-- The SSD writes sector `q` of page `p` of a metadata image of the set. -/
def writeMdSector (set p q : Nat) (image : Nat → MdEntry) : Sys :=
  { s with
    mdDisk := fun n =>
      if n / 32 = setStart g set / 32 + 8 * p + q then image (256 * p + 32 * q + n % 32)
      else s.mdDisk n }

/-- `eio_mdupdate_callback`. -/
def mdupdateCallback (set p : Nat) (err : Int) : Sys :=
  s.updMd set fun r =>
    { r with
      page := Function.update r.page p .done
      error := if err ≠ 0 ∧ r.error = 0 then err else r.error
      holdcount := r.holdcount - 1
      phase := if r.holdcount - 1 = 0 then .post else r.phase }

/-! ## `eio_post_mdupdate` -/

/-- `eio_post_mdupdate` on one ebio. -/
def postOne (set : Nat) (err : Int) (s : Sys) (e : EbId) : Sys :=
  let i := (s.ebio e).index.getD 0
  if s.st g i ≠ dirtyInprog then s.fail .postMdupdate
  else if err ≠ 0 then (s.invalidate g i).endEb e err
  else
    { (s.setSt g i alreadyDirty).endEb e err with
      setNrDirty := Function.update s.setNrDirty set (s.setNrDirty set + 1)
      nrDirty := s.nrDirty + 1 }

/-- `eio_post_mdupdate`. -/
def postMdupdate (set : Nat) (r : MdReq) : Sys :=
  let s := r.inprog.foldl (postOne g set r.error) s
  { s with
    mdreq := Function.update s.mdreq set
      (if r.pending = [] then none else some { r with inprog := [], phase := .queued }) }

/-! ## `eio_clean_set` -/

/-- The blocks of a set, in order. -/
def setBlocks (set : Nat) : List Nat := List.range' (setStart g set) g.assoc

/-- Blocks of the set that are being cleaned. -/
def cleanBlocks (set : Nat) : List Nat :=
  (setBlocks g set).filter fun i => s.st g i = cleanInprog

@[simps]
def updClean (f : Clean → Clean) : Sys := { s with clean := s.clean.map f }

/-- `eio_clean_set` up to the reads from the SSD; `sel` are the blocks chosen. -/
def cleanStart (set : Nat) (sel : List Nat) : Sys :=
  if g.blockSize ≠ 4 ∧ g.blockSize ≠ 8 ∧ g.blockSize ≠ 16 then s.fail .cleanBvecs
  else
    { sel.foldl (fun s i => s.setSt g i cleanInprog) s with
      clean := some
        { set := set
          phase := .read
          buf := fun _ _ => none
          image := fun _ => ⟨0, 0⟩
          xfer := fun _ _ => false } }

/-- The entry `eio_clean_set` writes for the block at `pos`. -/
def cleanImage (set pos : Nat) : MdEntry :=
  let i := setStart g set + pos
  ⟨s.dbn g i, if s.st g i = alreadyDirty then alreadyDirty else invalid⟩

/-- The writes to the HDD are over; without error the metadata is prepared. -/
def cleanWriteDone (c : Clean) (err : Int) : Sys :=
  if err ≠ 0 then s.updClean fun c => { c with phase := .finish err }
  else if 2 < mdPages g ∨ g.assoc < 32 then s.fail .mdPages
  else
    s.updClean fun c' =>
      { c' with phase := .md, image := s.cleanImage g c.set, xfer := fun _ _ => false }

/-- The in-core update of `eio_clean_set` for one block. -/
def cleanOne (set : Nat) (err : Int) (s : Sys) (i : Nat) : Sys :=
  if err ≠ 0 then s.setSt g i alreadyDirty
  else if s.setNrDirty set = 0 then s.fail .nrDirty
  else
    { s.setSt g i valid with
      setNrDirty := Function.update s.setNrDirty set (s.setNrDirty set - 1)
      nrDirty := s.nrDirty - 1 }

/-- The in-core update of `eio_clean_set`, and its end. -/
def cleanFinish (set : Nat) (err : Int) : Sys :=
  { (s.cleanBlocks g set).foldl (cleanOne g set err) s with clean := none }

end Sys
end EnhanceIO
