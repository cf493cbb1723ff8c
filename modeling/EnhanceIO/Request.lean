import EnhanceIO.Lookup

/-!
# Submission and completion

The functions that issue the I/Os of a bio and those that run when an I/O
completes (`eio_main.c`). A function that drops the set lock, or submits an
I/O, between two sections is cut there: `..Lock` is the locked section,
`..Submit` the submission with its error branch. A refused submission has no
effect of its own, so it is one step with the locked section that follows it.
-/

namespace EnhanceIO

open State

/-- The ebio whose HDD half is over. -/
def EbSt.flagDisk : EbSt → EbSt
  | .uc ssd _ => .uc ssd true
  | .ucLost _ => .ucLost true
  | st => st

/-- The ebio whose SSD half is over. -/
def EbSt.flagSsd : EbSt → EbSt
  | .uc _ disk => .uc true disk
  | st => st

namespace Sys

variable (g : Geom) (s : Sys)

/-! ## Ending ebios and bios -/

/-- `bc_put`. -/
def bcPut (b : Nat) : Sys :=
  s.updBio b fun bc =>
    if bc.holdcount - 1 = 0 then
      { bc with
        holdcount := 0
        locks := if g.mode = .wb then [] else bc.locks
        mdreqs := if g.mode = .wb then 0 else bc.mdreqs
        endio := bc.endio ++ [bc.error]
        ended := some s.now }
    else { bc with holdcount := bc.holdcount - 1 }

/-- The error `eb_endio` leaves in the container: only main I/Os report. -/
def propagate (iotype : IoType) (err old : Int) : Int :=
  if iotype = IoType.mainIo ∧ err ≠ 0 then err else old

/-- `eb_endio` of an ebio, carried out. -/
def ebEndio (e : EbId) (err : Int) : Sys :=
  let iotype := (s.ebio e).iotype
  ((s.updEb e fun eb => { eb with todo := eb.todo.tail, ended := eb.ended + 1 }).updBio e.1
    fun bc => { bc with error := propagate iotype err bc.error }).bcPut g e.1

/-- `eb_endio` of the main ebio. -/
def mainEndio (b : Nat) (err : Int) : Sys :=
  (s.updBio b fun bc =>
    { bc with main := .done, error := propagate bc.mainIotype err bc.error }).bcPut g b

/-- A call of `eb_endio`. -/
def endEb (e : EbId) (err : Int) : Sys := s.updEb e (·.endio err)

/-! ## Completion of the HDD I/O -/

/-- `eio_flag_abios` on one ebio with block `i`. -/
def flagBlock (e : EbId) (i : Nat) (invalidate : Bool) : Sys :=
  let c := s.st g i
  if c.has dirty then
    let s := s.updEb e fun eb => { eb with holdcount := eb.holdcount - 1, st := eb.st.flagDisk }
    if (s.ebio e).holdcount = 0 then
      if c = dirtyInprog then s.fail .flagAbios
      else if c.has cacheWriteInprog then s else s.endEb e 0
    else s
  else if c.has cacheWriteInprog then
    (s.setSt g i (if invalidate then c.on queued else c.off diskWriteInprog)).updEb e
      fun eb => { eb with st := eb.st.flagDisk }
  else if invalidate ∨ c.has queued then (s.invalidate g i).endEb e 0
  else (s.setSt g i valid).endEb e 0

/-- `eio_flag_abios` on one ebio. -/
def flagAbio (e : EbId) (invalidated : Bool) : Sys :=
  let eb := s.ebio e
  let invalidate := !invalidated && eb.iotype.hasInval
  match eb.index with
  | some i =>
    if eb.iotype.hasInval then s.fail .flagAbios else s.flagBlock g e i invalidate
  | none =>
    if ¬ invalidated ∧ ¬ invalidate then s.fail .flagAbios
    else if invalidate then (s.invalBlock g (s.seg e).sector).endEb e 0
    else s.endEb e 0

/-- `eio_uncached_read_done` on one ebio. -/
def readDoneAbio (e : EbId) : Sys :=
  match (s.ebio e).index with
  | none => s.endEb e 0
  | some i =>
    let c := s.st g i
    if c.has queued then (s.invalidate g i).endEb e 0
    else if c.has cacheReadInprog then
      (s.setSt g i (c.off blockIoInprog)).endEb e 0
    else s.fail .uncachedReadDone

/-- `eio_do_readfill` on one ebio, up to the submission of a job if there is one. -/
def readfillLock (e : EbId) : Sys :=
  match (s.ebio e).index with
  | none => s.endEb e 0
  | some i =>
    let c := s.st g i
    if c.has queued then (s.invalidate g i).endEb e 0
    else if c &&& (valid ||| diskReadInprog) =
        valid ||| diskReadInprog then
      let s := (s.setSt g i (valid ||| cacheWriteInprog)).updEb e fun eb =>
        { eb with st := .fillIssue }
      if s.dbn g i ≠ (s.seg e).sector then s.fail .blockDbn else s
    else if c = alreadyDirty then s.updEb e fun eb => { eb with st := .dirtyIssue }
    else if c &&& (valid ||| cacheReadInprog) =
        valid ||| cacheReadInprog then
      (s.setSt g i (c.off blockIoInprog)).endEb e 0
    else s.fail .doReadfill

/-- The job of `eio_do_readfill` is accepted by the SSD. -/
def readfillAccept (e : EbId) : Sys :=
  s.updEb e fun eb =>
    { eb with st := if eb.st = .fillIssue then .readFill else .readCache, xfer := fun _ => false }

/-- The job of `eio_do_readfill` is refused. -/
def readfillRefuse (e : EbId) (err : Int) : Sys :=
  match (s.ebio e).index with
  | some i =>
    if (s.ebio e).st = .fillIssue then (s.invalidate g i).endEb e err else s.endEb e err
  | none => s.endEb e err

/-! ## Completion of the SSD I/O of an ebio -/

/-- `eio_md_write`: the ebio is queued on `bc_mdlist`, in the order of its set. -/
def mdWrite (e : EbId) : Sys :=
  let bc := s.bio e.1
  if bc.mdwait ≤ 0 then s.fail .mdWrite
  else
    let set := fun k => g.hashBlock (s.seg (e.1, k)).sector
    let before := bc.mdlist.takeWhile fun k => set k ≤ set e.2
    (s.updBio e.1 fun bc =>
      { bc with
        mdlist := before ++ e.2 :: bc.mdlist.drop before.length
        mdwait := bc.mdwait - 1
        enq := bc.mdwait - 1 = 0 }).updEb e fun eb => { eb with st := .mdList, ssdError := some 0 }

/-- The state change at the end of `eio_post_io_callback`. -/
def postState (c : State) (err : Int) : State :=
  if c.has diskWriteInprog then
    (if err ≠ 0 then c.on queued else c).off cacheWriteInprog
  else if err ≠ 0 ∨ c.has queued then
    if c ≠ alreadyDirty then invalid else c
  else if c.has valid then
    let c' := c.off blockIoInprog
    if c &&& (valid ||| invalid) = valid ||| invalid then
      c'.off valid
    else c'
  else c

/-- The store of `postState`, with the counter of cached blocks. -/
def setPostState (i : Nat) (err : Int) : Sys :=
  let c := s.st g i
  if c.has diskWriteInprog = false ∧ (err ≠ 0 ∨ c.has queued) ∧
      c ≠ alreadyDirty then s.invalidate g i
  else s.setSt g i (postState c err)

/-- The locked section of `eio_post_io_callback`, for a `WRITECACHE` job. -/
def postWrite (e : EbId) (i : Nat) (err : Int) : Sys :=
  let c := s.st g i
  let s := s.updEb e fun eb => { eb with ssdError := some err }
  if c.has invalid then s.fail .postIoCallback
  else if c.has diskWriteInprog then
    if c.has dirty then s.fail .postIoCallback
    else (s.setPostState g i err).updEb e fun eb => { eb with st := eb.st.flagSsd }
  else if c = dirtyInprog ∧ err = 0 then s.fail .postIoCallback
  else if c.has dirty then
    let s := s.updEb e fun eb => { eb with holdcount := eb.holdcount - 1, st := eb.st.flagSsd }
    if (s.ebio e).holdcount = 0 then (s.setPostState g i err).endEb e err
    else s.setPostState g i err
  else (s.setPostState g i err).endEb e err

/-- The locked section of `eio_post_io_callback`, for the other jobs. -/
def postRead (e : EbId) (i : Nat) (err : Int) : Sys :=
  let c := s.st g i
  let s := s.updEb e fun eb => { eb with ssdError := some err }
  if c.has invalid then s.fail .postIoCallback
  else if c.has diskWriteInprog ∧ c.has dirty then s.fail .postIoCallback
  else (s.setPostState g i err).endEb e err

/-- `eio_post_io_callback` of a `READCACHE` job. -/
def readCacheDone (e : EbId) (i : Nat) (err : Int) : Sys :=
  let c := s.st g i
  if s.dbn g i ≠ g.roundSector (s.seg e).sector then s.fail .blockDbn
  else if c = dirtyInprog then s.fail .postIoCallback
  else if err ≠ 0 ∧ c ≠ alreadyDirty then
    (s.setSt g i ((c.off cacheReadInprog).on diskReadInprog)).updEb e fun eb =>
      { eb with st := .readFail, ssdError := some err }
  else s.postRead g e i err

/-- `eio_post_io_callback` of a `READFILL` job. -/
def readFillDone (e : EbId) (i : Nat) (err : Int) : Sys :=
  if s.dbn g i ≠ (s.seg e).sector then s.fail .blockDbn else s.postRead g e i err

/-- `eio_post_io_callback` of a `WRITECACHE` job. -/
def writeCacheDone (e : EbId) (i : Nat) (err : Int) : Sys :=
  let c := s.st g i
  if s.dbn g i ≠ g.roundSector (s.seg e).sector then s.fail .blockDbn
  else if ¬ c.has (cacheWriteInprog ||| dirty) then s.fail .postIoCallback
  else if err = 0 ∧ c = dirtyInprog then s.mdWrite g e
  else s.postWrite g e i err

/-- `eio_ssderror_diskread` up to the submission, and its acceptance. -/
def rereadAccept (e : EbId) (i : Nat) : Sys :=
  if ¬ (s.st g i).has diskReadInprog then s.fail .ssderrorDiskread
  else s.updEb e fun eb => { eb with st := .reread, xfer := fun _ => false }

/-- The end of a read that went to the HDD after an SSD failure: the refused
submission of `eio_ssderror_diskread` and `eio_disk_io_callback` do the same. -/
def rereadEnd (e : EbId) (i : Nat) (err : Int) : Sys := (s.invalidate g i).endEb e err

/-! ## Issuing the I/Os of a bio -/

/-- `eio_cached_read`, accepted. `eio_read` has made the ebio a main I/O. -/
def cachedReadAccept (e : EbId) : Sys :=
  s.updEb e fun eb =>
    { eb with iotype := IoType.mainIo, st := .readCache, xfer := fun _ => false }

/-- `eio_cached_read`, refused; also `eio_write` after a failed
`eio_alloc_mdreqs`: the block is given up unless it is dirty. -/
def giveUp (e : EbId) (i : Nat) (err : Int) : Sys :=
  let s := s.updEb e fun eb => { eb with iotype := IoType.mainIo, ssdError := some err }
  if s.st g i ≠ alreadyDirty then (s.invalidate g i).endEb e err else s.endEb e err

/-- The locked section of `eio_uncached_write`. -/
def uncachedWriteLock (e : EbId) : Sys :=
  match (s.ebio e).index with
  | none => s.updEb e fun eb =>
    { eb with iotype := eb.iotype ||| IoType.inval, st := .uc true false }
  | some i =>
    let c := s.st g i
    if ¬ c.has (dirty ||| cacheWriteInprog) then s.fail .uncachedWrite
    else if c = alreadyDirty then
      s.updEb e fun eb =>
        { eb with iotype := IoType.mainIo, holdcount := eb.holdcount + 1, st := .ucIssue }
    else (s.setSt g i (c.on diskWriteInprog)).updEb e fun eb => { eb with st := .ucIssue }

/-- The `WRITECACHE` job of `eio_uncached_write` is accepted. -/
def uncachedWriteAccept (e : EbId) : Sys :=
  s.updEb e fun eb => { eb with st := .uc false false, xfer := fun _ => false }

/-- The `WRITECACHE` job of `eio_uncached_write` is refused. -/
def uncachedWriteRefuse (e : EbId) (i : Nat) (err : Int) : Sys :=
  let s := s.updEb e fun eb => { eb with ssdError := some err }
  if s.st g i = alreadyDirty then
    (s.updBio e.1 fun bc => { bc with error := err }).updEb e fun eb =>
      { eb with st := .ucLost false }
  else
    (s.invalidate g i).updEb e fun eb =>
      { eb with
        iotype := eb.iotype ||| IoType.inval, index := none, role := .miss, st := .uc true false }

/-- The locked section of `eio_cached_write`. -/
def cachedWriteLock (e : EbId) (i : Nat) : Sys :=
  let c := s.st g i
  let s := s.updEb e fun eb => { eb with iotype := IoType.mainIo, st := .cwIssue }
  if g.mode ≠ .wb then s.fail .cachedWriteMode
  else if c.has dirty then s
  else if ¬ c.has cacheWriteInprog then s.fail .cachedWrite
  else s.setSt g i dirtyInprog

/-- The `WRITECACHE` job of `eio_cached_write` is accepted. -/
def cachedWriteAccept (e : EbId) : Sys :=
  s.updEb e fun eb => { eb with st := .cw, xfer := fun _ => false }

/-- The `WRITECACHE` job of `eio_cached_write` is refused. -/
def cachedWriteRefuse (e : EbId) (i : Nat) (err : Int) : Sys :=
  let s := s.updEb e fun eb => { eb with ssdError := some err }
  if s.st g i = dirtyInprog then (s.invalidate g i).endEb e err
  else if s.st g i ≠ alreadyDirty then s.fail .cachedWrite
  else s.endEb e err

end Sys
end EnhanceIO
