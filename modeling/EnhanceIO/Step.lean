import EnhanceIO.WriteBack

/-!
# The driver as a transition system

`Act` lists everything that can happen next: a bio arrives, a thread takes its
next locked section or submission, a device transfers one sector or completes
an I/O, the cleaner runs, a range is invalidated from outside. `step` performs
one of them. What the environment decides (which block the replacement policy
gives up, whether a submission is refused, how an I/O ends) is in the label.

Devices transfer sector by sector before the completion is reported, so the
devices of any reachable state are what a crash at that point leaves behind.
-/

namespace EnhanceIO

/-- One step. An error of `0` is success; a submission label carries the error
it is refused with, `0` if it is accepted. -/
inductive Act where
  /-- a bio arrives; `keep` is `EIO_CLEAN_KEEP` at that time -/
  | map (dir : Dir) (sector nsect : Nat) (keep : Bool)
  | lock (b : Nat)
  | invalMap (b : Nat)
  | peek (b : Nat) (victim : Option Nat)
  | dispatch (b : Nat)
  | cachedRead (b : Nat) (refused : Int)
  | uwLock (b : Nat)
  | uwSubmit (b : Nat) (refused : Int)
  | cwAlloc (b : Nat) (err : Int)
  | cwLock (b : Nat)
  | cwSubmit (b : Nat) (refused : Int)
  | cwFail (b : Nat)
  | diskIo (b : Nat) (refused : Int)
  | put (b : Nat)
  /-- the HDD transfers sector `x` -/
  | hddSector (b x : Nat)
  | hddDone (b : Nat) (err : Int)
  | invalMain (b : Nat)
  | flag (b : Nat)
  | readDone (b : Nat)
  | readfillStart (b : Nat)
  | readfill (b : Nat)
  | readfillSubmit (b : Nat) (refused : Int)
  | mainEndio (b : Nat)
  /-- the SSD transfers sector `x` -/
  | ssdSector (b k x : Nat)
  | ssdDone (b k : Nat) (err : Int)
  | ebEndio (b k : Nat)
  | reread (b k : Nat) (refused : Int)
  | rereadSector (b k x : Nat)
  | rereadDone (b k : Nat) (err : Int)
  | enqMd (b : Nat)
  | doMd (set : Nat)
  | mdSubmit (set : Nat) (refused : Int)
  | mdSector (set p q : Nat)
  | mdDone (set p : Nat) (err : Int)
  | postMd (set : Nat)
  | cleanStart (set : Nat) (sel : List Nat)
  | cleanReadSector (i o : Nat)
  | cleanReadDone (err : Int)
  | cleanWriteSector (i o : Nat)
  | cleanWriteDone (err : Int)
  | cleanMdSector (q : Nat)
  | cleanMdDone (err : Int)
  | cleanFinish
  /-- one round of a range invalidation from outside (`eio_inval_range`) -/
  | inval (snum iosize : Nat)
  /-- the SSD is gone: `eio_suspend_caching` -/
  | suspend
  deriving DecidableEq, Repr

namespace Sys

variable (g : Geom) (s : Sys)

/-! ## `eio_map` -/

/-- Where `eio_map` goes once the set locks are held. -/
def enterPc (forced : Bool) (sector nsect : Nat) : MapPc :=
  if forced then .inval sector (nsect * 512)
  else if g.split sector nsect = none then .spin
  else .peek 0

/-- A bio as it arrives. -/
def newReq (dir : Dir) (sector nsect : Nat) : Req :=
  let forced := s.degraded || (dir = .write && g.mode = .ro)
  { dir := dir
    sector := sector
    nsect := nsect
    forced := forced
    segs := if forced then [] else (g.split sector nsect).getD []
    began := s.now }

/-- Its container, with one reference for the thread and one for each ebio. -/
def newBio (req : Req) (keep : Bool) : Bio :=
  { Bio.absent with
    holdcount := 1 + req.segs.length
    bcDir := if req.dir = .read ∧ ¬ req.forced then .uncachedRead else .invalidDir
    pc :=
      if g.mode = .wb then .lock (g.lockSets req.sector req.nsect)
      else enterPc g req.forced req.sector req.nsect
    uc := req.dir = .write && (g.mode ≠ .wb || keep)
    buf := if req.dir = .write then fun _ => some s.nbio else fun _ => none }

/-- A write to a read-only cache is answered with `-EPERM` at once and leaves no trace. -/
def stepMap (dir : Dir) (sector nsect : Nat) (keep : Bool) : Option Sys :=
  if s.rdonly ∧ dir = .write then none
  else if 0 < nsect ∧ sector + nsect ≤ g.diskSize ∧ nsect * 512 < 2 ^ 32 then
    let req := s.newReq g dir sector nsect
    some
      { s with
        nbio := s.nbio + 1
        req := Function.update s.req s.nbio req
        bio := Function.update s.bio s.nbio (s.newBio g req keep) }
  else none

/-- The set is locked exclusively by a clean. -/
def cleaning (set : Nat) : Bool := s.clean.any (·.set = set)

def stepLock (b : Nat) : Option Sys :=
  match (s.bio b).pc with
  | .lock [] =>
    let req := s.req b
    some (s.updBio b fun bc => { bc with pc := enterPc g req.forced req.sector req.nsect })
  | .lock (set :: rest) =>
    if s.cleaning set then none
    else some (s.updBio b fun bc => { bc with locks := set :: bc.locks, pc := .lock rest })
  | _ => none

def stepInvalMap (b : Nat) : Option Sys :=
  match (s.bio b).pc with
  | .inval snum iosize =>
    if iosize = 0 then some (s.updBio b fun bc => { bc with pc := .diskIo })
    else
      some ((s.invalRound g snum iosize).updBio b fun bc =>
        { bc with pc := .inval (invalNext g snum) (iosize - invalInset g snum iosize) })
  | _ => none

/-- The peek of a bio's direction. -/
def peekDir (dir : Dir) (e : EbId) (victim : Option Nat) : Sys × Bool :=
  match dir with
  | .read => s.readPeek g e victim
  | .write => s.writePeek g e victim

def stepPeek (b : Nat) (victim : Option Nat) : Option Sys :=
  match (s.bio b).pc with
  | .peek k =>
    if k < (s.req b).segs.length ∧ s.VictimOk g (s.seg (b, k)).sector victim then
      let r := s.peekDir g (s.req b).dir (b, k) victim
      some (r.1.updBio b fun bc => { bc with pc := .peek (k + 1), uc := bc.uc || !r.2 })
    else none
  | _ => none

/-- After the peeks, `eio_read` and `eio_write` choose the path. -/
def dispatchBio (dir : Dir) (bc : Bio) : Bio :=
  match dir, bc.uc with
  | .read, true => { bc with pc := .diskIo }
  | .read, false => { bc with bcDir := .cachedRead, pc := .cachedRead 0 }
  | .write, true => { bc with mdwait := 0, bcDir := .uncachedWrite, pc := .uwLock 0 }
  | .write, false =>
    { bc with bcDir := .cachedWrite, pc := if bc.mdwait ≠ 0 then .cwAlloc else .cwLock 0 }

def stepDispatch (b : Nat) : Option Sys :=
  if (s.bio b).pc = .peek (s.req b).segs.length then
    some (s.updBio b (dispatchBio (s.req b).dir))
  else none

/-- An SSD submission may be accepted. In degraded mode `eio_io_async_bvec`
refuses all of them. -/
def ssdAccepts (refused : Int) : Prop := refused = 0 → s.degraded = false

instance (refused : Int) : Decidable (s.ssdAccepts refused) := inferInstanceAs (Decidable (_ → _))

def stepCachedRead (b : Nat) (refused : Int) : Option Sys :=
  match (s.bio b).pc with
  | .cachedRead k =>
    if k < (s.req b).segs.length then
      if s.ssdAccepts refused then
        let s' := match (s.ebio (b, k)).index with
          | none => s.fail .noBlock
          | some i =>
            if refused = 0 then s.cachedReadAccept (b, k) else s.giveUp g (b, k) i refused
        some (s'.updBio b fun bc => { bc with pc := .cachedRead (k + 1) })
      else none
    else some (s.updBio b fun bc => { bc with pc := .put })
  | _ => none

def stepUwLock (b : Nat) : Option Sys :=
  match (s.bio b).pc with
  | .uwLock k =>
    if k < (s.req b).segs.length then
      some ((s.uncachedWriteLock g (b, k)).updBio b fun bc =>
        { bc with pc := if (s.ebio (b, k)).index = none then .uwLock (k + 1) else .uwSubmit k })
    else some (s.updBio b fun bc => { bc with pc := .diskIo })
  | _ => none

def stepUwSubmit (b : Nat) (refused : Int) : Option Sys :=
  match (s.bio b).pc with
  | .uwSubmit k =>
    if s.ssdAccepts refused then
      let s' := match (s.ebio (b, k)).index with
        | none => s.fail .noBlock
        | some i =>
          if refused = 0 then s.uncachedWriteAccept (b, k)
          else s.uncachedWriteRefuse g (b, k) i refused
      some (s'.updBio b fun bc => { bc with pc := .uwLock (k + 1) })
    else none
  | _ => none

def stepCwAlloc (b : Nat) (err : Int) : Option Sys :=
  match (s.bio b).pc with
  | .cwAlloc =>
    some (s.updBio b fun bc =>
      if err = 0 then { bc with mdreqs := bc.locks.length, pc := .cwLock 0 }
      else { bc with pc := .cwFail 0 err })
  | _ => none

def stepCwLock (b : Nat) : Option Sys :=
  match (s.bio b).pc with
  | .cwLock k =>
    if k < (s.req b).segs.length then
      let s' := match (s.ebio (b, k)).index with
        | none => s.fail .noBlock
        | some i => s.cachedWriteLock g (b, k) i
      some (s'.updBio b fun bc => { bc with pc := .cwSubmit k })
    else some (s.updBio b fun bc => { bc with pc := .put })
  | _ => none

def stepCwSubmit (b : Nat) (refused : Int) : Option Sys :=
  match (s.bio b).pc with
  | .cwSubmit k =>
    if s.ssdAccepts refused then
      let s' := match (s.ebio (b, k)).index with
        | none => s.fail .noBlock
        | some i =>
          if refused = 0 then s.cachedWriteAccept (b, k)
          else s.cachedWriteRefuse g (b, k) i refused
      some (s'.updBio b fun bc => { bc with pc := .cwLock (k + 1) })
    else none
  | _ => none

def stepCwFail (b : Nat) : Option Sys :=
  match (s.bio b).pc with
  | .cwFail k err =>
    if k < (s.req b).segs.length then
      let s' := match (s.ebio (b, k)).index with
        | none => s.fail .noBlock
        | some i => s.giveUp g (b, k) i err
      some (s'.updBio b fun bc => { bc with pc := .cwFail (k + 1) err })
    else some (s.updBio b fun bc => { bc with pc := .put })
  | _ => none

/-- `eio_disk_io`. -/
def stepDiskIo (b : Nat) (refused : Int) : Option Sys :=
  match (s.bio b).pc with
  | .diskIo =>
    let req := s.req b
    some (s.updBio b fun bc =>
      { bc with
        holdcount := bc.holdcount + 1
        mainIotype := if req.forced then IoType.mainIo ||| IoType.inval else IoType.mainIo
        main := if refused = 0 then .inflight else .inval req.sector (req.nsect * 512) refused
        mainXfer := fun _ => false
        pc := .put })
  | _ => none

def stepPut (b : Nat) : Option Sys :=
  match (s.bio b).pc with
  | .put => some ((s.updBio b fun bc => { bc with pc := .done }).bcPut g b)
  | _ => none

/-! ## The HDD I/O -/

/-- Sector `x` belongs to the bio. -/
def Covers (b x : Nat) : Prop :=
  (s.req b).sector ≤ x ∧ x < (s.req b).sector + (s.req b).nsect

instance (b x : Nat) : Decidable (s.Covers b x) := inferInstanceAs (Decidable (_ ∧ _))

def stepHddSector (b x : Nat) : Option Sys :=
  if (s.bio b).main = .inflight ∧ s.Covers b x ∧ (s.bio b).mainXfer x = false then
    let s' := s.updBio b fun bc => { bc with mainXfer := Function.update bc.mainXfer x true }
    match (s.req b).dir with
    | .write => some { s' with hdd := Function.update s.hdd x ((s.bio b).buf x) }
    | .read =>
      some (s'.updBio b fun bc => { bc with buf := Function.update bc.buf x (s.hdd x) })
  else none

/-- All sectors of the bio have been transferred. -/
def mainDone (b : Nat) : Bool :=
  (List.range' (s.req b).sector (s.req b).nsect).all (s.bio b).mainXfer

/-- `eio_post_io_callback` of `WRITEDISK` and `READDISK`, up to the loops. -/
def hddDonePc (req : Req) (bc : Bio) (err : Int) : MainPc :=
  match req.dir with
  | .write =>
    if err ≠ 0 ∨ bc.mainIotype.hasInval then .inval req.sector (req.nsect * 512) err
    else .flag 0 false err
  | .read =>
    if err ≠ 0 ∨ bc.mainIotype.hasInval ∨ s.degraded then .inval req.sector (req.nsect * 512) err
    else if req.segs = [] then .endio err
    else if bc.bcDir = .uncachedRead then .readDone 0
    else .readfillQ

def stepHddDone (b : Nat) (err : Int) : Option Sys :=
  if (s.bio b).main = .inflight ∧ (err = 0 → s.mainDone b) then
    let main := s.hddDonePc (s.req b) (s.bio b) err
    if main = .readfillQ ∧ (s.bio b).bcDir ≠ .uncachedReadAndReadfill then
      some (s.fail .uncachedReadDone)
    else some (s.updBio b fun bc => { bc with hddError := some err, main := main })
  else none

def stepInvalMain (b : Nat) : Option Sys :=
  match (s.bio b).main with
  | .inval snum iosize err =>
    if iosize = 0 then some (s.updBio b fun bc => { bc with main := .flag 0 true err })
    else
      some ((s.invalRound g snum iosize).updBio b fun bc =>
        { bc with main := .inval (invalNext g snum) (iosize - invalInset g snum iosize) err })
  | _ => none

def stepFlag (b : Nat) : Option Sys :=
  match (s.bio b).main with
  | .flag k invalidated err =>
    if k < (s.req b).segs.length then
      some ((s.flagAbio g (b, k) invalidated).updBio b fun bc =>
        { bc with main := .flag (k + 1) invalidated err })
    else some (s.updBio b fun bc => { bc with main := .endio err })
  | _ => none

def stepReadDone (b : Nat) : Option Sys :=
  match (s.bio b).main with
  | .readDone k =>
    if k < (s.req b).segs.length then
      some ((s.readDoneAbio g (b, k)).updBio b fun bc => { bc with main := .readDone (k + 1) })
    else some (s.updBio b fun bc => { bc with main := .endio 0 })
  | _ => none

def stepReadfillStart (b : Nat) : Option Sys :=
  match (s.bio b).main with
  | .readfillQ => some (s.updBio b fun bc => { bc with main := .readfill 0 })
  | _ => none

def stepReadfill (b : Nat) : Option Sys :=
  match (s.bio b).main with
  | .readfill k =>
    if k < (s.req b).segs.length then
      let s' := s.readfillLock g (b, k)
      let issues := (s'.ebio (b, k)).st = .fillIssue ∨ (s'.ebio (b, k)).st = .dirtyIssue
      some (s'.updBio b fun bc =>
        { bc with main := if issues then .readfillIssue k else .readfill (k + 1) })
    else some (s.updBio b fun bc => { bc with main := .endio 0 })
  | _ => none

def stepReadfillSubmit (b : Nat) (refused : Int) : Option Sys :=
  match (s.bio b).main with
  | .readfillIssue k =>
    if s.ssdAccepts refused then
      let s' :=
        if refused = 0 then s.readfillAccept (b, k) else s.readfillRefuse g (b, k) refused
      some (s'.updBio b fun bc => { bc with main := .readfill (k + 1) })
    else none
  | _ => none

def stepMainEndio (b : Nat) : Option Sys :=
  match (s.bio b).main with
  | .endio err => some (s.mainEndio g b err)
  | _ => none

/-! ## The SSD I/O of an ebio -/

/-- Offset of a sector in its block. -/
def offset (x : Nat) : Nat := x % g.blockSize

/-- An I/O of the ebio is at the SSD. -/
def EbSt.atSsd : EbSt → Bool
  | .readCache | .readFill | .uc false _ | .cw => true
  | _ => false

def stepSsdSector (b k x : Nat) : Option Sys :=
  let e := (b, k)
  match (s.ebio e).index with
  | none => none
  | some i =>
    if EbSt.atSsd (s.ebio e).st ∧ (s.seg e).Covers x ∧ (s.ebio e).xfer x = false then
      let s' := s.updEb e fun eb => { eb with xfer := Function.update eb.xfer x true }
      if (s.ebio e).st = .readCache then
        some (s'.updBio b fun bc =>
          { bc with buf := Function.update bc.buf x (s.ssd i (offset g x)) })
      else
        some
          { s' with
            ssd := Function.update s.ssd i
              (Function.update (s.ssd i) (offset g x) ((s.bio b).buf x)) }
    else none

/-- All sectors of the ebio have been transferred. -/
def ebDone (e : EbId) : Bool :=
  (List.range' (s.seg e).sector (s.seg e).nsect).all (s.ebio e).xfer

def stepSsdDone (b k : Nat) (err : Int) : Option Sys :=
  let e := (b, k)
  if EbSt.atSsd (s.ebio e).st ∧ (err = 0 → s.ebDone e) then
    match (s.ebio e).index with
    | none => some (s.fail .postIoCallback)
    | some i =>
      match (s.ebio e).st with
      | .readCache => some (s.readCacheDone g e i err)
      | .readFill => some (s.readFillDone g e i err)
      | _ => some (s.writeCacheDone g e i err)
  else none

def stepEbEndio (b k : Nat) : Option Sys :=
  match (s.ebio (b, k)).todo with
  | [] => none
  | err :: _ => some (s.ebEndio g (b, k) err)

def stepReread (b k : Nat) (refused : Int) : Option Sys :=
  let e := (b, k)
  if (s.ebio e).st = .readFail then
    match (s.ebio e).index with
    | none => some (s.fail .ssderrorDiskread)
    | some i =>
      if refused = 0 then some (s.rereadAccept g e i)
      else if ¬ (s.st g i).has State.diskReadInprog then some (s.fail .ssderrorDiskread)
      else some (s.rereadEnd g e i refused)
  else none

def stepRereadSector (b k x : Nat) : Option Sys :=
  let e := (b, k)
  if (s.ebio e).st = .reread ∧ (s.seg e).Covers x ∧ (s.ebio e).xfer x = false then
    some ((s.updEb e fun eb => { eb with xfer := Function.update eb.xfer x true }).updBio b
      fun bc => { bc with buf := Function.update bc.buf x (s.hdd x) })
  else none

def stepRereadDone (b k : Nat) (err : Int) : Option Sys :=
  let e := (b, k)
  if (s.ebio e).st = .reread ∧ (err = 0 → s.ebDone e) then
    match (s.ebio e).index with
    | none => none
    | some i => some (s.rereadEnd g e i err)
  else none

/-! ## Metadata updates -/

def stepEnqMd (b : Nat) : Option Sys :=
  if (s.bio b).enq then some (s.enqMdupdate g b) else none

def stepDoMd (set : Nat) : Option Sys :=
  match s.mdreq set with
  | some r => if r.phase = .queued then some (s.doMdupdate g set r) else none
  | none => none

def stepMdSubmit (set : Nat) (refused : Int) : Option Sys :=
  match s.mdreq set with
  | some r =>
    match r.phase with
    | .submit p => some (s.mdSubmit g set r p refused)
    | _ => none
  | none => none

def stepMdSector (set p q : Nat) : Option Sys :=
  match s.mdreq set with
  | some r =>
    if r.page p = .inflight ∧ r.inRegion p q ∧ r.xfer p q = false then
      some ((s.writeMdSector g set p q r.image).updMd set fun r =>
        { r with xfer := Function.update r.xfer p (Function.update (r.xfer p) q true) })
    else none
  | none => none

def stepMdDone (set p : Nat) (err : Int) : Option Sys :=
  match s.mdreq set with
  | some r =>
    if r.page p = .inflight ∧
        (err = 0 → (List.range 8).all fun q => !r.inRegion p q || r.xfer p q) then
      some (s.mdupdateCallback set p err)
    else none
  | none => none

def stepPostMd (set : Nat) : Option Sys :=
  match s.mdreq set with
  | some r => if r.phase = .post then some (s.postMdupdate g set r) else none
  | none => none

/-! ## Cleaning -/

/-- The blocks chosen for a clean: blocks of the set that are dirty and idle. -/
def SelOk (set : Nat) (sel : List Nat) : Prop :=
  sel ≠ [] ∧ sel.Nodup ∧ ∀ i ∈ sel, i / g.assoc = set ∧ s.st g i = State.alreadyDirty

instance (set : Nat) (sel : List Nat) : Decidable (s.SelOk g set sel) :=
  inferInstanceAs (Decidable (_ ∧ _))

/-- No bio holds the read lock of the set. -/
def noReaders (set : Nat) : Prop := ∀ b < s.nbio, set ∉ (s.bio b).locks

instance (set : Nat) : Decidable (s.noReaders set) := inferInstanceAs (Decidable (∀ b < _, _))

/-- A clean begins where none is under way: the clean thread cleans set after set. That
`eio_notify_reboot` can clean another set beside it is left out. -/
def stepCleanStart (set : Nat) (sel : List Nat) : Option Sys :=
  if g.mode = .wb ∧ s.clean.isNone ∧ set < g.numSets ∧ s.noReaders set ∧
      s.setNrDirty set ≠ 0 ∧ s.SelOk g set sel then some (s.cleanStart g set sel)
  else none

def stepCleanReadSector (i o : Nat) : Option Sys :=
  match s.clean with
  | some c =>
    if c.phase = .read ∧ i ∈ s.cleanBlocks g c.set ∧ o < g.blockSize ∧ c.xfer i o = false then
      some (s.updClean fun c =>
        { c with
          buf := Function.update c.buf i (Function.update (c.buf i) o (s.ssd i o))
          xfer := Function.update c.xfer i (Function.update (c.xfer i) o true) })
    else none
  | none => none

/-- Every sector of every block being cleaned has been transferred. -/
def cleanDone (c : Clean) : Bool :=
  (s.cleanBlocks g c.set).all fun i => (List.range g.blockSize).all (c.xfer i)

def stepCleanReadDone (err : Int) : Option Sys :=
  match s.clean with
  | some c =>
    if c.phase = .read ∧ (err = 0 → s.cleanDone g c) then
      some (s.updClean fun c =>
        { c with phase := if err = 0 then .write else .finish err, xfer := fun _ _ => false })
    else none
  | none => none

def stepCleanWriteSector (i o : Nat) : Option Sys :=
  match s.clean with
  | some c =>
    if c.phase = .write ∧ i ∈ s.cleanBlocks g c.set ∧ o < g.blockSize ∧ c.xfer i o = false then
      some
        { s.updClean fun c =>
            { c with xfer := Function.update c.xfer i (Function.update (c.xfer i) o true) } with
          hdd := Function.update s.hdd (s.dbn g i + o) (c.buf i o) }
    else none
  | none => none

def stepCleanWriteDone (err : Int) : Option Sys :=
  match s.clean with
  | some c =>
    if c.phase = .write ∧ (err = 0 → s.cleanDone g c) then some (s.cleanWriteDone g c err)
    else none
  | none => none

def stepCleanMdSector (q : Nat) : Option Sys :=
  match s.clean with
  | some c =>
    if c.phase = .md ∧ q < g.assoc / 32 ∧ c.xfer 0 q = false then
      some ((s.writeMdSector g c.set 0 q c.image).updClean fun c =>
        { c with xfer := Function.update c.xfer 0 (Function.update (c.xfer 0) q true) })
    else none
  | none => none

def stepCleanMdDone (err : Int) : Option Sys :=
  match s.clean with
  | some c =>
    if c.phase = .md ∧ (err = 0 → (List.range (g.assoc / 32)).all (c.xfer 0)) then
      some (s.updClean fun c => { c with phase := .finish err })
    else none
  | none => none

def stepCleanFinish : Option Sys :=
  match s.clean with
  | some c =>
    match c.phase with
    | .finish err => some (s.cleanFinish g c.set err)
    | _ => none
  | none => none

/-! ## All together -/

/-- What an act does, without the clock. -/
def act : Act → Option Sys
  | .map dir sector nsect keep => s.stepMap g dir sector nsect keep
  | .lock b => s.stepLock g b
  | .invalMap b => s.stepInvalMap g b
  | .peek b victim => s.stepPeek g b victim
  | .dispatch b => s.stepDispatch b
  | .cachedRead b refused => s.stepCachedRead g b refused
  | .uwLock b => s.stepUwLock g b
  | .uwSubmit b refused => s.stepUwSubmit g b refused
  | .cwAlloc b err => s.stepCwAlloc b err
  | .cwLock b => s.stepCwLock g b
  | .cwSubmit b refused => s.stepCwSubmit g b refused
  | .cwFail b => s.stepCwFail g b
  | .diskIo b refused => s.stepDiskIo b refused
  | .put b => s.stepPut g b
  | .hddSector b x => s.stepHddSector b x
  | .hddDone b err => s.stepHddDone b err
  | .invalMain b => s.stepInvalMain g b
  | .flag b => s.stepFlag g b
  | .readDone b => s.stepReadDone g b
  | .readfillStart b => s.stepReadfillStart b
  | .readfill b => s.stepReadfill g b
  | .readfillSubmit b refused => s.stepReadfillSubmit g b refused
  | .mainEndio b => s.stepMainEndio g b
  | .ssdSector b k x => s.stepSsdSector g b k x
  | .ssdDone b k err => s.stepSsdDone g b k err
  | .ebEndio b k => s.stepEbEndio g b k
  | .reread b k refused => s.stepReread g b k refused
  | .rereadSector b k x => s.stepRereadSector b k x
  | .rereadDone b k err => s.stepRereadDone g b k err
  | .enqMd b => s.stepEnqMd g b
  | .doMd set => s.stepDoMd g set
  | .mdSubmit set refused => s.stepMdSubmit g set refused
  | .mdSector set p q => s.stepMdSector g set p q
  | .mdDone set p err => s.stepMdDone set p err
  | .postMd set => s.stepPostMd g set
  | .cleanStart set sel => s.stepCleanStart g set sel
  | .cleanReadSector i o => s.stepCleanReadSector g i o
  | .cleanReadDone err => s.stepCleanReadDone g err
  | .cleanWriteSector i o => s.stepCleanWriteSector g i o
  | .cleanWriteDone err => s.stepCleanWriteDone g err
  | .cleanMdSector q => s.stepCleanMdSector g q
  | .cleanMdDone err => s.stepCleanMdDone g err
  | .cleanFinish => s.stepCleanFinish g
  | .inval snum iosize => some (s.invalRound g snum iosize)
  | .suspend => if g.mode = .wb then none else some { s with degraded := true, cachedBlocks := 0 }

/-- The clock. -/
@[simps]
def tick (now : Nat) : Sys := { s with now := now }

/-- One step of the driver. After a failed assertion nothing happens any more. -/
def step (a : Act) : Option Sys :=
  if s.bug.isSome then none else (s.act g a).map fun s' => s'.tick (s.now + 1)

end Sys
end EnhanceIO
