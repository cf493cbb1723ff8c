import EnhanceIO.Meta
import Mathlib.Logic.Function.Basic
import Mathlib.Tactic.Simps.Basic

/-!
# Requests, devices and the state of the driver

The driver serves many bios at once; each is carried by one `bio_container`
and cut into `eio_bio`s, one per cache block. What runs concurrently is the
thread inside `eio_map`, the completions of the SSD and HDD I/Os, the read-fill
worker, the metadata-update workers and the cleaner. `Sys` is the state they
share, with the position of each of them (a program counter per bio for
`eio_map`, one for its HDD I/O, one per ebio) and the content of the two
devices.

Sector contents are abstract: a sector holds the number of the bio that wrote
it (`Tag`), or nothing yet.
-/

namespace EnhanceIO

/-- Whose data a sector holds: a bio, or the initial content. -/
abbrev Tag := Option Nat

/-- `bio_data_dir`. -/
inductive Dir where
  | read | write
  deriving DecidableEq, Repr

/-- `enum eio_io_dir`. -/
inductive IoDir where
  | invalidDir | cachedWrite | cachedRead | uncachedWrite | uncachedRead
  | uncachedReadAndReadfill
  deriving DecidableEq, Repr

/-- `eb_iotype`: the bits `EB_MAIN_IO`, `EB_SUBORDINATE_IO`, `EB_INVAL`. -/
abbrev IoType := BitVec 3

namespace IoType
def mainIo : IoType := 1
def subordinateIo : IoType := 2
def inval : IoType := 4
def hasInval (t : IoType) : Bool := t &&& inval != 0
end IoType

/-! ## Ebios -/

/-- What the peek found for an ebio: no block, a clean block to read, a block
to fill from the disk, a dirty block used in place, a block to write. -/
inductive Role where
  | miss | hit | fill | dirty | wr
  deriving DecidableEq, Repr

/-- How far an ebio has come. -/
inductive EbSt where
  /-- created, the peek has not run -/
  | new
  /-- the peek has run -/
  | peeked
  /-- `READCACHE` at the SSD -/
  | readCache
  /-- on the list of failed SSD reads (`eio_push_ssdread_failures`) -/
  | readFail
  /-- read again from the HDD (`eio_ssderror_diskread`) -/
  | reread
  /-- taken up by `eio_do_readfill`, job not yet submitted: `READFILL` of a
  block read from the disk, or `READCACHE` of a dirty block -/
  | fillIssue
  | dirtyIssue
  /-- `READFILL` at the SSD -/
  | readFill
  /-- prepared by `eio_uncached_write`, job not yet submitted -/
  | ucIssue
  /-- uncached write under way: whether the SSD half and the HDD half are over -/
  | uc (ssd disk : Bool)
  /-- uncached write of a dirty block that the SSD refused: whether the HDD
  half is over -/
  | ucLost (disk : Bool)
  /-- prepared by `eio_cached_write`, job not yet submitted -/
  | cwIssue
  /-- cached `WRITECACHE` at the SSD -/
  | cw
  /-- on `bc_mdlist` -/
  | mdList
  /-- on the `pending_mdlist` of its set -/
  | mdPend
  /-- on the `inprog_mdlist` of its set -/
  | mdProg
  /-- `eb_endio` has been called -/
  | done
  deriving DecidableEq, Repr

/-- `struct eio_bio`, without the page vectors. The sector range is in the
bio's list of segments. `todo` are calls of `eb_endio` that have been made and
not yet carried out, with their error; `ended` counts those carried out. -/
structure Ebio where
  iotype : IoType
  index : Option Nat
  holdcount : Int
  role : Role
  st : EbSt
  todo : List Int
  ended : Nat
  /-- result of its I/O to the SSD, once known -/
  ssdError : Option Int
  /-- sectors the device has transferred for the I/O in flight -/
  xfer : Nat → Bool

/-- `eio_new_ebio`. -/
def Ebio.init : Ebio where
  iotype := IoType.subordinateIo
  index := none
  holdcount := 1
  role := .miss
  st := .new
  todo := []
  ended := 0
  ssdError := none
  xfer := fun _ => false

/-- The `k`-th ebio of a bio. -/
abbrev EbId := Nat × Nat

/-! ## Bios -/

/-- Position of the thread that runs `eio_map`. -/
inductive MapPc where
  /-- not yet arrived -/
  | absent
  /-- `eio_acquire_set_locks`, with the sets still to lock -/
  | lock (rest : List Nat)
  /-- `eio_inval_range` before a forced uncached I/O; the size is in bytes -/
  | inval (snum iosize : Nat)
  /-- caught in the splitting loop -/
  | spin
  /-- `eio_read` or `eio_write`, at the peek of ebio `k` -/
  | peek (k : Nat)
  /-- `eio_cached_read` of ebio `k` -/
  | cachedRead (k : Nat)
  /-- `eio_uncached_write` of ebio `k`: locked section, then submission -/
  | uwLock (k : Nat)
  | uwSubmit (k : Nat)
  /-- `eio_alloc_mdreqs` -/
  | cwAlloc
  /-- `eio_cached_write` of ebio `k`: locked section, then submission -/
  | cwLock (k : Nat)
  | cwSubmit (k : Nat)
  /-- `eio_write` after a failed `eio_alloc_mdreqs` -/
  | cwFail (k : Nat) (err : Int)
  /-- `eio_disk_io` -/
  | diskIo
  /-- the final `bc_put` of `eio_map` -/
  | put
  | done
  deriving DecidableEq, Repr

/-- Position of the HDD I/O of a bio and of its completion. -/
inductive MainPc where
  | none
  | inflight
  /-- `eio_inval_range` on the range of the bio -/
  | inval (snum iosize : Nat) (err : Int)
  /-- `eio_flag_abios` at ebio `k` -/
  | flag (k : Nat) (invalidated : Bool) (err : Int)
  /-- `eio_uncached_read_done` at ebio `k` -/
  | readDone (k : Nat)
  /-- on `readfill_queue` -/
  | readfillQ
  /-- `eio_do_readfill` at ebio `k`: locked section, then submission -/
  | readfill (k : Nat)
  | readfillIssue (k : Nat)
  /-- the final `eb_endio` of the main ebio -/
  | endio (err : Int)
  | done
  deriving DecidableEq, Repr

/-- What does not change about a bio after it has arrived: the request, whether
it is `force_uncached`, how it was cut into ebios, and when it came. -/
structure Req where
  dir : Dir
  sector : Nat
  nsect : Nat
  forced : Bool
  segs : List Seg
  began : Nat

/-- `struct bio_container` with the main ebio of `eio_disk_io`. -/
structure Bio where
  holdcount : Int
  bcDir : IoDir
  error : Int
  mdwait : Int
  mdlist : List Nat
  /-- number of `mdupdate_request`s allocated for the bio -/
  mdreqs : Nat
  /-- `eio_enq_mdupdate` has been called and has not finished -/
  enq : Bool
  /-- set read locks held -/
  locks : List Nat
  pc : MapPc
  /-- `ucread` or `ucwrite` -/
  uc : Bool
  main : MainPc
  mainIotype : IoType
  /-- result of the HDD I/O, once known -/
  hddError : Option Int
  mainXfer : Nat → Bool
  /-- content of the pages of the bio -/
  buf : Nat → Tag
  /-- calls of `bio_endio`, with their error -/
  endio : List Int
  /-- when it was ended -/
  ended : Option Nat

def Req.absent : Req where
  dir := .read
  sector := 0
  nsect := 0
  forced := false
  segs := []
  began := 0

/-- A bio that has not arrived. -/
def Bio.absent : Bio where
  holdcount := 0
  bcDir := .invalidDir
  error := 0
  mdwait := 0
  mdlist := []
  mdreqs := 0
  enq := false
  locks := []
  pc := .absent
  uc := false
  main := .none
  mainIotype := 0
  hddError := none
  mainXfer := fun _ => false
  buf := fun _ => none
  endio := []
  ended := none

/-! ## Metadata updates and cleans -/

/-- `struct flash_cacheblock`: one on-disk metadata entry. -/
structure MdEntry where
  dbn : Nat
  state : State
  deriving DecidableEq

/-- Position of a metadata update. -/
inductive MdPhase where
  /-- `eio_do_mdupdate` is on the work queue -/
  | queued
  /-- `eio_do_mdupdate` at the submission of page `p` -/
  | submit (p : Nat)
  /-- all pages submitted, waiting for their completions -/
  | wait
  /-- `eio_post_mdupdate` is on the work queue -/
  | post
  deriving DecidableEq, Repr

/-- State of the write of one metadata page. -/
inductive PageIo where
  | idle | inflight | done
  deriving DecidableEq, Repr

/-- `struct mdupdate_request`. `image` are the entries written into the pages,
by position in the set; `bits` is `sector_bits`. -/
structure MdReq where
  phase : MdPhase
  pending : List EbId
  inprog : List EbId
  holdcount : Int
  error : Int
  image : Nat → MdEntry
  bits : Nat → Nat → Bool
  page : Nat → PageIo
  /-- sectors of a page the SSD has written -/
  xfer : Nat → Nat → Bool

/-- A fresh request for a set, as `eio_enq_mdupdate` takes it from the bio. -/
def MdReq.init : MdReq where
  phase := .queued
  pending := []
  inprog := []
  holdcount := 0
  error := 0
  image := fun _ => ⟨0, 0⟩
  bits := fun _ _ => false
  page := fun _ => .idle
  xfer := fun _ _ => false

/-- Position of `eio_clean_set`. -/
inductive CleanPhase where
  /-- reading the blocks from the SSD -/
  | read
  /-- writing them to the HDD -/
  | write
  /-- writing the metadata of the set -/
  | md
  /-- updating the in-core metadata, with the error met -/
  | finish (err : Int)
  deriving DecidableEq, Repr

/-- A running `eio_clean_set`. -/
structure Clean where
  set : Nat
  phase : CleanPhase
  /-- `clean_dbvecs`, by block index and offset -/
  buf : Nat → Nat → Tag
  image : Nat → MdEntry
  /-- block sectors (index, offset) or metadata sectors transferred in this phase -/
  xfer : Nat → Nat → Bool

/-! ## The whole driver -/

/-- Failed assertions and wild accesses. The first group are the assertions on
the cache state of a block, one constructor per function. -/
inductive Bug where
  | flagAbios | uncachedReadDone | postIoCallback | ssderrorDiskread | doReadfill
  | doMdupdate | postMdupdate | readPeek | writePeek | uncachedWrite | cachedWrite
  /-- the block does not hold the sector of the request: the `EIO_DBN_GET`
  assertions of `eio_post_io_callback` and `eio_do_readfill` -/
  | blockDbn
  /-- negative block index in `eio_inval_block_set_range` -/
  | invalIndex
  /-- `eio_md4_dbn_set`, `eio_md8_dbn_set` -/
  | dbnSet
  /-- more metadata pages than `eio_do_mdupdate` or `eio_clean_set` handle -/
  | mdPages
  /-- block index outside the metadata pages of the set -/
  | mdIndex
  /-- `bc_mdwait` not positive in `eio_md_write` -/
  | mdWrite
  /-- no request left in `eio_enq_mdupdate` -/
  | enqMdupdate
  /-- block size not handled by `setup_bio_vecs` -/
  | cleanBvecs
  /-- number of dirty blocks of a set would become negative -/
  | nrDirty
  /-- cached I/O on an ebio without a block -/
  | noBlock
  /-- cached write outside write-back mode -/
  | cachedWriteMode
  deriving DecidableEq, Repr

/-- The assertion is one on the cache state of a block. -/
def Bug.onState : Bug → Bool
  | .flagAbios | .uncachedReadDone | .postIoCallback | .ssderrorDiskread | .doReadfill
  | .doMdupdate | .postMdupdate | .readPeek | .writePeek | .uncachedWrite | .cachedWrite => true
  | _ => false

/-- The assertions that never fail, whatever the geometry: those on the cache state
of a block, and that `nr_dirty` of a set does not fall below zero. -/
def Bug.excluded : Bug → Bool
  | .nrDirty => true
  | x => x.onState

theorem Bug.onState_of_excluded {x : Bug} (h : x.excluded = false) : x.onState = false := by
  cases x <;> first | rfl | cases h

/-- The state of one cache, its devices and all requests. -/
structure Sys where
  md : Meta
  cachedBlocks : Nat
  /-- `nr_dirty` of a set -/
  setNrDirty : Nat → Nat
  nrDirty : Int
  degraded : Bool
  /-- `cache_rdonly`, set at shutdown -/
  rdonly : Bool
  /-- number of bios that have arrived; they are numbered in that order -/
  nbio : Nat
  req : Nat → Req
  bio : Nat → Bio
  ebio : EbId → Ebio
  mdreq : Nat → Option MdReq
  clean : Option Clean
  /-- source device, by sector -/
  hdd : Nat → Tag
  /-- data area of the cache device, by block index and offset -/
  ssd : Nat → Nat → Tag
  /-- metadata area of the cache device, by block index -/
  mdDisk : Nat → MdEntry
  /-- number of steps taken -/
  now : Nat
  /-- the first failed assertion; the machine has stopped -/
  bug : Option Bug

/-- A freshly created cache with no request in it. -/
def Sys.init (g : Geom) : Sys where
  md := Meta.create g
  cachedBlocks := 0
  setNrDirty := fun _ => 0
  nrDirty := 0
  degraded := false
  rdonly := false
  nbio := 0
  req := fun _ => Req.absent
  bio := fun _ => Bio.absent
  ebio := fun _ => Ebio.init
  mdreq := fun _ => none
  clean := none
  hdd := fun _ => none
  ssd := fun _ _ => none
  mdDisk := fun _ => ⟨0, State.invalid⟩
  now := 0
  bug := none

/-- The counters that `eio_cache_create` sets from the blocks. -/
structure BlockCount where
  cachedBlocks : Nat
  setNrDirty : Nat → Nat
  nrDirty : Int

/-- One turn of its loop. That the set of a dirty block is moved to the head of the list of
sets is left out: no counter depends on it. -/
def BlockCount.count (g : Geom) (md : Meta) (n : BlockCount) (i : Nat) : BlockCount :=
  let n := if (md.stateGet g i).has State.valid then
    { n with cachedBlocks := n.cachedBlocks + 1 } else n
  if (md.stateGet g i).has State.dirty then
    { n with
      setNrDirty := Function.update n.setNrDirty (i / g.assoc) (n.setNrDirty (i / g.assoc) + 1)
      nrDirty := n.nrDirty + 1 }
  else n

/-- The loop of `eio_cache_create` over the blocks. -/
def Meta.countBlocks (g : Geom) (md : Meta) : BlockCount :=
  (List.range g.size).foldl (BlockCount.count g md) ⟨0, fun _ => 0, 0⟩

/-- The cache that `eio_cache_create` leaves, with the blocks that it has made or that
`eio_md_load` has found, and with what is on the devices. -/
def Sys.created (g : Geom) (md : Meta) (hdd : Nat → Tag) (ssd : Nat → Nat → Tag)
    (mdDisk : Nat → MdEntry) : Sys :=
  let n := md.countBlocks g
  { Sys.init g with
    md := { md with indexZero := g.assoc }
    cachedBlocks := n.cachedBlocks
    setNrDirty := n.setNrDirty
    nrDirty := n.nrDirty
    hdd := hdd
    ssd := ssd
    mdDisk := mdDisk }

namespace Sys

variable (g : Geom) (s : Sys)

/-- Flags of block `i`. -/
def st (i : Nat) : State := s.md.stateGet g i

/-- Source sector of block `i`. -/
def dbn (i : Nat) : Nat := s.md.dbnGet g i

/-- The segment of an ebio. -/
def seg (e : EbId) : Seg := ((s.req e.1).segs[e.2]?).getD default

/-- `EIO_CACHE_STATE_SET`. -/
@[simps]
def setSt (i : Nat) (c : State) : Sys := { s with md := s.md.stateSet g i c }

/-- `EIO_DBN_SET`. -/
@[simps]
def setDbn (i : Nat) (d : Nat) : Sys := { s with md := s.md.dbnSet g i d }

/-- `EIO_CACHE_STATE_SET(.., INVALID)` with the counter of cached blocks. -/
@[simps]
def invalidate (i : Nat) : Sys :=
  { s.setSt g i State.invalid with cachedBlocks := s.cachedBlocks - 1 }

@[simps]
def updBio (b : Nat) (f : Bio → Bio) : Sys :=
  { s with bio := Function.update s.bio b (f (s.bio b)) }

@[simps]
def updEb (e : EbId) (f : Ebio → Ebio) : Sys :=
  { s with ebio := Function.update s.ebio e (f (s.ebio e)) }

/-- A failed `EIO_ASSERT`. -/
@[simps]
def fail (site : Bug) : Sys := { s with bug := some site }

end Sys

/-- A call of `eb_endio`. -/
def Ebio.endio (eb : Ebio) (err : Int) : Ebio :=
  { eb with st := .done, todo := eb.todo ++ [err] }

end EnhanceIO
