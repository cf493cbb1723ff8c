import EnhanceIO.Types

/-!
# Lookup, reservation and invalidation

`eio_lookup` with the two peeks that reserve a block for an ebio, and the range
invalidation. Each function here is one section under the lock of a cache set
(`cs_lock`), so one step of the model.
-/

namespace EnhanceIO

open State

/-- Result of `eio_lookup`: `VALID`, `INVALID` or `-1`. -/
inductive Lookup where
  | valid (index : Nat)
  | invalid (index : Nat)
  | none
  deriving DecidableEq, Repr

namespace Sys

variable (g : Geom) (s : Sys)

/-- First index of the scan of a set in `eio_lookup`. Both factors are unsigned
ints, and so is the product. -/
def startIndex (set : Nat) : Nat := g.assoc * set % 2 ^ 32

/-- `find_valid_dbn`. -/
def findValidDbn (dbn start : Nat) : Option Nat :=
  (List.range' start g.assoc).find? fun i =>
    (s.st g i).has valid && s.dbn g i == dbn

/-- `find_invalid_dbn`. -/
def findInvalidDbn (start : Nat) : Option Nat :=
  (List.range' start g.assoc).find? fun i => s.st g i == invalid

/-- `eio_lookup`. `victim` is the answer of the replacement policy. -/
def lookup (sector : Nat) (victim : Option Nat) : Lookup :=
  let dbn := g.roundSector sector
  let start := startIndex g (g.hashBlock dbn)
  match s.findValidDbn g dbn start with
  | some i => .valid i
  | none =>
    match s.findInvalidDbn g start, victim with
    | some i, _ => .invalid i
    | none, some i => .valid i
    | none, none => .none

/-- What every replacement policy promises of the block it gives up: it is in
the set and its flags are exactly `VALID`. -/
def VictimOk (sector : Nat) (victim : Option Nat) : Prop :=
  ∀ i ∈ victim, startIndex g (g.hashBlock (g.roundSector sector)) ≤ i ∧
    i < startIndex g (g.hashBlock (g.roundSector sector)) + g.assoc ∧ s.st g i = valid

instance (sector : Nat) (victim : Option Nat) : Decidable (s.VictimOk g sector victim) :=
  inferInstanceAs (Decidable (∀ i ∈ victim, _))

/-! ## The peeks -/

/-- The outcome of a peek that reserves nothing. -/
def peekMiss (e : EbId) (iotype : IoType) : Sys :=
  s.updEb e fun eb =>
    { eb with index := none, role := .miss, st := .peeked, iotype := eb.iotype ||| iotype }

/-- The outcome of a peek that takes block `i`. -/
def peekTake (e : EbId) (i : Nat) (role : Role) : Sys :=
  s.updEb e fun eb => { eb with index := some i, role := role, st := .peeked }

/-- A block is given to a new sector: flags, then sector. `fresh` blocks are
counted. -/
def recycle (i : Nat) (c : State) (dbn : Nat) (fresh : Bool) : Sys :=
  let s := (s.setSt g i c).setDbn g i dbn
  if fresh then { s with cachedBlocks := s.cachedBlocks + 1 } else s

/-- `eio_read_peek` reserving block `i` for a read-fill. -/
def readPeekFill (e : EbId) (i : Nat) (fresh : Bool) : Sys × Bool :=
  let seg := s.seg e
  if seg.nsect ≠ g.blockSize then (s.peekMiss e 0, false)
  else if ¬ g.dbnFits seg.sector then (s.fail .dbnSet, false)
  else
    let s := s.recycle g i (valid ||| diskReadInprog) seg.sector fresh
    ((s.peekTake e i .fill).updBio e.1 fun bc => { bc with bcDir := .uncachedReadAndReadfill },
      false)

/-- `eio_read_peek`, with its return value. -/
def readPeek (e : EbId) (victim : Option Nat) : Sys × Bool :=
  let seg := s.seg e
  match s.lookup g seg.sector victim with
  | .none => (s.peekMiss e 0, false)
  | .valid i =>
    let cstate := s.st g i
    if cstate.has (blockIoInprog ||| queued) then (s.peekMiss e 0, false)
    else if ¬ cstate.has valid then (s.fail .readPeek, false)
    else if s.dbn g i = g.roundSector seg.sector then
      if cstate = alreadyDirty then
        (((s.peekTake e i .dirty).updEb e fun eb => { eb with iotype := IoType.mainIo }).updBio
          e.1 fun bc => { bc with bcDir := .uncachedReadAndReadfill }, true)
      else ((s.setSt g i (cstate.on cacheReadInprog)).peekTake e i .hit, true)
    else if s.rdonly then (s.peekMiss e 0, false)
    else if cstate.has dirty then (s.fail .readPeek, false)
    else s.readPeekFill g e i false
  | .invalid i =>
    let cstate := s.st g i
    if cstate.has (blockIoInprog ||| queued) then (s.peekMiss e 0, false)
    else if s.rdonly then (s.peekMiss e 0, false)
    else if (s.seg e).nsect = g.blockSize ∧ ¬ cstate.has invalid then
      (s.fail .readPeek, false)
    else s.readPeekFill g e i true

/-- The count of blocks to be dirtied at the end of `eio_write_peek`. -/
def countMdwait (e : EbId) (alreadyDirty : Bool) : Sys :=
  if g.mode = .wb ∧ ¬ alreadyDirty then
    s.updBio e.1 fun bc => { bc with mdwait := bc.mdwait + 1 }
  else s

/-- `eio_write_peek` on a block that does not hold the sector. -/
def writePeekRecycle (e : EbId) (i : Nat) (fresh : Bool) : Sys × Bool :=
  let seg := s.seg e
  if (s.st g i).has dirty then (s.fail .writePeek, false)
  else if seg.nsect ≠ g.blockSize then (s.peekMiss e IoType.inval, false)
  else if ¬ g.dbnFits seg.sector then (s.fail .dbnSet, false)
  else
    (((s.recycle g i (valid ||| cacheWriteInprog) seg.sector fresh).peekTake e i
      .wr).countMdwait g e false, true)

/-- `eio_write_peek`, with its return value. -/
def writePeek (e : EbId) (victim : Option Nat) : Sys × Bool :=
  let seg := s.seg e
  match s.lookup g seg.sector victim with
  | .none => (s.peekMiss e IoType.inval, false)
  | .valid i =>
    let cstate := s.st g i
    if cstate.has (blockIoInprog ||| queued) then (s.peekMiss e IoType.inval, false)
    else if s.dbn g i = g.roundSector seg.sector then
      if cstate = alreadyDirty then (s.peekTake e i .dirty, true)
      else
        let s := (s.setSt g i (cstate.on cacheWriteInprog)).peekTake e i .wr
        if seg.nsect = g.blockSize then (s.countMdwait g e false, true) else (s, false)
    else s.writePeekRecycle g e i false
  | .invalid i =>
    let cstate := s.st g i
    if cstate.has (blockIoInprog ||| queued) then (s.peekMiss e IoType.inval, false)
    else s.writePeekRecycle g e i true

/-! ## Range invalidation -/

/-- What `eio_inval_block_set_range` does to block `i`, and whether the block
held part of the range. -/
def invalBlockAt (iosector endsector i : Nat) : Sys × Bool :=
  let c := s.st g i
  if c.has invalid then (s, false)
  else if endsector ≤ s.dbn g i ∨ s.dbn g i + g.blockSize ≤ iosector then (s, false)
  else if ¬ c.has (blockIoInprog ||| dirty ||| queued) then
    (s.invalidate g i, true)
  else if ¬ c.has (dirty ||| queued) then (s.setSt g i (c.on queued), true)
  else (s, true)

/-- The loop of `eio_inval_block_set_range` over the indices left; without
`multiblk` it stops at the first block that held part of the range. -/
def invalLoop (iosector endsector : Nat) (multiblk : Bool) : Sys → List Nat → Sys
  | s, [] => s
  | s, i :: rest =>
    match s.invalBlockAt g iosector endsector i with
    | (s, hit) => if hit ∧ ¬ multiblk then s else invalLoop iosector endsector multiblk s rest

/-- `eio_inval_block_set_range`. The loop variable and its bounds are ints: a
set that starts at or above `2 ^ 31` is addressed with a negative index, and
the one that ends at `2 ^ 31` has a negative end, so its loop does not run. -/
def invalBlockSetRange (set iosector iosize : Nat) (multiblk : Bool) : Sys :=
  let start := startIndex g set
  if 2 ^ 31 ≤ start then s.fail .invalIndex
  else if start + g.assoc = 2 ^ 31 then s
  else invalLoop g iosector (iosector + iosize / 512) multiblk s (List.range' start g.assoc)

/-- `eio_inval_block`. -/
def invalBlock (iosector : Nat) : Sys :=
  let iosector := g.roundSector iosector
  s.invalBlockSetRange g (g.hashBlock iosector) iosector (g.blockSize * 512 % 2 ^ 32) false

/-- Where the set of `snum` ends (`snext`). -/
def invalNext (snum : Nat) : Nat := (snum / g.sectorsPerSet + 1) * g.sectorsPerSet

/-- Bytes of the range in the set of `snum` (`ioinset`, cut to an unsigned int). -/
def invalInset (snum iosize : Nat) : Nat := min ((invalNext g snum - snum) * 512 % 2 ^ 32) iosize

/-- One round of `eio_inval_range`: the invalidation in the set of `snum`. -/
def invalRound (snum iosize : Nat) : Sys :=
  s.invalBlockSetRange g (g.hashBlock snum) snum (invalInset g snum iosize) true

end Sys
end EnhanceIO
