import EnhanceIO.Ownership

/-!
# Where the ebios of a bio can be

The positions of `eio_map` and of the HDD I/O of a bio determine, for each of
its ebios, how far it can have come: the loops of the driver go through the
ebios in order, so those before the loop variable have been handled and those
after it have not. `stage` is that map.
-/

namespace EnhanceIO

/-- Classes of positions of an ebio. -/
inductive Stage where
  /-- before the peek -/
  | fresh
  /-- after the peek of a read, of a write -/
  | read | write
  /-- after a peek that found what the cached path needs -/
  | readHit | writeHit
  /-- after a peek of a read that reserved no block to fill and met none dirty -/
  | readPlain
  /-- issued by `eio_cached_read` -/
  | cachedRead
  /-- `eio_uncached_write`: prepared; HDD half not over; HDD half over -/
  | ucIssue | ucOpen | ucClosed
  /-- `eio_cached_write`: prepared; issued -/
  | cwIssue | cwOpen
  /-- `eio_do_readfill`: prepared; issued -/
  | fillIssue | filled
  | ended
  deriving DecidableEq, Repr

namespace Stage

/-- What the stage says about an ebio. -/
def Ok : Stage → Role → EbSt → Prop
  | .fresh, r, st => r = .miss ∧ st = .new
  | .read, r, st => st = .peeked ∧ r ≠ .wr
  | .write, r, st => st = .peeked ∧ (r = .miss ∨ r = .dirty ∨ r = .wr)
  | .readHit, r, st => st = .peeked ∧ (r = .hit ∨ r = .dirty)
  | .writeHit, r, st => st = .peeked ∧ (r = .dirty ∨ r = .wr)
  | .readPlain, r, st => st = .peeked ∧ (r = .miss ∨ r = .hit)
  | .cachedRead, r, st =>
    (r = .hit ∧ (st = .readCache ∨ st = .readFail ∨ st = .reread)) ∨
      (r = .dirty ∧ st = .readCache) ∨ st = .done
  | .ucIssue, r, st => st = .ucIssue ∧ (r = .dirty ∨ r = .wr)
  | .ucOpen, r, st =>
    (st = .uc true false ∧ (r = .miss ∨ r = .dirty ∨ r = .wr)) ∨
      (st = .uc false false ∧ (r = .dirty ∨ r = .wr)) ∨ (st = .ucLost false ∧ r = .dirty)
  | .ucClosed, r, st =>
    (st = .uc false true ∧ (r = .dirty ∨ r = .wr)) ∨ (st = .ucLost true ∧ r = .dirty) ∨ st = .done
  | .cwIssue, r, st => st = .cwIssue ∧ (r = .dirty ∨ r = .wr)
  | .cwOpen, r, st =>
    (st = .cw ∧ (r = .dirty ∨ r = .wr)) ∨
      (r = .wr ∧ (st = .mdList ∨ st = .mdPend ∨ st = .mdProg)) ∨ st = .done
  | .fillIssue, r, st => (st = .fillIssue ∧ r = .fill) ∨ (st = .dirtyIssue ∧ r = .dirty)
  | .filled, r, st =>
    (st = .readFill ∧ r = .fill) ∨ (st = .readCache ∧ r = .dirty) ∨ st = .done
  | .ended, _, st => st = .done

end Stage

/-- The stage after the peek, by direction and by what the peeks found so far. -/
def peekStage (dir : Dir) (uc : Bool) : Stage :=
  match dir, uc with
  | .read, true => .read
  | .read, false => .readHit
  | .write, true => .write
  | .write, false => .writeHit

/-- The stage of an ebio whose HDD I/O is on its way. -/
def openStage : Dir → Stage
  | .read => .read
  | .write => .ucOpen

/-- The stage of an ebio passed by the completion of the HDD I/O. -/
def closedStage : Dir → Stage
  | .read => .filled
  | .write => .ucClosed

/-- The stage of ebio `k` once `eio_map` has issued everything. -/
def mainStage (dir : Dir) (main : MainPc) (k : Nat) : Stage :=
  match main with
  | .none => match dir with
    | .read => .cachedRead
    | .write => .cwOpen
  | .inflight | .inval _ _ _ => openStage dir
  | .flag j _ _ => if k < j then closedStage dir else openStage dir
  | .readDone j => if k < j then .filled else .readPlain
  | .readfillQ => .read
  | .readfill j => if k < j then .filled else .read
  | .readfillIssue j => if k < j then .filled else if k = j then .fillIssue else .read
  | .endio _ | .done => closedStage dir

/-- The stage of ebio `k`. -/
def stage (dir : Dir) (uc : Bool) (pc : MapPc) (main : MainPc) (k : Nat) : Stage :=
  match pc with
  | .absent | .lock _ | .inval _ _ | .spin => .fresh
  | .peek j => if k < j then peekStage dir uc else .fresh
  | .cachedRead j => if k < j then .cachedRead else .readHit
  | .uwLock j => if k < j then .ucOpen else .write
  | .uwSubmit j => if k < j then .ucOpen else if k = j then .ucIssue else .write
  | .cwAlloc => .writeHit
  | .cwLock j => if k < j then .cwOpen else .writeHit
  | .cwSubmit j => if k < j then .cwOpen else if k = j then .cwIssue else .writeHit
  | .cwFail j _ => if k < j then .ended else .writeHit
  | .diskIo => openStage dir
  | .put | .done => mainStage dir main k

theorem mainStage_eq_cwOpen {dir : Dir} {main : MainPc} {k : Nat}
    (h : mainStage dir main k = .cwOpen) : main = .none ∧ dir = .write := by
  cases main <;> cases dir <;> simp only [mainStage, openStage, closedStage, reduceCtorEq] at h
  case none.write => exact ⟨rfl, rfl⟩
  all_goals
    split at h
    · cases h
    · first | cases h | (split at h <;> cases h)

/-- Only the cached path leads to where a metadata update is waited for. -/
theorem stage_eq_cwOpen {dir : Dir} {uc : Bool} {pc : MapPc} {main : MainPc} {k : Nat}
    (h : stage dir uc pc main k = .cwOpen) :
    (∃ j, pc = .cwLock j) ∨ (∃ j, pc = .cwSubmit j) ∨
      (pc = .put ∨ pc = .done) ∧ main = .none ∧ dir = .write := by
  cases pc <;> simp only [stage] at h
  case cwLock j => exact .inl ⟨j, rfl⟩
  case cwSubmit j => exact .inr (.inl ⟨j, rfl⟩)
  case put => exact .inr (.inr ⟨.inl rfl, mainStage_eq_cwOpen h⟩)
  case done => exact .inr (.inr ⟨.inr rfl, mainStage_eq_cwOpen h⟩)
  case peek =>
    split at h
    · cases dir <;> cases uc <;> cases h
    · cases h
  case diskIo => cases dir <;> cases h
  case cachedRead | uwLock | cwFail => split at h <;> cases h
  case uwSubmit =>
    split at h
    · cases h
    · split at h <;> cases h
  all_goals cases h

/-- Holds an ebio has while it is not ended: `eb_holdcount`. -/
def holdsExpected : Role → EbSt → Int
  | .dirty, .ucIssue => 2
  | .dirty, .uc ssd disk => (if ssd then 0 else 1) + (if disk then 0 else 1)
  | .dirty, .ucLost disk => if disk then 1 else 2
  | _, _ => 1

/-- The invariant of one ebio. -/
structure EbOk (eb : Ebio) : Prop where
  index : eb.index = none ↔ eb.role = .miss
  inval : eb.iotype.hasInval = true → eb.role = .miss
  missInval : eb.st = .uc true false → eb.role = .miss → eb.iotype.hasInval = true
  hold : eb.st ≠ .done → eb.holdcount = holdsExpected eb.role eb.st
  live : eb.st ≠ .done → eb.todo = [] ∧ eb.ended = 0
  dead : eb.st = .done → eb.todo.length + eb.ended = 1
  new : eb.st = .new → eb.iotype.hasInval = false

theorem EbOk.init : EbOk Ebio.init := by
  constructor <;> simp [Ebio.init, IoType.hasInval, IoType.subordinateIo, IoType.inval,
    holdsExpected]

end EnhanceIO
