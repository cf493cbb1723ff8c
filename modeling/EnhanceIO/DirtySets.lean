import EnhanceIO.Geometry
import EnhanceIO.SetLru
import EnhanceIO.Lib.Run

/-!
# Which sets wait to be cleaned

A write-back cache remembers its dirty sets in three places: the LRU list
`dirty_set_lru`, the queue `cleanq` of the clean thread (with
`SETFLAG_CLEAN_INPROG` on the set), and the private list onto which the clean
thread moves that queue. Each is under its own lock, and the locks are dropped
between the moves. Here every stretch of code under one lock, and every read
without one, is a step; any number of metadata updates, threshold checks, scans
for aged sets and forced cleans run beside the clean thread, and their steps
interleave freely.
-/

namespace EnhanceIO

/-- What the steps read but do not write: sysctl values, the state of the cache
and the time. All of it may change between any two steps. -/
structure CleanEnv where
  dirtyHighThreshold : Nat
  dirtyLowThreshold : Nat
  dirtySetHighThreshold : Nat
  dirtySetLowThreshold : Nat
  timeBasedCleanInterval : Nat
  hz : Nat
  jiffies : Nat
  fastRemove : Bool
  doClean : Bool
  failed : Bool
  /-- `AUTOCLEAN_THRESHOLD_CROSSED`. -/
  autoclean : Bool

/-- The fields of the cache that the steps share. -/
structure CleanShared (g : Geom) where
  env : CleanEnv
  /-- `cache_sets[].nr_dirty`. -/
  setDirty : Fin g.numSets → Nat
  /-- `dmc->nr_dirty`. -/
  nrDirty : Int
  /-- `SETFLAG_CLEAN_INPROG`. -/
  cleanInprog : Fin g.numSets → Bool
  dirtySetLru : DirtySetLru g.numSets
  cleanq : List (Fin g.numSets)
  cleanPendings : Int
  cleanExcessDirty : Bool

namespace CleanShared

variable {g : Geom} (s : CleanShared g)

/-- `DIRTY_SET_THRESHOLD_CROSSED`. -/
def setCrossed (set : Fin g.numSets) : Bool :=
  s.env.dirtySetHighThreshold * g.assoc % 2 ^ 32 / 100 ≤ s.setDirty set &&
    s.env.dirtySetLowThreshold < s.env.dirtySetHighThreshold

/-- `DIRTY_CACHE_THRESHOLD_CROSSED`. -/
def cacheCrossed : Bool :=
  decide (s.env.dirtyHighThreshold * (g.size / 100) ≤ s.nrDirty - s.cleanPendings) &&
    decide (s.env.dirtyLowThreshold < s.env.dirtyHighThreshold)

/-- A set of the LRU list touched at `time` is not yet old enough to be cleaned. -/
def young (cur time : Nat) : Bool :=
  (cur + 2 ^ 64 - time) % 2 ^ 64 / s.env.hz < s.env.timeBasedCleanInterval * 60

/-- `eio_touch_set_lru`. -/
def touchSetLru (set : Fin g.numSets) : CleanShared g :=
  { s with dirtySetLru := s.dirtySetLru.touch set s.env.jiffies }

def setInprog (set : Fin g.numSets) (b : Bool) : CleanShared g :=
  { s with cleanInprog := fun x => if x = set then b else s.cleanInprog x }

def incDirty (set : Fin g.numSets) : CleanShared g :=
  { s with
    setDirty := fun x => if x = set then s.setDirty x + 1 else s.setDirty x
    nrDirty := s.nrDirty + 1 }

def decDirty (set : Fin g.numSets) : CleanShared g :=
  { s with
    setDirty := fun x => if x = set then s.setDirty x - 1 else s.setDirty x
    nrDirty := s.nrDirty - 1 }

end CleanShared

/-- Where `eio_addto_cleanq` returns to. -/
inductive CleanBack
  | cacheCheck
  | more (enqueued required : Int)
  | aged (cur : Nat)
  deriving DecidableEq

/-- What a thread does next. -/
inductive CleanPc (n : Nat)
  | done
  /-- `eio_post_mdupdate`: blocks of the set still to be marked dirty. -/
  | mdBlocks (set : Fin n) (left : Nat)
  /-- `eio_post_mdupdate`: before `eio_touch_set_lru`. -/
  | mdTouch (set : Fin n)
  /-- `eio_comply_dirty_thresholds`. -/
  | comply (set : Option (Fin n))
  /-- `eio_check_dirty_set_thresholds`. -/
  | setCheck (set : Fin n)
  /-- `eio_check_dirty_cache_thresholds`, from its test to its end. -/
  | cacheCheck
  | excess
  | require
  | remHead (enqueued required : Int)
  | more (enqueued required : Int)
  | excessEnd
  /-- `eio_clean_aged_sets`: the head of its loop, and the set it took. -/
  | aged (cur : Nat)
  | agedTest (set : Fin n) (cur : Nat)
  /-- `eio_addto_cleanq`: before the test of the flag, and with the flag set. -/
  | addto (set : Fin n) (back : CleanBack)
  | enqueue (set : Fin n) (back : CleanBack)
  /-- `eio_clean_set`. -/
  | cleanSet (set : Fin n) (force : Bool)
  | postpone (set : Fin n)
  | cleanBody (set : Fin n) (force : Bool)
  | cleanOut (set : Fin n) (force : Bool)
  | cleanTest (set : Fin n)
  | cleanTouch (set : Fin n)
  /-- The clean thread's fast remove branch. -/
  | putBack (set : Fin n)
  | putBackTouch (set : Fin n)
  deriving DecidableEq

def CleanBack.pc {n : Nat} : CleanBack → CleanPc n
  | cacheCheck => .cacheCheck
  | more enqueued required => .more enqueued required
  | aged cur => .aged cur

namespace CleanPc

variable {g : Geom}

/-- One step of a thread. `cleaned` decides whether a clean has another block
that is now clean; it is false once the I/O of the clean has failed. -/
def step (cleaned : Bool) (s : CleanShared g) :
    CleanPc g.numSets → Option (CleanShared g × CleanPc g.numSets)
  | done => none
  | mdBlocks set (left + 1) => some (s.incDirty set, mdBlocks set left)
  | mdBlocks set 0 => some (s, mdTouch set)
  | mdTouch set => some (s.touchSetLru set, comply (some set))
  | comply set =>
    if s.env.failed || s.env.autoclean then some (s, done)
    else
      match set with
      | some set => some (s, setCheck set)
      | none => some (s, cacheCheck)
  | setCheck set => some (s, if s.setCrossed set then addto set .cacheCheck else cacheCheck)
  | cacheCheck => some (s, if s.cacheCrossed then excess else done)
  | excess =>
    if s.cleanPendings ≠ 0 ∨ s.cleanExcessDirty then some (s, done)
    else some ({ s with cleanExcessDirty := true }, require)
  | require => some (s, remHead 0 (s.nrDirty - s.env.dirtyLowThreshold * g.size / 100))
  | remHead enqueued required =>
    match s.dirtySetLru.remHead with
    | none => some (s, excessEnd)
    | some (set, lru) => some ({ s with dirtySetLru := lru },
        addto set (.more (enqueued + s.setDirty set) required))
  | more enqueued required =>
    some (s, if enqueued ≤ required then remHead enqueued required else excessEnd)
  | excessEnd => some ({ s with cleanExcessDirty := false }, done)
  | aged cur =>
    match s.dirtySetLru.readHead with
    | none => some (s, done)
    | some (set, time) =>
      if s.young cur time then some (s, done)
      else some ({ s with dirtySetLru := s.dirtySetLru.rem set }, agedTest set cur)
  | agedTest set cur => some (s, if 0 < s.setDirty set then addto set (.aged cur) else aged cur)
  | addto set back =>
    if s.cleanInprog set then some (s, back.pc)
    else some (s.setInprog set true, enqueue set back)
  | enqueue set back =>
    some ({ s with cleanq := s.cleanq ++ [set], cleanPendings := s.cleanPendings + 1 }, back.pc)
  | cleanSet set force =>
    if s.env.failed ∨ s.setDirty set = 0 then some (s, cleanOut set force)
    else if !force && s.env.autoclean then some (s, postpone set)
    else some (s, cleanBody set force)
  | postpone set => some (s.touchSetLru set, cleanOut set false)
  | cleanBody set force =>
    if cleaned && 0 < s.setDirty set then some (s.decDirty set, cleanBody set force)
    else some (s, cleanOut set force)
  | cleanOut set force => some (if force then s else s.setInprog set false, cleanTest set)
  | cleanTest set => some (s, if s.setDirty set ≠ 0 then cleanTouch set else done)
  | cleanTouch set => some (s.touchSetLru set, done)
  | putBack set => some (s.setInprog set false, putBackTouch set)
  | putBackTouch set => some (s.touchSetLru set, done)

end CleanPc

/-- The clean thread (`eio_clean_thread_proc`). -/
inductive CleanThread (n : Nat)
  | stopped
  /-- The test of the outer loop. -/
  | top
  | complying (pc : CleanPc n)
  /-- Inside `eio_clean_all`. -/
  | cleaningAll (pc : CleanPc n)
  | test
  /-- Waiting for work; then the queue is moved to the private list. -/
  | wait
  /-- The test of the inner loop. -/
  | next
  | cleaning (pc : CleanPc n)
  deriving DecidableEq

/-- The cache with all its threads. -/
structure DirtySets (g : Geom) where
  shared : CleanShared g
  threads : List (CleanPc g.numSets)
  cleanThread : CleanThread g.numSets
  /-- The clean thread's private list. -/
  setlist : List (Fin g.numSets)

/-- What can happen. -/
inductive DirtyAct (g : Geom)
  /-- Sysctl values, the failed state, the load and the time change. -/
  | env (env : CleanEnv)
  /-- A metadata update for so many blocks of a set is done. -/
  | mdupdate (set : Fin g.numSets) (blocks : Nat) (error : Bool)
  /-- Someone calls `eio_comply_dirty_thresholds`. -/
  | comply (set : Option (Fin g.numSets))
  /-- The delayed work `eio_clean_aged_sets` runs. -/
  | aged
  /-- Someone calls `eio_clean_set` with `force`. -/
  | force (set : Fin g.numSets)
  /-- Thread `i` takes a step. -/
  | run (i : Nat) (cleaned : Bool)
  /-- The clean thread takes a step; in `eio_clean_all`, `target` is the next set. -/
  | cleanThread (cleaned : Bool) (target : Option (Fin g.numSets))
  /-- `eio_start_clean_thread`. -/
  | start

namespace DirtySets

variable {g : Geom}

def spawn (s : DirtySets g) (pc : CleanPc g.numSets) : DirtySets g :=
  { s with threads := s.threads ++ [pc] }

/-- The clean thread inside common code. -/
def runCommon (s : DirtySets g) (cleaned : Bool) (pc : CleanPc g.numSets)
    (wrap : CleanPc g.numSets → CleanThread g.numSets) : Option (DirtySets g) :=
  (pc.step cleaned s.shared).map fun (shared, pc) =>
    { s with shared := shared, cleanThread := wrap pc }

/-- One step of the clean thread. -/
def cleanThreadStep (s : DirtySets g) (cleaned : Bool) (target : Option (Fin g.numSets)) :
    Option (DirtySets g) :=
  match s.cleanThread with
  | .stopped => none
  | .top =>
    some { s with
      cleanThread := if s.shared.env.fastRemove then .stopped else .complying (.comply none) }
  | .complying .done =>
    some { s with cleanThread := if s.shared.env.doClean then .cleaningAll .done else .test }
  | .complying pc => s.runCommon cleaned pc .complying
  | .cleaningAll .done =>
    some { s with
      cleanThread := match target with
        | some set => .cleaningAll (.cleanSet set true)
        | none => .test }
  | .cleaningAll pc => s.runCommon cleaned pc .cleaningAll
  | .test => some { s with cleanThread := if s.shared.env.fastRemove then .stopped else .wait }
  | .wait =>
    if s.shared.cleanq = [] ∧ !s.shared.env.fastRemove ∧ !s.shared.env.doClean then none
    else some { s with
      shared := { s.shared with cleanq := [] }
      setlist := s.shared.cleanq
      cleanThread := .next }
  | .next =>
    match s.setlist with
    | [] => some { s with cleanThread := .top }
    | set :: rest => some { s with
        setlist := rest
        cleanThread := .cleaning
          (if s.shared.env.fastRemove then .putBack set else .cleanSet set false) }
  | .cleaning .done =>
    some { s with
      shared := { s.shared with cleanPendings := s.shared.cleanPendings - 1 }
      cleanThread := .next }
  | .cleaning pc => s.runCommon cleaned pc .cleaning

def step (s : DirtySets g) : DirtyAct g → Option (DirtySets g)
  | .env env => some { s with shared := { s.shared with env := env } }
  | .mdupdate set blocks error => some (s.spawn (if error then .done else .mdBlocks set blocks))
  | .comply set => some (s.spawn (.comply set))
  | .aged => some (s.spawn (if s.shared.env.failed then .done else .aged s.shared.env.jiffies))
  | .force set => some (s.spawn (.cleanSet set true))
  | .run i cleaned =>
    s.threads[i]?.bind fun pc =>
      (pc.step cleaned s.shared).map fun (shared, pc) =>
        { s with shared := shared, threads := s.threads.set i pc }
  | .cleanThread cleaned target => s.cleanThreadStep cleaned target
  | .start =>
    match s.cleanThread with
    | .stopped => some { s with cleanThread := .top }
    | _ => none

/-- The cache as `eio_cache_create` leaves it: the sets that were loaded with
dirty blocks have been touched. -/
def init (g : Geom) (env : CleanEnv) (dirty : Fin g.numSets → Nat) : DirtySets g where
  shared :=
    { env := env
      setDirty := dirty
      nrDirty := ((List.finRange g.numSets).map dirty).sum
      cleanInprog := fun _ => false
      dirtySetLru := ((List.finRange g.numSets).filter (0 < dirty ·)).foldl
        (fun lru set => lru.touch set env.jiffies) (DirtySetLru.init g.numSets)
      cleanq := []
      cleanPendings := 0
      cleanExcessDirty := false }
  threads := []
  cleanThread := .top
  setlist := []

/-- The states of every run. -/
abbrev Reachable (g : Geom) (env : CleanEnv) (dirty : Fin g.numSets → Nat) :
    DirtySets g → Prop :=
  Run.Reach DirtySets.step (fun _ _ => True) (init g env dirty)

end DirtySets

end EnhanceIO
