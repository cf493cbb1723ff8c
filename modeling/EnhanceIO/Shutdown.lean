import EnhanceIO.Acts
import EnhanceIO.Reload
import EnhanceIO.States

/-!
# Shutdown

How a running cache is saved when the machine goes down. Two ways lead to
`eio_md_store`. `eio_reboot_handling` takes `eio_ttc_lock`, which keeps new bios
out, waits for those in flight and for an edit of the cache to end, makes the
cache read-only, lets go of the lock and stores. `eio_notify_reboot` only stores.
Whichever comes first does it; the other finds the work done.

`Shutdown` is the state of the driver with what these functions and
`eio_cache_edit` share: the lock, the flags of the cache, the clean thread, and
the position of each of them. The blocks are read one after the other, so bios
and cleans may come between any two of them. The metadata pages reach the cache
device before the superblock is written; they are taken over in that step.
-/

namespace EnhanceIO

open State

/-- The same cache in another mode. -/
def Geom.withMode (g : Geom) (mode : Mode) : Geom := { g with mode := mode }

/-- The bio is counted in `nr_ios`: from the set locks to its end. -/
def Bio.counted (bc : Bio) : Bool :=
  match bc.pc with
  | .absent | .lock _ => false
  | _ => bc.endio.isEmpty

namespace Sys

variable (g : Geom) (s : Sys)

/-- The entry `eio_md_store` writes for block `i`. -/
def entry (i : Nat) : MdEntry := ⟨s.dbn g i, s.st g i &&& (invalid ||| valid ||| dirty)⟩

/-- No thread is in `eio_map`, where it has `eio_ttc_lock` for reading. -/
def noMaps : Prop := ∀ b < s.nbio, (s.bio b).pc = .absent ∨ (s.bio b).pc = .done

instance : Decidable s.noMaps := inferInstanceAs (Decidable (∀ b < _, _))

/-- `nr_ios`. -/
def nrIos : Nat := (List.range s.nbio).countP fun b => (s.bio b).counted

/-- Every bio that has arrived has been ended. -/
def allEnded : Prop := ∀ b < s.nbio, (s.bio b).pc = .absent ∨ (s.bio b).endio ≠ []

instance : Decidable s.allEnded := inferInstanceAs (Decidable (∀ b < _, _))

/-- The containers are freed when their bios end; here, all of them at once. -/
def forget : Sys :=
  { s with
    req := fun _ => Req.absent
    bio := fun _ => Bio.absent
    ebio := fun _ => Ebio.init }

end Sys

/-! ## Positions -/

/-- The two ways to save a cache. -/
inductive ShutPath where
  | reboot | notify
  deriving DecidableEq, Repr

/-- Position of the shutdown. -/
inductive ShutPc where
  | idle
  /-- `eio_reboot_handling` has the lock and waits until `nr_ios` is 0 -/
  | drain
  /-- it has the lock and looks at `CACHE_FLAGS_MOD_INPROG` -/
  | waitEdit
  /-- it sleeps without the lock until the edit is over -/
  | pause
  /-- `eio_clean_for_reboot`, if the cache is cold booted -/
  | clean (path : ShutPath)
  /-- `eio_md_store` at block `i` -/
  | store (path : ShutPath) (i : Nat)
  /-- the superblock has been written -/
  | stored (path : ShutPath)
  | done (path : ShutPath)
  deriving DecidableEq, Repr

/-- Position of `eio_cache_edit`, with the mode asked for, if any. -/
inductive EditPc where
  | idle
  /-- `eio_stop_async_tasks` -/
  | stop (mode : Option Mode)
  /-- `eio_finish_nrdirty`: before the lock, waiting for `nr_ios`, cleaning -/
  | finish (mode : Option Mode)
  | finishDrain (mode : Option Mode)
  | cleaning (mode : Option Mode)
  /-- before the lock, and waiting for `nr_ios` -/
  | lock (mode : Option Mode)
  | drain (mode : Option Mode)
  /-- `eio_sb_store` -/
  | store
  /-- at the label `out` -/
  | out
  deriving DecidableEq, Repr

/-- The edit is in the loop of `eio_finish_nrdirty`. -/
def EditPc.isCleaning : EditPc → Bool
  | .cleaning _ => true
  | _ => false

/-- Who takes `eio_ttc_lock` for writing. -/
inductive TtcHolder where
  | reboot | edit
  deriving DecidableEq, Repr

/-- Who calls `eio_clean_set`. -/
inductive Cleaner where
  | thread | edit | shutdown
  deriving DecidableEq, Repr

/-- The driver of a cache whose mode may be switched. -/
structure Running where
  sys : Sys
  mode : Mode
  cleanThread : Bool

namespace Running

/-- The cache in its present mode. -/
def geom (g : Geom) (r : Running) : Geom := g.withMode r.mode

/-- `eio_mode_switch`; a cache that becomes write-back gets a clean thread. -/
def switchMode (r : Running) : Option Mode → Running
  | some mode =>
    if mode = r.mode then r
    else
      { sys := r.sys.forget
        mode := mode
        cleanThread := r.cleanThread || mode = .wb }
  | none => r

end Running

/-- A cache and those who stop, edit and save it. -/
structure Shutdown extends Running where
  /-- holder of `eio_ttc_lock` -/
  ttc : Option TtcHolder
  /-- `CACHE_FLAGS_SHUTDOWN_INPROG` and `CACHE_FLAGS_MOD_INPROG` -/
  shutdownInprog : Bool
  modInprog : Bool
  /-- who has begun the clean that runs, if one runs -/
  cleaner : Cleaner
  shut : ShutPc
  edit : EditPc
  /-- `restart_async_task` of the edit -/
  restart : Bool
  /-- entries read by `eio_md_store` so far -/
  image : Nat → MdEntry
  /-- `sb_state`, in core and on the cache device -/
  sbState : BitVec 32
  sb : BitVec 32
  /-- the driver when `eio_md_store` had written every block and the superblock was due -/
  saved : Option Sys

/-- One step. `who` begins to clean a set; `failed` are the blocks whose metadata
could not be written, `err` is the error of a superblock write, of a switch of
policy or mode, or of the start of the clean thread. `fast` is `fast_remove`. -/
inductive ShutAct where
  | io (a : Act)
  | clean (who : Cleaner) (set : Nat) (sel : List Nat)
  | rebootLock
  | rebootDrained
  | rebootPause
  | rebootResume
  | rebootSeal
  | notify
  | store
  | storeBlock
  | storeSb (failed : List Nat) (err : Int)
  | shutEnd
  | editStart (mode : Option Mode)
  | editStop
  | finishLock
  | finishDrained
  | finishEnd (fast : Bool)
  | editLock
  | editSwitch (err : Int)
  | editStore (err : Int)
  | editEnd (err : Int)
  deriving DecidableEq, Repr

namespace Shutdown

/-- A new cache. -/
def init (g : Geom) : Shutdown where
  sys := Sys.init g
  mode := g.mode
  ttc := none
  shutdownInprog := false
  modInprog := false
  cleanThread := g.mode = .wb
  cleaner := .thread
  shut := .idle
  edit := .idle
  restart := false
  image := fun _ => ⟨0, 0⟩
  sbState := mdStateDirty
  sb := mdStateDirty
  saved := none

variable (g : Geom) (d : Shutdown)

/-- A clean begun by `who` is running. -/
def busy (who : Cleaner) : Bool := d.sys.clean.isSome && d.cleaner = who

/-- `eio_ttc_lock` can be taken for writing. -/
def lockFree : Prop := d.ttc = none ∧ d.sys.noMaps

instance : Decidable d.lockFree := inferInstanceAs (Decidable (_ ∧ _))

/-! ## I/O and cleans -/

/-- New bios wait for the lock. -/
def stepIo (a : Act) : Option Shutdown :=
  if a.isIo ∧ (a.isMap → d.ttc = none) then
    (d.sys.step (d.geom g) a).map fun s => { d with sys := s }
  else none

/-- The clean thread, the loop of `eio_clean_all` and `eio_clean_for_reboot` may
call `eio_clean_set`. -/
def mayClean : Cleaner → Prop
  | .thread => d.cleanThread = true
  | .edit => d.edit.isCleaning = true ∧ d.shutdownInprog = false
  | .shutdown => d.shut = .clean .reboot ∨ d.shut = .clean .notify

instance : DecidablePred d.mayClean
  | .thread => inferInstanceAs (Decidable (_ = _))
  | .edit => inferInstanceAs (Decidable (_ ∧ _))
  | .shutdown => inferInstanceAs (Decidable (_ ∨ _))

def stepClean (who : Cleaner) (set : Nat) (sel : List Nat) : Option Shutdown :=
  if d.mayClean who then
    (d.sys.step (d.geom g) (.cleanStart set sel)).map fun s => { d with sys := s, cleaner := who }
  else none

/-! ## `eio_reboot_handling` and `eio_notify_reboot` -/

def stepRebootLock : Option Shutdown :=
  if d.shut = .idle ∧ d.sys.degraded = false ∧ d.lockFree then
    some { d with shut := .drain, ttc := some .reboot }
  else none

def stepRebootDrained : Option Shutdown :=
  if d.shut = .drain ∧ d.sys.nrIos = 0 then
    some { d with shut := .waitEdit, shutdownInprog := true }
  else none

/-- An edit is under way: sleep without the lock, and take it again. Bios that
came in the meantime are not waited for. -/
def stepRebootPause : Option Shutdown :=
  if d.shut = .waitEdit ∧ d.modInprog then some { d with shut := .pause, ttc := none } else none

def stepRebootResume : Option Shutdown :=
  if d.shut = .pause ∧ d.lockFree then some { d with shut := .waitEdit, ttc := some .reboot }
  else none

/-- `eio_stop_async_tasks`, which waits for the clean thread; then the cache is
marked read-only and the lock is given back. -/
def stepRebootSeal : Option Shutdown :=
  if d.shut = .waitEdit ∧ d.modInprog = false ∧ d.busy .thread = false then
    some
      { d with
        sys := { d.sys with rdonly := true }
        cleanThread := false
        ttc := none
        shut := .clean .reboot }
  else none

def stepNotify : Option Shutdown :=
  if d.shut = .idle ∧ d.sys.degraded = false then some { d with shut := .clean .notify } else none

/-! ## `eio_md_store` -/

def stepStore : Option Shutdown :=
  match d.shut with
  | .clean path => if d.busy .shutdown then none else some { d with shut := .store path 0 }
  | _ => none

def stepStoreBlock : Option Shutdown :=
  match d.shut with
  | .store path i =>
    if i < g.size then
      some
        { d with image := Function.update d.image i (d.sys.entry g i), shut := .store path (i + 1) }
    else none
  | _ => none

/-- `num_dirty` is not 0. -/
def imageDirty : Bool := (List.range g.size).any fun i => (d.image i).state.has dirty

/-- `sb_state` at the end of `eio_md_store`. -/
def storedState (failed : List Nat) : BitVec 32 :=
  if failed ≠ [] then mdStateUnstable
  else if d.imageDirty g then mdStateFastclean
  else mdStateClean

/-- The metadata on the device once all blocks have been written. -/
def writeImage (failed : List Nat) : Sys :=
  { d.sys with
    mdDisk := fun i => if i < g.size ∧ i ∉ failed then d.image i else d.sys.mdDisk i }

def stepStoreSb (failed : List Nat) (err : Int) : Option Shutdown :=
  match d.shut with
  | .store path i =>
    if g.size ≤ i then
      some
        { d with
          sys := d.writeImage g failed
          sbState := d.storedState g failed
          sb := if err = 0 then d.storedState g failed else d.sb
          saved := if failed = [] then some (d.writeImage g failed) else none
          shut := .stored path }
    else none
  | _ => none

def stepShutEnd : Option Shutdown :=
  match d.shut with
  | .stored path => some { d with shutdownInprog := false, shut := .done path }
  | _ => none

/-! ## `eio_cache_edit` -/

def stepEditStart (mode : Option Mode) : Option Shutdown :=
  if d.edit = .idle ∧ d.sys.degraded = false ∧ d.shutdownInprog = false ∧ d.modInprog = false then
    some { d with edit := .stop mode, modInprog := true }
  else none

/-- `eio_stop_async_tasks` of a write-back cache. Unless write-back is asked for,
all its blocks are cleaned next, also when only the policy is to change. -/
def stepEditStop : Option Shutdown :=
  match d.edit with
  | .stop mode =>
    if d.mode = .wb then
      if d.busy .thread then none
      else
        some
          { d with
            cleanThread := false
            restart := true
            edit := if mode = some .wb then .lock mode else .finish mode }
    else some { d with restart := false, edit := .lock mode }
  | _ => none

def stepFinishLock : Option Shutdown :=
  match d.edit with
  | .finish mode =>
    if d.lockFree then some { d with ttc := some .edit, edit := .finishDrain mode } else none
  | _ => none

def stepFinishDrained : Option Shutdown :=
  match d.edit with
  | .finishDrain mode =>
    if d.sys.nrIos = 0 then some { d with ttc := none, edit := .cleaning mode } else none
  | _ => none

/-- The loop of `eio_finish_nrdirty` ends; with a shutdown under way and dirty
blocks left the edit is given up. -/
def stepFinishEnd (fast : Bool) : Option Shutdown :=
  match d.edit with
  | .cleaning mode =>
    if d.busy .edit = false ∧ (fast ∨ d.sys.nrDirty ≤ 0 ∨ d.shutdownInprog) then
      some { d with edit := if d.shutdownInprog ∧ 0 < d.sys.nrDirty then .out else .lock mode }
    else none
  | _ => none

def stepEditLock : Option Shutdown :=
  match d.edit with
  | .lock mode =>
    if d.lockFree then some { d with ttc := some .edit, edit := .drain mode } else none
  | _ => none

/-- Policy and mode are switched once no I/O is in flight. -/
def stepEditSwitch (err : Int) : Option Shutdown :=
  match d.edit with
  | .drain mode =>
    if d.sys.nrIos = 0 then
      if err ≠ 0 then some { d with ttc := none, edit := .out }
      else some { d with toRunning := d.switchMode mode, edit := .store }
    else none
  | _ => none

/-- When the superblock cannot be written the lock is not given back. -/
def stepEditStore (err : Int) : Option Shutdown :=
  match d.edit with
  | .store =>
    if err = 0 then some { d with sb := d.sbState, ttc := none, edit := .out }
    else some { d with edit := .out }
  | _ => none

def stepEditEnd (err : Int) : Option Shutdown :=
  match d.edit with
  | .out =>
    some
      { d with
        cleanThread := d.cleanThread || (d.mode = .wb && d.restart && err = 0)
        modInprog := false
        edit := .idle }
  | _ => none

/-! ## All together -/

/-- What an act does. -/
def act : ShutAct → Option Shutdown
  | .io a => d.stepIo g a
  | .clean who set sel => d.stepClean g who set sel
  | .rebootLock => d.stepRebootLock
  | .rebootDrained => d.stepRebootDrained
  | .rebootPause => d.stepRebootPause
  | .rebootResume => d.stepRebootResume
  | .rebootSeal => d.stepRebootSeal
  | .notify => d.stepNotify
  | .store => d.stepStore
  | .storeBlock => d.stepStoreBlock g
  | .storeSb failed err => d.stepStoreSb g failed err
  | .shutEnd => d.stepShutEnd
  | .editStart mode => d.stepEditStart mode
  | .editStop => d.stepEditStop
  | .finishLock => d.stepFinishLock
  | .finishDrained => d.stepFinishDrained
  | .finishEnd fast => d.stepFinishEnd fast
  | .editLock => d.stepEditLock
  | .editSwitch err => d.stepEditSwitch err
  | .editStore err => d.stepEditStore err
  | .editEnd err => d.stepEditEnd err

/-- One step. After a failed assertion nothing happens any more. -/
def step (a : ShutAct) : Option Shutdown := if d.sys.bug.isSome then none else d.act g a

/-- The states of a cache in runs all of whose steps satisfy `P`. -/
abbrev Reachable (P : Shutdown → ShutAct → Prop) : Shutdown → Prop :=
  Run.Reach (step g) P (init g)

end Shutdown
end EnhanceIO
