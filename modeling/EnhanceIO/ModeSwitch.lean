import EnhanceIO.Placed

/-!
# Cleaning across mode switches

`eio_cache_edit` of a write-back cache stops the clean thread, and then either starts it
again or, if the cache leaves write-back mode, frees what that mode needs
(`eio_free_wb_resources`). A later edit back to write-back allocates it anew
(`eio_allocate_wb_resources`), and there `eio_clean_thread_init` makes the clean queue
empty. The flags of the sets and `clean_pendings` are touched by neither.
-/

namespace EnhanceIO

/-- The cache with its dirty sets; `wb` says whether its mode is write-back. -/
structure ModeSets (g : Geom) where
  sets : DirtySets g
  wb : Bool

inductive ModeAct (g : Geom)
  /-- The machinery of write-back goes on. -/
  | sets (a : DirtyAct g)
  /-- `eio_stop_async_tasks`, up to its wait for the clean thread and from there on;
  `fastRemove` is `CACHE_FAST_REMOVE_IS_SET`. -/
  | stop
  | stopped (fastRemove : Bool)
  /-- `eio_finish_nrdirty` sets `EIO_CLEAN_KEEP` and `EIO_CLEAN_START`, and the edit clears
  them; between the two come its forced cleans. -/
  | doClean (on : Bool)
  /-- `eio_free_wb_resources`, and another mode. -/
  | leave
  /-- Write-back mode, and `eio_allocate_wb_resources`. -/
  | enter

namespace ModeSets

variable {g : Geom}

/-- What goes on in other modes too: threads that are on their way, and the sysctls. -/
def inAnyMode : DirtyAct g → Bool
  | .env _ => true
  | .run _ _ => true
  | _ => false

def setEnv (m : ModeSets g) (f : CleanEnv → CleanEnv) : ModeSets g :=
  { m with sets := { m.sets with shared := { m.sets.shared with env := f m.sets.shared.env } } }

def freeWbResources (m : ModeSets g) : ModeSets g where
  wb := false
  sets := { m.sets with
    shared := { m.sets.shared with dirtySetLru := DirtySetLru.init g.numSets } }

/-- `eio_clean_thread_init` makes the queue empty and starts the thread. -/
def allocateWbResources (m : ModeSets g) : ModeSets g where
  wb := true
  sets := { m.sets with
    shared := { m.sets.shared with
      dirtySetLru := DirtySetLru.init g.numSets
      cleanq := [] }
    cleanThread := .top }

def step (m : ModeSets g) : ModeAct g → Option (ModeSets g)
  | .sets a =>
    if m.wb || inAnyMode a then (m.sets.step a).map fun sets => { m with sets := sets }
    else none
  | .stop =>
    if m.wb then
      some (if m.sets.cleanThread = .stopped then m
        else m.setEnv fun env => { env with fastRemove := true })
    else none
  | .stopped fastRemove =>
    if m.wb ∧ m.sets.cleanThread = .stopped then
      some (m.setEnv fun env =>
        { env with fastRemove := fastRemove, timeBasedCleanInterval := 0 })
    else none
  | .doClean on => some (m.setEnv fun env => { env with doClean := on })
  | .leave => if m.wb ∧ m.sets.cleanThread = .stopped then some m.freeWbResources else none
  | .enter =>
    if m.wb = false ∧ m.sets.cleanThread = .stopped then some m.allocateWbResources else none

def init (g : Geom) (env : CleanEnv) (dirty : Fin g.numSets → Nat) : ModeSets g where
  sets := DirtySets.init g env dirty
  wb := true

abbrev Reachable (g : Geom) (env : CleanEnv) (dirty : Fin g.numSets → Nat)
    (P : ModeSets g → ModeAct g → Prop) : ModeSets g → Prop :=
  Run.Reach ModeSets.step P (init g env dirty)

/-- No set is left on the clean queue when the write-back resources are allocated. -/
def QueueEmpty (m : ModeSets g) : ModeAct g → Prop
  | .enter => m.sets.shared.cleanq = []
  | _ => True

instance (m : ModeSets g) (a : ModeAct g) : Decidable (m.QueueEmpty a) :=
  match a with
  | .enter => inferInstanceAs (Decidable (m.sets.shared.cleanq = []))
  | .sets _ | .stop | .stopped _ | .doClean _ | .leave => inferInstanceAs (Decidable True)

/-! ## The books -/

variable {m m' : ModeSets g}

/-- The books do not depend on the sysctls and the LRU list. -/
theorem accounted_setEnv (h : DirtySets.Accounted False m.sets) (f : CleanEnv → CleanEnv) :
    DirtySets.Accounted False (m.setEnv f).sets :=
  ⟨h.flags, h.pendings, nofun, h.sweep⟩

theorem accounted_enter (h : DirtySets.Accounted False m.sets)
    (hempty : m.sets.shared.cleanq = []) (hct : m.sets.cleanThread = .stopped) :
    DirtySets.Accounted False m.allocateWbResources.sets where
  flags x := by
    have hflags := h.flags x
    simp only [DirtySets.pcs, hct, hempty, CleanThread.pc] at hflags
    exact hflags
  pendings := by
    have hpend := h.pendings
    simp only [hct, hempty, CleanThread.busy] at hpend
    exact hpend
  covered := nofun
  sweep _ := h.sweep (by rw [hct]; rfl)

theorem accounted_step {a : ModeAct g} (h : DirtySets.Accounted False m.sets)
    (ha : m.QueueEmpty a) (hs : m.step a = some m') : DirtySets.Accounted False m'.sets := by
  cases a <;> simp only [ModeSets.step, Option.ite_none_right_eq_some] at hs
  case sets a =>
      obtain ⟨sets, hstep, rfl⟩ := Option.map_eq_some_iff.mp hs.2
      exact h.step hstep
  case stop =>
      obtain rfl := Option.some.inj hs.2
      split
      · exact h
      · exact accounted_setEnv h _
  case stopped fastRemove =>
      obtain rfl := Option.some.inj hs.2
      exact accounted_setEnv h _
  case doClean on =>
      cases hs
      exact accounted_setEnv h _
  case leave =>
      obtain rfl := Option.some.inj hs.2
      exact ⟨h.flags, h.pendings, nofun, h.sweep⟩
  case enter =>
      obtain rfl := Option.some.inj hs.2
      exact accounted_enter h ha hs.1.2

theorem Reachable.accounted {env : CleanEnv} {dirty : Fin g.numSets → Nat}
    (h : Reachable g env dirty QueueEmpty m) : DirtySets.Accounted False m.sets := by
  induction h with
  | init =>
    have hinit := DirtySets.accounted_init env dirty
    exact ⟨hinit.flags, hinit.pendings, nofun, hinit.sweep⟩
  | step a _ ha hs ih => exact accounted_step ih ha hs

/-- If the queue is empty whenever the write-back resources are allocated, then at any
time every flagged set is on the queue, on the list the clean thread works on, or in the
hands of a thread that cleans it or is about to queue it; and `clean_pendings` is 0 when
the queue is empty and the clean thread waits. -/
theorem cleaning_survives {env : CleanEnv} {dirty : Fin g.numSets → Nat}
    (h : Reachable g env dirty QueueEmpty m) :
    (∀ x, m.sets.shared.cleanInprog x = true →
      x ∈ m.sets.shared.cleanq ∨ x ∈ m.sets.setlist ∨
        ∃ pc ∈ m.sets.pcs, pc.holding = some x) ∧
    (m.sets.shared.cleanq = [] → m.sets.cleanThread = .wait →
      m.sets.shared.cleanPendings = 0) := by
  have ha := h.accounted
  constructor
  · intro x hx
    have hflags := ha.flags x
    rw [hx, Bool.toNat_true] at hflags
    by_cases hq : x ∈ m.sets.shared.cleanq
    · exact .inl hq
    · by_cases hl : x ∈ m.sets.setlist
      · exact .inr (.inl hl)
      · rw [List.count_eq_zero_of_not_mem hq, List.count_eq_zero_of_not_mem hl] at hflags
        have hpos : 0 < m.sets.pcs.countP (·.holds x) := by omega
        obtain ⟨pc, hpc, hholds⟩ := List.countP_pos_iff.mp hpos
        exact .inr (.inr ⟨pc, hpc, of_decide_eq_true hholds⟩)
  · intro hempty hwait
    have hlist := ha.sweep (by rw [hwait]; rfl)
    rw [ha.pendings, hempty, hlist, hwait]
    rfl

/-! ## A switch there and back -/

/-- Three blocks of set 1 become dirty, and the set is queued. -/
def queueSet : List (ModeAct smallCache) :=
  .sets (.mdupdate DirtySets.secondSet 3 false) ::
    List.replicate 10 (.sets (.run 0 false))

/-- The clean thread takes `n` steps. -/
def cleanThreadRuns (n : Nat) : List (ModeAct smallCache) :=
  List.replicate n (.sets (.cleanThread true none))

/-- `eio_stop_async_tasks`, and the forced clean of set 1. -/
def drain (turns : Nat) : List (ModeAct smallCache) :=
  [.stop] ++ cleanThreadRuns turns ++ [.stopped false, .doClean true,
    .sets (.force DirtySets.secondSet)] ++ List.replicate 7 (.sets (.run 1 true))

/-- The rest of the edit, and an edit back to write-back mode. -/
def thereAndBack : List (ModeAct smallCache) := [.leave, .doClean false, .enter]

/-- The clean thread of a cache that waits is stopped: it puts the queued set back. -/
theorem cleaning_survives_there_and_back : ∃ m : ModeSets smallCache,
    Reachable smallCache DirtySets.idleEnv (fun _ => 0) QueueEmpty m ∧ m.wb = true ∧
      m.sets.cleanThread = .wait ∧ m.sets.shared.cleanPendings = 0 := by
  obtain ⟨m, hm, hwb, hwait, hempty⟩ : ∃ m : ModeSets smallCache,
      Reachable smallCache DirtySets.idleEnv (fun _ => 0) QueueEmpty m ∧ m.wb = true ∧
        m.sets.cleanThread = .wait ∧ m.sets.shared.cleanq = [] :=
    Run.Reach.of_run (fun m a => decide (m.QueueEmpty a)) (fun _ _ h => of_decide_eq_true h)
      (cleanThreadRuns 5 ++ queueSet ++ drain 7 ++ thereAndBack ++ cleanThreadRuns 5)
      (by decide +kernel)
  exact ⟨m, hm, hwb, hwait, (cleaning_survives hm).2 hempty hwait⟩

/-- The clean thread is at the test of its loop when it is stopped, and leaves the set on
the queue. After the switch there and back the set is flagged but on no list, nobody holds
it, and `clean_pendings` is 1 while the queue is empty and the clean thread waits: set 1 is
never queued again, and no cache-wide clean is ever begun. -/
theorem cleaning_lost : ∃ m : ModeSets smallCache,
    Reachable smallCache DirtySets.idleEnv (fun _ => 0) (fun _ _ => True) m ∧ m.wb = true ∧
      m.sets.cleanThread = .wait ∧ m.sets.shared.cleanq = [] ∧ m.sets.setlist = [] ∧
      (∀ pc ∈ m.sets.pcs, pc = .done) ∧ m.sets.shared.cleanInprog (1 : Fin 4) = true ∧
      m.sets.shared.cleanPendings = 1 :=
  Run.Reach.of_run (fun _ _ => true) (fun _ _ _ => trivial)
    (queueSet ++ drain 1 ++ thereAndBack ++ cleanThreadRuns 5) (by decide +kernel)

end ModeSets

end EnhanceIO
