import EnhanceIO.Lib.Run
import Mathlib.Algebra.BigOperators.Group.List.Basic
import Mathlib.Data.List.Perm.Basic
import Mathlib.Data.List.TakeWhile
import Mathlib.Tactic.Ring

/-!
# The read-fill queue

A read that misses puts a job in `readfill_queue` when its HDD read is done.
`eio_do_readfill`, the work of `readfill_wq`, takes the whole queue, processes it
without the lock, and looks again. `eio_enqueue_readfill` leaves the scheduling of the
work out when `readfill_in_prog` says that somebody is at it.

A step is a stretch of a call between two points where the lock is taken or released,
or one job. Several executions of the work may be under way at once.
-/

namespace EnhanceIO

/-- A job of the queue: its ebio and `job_io_regions.cache.sector`. -/
structure FillJob where
  ebio : Nat
  sector : Nat
  deriving DecidableEq, Repr

/-- Where an execution of `eio_do_readfill` is. -/
inductive FillPc
  /-- called, before it takes the lock -/
  | entered
  /-- with the rest of `joblist`, without the lock -/
  | drains (joblist : List FillJob)
  | done
  deriving DecidableEq, Repr

/-- The jobs an execution has in hand. -/
def FillPc.hand : FillPc → List FillJob
  | .drains joblist => joblist
  | _ => []

def FillPc.isDrain : FillPc → Bool
  | .drains _ => true
  | _ => false

/-- How far an execution is from its end when no job comes any more. -/
def FillPc.weight : FillPc → Nat
  | .entered => 2
  | .drains joblist => joblist.length + 1
  | .done => 0

@[simp] theorem FillPc.hand_entered : FillPc.entered.hand = [] := rfl
@[simp] theorem FillPc.hand_drains (l : List FillJob) : (FillPc.drains l).hand = l := rfl
@[simp] theorem FillPc.hand_done : FillPc.done.hand = [] := rfl
@[simp] theorem FillPc.isDrain_entered : FillPc.entered.isDrain = false := rfl
@[simp] theorem FillPc.isDrain_drains (l : List FillJob) : (FillPc.drains l).isDrain = true := rfl
@[simp] theorem FillPc.isDrain_done : FillPc.done.isDrain = false := rfl
@[simp] theorem FillPc.weight_entered : FillPc.entered.weight = 2 := rfl
@[simp] theorem FillPc.weight_drains (l : List FillJob) :
    (FillPc.drains l).weight = l.length + 1 := rfl
@[simp] theorem FillPc.weight_done : FillPc.done.weight = 0 := rfl

structure Readfill where
  queue : List FillJob
  inProg : Bool
  /-- the work is queued and no worker has taken it -/
  pending : Bool
  /-- calls of `eio_enqueue_readfill` that have set `do_schedule` and released the lock,
  before `schedule_work` -/
  toSchedule : Nat
  /-- the executions of the work so far -/
  execs : List FillPc
  /-- every job given to `eio_enqueue_readfill` so far -/
  enqueued : List FillJob
  /-- every job that has been through the loop over `joblist` -/
  processed : List FillJob
  deriving DecidableEq, Repr

inductive FillAct
  /-- `eio_enqueue_readfill` up to the release of the lock -/
  | enqueue (job : FillJob)
  /-- `schedule_work` of such a call -/
  | schedule
  /-- a worker takes the work and calls `eio_do_readfill` -/
  | start
  /-- execution `k` takes the lock for the first time -/
  | lock (k : Nat)
  /-- execution `k` processes the next job of `joblist` -/
  | job (k : Nat)
  /-- execution `k` is through with `joblist` and takes the lock again -/
  | relock (k : Nat)
  deriving DecidableEq, Repr

def FillAct.isEnqueue : FillAct → Bool
  | .enqueue _ => true
  | _ => false

namespace Readfill

def init : Readfill where
  queue := []
  inProg := false
  pending := false
  toSchedule := 0
  execs := []
  enqueued := []
  processed := []

/-- The insertion in order of cache sector. -/
def insert (job : FillJob) (queue : List FillJob) : List FillJob :=
  queue.takeWhile (·.sector < job.sector) ++ job :: queue.dropWhile (·.sector < job.sector)

/-- The head of the loop of execution `k`, under the lock: it takes the queue, or clears
`readfill_in_prog` and is done. -/
def loop (s : Readfill) (k : Nat) : Readfill :=
  if s.queue = [] then { s with inProg := false, execs := s.execs.set k .done }
  else { s with inProg := true, queue := [], execs := s.execs.set k (.drains s.queue) }

def step (s : Readfill) : FillAct → Option Readfill
  | .enqueue job => some
      { s with
        queue := insert job s.queue
        toSchedule := if s.inProg then s.toSchedule else s.toSchedule + 1
        enqueued := job :: s.enqueued }
  | .schedule =>
    if s.toSchedule = 0 then none
    else some { s with toSchedule := s.toSchedule - 1, pending := true }
  | .start =>
    if s.pending then some { s with pending := false, execs := s.execs ++ [.entered] } else none
  | .lock k =>
    match s.execs[k]? with
    | some .entered =>
      if s.inProg then some { s with execs := s.execs.set k .done } else some (s.loop k)
    | _ => none
  | .job k =>
    match s.execs[k]? with
    | some (.drains (j :: rest)) => some
        { s with execs := s.execs.set k (.drains rest), processed := j :: s.processed }
    | _ => none
  | .relock k =>
    match s.execs[k]? with
    | some (.drains []) => some (s.loop k)
    | _ => none

/-- The jobs that are in the hands of an execution. -/
def inHand (s : Readfill) : List FillJob := s.execs.flatMap FillPc.hand

/-- No job is lost or there twice, at most one execution drains the queue, and a queue that
nobody drains will be looked at: the work is scheduled, or an execution has begun and has
not taken the lock yet, or the call that put the job there is about to schedule the work. -/
structure Ok (s : Readfill) : Prop where
  jobs : s.enqueued.Perm (s.queue ++ s.inHand ++ s.processed)
  one : s.execs.countP FillPc.isDrain = s.inProg.toNat
  wakes : s.inProg = false → s.queue ≠ [] →
    s.pending = true ∨ FillPc.entered ∈ s.execs ∨ 0 < s.toSchedule

/-! ## One step -/

/-- An execution that is at some point, with those before and after it. -/
theorem split_execs {l : List FillPc} {k : Nat} {p : FillPc} (h : l[k]? = some p) :
    ∃ before after, l = before ++ p :: after ∧ ∀ p', l.set k p' = before ++ p' :: after := by
  obtain ⟨hk, hp⟩ := List.getElem?_eq_some_iff.mp h
  refine ⟨l.take k, l.drop (k + 1), ?_, fun p' => List.set_eq_take_append_cons_drop.trans ?_⟩
  · rw [← hp, List.cons_getElem_drop_succ, List.take_append_drop]
  · rw [if_pos hk]

/-- Moving one execution changes only its own jobs. -/
theorem count_hand_set {l : List FillPc} {k : Nat} {p : FillPc} (h : l[k]? = some p)
    (p' : FillPc) (j : FillJob) :
    ((l.set k p').flatMap FillPc.hand).count j + p.hand.count j =
      (l.flatMap FillPc.hand).count j + p'.hand.count j := by
  obtain ⟨before, after, hl, hset⟩ := split_execs h
  rw [hset, hl]
  simp only [List.flatMap_append, List.flatMap_cons, List.count_append]
  omega

theorem countP_isDrain_set {l : List FillPc} {k : Nat} {p : FillPc} (h : l[k]? = some p)
    (p' : FillPc) :
    (l.set k p').countP FillPc.isDrain + p.isDrain.toNat =
      l.countP FillPc.isDrain + p'.isDrain.toNat := by
  obtain ⟨before, after, hl, hset⟩ := split_execs h
  rw [hset, hl]
  simp only [List.countP_append, List.countP_cons]
  cases p.isDrain <;> cases p'.isDrain <;>
    simp only [Bool.toNat_true, Bool.toNat_false, if_true, Bool.false_eq_true, if_false] <;> omega

theorem insert_perm (job : FillJob) (queue : List FillJob) :
    (insert job queue).Perm (job :: queue) := by
  rw [insert]
  apply List.perm_middle.trans
  rw [List.takeWhile_append_dropWhile]

variable {s t : Readfill} {a : FillAct}

/-- What a step does. -/
inductive Does (s : Readfill) : FillAct → Readfill → Prop
  | enqueue (job : FillJob) : Does s (.enqueue job)
      { s with
        queue := insert job s.queue
        toSchedule := if s.inProg then s.toSchedule else s.toSchedule + 1
        enqueued := job :: s.enqueued }
  | schedule (h : s.toSchedule ≠ 0) : Does s .schedule
      { s with toSchedule := s.toSchedule - 1, pending := true }
  | start (h : s.pending = true) : Does s .start
      { s with pending := false, execs := s.execs ++ [.entered] }
  | leave (k : Nat) (h : s.execs[k]? = some .entered) (hprog : s.inProg = true) :
      Does s (.lock k) { s with execs := s.execs.set k .done }
  | take (k : Nat) (h : s.execs[k]? = some .entered) (hprog : s.inProg = false) :
      Does s (.lock k) (s.loop k)
  | job (k : Nat) (j : FillJob) (rest : List FillJob)
      (h : s.execs[k]? = some (.drains (j :: rest))) :
      Does s (.job k)
        { s with execs := s.execs.set k (.drains rest), processed := j :: s.processed }
  | again (k : Nat) (h : s.execs[k]? = some (.drains [])) : Does s (.relock k) (s.loop k)

theorem does_of_step (h : s.step a = some t) : Does s a t := by
  cases a with
  | enqueue job =>
    cases h
    exact .enqueue job
  | schedule =>
    simp only [step] at h
    split at h
    · cases h
    · next h0 =>
      cases h
      exact .schedule h0
  | start =>
    simp only [step] at h
    split at h
    · next hp =>
      cases h
      exact .start hp
    · cases h
  | lock k =>
    simp only [step] at h
    split at h
    · next hk =>
      split at h
      · next hprog =>
        cases h
        exact .leave k hk hprog
      · next hprog =>
        cases h
        exact .take k hk (by simpa using hprog)
    · cases h
  | job k =>
    simp only [step] at h
    split at h
    · next j rest hk =>
      cases h
      exact .job k j rest hk
    · cases h
  | relock k =>
    simp only [step] at h
    split at h
    · next hk =>
      cases h
      exact .again k hk
    · cases h

/-- Whoever is at the head of the loop has no job in hand, and nobody else drains. -/
theorem loop_ok {k : Nat} {p : FillPc} (hk : s.execs[k]? = some p) (hhand : p.hand = [])
    (hjobs : s.enqueued.Perm (s.queue ++ s.inHand ++ s.processed))
    (hone : s.execs.countP FillPc.isDrain = p.isDrain.toNat) : Ok (s.loop k) := by
  rw [List.perm_iff_count] at hjobs
  simp only [inHand, List.count_append] at hjobs
  rw [loop]
  split
  · next hq =>
    refine ⟨List.perm_iff_count.mpr fun j => ?_, ?_, fun _ hne => absurd hq hne⟩
    · have hset := count_hand_set hk .done j
      have := hjobs j
      simp only [hhand, FillPc.hand_done, inHand, List.count_append,
        List.count_nil] at hset ⊢
      omega
    · have hset := countP_isDrain_set hk .done
      simp only [FillPc.isDrain_done, Bool.toNat_false] at hset ⊢
      omega
  · refine ⟨List.perm_iff_count.mpr fun j => ?_, ?_, fun hprog => Bool.noConfusion hprog⟩
    · have hset := count_hand_set hk (.drains s.queue) j
      have := hjobs j
      simp only [hhand, FillPc.hand_drains, inHand, List.count_append, List.count_nil] at hset ⊢
      omega
    · have hset := countP_isDrain_set hk (.drains s.queue)
      simp only [FillPc.isDrain_drains, Bool.toNat_true] at hset ⊢
      omega

/-- An execution that drains has set `readfill_in_prog`. -/
theorem Ok.inProg_of_drains (h : Ok s) {k : Nat} {l : List FillJob}
    (hk : s.execs[k]? = some (.drains l)) : s.inProg = true := by
  cases hprog : s.inProg with
  | true => rfl
  | false =>
    have hone := h.one
    rw [hprog] at hone
    exact absurd rfl (List.countP_eq_zero.mp hone _ (List.mem_of_getElem? hk))

theorem Ok.does (h : Ok s) (hd : Does s a t) : Ok t := by
  cases hd with
  | enqueue job =>
    refine ⟨?_, h.one, fun hprog _ => ?_⟩
    · have hins := insert_perm job s.queue
      exact (h.jobs.cons job).trans ((hins.symm.append_right s.inHand).append_right s.processed)
    · -- the call has seen that nobody drains the queue
      have hprog' : s.inProg = false := hprog
      simp [hprog']
  | schedule _ => exact ⟨h.jobs, h.one, fun _ _ => .inl rfl⟩
  | start _ =>
    refine ⟨?_, ?_, fun _ _ => .inr (.inl (by simp))⟩
    · simpa [inHand] using h.jobs
    · simpa using h.one
  | leave k hk hprog =>
    refine ⟨List.perm_iff_count.mpr fun j => ?_, ?_, fun hno => ?_⟩
    · have hset := count_hand_set hk .done j
      have := h.jobs.count_eq j
      simp only [FillPc.hand_entered, FillPc.hand_done, inHand, List.count_append,
        List.count_nil] at hset this ⊢
      omega
    · have hset := countP_isDrain_set hk .done
      rw [h.one] at hset
      exact hset
    · rw [show s.inProg = false from hno] at hprog
      cases hprog
  | take k hk hprog =>
    refine loop_ok hk rfl h.jobs ?_
    rw [h.one, hprog]
    rfl
  | job k j rest hk =>
    refine ⟨List.perm_iff_count.mpr fun x => ?_, ?_, fun hno => ?_⟩
    · have hset := count_hand_set hk (.drains rest) x
      have := h.jobs.count_eq x
      simp only [FillPc.hand_drains, inHand, List.count_append, List.count_cons] at hset this ⊢
      omega
    · have hset := countP_isDrain_set hk (.drains rest)
      rw [h.one] at hset
      exact Nat.add_right_cancel hset
    · have := h.inProg_of_drains hk
      rw [show s.inProg = false from hno] at this
      cases this
  | again k hk =>
    refine loop_ok hk rfl h.jobs ?_
    rw [h.one, h.inProg_of_drains hk]
    rfl

theorem Ok.init : Ok init := ⟨.refl _, rfl, fun _ h => absurd rfl h⟩

/-! ## The end of the work -/

/-- Bound on the steps left when no job comes any more. -/
def left (s : Readfill) : Nat :=
  4 * s.toSchedule + 3 * s.pending.toNat + (s.execs.map FillPc.weight).sum + 2 * s.queue.length

theorem sum_weight_set {l : List FillPc} {k : Nat} {p : FillPc} (h : l[k]? = some p)
    (p' : FillPc) :
    ((l.set k p').map FillPc.weight).sum + p.weight = (l.map FillPc.weight).sum + p'.weight := by
  obtain ⟨before, after, hl, hset⟩ := split_execs h
  rw [hset, hl]
  simp only [List.map_append, List.map_cons, List.sum_append, List.sum_cons]
  omega

/-- An execution at the head of the loop moves the jobs of the queue into its hands, or
comes to its end. -/
theorem loop_left {k : Nat} {p : FillPc} (hk : s.execs[k]? = some p) (hp : 1 ≤ p.weight) :
    (s.loop k).left < s.left := by
  rw [loop]
  split
  · have hset := sum_weight_set hk .done
    simp only [left, FillPc.weight_done] at hset ⊢
    omega
  · next hq =>
    have hset := sum_weight_set hk (.drains s.queue)
    have hpos := List.length_pos_iff.mpr hq
    simp only [left, FillPc.weight_drains, List.length_nil] at hset ⊢
    omega

/-- Every step but a new job brings the end nearer. -/
theorem Does.left_lt (h : Does s a t) (ha : a.isEnqueue = false) : t.left < s.left := by
  cases h with
  | enqueue job => cases ha
  | schedule h =>
    have := Bool.toNat_le s.pending
    simp only [left, Bool.toNat_true]
    omega
  | start h =>
    simp only [left, h, Bool.toNat_true, Bool.toNat_false, List.map_append, List.map_cons,
      List.map_nil, List.sum_append, List.sum_cons, List.sum_nil, FillPc.weight_entered]
    omega
  | leave k hk _ =>
    have hset := sum_weight_set hk .done
    simp only [left, FillPc.weight_entered, FillPc.weight_done] at hset ⊢
    omega
  | take k hk _ => exact loop_left hk (by simp)
  | job k j rest hk =>
    have hset := sum_weight_set hk (.drains rest)
    simp only [left, FillPc.weight_drains, List.length_cons] at hset ⊢
    omega
  | again k hk => exact loop_left hk (by simp)

/-- No call of `eio_enqueue_readfill` and no execution of the work can go on. -/
def Quiet (s : Readfill) : Prop := ∀ a, a.isEnqueue = false → s.step a = none

/-- When all is quiet the executions are done. -/
theorem Quiet.execs_done (h : Quiet s) : ∀ p ∈ s.execs, p = .done := by
  intro p hp
  obtain ⟨k, hk⟩ := List.mem_iff_getElem?.mp hp
  cases p with
  | done => rfl
  | entered =>
    have := h (.lock k) rfl
    simp only [step, hk] at this
    split at this <;> cases this
  | drains l =>
    cases l with
    | nil =>
      have := h (.relock k) rfl
      simp only [step, hk] at this
      cases this
    | cons j rest =>
      have := h (.job k) rfl
      simp only [step, hk] at this
      cases this

/-- When all is quiet every job has been processed. -/
theorem Ok.processed_of_quiet (h : Ok s) (hq : Quiet s) : s.processed.Perm s.enqueued := by
  have hdone := hq.execs_done
  have hhand : s.inHand = [] := by
    rw [inHand, List.flatMap_eq_nil_iff]
    intro p hp
    rw [hdone p hp]
    rfl
  have hprog : s.inProg = false := by
    have hone := h.one
    rw [List.countP_eq_zero.mpr (fun p hp => by rw [hdone p hp]; decide)] at hone
    cases hb : s.inProg with
    | false => rfl
    | true => simp [hb] at hone
  have hqueue : s.queue = [] := by
    by_contra hne
    rcases h.wakes hprog hne with hp | hin | hto
    · have := hq .start rfl
      simp [step, hp] at this
    · cases hdone _ hin
    · have := hq .schedule rfl
      simp only [step] at this
      rw [if_neg (by omega)] at this
      cases this
  have hjobs := h.jobs
  rw [hhand, hqueue] at hjobs
  exact hjobs.symm

/-- Every run of the queue: no job is lost or processed twice, at most one execution drains
the queue, a queue nobody drains will be looked at; and when no job comes any more, the work
ends, with all jobs processed. -/
theorem readfill_loses_no_job {s : Readfill} (h : Run.Reach step (fun _ _ => True) init s) :
    Ok s ∧ s.execs.countP FillPc.isDrain ≤ 1 ∧
      ∀ as t, Run.exec step (fun _ a => !a.isEnqueue) s as = some t →
        as.length ≤ s.left ∧ (Quiet t → t.processed.Perm t.enqueued) := by
  have hok : ∀ {u : Readfill}, Run.Reach step (fun _ _ => True) init u → Ok u := by
    intro u hu
    exact hu.invariant Ok.init fun hi _ hs => hi.does (does_of_step hs)
  refine ⟨hok h, ?_, fun as t hrun => ⟨?_, fun hq => ?_⟩⟩
  · rw [(hok h).one]
    exact Bool.toNat_le _
  · have := Run.exec_left left (fun u a v hu hs =>
      (does_of_step hs).left_lt (by simpa using hu)) hrun
    omega
  · exact (hok (h.of_exec (fun _ _ _ => trivial) hrun)).processed_of_quiet hq

/-- Two jobs, the second put in the queue while the first is being processed. -/
theorem readfill_processes_two : ∃ s, Run.Reach step (fun _ _ => True) init s ∧
    s.enqueued = [⟨1, 8⟩, ⟨0, 0⟩] ∧ s.processed = [⟨1, 8⟩, ⟨0, 0⟩] ∧
      Ok s ∧ s.execs.countP FillPc.isDrain ≤ 1 ∧
      ∀ as t, Run.exec step (fun _ a => !a.isEnqueue) s as = some t →
        as.length ≤ s.left ∧ (Quiet t → t.processed.Perm t.enqueued) := by
  have hrun : ∃ s, Run.Reach step (fun _ _ => True) init s ∧
      s.enqueued = [⟨1, 8⟩, ⟨0, 0⟩] ∧ s.processed = [⟨1, 8⟩, ⟨0, 0⟩] :=
    Run.Reach.of_run (fun _ _ => true) (fun _ _ _ => trivial)
      [.enqueue ⟨0, 0⟩, .schedule, .start, .lock 0, .enqueue ⟨1, 8⟩, .job 0, .relock 0, .job 0,
        .relock 0] (by decide)
  obtain ⟨s, hs, henq, hproc⟩ := hrun
  exact ⟨s, hs, henq, hproc, readfill_loses_no_job hs⟩

/-- Between the release of the lock and `schedule_work` there is a job in the queue, nobody
drains it, and no execution is scheduled or under way. -/
theorem readfill_not_scheduled_yet : ∃ s, Run.Reach step (fun _ _ => True) init s ∧
    s.inProg = false ∧ s.queue ≠ [] ∧ s.pending = false ∧ s.execs = [] :=
  Run.Reach.of_run (fun _ _ => true) (fun _ _ _ => trivial) [.enqueue ⟨0, 0⟩] (by decide)

end Readfill
end EnhanceIO
