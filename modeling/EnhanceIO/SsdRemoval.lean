import EnhanceIO.Devices
import EnhanceIO.Lib.CStr
import EnhanceIO.Registry

/-!
# Removal of a SCSI device

The notifier `eio_notify_ssd_rm` hears of a removed device by its name. It may run in interrupt
context, so it only puts an entry on `ssd_rm_list` for each cache that it takes to be affected,
and schedules the work in which `eio_process_ssd_rm_list` calls `eio_suspend_caching` for the
entries.

Nothing is lost or delivered twice between the two. But the notifier compares no more bytes than
the removed name has, so it takes every cache to be affected one of whose names the removed name
is a prefix of.
-/

namespace EnhanceIO.Removal

open Devices

/-- `enum dev_notifier`. -/
inductive DevNotifier where
  | initializer
  | ssdAdd
  | ssdRemoved
  | srcRemoved
  deriving DecidableEq, Repr

/-- The action of a bus notification: `BUS_NOTIFY_DEL_DEVICE`, or another one. -/
inductive BusAction where
  | delDevice
  | other (action : Nat)
  deriving DecidableEq, Repr

/-- A `struct device`, as far as `scsi_is_sdev_device` and `dev_name` tell. -/
inductive Device where
  | sdev (name : Option CStr) (devt : Ttc.DevT)
  | other

/-- A cache on the list that starts at `cache_list_head`: its address and the names of its
devices, empty where the kernel has none. -/
structure CacheC where
  addr : Nat
  cacheGendiskName : CStr
  cacheSrcdiskName : CStr
  deriving DecidableEq

/-- `struct ssd_rm_list`. -/
structure RmEntry where
  dmc : CacheC
  action : BusAction
  devt : Ttc.DevT
  note : DevNotifier

/-- `ssd_rm_list` with its flag, and the caches by address. `suspended` are the calls of
`eio_suspend_caching` made so far. -/
structure Removals where
  ssdRmList : List RmEntry
  ssdRmListNotEmpty : Bool
  dmc : Nat → Dmc
  suspended : List (CacheC × DevNotifier)

/-! ## The notifier -/

/-- What the loop of `eio_notify_ssd_rm` finds out about a cache. -/
def CacheC.notify (c : CacheC) (deviceName : CStr) : DevNotifier :=
  let len := deviceName.strlen
  let checkSrc := CStr.get c.cacheSrcdiskName.bytes ≠ 0
  let checkSsd := CStr.get c.cacheGendiskName.bytes ≠ 0
  if ¬ checkSrc ∧ ¬ checkSsd then .initializer
  else
    let notify : DevNotifier :=
      if checkSsd ∧ deviceName.strncmp c.cacheGendiskName len = 0 then .ssdRemoved
      else .initializer
    if checkSrc ∧ deviceName.strncmp c.cacheSrcdiskName len = 0 then .srcRemoved else notify

namespace Removals

variable (s : Removals)

/-- An entry at the end of the list. -/
def push (e : RmEntry) : Removals :=
  { s with ssdRmList := s.ssdRmList ++ [e], ssdRmListNotEmpty := true }

/-- The loop of `eio_notify_ssd_rm`, and whether it came to its end. `mem` is the number of
entries there is memory for, `none` if no allocation fails. -/
def notifyLoop (deviceName : CStr) (action : BusAction) (devt : Ttc.DevT) :
    List CacheC → Option Nat → Removals → Removals × Bool
  | [], _, s => (s, true)
  | c :: caches, mem, s =>
    let note := c.notify deviceName
    if note = .initializer then notifyLoop deviceName action devt caches mem s
    else if mem = some 0 then (s, false)
    else notifyLoop deviceName action devt caches (mem.map (· - 1)) (s.push ⟨c, action, devt, note⟩)

def ENOMEM : Int := 12

/-- `eio_notify_ssd_rm`, with its result. That it ends with `schedule_work` if there are
entries has no effect on the list: the work may run at any time. -/
def eioNotifySsdRm (caches : List CacheC) (mem : Option Nat) (action : BusAction)
    (dev : Option Device) : Removals × Int :=
  if action ≠ .delDevice then (s, 0)
  else
    match dev with
    | none => (s, 0)
    | some .other => (s, 0)
    | some (.sdev none _) => (s, 0)
    | some (.sdev (some deviceName) devt) =>
      match notifyLoop deviceName action devt caches mem s with
      | (s, false) => (s, -ENOMEM)
      | (s, true) => (s, 0)

/-! ## The work -/

end Removals

/-- `eio_suspend_caching`. -/
def eioSuspendCaching (note : DevNotifier) (d : Dmc) : Dmc :=
  match note with
  | .srcRemoved => d.srcRemoved
  | .ssdRemoved => d.ssdRemoved
  | _ => d

namespace Removals

variable (s : Removals)

/-- One round of `eio_process_ssd_rm_list`. -/
def process (e : RmEntry) : Removals :=
  if e.action = .delDevice then
    { s with
      dmc := Function.update s.dmc e.dmc.addr (eioSuspendCaching e.note (s.dmc e.dmc.addr))
      suspended := s.suspended ++ [(e.dmc, e.note)] }
  else s

/-- `eio_process_ssd_rm_list`. -/
def eioProcessSsdRmList : Removals :=
  if s.ssdRmList = [] then s
  else { s.ssdRmList.foldl process s with ssdRmList := [], ssdRmListNotEmpty := false }

/-- The part of `eio_do_work` that is about removals. -/
def eioDoWork : Removals := if s.ssdRmListNotEmpty then s.eioProcessSsdRmList else s

end Removals

/-! ## What the notifier takes to be affected -/

/-- The entry that is made for a cache. -/
def CacheC.entry (deviceName : CStr) (action : BusAction) (devt : Ttc.DevT) (c : CacheC) :
    Option RmEntry :=
  if c.notify deviceName = .initializer then none
  else some ⟨c, action, devt, c.notify deviceName⟩

/-- As many as there is memory for. -/
def limit {α : Type*} (mem : Option Nat) (l : List α) : List α :=
  match mem with
  | none => l
  | some k => l.take k

theorem limit_cons {α : Type*} {mem : Option Nat} (hmem : mem ≠ some 0) (a : α) (l : List α) :
    limit mem (a :: l) = a :: limit (mem.map (· - 1)) l := by
  cases mem with
  | none => rfl
  | some k =>
    cases k with
    | zero => exact absurd rfl hmem
    | succ k => rfl

namespace Removals

/-- Several entries at the end of the list. -/
def pushAll (s : Removals) (es : List RmEntry) : Removals :=
  { s with
    ssdRmList := s.ssdRmList ++ es
    ssdRmListNotEmpty := s.ssdRmListNotEmpty || !es.isEmpty }

theorem pushAll_nil (s : Removals) : s.pushAll [] = s := by
  simp [pushAll]

theorem pushAll_cons (s : Removals) (e : RmEntry) (es : List RmEntry) :
    s.pushAll (e :: es) = (s.push e).pushAll es := by
  simp [pushAll, push]

/-- The loop makes the entries in the order of the caches, until the memory is used up. -/
theorem notifyLoop_eq (deviceName : CStr) (action : BusAction) (devt : Ttc.DevT)
    (caches : List CacheC) (mem : Option Nat) (s : Removals) :
    let entries := caches.filterMap (CacheC.entry deviceName action devt)
    (notifyLoop deviceName action devt caches mem s).1 = s.pushAll (limit mem entries) ∧
      ((notifyLoop deviceName action devt caches mem s).2 = true ↔
        limit mem entries = entries) := by
  induction caches generalizing mem s with
  | nil => cases mem <;> simp [notifyLoop, limit, pushAll_nil]
  | cons c caches ih =>
    by_cases hnote : c.notify deviceName = .initializer
    · have hnone : c.entry deviceName action devt = none := if_pos hnote
      simp only [notifyLoop, hnote, if_true, List.filterMap_cons_none hnone]
      exact ih mem s
    · have hsome : c.entry deviceName action devt =
          some ⟨c, action, devt, c.notify deviceName⟩ := if_neg hnote
      simp only [notifyLoop, hnote, if_false, List.filterMap_cons_some hsome]
      by_cases hmem : mem = some 0
      · subst hmem
        simp [limit, pushAll_nil]
      · obtain ⟨hstate, hend⟩ :=
          ih (mem.map (· - 1)) (s.push ⟨c, action, devt, c.notify deviceName⟩)
        simp only [hmem, if_false, limit_cons hmem, pushAll_cons, List.cons.injEq, true_and]
        exact ⟨hstate, hend⟩

/-- The notifier of a removal leaves its entries on the list and nothing else. -/
theorem eioNotifySsdRm_eq (s : Removals) (caches : List CacheC) (mem : Option Nat)
    (deviceName : CStr) (devt : Ttc.DevT) :
    (s.eioNotifySsdRm caches mem .delDevice (some (.sdev (some deviceName) devt))).1 =
      s.pushAll (limit mem (caches.filterMap (CacheC.entry deviceName .delDevice devt))) := by
  obtain ⟨hstate, -⟩ := notifyLoop_eq deviceName .delDevice devt caches mem s
  simp only [eioNotifySsdRm, ne_eq, not_true_eq_false, if_false]
  cases hloop : notifyLoop deviceName .delDevice devt caches mem s with
  | mk s' done =>
    rw [hloop] at hstate
    obtain rfl := hstate
    cases done <;> rfl

end Removals

/-! ## What the work delivers -/

/-- The calls of `eio_suspend_caching` for the entries of a list. -/
def calls (es : List RmEntry) : List (CacheC × DevNotifier) :=
  es.filterMap fun e => if e.action = .delDevice then some (e.dmc, e.note) else none

/-- The caches after these calls. -/
def suspendAll (dmc : Nat → Dmc) : List (CacheC × DevNotifier) → Nat → Dmc
  | [] => dmc
  | (c, note) :: rest =>
    suspendAll (Function.update dmc c.addr (eioSuspendCaching note (dmc c.addr))) rest

namespace Removals

theorem process_foldl (es : List RmEntry) (s : Removals) :
    es.foldl process s =
      { s with
        dmc := suspendAll s.dmc (calls es)
        suspended := s.suspended ++ calls es } := by
  induction es generalizing s with
  | nil => simp [calls, suspendAll]
  | cons e es ih =>
    rw [List.foldl_cons, ih, process]
    by_cases hact : e.action = .delDevice
    · simp [calls, hact, suspendAll]
    · simp [calls, hact]

theorem eioProcessSsdRmList_suspended (s : Removals) :
    s.eioProcessSsdRmList.suspended = s.suspended ++ calls s.ssdRmList := by
  rw [eioProcessSsdRmList]
  split
  · next hnil => simp [hnil, calls]
  · rw [process_foldl]

theorem eioProcessSsdRmList_list (s : Removals) : s.eioProcessSsdRmList.ssdRmList = [] := by
  rw [eioProcessSsdRmList]
  split
  · assumption
  · rfl

/-! ## Any number of notifications -/

/-- A notification arrives, or the scheduled work runs. -/
inductive RmAct where
  | notify (caches : List CacheC) (mem : Option Nat) (action : BusAction) (dev : Option Device)
  | work

def step (s : Removals) : RmAct → Removals
  | .notify caches mem action dev => (s.eioNotifySsdRm caches mem action dev).1
  | .work => s.eioDoWork

/-- The calls that a notification asks for. -/
def RmAct.requests : RmAct → List (CacheC × DevNotifier)
  | .notify caches mem .delDevice (some (.sdev (some deviceName) devt)) =>
    calls (limit mem (caches.filterMap (CacheC.entry deviceName .delDevice devt)))
  | _ => []

/-- The flag tells whether there are entries. -/
def FlagOk (s : Removals) : Prop := s.ssdRmListNotEmpty = !s.ssdRmList.isEmpty

/-- What has been asked for: the calls that were made and those that are still to come. -/
def asked (s : Removals) : List (CacheC × DevNotifier) := s.suspended ++ calls s.ssdRmList

theorem calls_append (es es' : List RmEntry) : calls (es ++ es') = calls es ++ calls es' :=
  List.filterMap_append

theorem step_work (s : Removals) (hflag : s.FlagOk) :
    s.eioDoWork.FlagOk ∧ s.eioDoWork.ssdRmList = [] ∧ s.eioDoWork.suspended = s.asked := by
  rw [FlagOk] at hflag
  by_cases hnil : s.ssdRmList = []
  · have hidle : s.eioDoWork = s := by simp [eioDoWork, hflag, hnil]
    rw [hidle]
    refine ⟨hflag, hnil, ?_⟩
    simp [asked, hnil, calls]
  · have hbusy : s.eioDoWork = s.eioProcessSsdRmList := by simp [eioDoWork, hflag, hnil]
    rw [hbusy]
    refine ⟨?_, s.eioProcessSsdRmList_list, s.eioProcessSsdRmList_suspended⟩
    simp [FlagOk, eioProcessSsdRmList, hnil]

theorem step_notify (s : Removals) (caches : List CacheC) (mem : Option Nat) (deviceName : CStr)
    (devt : Ttc.DevT) (hflag : s.FlagOk) :
    (s.step (.notify caches mem .delDevice (some (.sdev (some deviceName) devt)))).FlagOk ∧
      (s.step (.notify caches mem .delDevice (some (.sdev (some deviceName) devt)))).asked =
        s.asked ++
          calls (limit mem (caches.filterMap (CacheC.entry deviceName .delDevice devt))) := by
  rw [step, s.eioNotifySsdRm_eq caches mem deviceName devt]
  rw [FlagOk] at hflag
  constructor
  · simp only [FlagOk, pushAll, hflag]
    cases s.ssdRmList with
    | nil => rfl
    | cons e es => rfl
  · simp [asked, pushAll, calls_append]

/-- A step keeps the flag, and adds what it asks for. -/
theorem step_asked (s : Removals) (a : RmAct) (hflag : s.FlagOk) :
    (s.step a).FlagOk ∧ (s.step a).asked = s.asked ++ a.requests := by
  cases a with
  | work =>
    obtain ⟨hflag', hlist, hmade⟩ := s.step_work hflag
    refine ⟨hflag', ?_⟩
    show s.eioDoWork.asked = s.asked ++ []
    rw [asked, hlist, hmade, List.append_nil]
    exact List.append_nil _
  | notify caches mem action dev =>
    -- all but the removal of a SCSI device with a name leave at the top of the function
    cases action with
    | other => exact ⟨hflag, (List.append_nil _).symm⟩
    | delDevice =>
      cases dev with
      | none => exact ⟨hflag, (List.append_nil _).symm⟩
      | some dev =>
        cases dev with
        | other => exact ⟨hflag, (List.append_nil _).symm⟩
        | sdev deviceName devt =>
          cases deviceName with
          | none => exact ⟨hflag, (List.append_nil _).symm⟩
          | some deviceName => exact s.step_notify caches mem deviceName devt hflag

/-- Whenever the work has run, the calls that were made are those that were asked for, each of
them once and in their order. -/
theorem no_request_lost (s : Removals) (hflag : s.FlagOk) (acts : List RmAct) :
    ((acts.foldl step s).step .work).suspended = s.asked ++ acts.flatMap RmAct.requests := by
  have hrun : (acts.foldl step s).FlagOk ∧
      (acts.foldl step s).asked = s.asked ++ acts.flatMap RmAct.requests := by
    induction acts generalizing s with
    | nil => exact ⟨hflag, (List.append_nil _).symm⟩
    | cons a acts ih =>
      obtain ⟨hflag', hasked⟩ := s.step_asked a hflag
      obtain ⟨hend, heq⟩ := ih (s.step a) hflag'
      refine ⟨hend, ?_⟩
      rw [List.foldl_cons, heq, hasked, List.flatMap_cons, List.append_assoc]
  obtain ⟨-, -, hmade⟩ := (acts.foldl step s).step_work hrun.1
  exact hmade.trans hrun.2

end Removals

/-! ## Which caches -/

namespace CacheC

variable (c : CacheC) (name : CStr)

/-- The note a cache gets, if any. -/
def noted : Option DevNotifier :=
  if c.notify name = .initializer then none else some (c.notify name)

/-- The note a cache should get: one of its devices has the name. -/
def affected : Option DevNotifier :=
  if c.cacheSrcdiskName = name then some .srcRemoved
  else if c.cacheGendiskName = name then some .ssdRemoved
  else none

theorem notify_eq : c.notify name =
    if c.cacheSrcdiskName.bytes ≠ [] ∧ name.bytes <+: c.cacheSrcdiskName.bytes then .srcRemoved
    else if c.cacheGendiskName.bytes ≠ [] ∧ name.bytes <+: c.cacheGendiskName.bytes then .ssdRemoved
    else .initializer := by
  simp only [notify, CStr.strncmp_strlen_eq_zero, CStr.get_ne_zero]
  split
  · next hnone => simp [hnone.1, hnone.2]
  · rfl

theorem noted_eq : c.noted name =
    if c.cacheSrcdiskName.bytes ≠ [] ∧ name.bytes <+: c.cacheSrcdiskName.bytes then
      some .srcRemoved
    else if c.cacheGendiskName.bytes ≠ [] ∧ name.bytes <+: c.cacheGendiskName.bytes then
      some .ssdRemoved
    else none := by
  rw [noted, notify_eq]
  split
  · rfl
  · split <;> rfl

/-- No cache gets what it should when a device without a name is removed. -/
theorem noted_ne_affected (hname : name.bytes = []) : c.noted name ≠ c.affected name := by
  have heq : ∀ s : CStr, s = name ↔ s.bytes = [] := fun s => by
    rw [← hname, CStr.ext_bytes_iff]
  rw [noted_eq, affected]
  simp only [heq, hname, List.nil_prefix, and_true]
  by_cases hsrc : c.cacheSrcdiskName.bytes = []
  · by_cases hssd : c.cacheGendiskName.bytes = [] <;> simp [hsrc, hssd]
  · by_cases hssd : c.cacheGendiskName.bytes = [] <;> simp [hsrc, hssd]

theorem noted_eq_affected_iff (hname : name.bytes ≠ []) :
    c.noted name = c.affected name ↔
      ¬ c.cacheSrcdiskName.Extends name ∧
        (c.cacheGendiskName.Extends name → c.cacheSrcdiskName = name) := by
  -- what begins with the name is not empty
  have hfound : ∀ s : CStr, (s.bytes ≠ [] ∧ name.bytes <+: s.bytes) ↔
      s = name ∨ s.Extends name := by
    intro s
    rw [← CStr.isPrefix_iff]
    refine and_iff_right_of_imp fun hpre hs => hname ?_
    rwa [hs, List.prefix_nil] at hpre
  have hext : ∀ s : CStr, s = name → ¬ s.Extends name := fun s hs h => h.2 hs
  rw [noted_eq, affected]
  simp only [hfound]
  by_cases hsrc : c.cacheSrcdiskName = name
  · simp [hsrc, hext name rfl]
  · by_cases hlong : c.cacheSrcdiskName.Extends name
    · simp only [hsrc, hlong, or_true, if_true, if_false, not_true, false_and, iff_false]
      split <;> simp
    · by_cases hssd : c.cacheGendiskName = name
      · simp [hsrc, hlong, hssd, hext name rfl]
      · by_cases hlong' : c.cacheGendiskName.Extends name <;> simp [hsrc, hlong, hssd, hlong']

end CacheC

/-- The entries of a removal ask for the notes of the caches. -/
theorem calls_entries (name : CStr) (devt : Ttc.DevT) (caches : List CacheC) :
    calls (caches.filterMap (CacheC.entry name .delDevice devt)) =
      caches.filterMap fun c => (c.noted name).map (c, ·) := by
  rw [calls, List.filterMap_filterMap]
  congr 1
  ext1 c
  rw [CacheC.entry, CacheC.noted]
  split <;> rfl

/-- Results that carry their argument agree as lists only if they agree everywhere. -/
theorem filterMap_pair_inj {α β : Type*} {f g : α → Option β} {l : List α} :
    (l.filterMap fun a => (f a).map (a, ·)) = (l.filterMap fun a => (g a).map (a, ·)) ↔
      ∀ a ∈ l, f a = g a := by
  have hmem : ∀ {h : α → Option β} {a : α} {b : β}, a ∈ l →
      ((a, b) ∈ (l.filterMap fun a => (h a).map (a, ·)) ↔ h a = some b) := by
    intro h a b ha
    simp only [List.mem_filterMap, Option.map_eq_some_iff, Prod.mk.injEq]
    constructor
    · rintro ⟨_, -, _, hb, rfl, rfl⟩
      exact hb
    · intro hb
      exact ⟨a, ha, b, hb, rfl, rfl⟩
  constructor
  · intro heq a ha
    ext b
    rw [← hmem ha, heq, hmem ha]
  · intro heq
    apply List.filterMap_congr
    intro a ha
    rw [heq a ha]

/-- A removal with enough memory, and the work after it: the notes go to the caches that have a
device of the name, exactly if the removed device has a name (or there is no cache) and no name
of a source device goes on after it, nor a name of an SSD unless the source of that cache is the
removed device. -/
theorem removal_exact_iff (caches : List CacheC) (name : CStr) (devt : Ttc.DevT) (s : Removals) :
    (s.eioNotifySsdRm caches none .delDevice
        (some (.sdev (some name) devt))).1.eioProcessSsdRmList.suspended =
      s.eioProcessSsdRmList.suspended ++
        (caches.filterMap fun c => (c.affected name).map (c, ·)) ↔
      (name.bytes ≠ [] ∨ caches = []) ∧
        ∀ c ∈ caches, ¬ c.cacheSrcdiskName.Extends name ∧
          (c.cacheGendiskName.Extends name → c.cacheSrcdiskName = name) := by
  have hnotify := s.eioNotifySsdRm_eq caches none name devt
  have hmade : (s.eioNotifySsdRm caches none .delDevice
      (some (.sdev (some name) devt))).1.eioProcessSsdRmList.suspended =
        s.eioProcessSsdRmList.suspended ++
          caches.filterMap fun c => (c.noted name).map (c, ·) := by
    rw [hnotify, Removals.eioProcessSsdRmList_suspended, Removals.eioProcessSsdRmList_suspended]
    simp only [Removals.pushAll, limit, Removals.calls_append, calls_entries, List.append_assoc]
  rw [hmade, List.append_cancel_left_eq, filterMap_pair_inj]
  by_cases hname : name.bytes = []
  · constructor
    · intro heq
      have hnil : caches = [] := List.eq_nil_iff_forall_not_mem.mpr fun c hc =>
        c.noted_ne_affected name hname (heq c hc)
      subst hnil
      simp
    · rintro ⟨hnone, -⟩
      obtain rfl := hnone.resolve_left (not_not.mpr hname)
      simp
  · simp only [CacheC.noted_eq_affected_iff _ _ hname, hname, ne_eq, not_false_eq_true, true_or,
      true_and]

/-- Logical units 1 and 10 of one target. -/
def lun1 : CStr := ⟨[50, 58, 48, 58, 48, 58, 49], by decide⟩
def lun10 : CStr := ⟨[50, 58, 48, 58, 48, 58, 49, 48], by decide⟩

/-- A write-back cache whose SSD is logical unit 10; the source is no SCSI device. -/
def onLun10 : CacheC := ⟨1, lun10, .nil⟩

def healthy : Dmc where
  mode := cacheModeWb
  failed := false
  degraded := false
  ssdAddInprog := false
  stale := false
  shutdownInprog := false
  modInprog := false
  noSourceDev := false
  noCacheDev := false
  reqPolicy := cacheReplDefault
  policyOps := some cacheReplDefault
  ttcLock := false
  resume := .idle
  checked := []
  edit := .idle
  args := ⟨0, 0⟩
  returned := none
  bug := none

/-- Logical unit 1 is removed, and the cache on logical unit 10 fails. -/
theorem removal_hits_other_cache :
    onLun10.affected lun1 = none ∧
      ∃ s, ((⟨[], false, fun _ => healthy, []⟩ : Removals).eioNotifySsdRm [onLun10] none
          .delDevice (some (.sdev (some lun1) ⟨8, 16⟩))).1.eioProcessSsdRmList = s ∧
        s.suspended = [(onLun10, .ssdRemoved)] ∧ (s.dmc 1).failed = true := by
  refine ⟨by decide, _, rfl, ?_, ?_⟩
  · decide
  · decide

/-- The unit of a cache is removed twice before the work runs. -/
theorem no_request_lost_twice :
    (((List.replicate 2 (.notify [onLun10] none .delDevice
      (some (.sdev (some lun10) ⟨8, 16⟩)))).foldl Removals.step
        ⟨[], false, fun _ => healthy, []⟩).step .work).suspended =
      [(onLun10, .ssdRemoved), (onLun10, .ssdRemoved)] :=
  Removals.no_request_lost ⟨[], false, fun _ => healthy, []⟩ rfl _

end EnhanceIO.Removal
