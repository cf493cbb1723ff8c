import EnhanceIO.Geometry
import EnhanceIO.Lib.Run

/-!
# Devices that come and go, and edits of a cache

`eio_suspend_caching` hears of the removal of the SSD or of the source device,
`eio_resume_caching` of a new SSD, and `eio_cache_edit` changes the mode or the
replacement policy. The flags of the cache are tested and changed in short critical
sections; between them the SSD is rebuilt (`eio_ctr_ssd_add`) or the I/O drained, and
anything may happen. A step of the model is one such section.
-/

namespace EnhanceIO.Devices

/-- The codes of the modes. `eio_cache_edit` takes any number for the mode, as the ioctl
does not check it, and so may the mode of a cache be any: a `Mode` would not do. -/
def cacheModeWb : Nat := Mode.wb.code.toNat
def cacheModeRo : Nat := Mode.ro.code.toNat
def cacheModeWt : Nat := Mode.wt.code.toNat

def cacheReplFirst : Nat := 1
def cacheReplLast : Nat := 3
def cacheReplDefault : Nat := 1

/-- The arguments of `eio_cache_edit`; 0 is no change. -/
structure Edit where
  mode : Nat
  policy : Nat
deriving DecidableEq, Repr

/-- Where `eio_resume_caching` is: before its first critical section, before
`eio_ctr_ssd_add`, past its assertion, or before the second critical section with the
result of `eio_ctr_ssd_add`. -/
inductive ResumePc where
  | idle
  | locked
  | adding
  | added (ok : Bool)
deriving DecidableEq, Repr

/-- Where the edit that holds `CACHE_FLAGS_MOD_INPROG` is. -/
inductive EditPc where
  | idle
  | locked
  | stopped
  | drained
  /-- it holds `eio_ttc_lock` and waits for no bio any more -/
  | blocked
  /-- past the policy change -/
  | policySet
  /-- `eio_mode_switch` has set the mode and allocates; `orig` is `orig_mode` -/
  | allocating (orig : Nat)
  | switched
  | out (ok : Bool)
deriving DecidableEq, Repr

/-- The assertions. -/
inductive Assert where
  | suspend
  | map
  | ssdAdd
  | edit
  | modeSwitch
deriving DecidableEq, Repr

/-- The part of `cache_c` that the removal, the re-adding and the edit work on.
`policyOps` is `policy_ops->sp_name`; `ttcLock` says that an edit holds `eio_ttc_lock` of
the disk, which a bio takes for reading on its way to `eio_map`. `checked` are the edits
that have passed their first check but do not hold the lock yet, `args` the arguments of the
one that does, `returned` the edit that returned in the last step, with whether it
returned 0. -/
structure Dmc where
  mode : Nat
  failed : Bool
  degraded : Bool
  ssdAddInprog : Bool
  stale : Bool
  shutdownInprog : Bool
  modInprog : Bool
  noSourceDev : Bool
  noCacheDev : Bool
  reqPolicy : Nat
  policyOps : Option Nat
  ttcLock : Bool
  resume : ResumePc
  checked : List Edit
  edit : EditPc
  args : Edit
  returned : Option (Edit × Bool)
  bug : Option Assert
deriving DecidableEq, Repr

variable (d : Dmc)

/-! ## Removal -/

def Dmc.srcRemoved : Dmc :=
  if d.mode ≠ cacheModeWb ∧ d.failed then d
  else { d with degraded := false, failed := true, noSourceDev := true }

def Dmc.ssdRemoved : Dmc :=
  if d.mode ≠ cacheModeWb ∧ d.failed then d
  else if d.mode = cacheModeWb then
    if d.degraded then { d with bug := some .suspend }
    else { d with failed := true, noCacheDev := true }
  else if d.degraded ∨ d.ssdAddInprog then d
  else { d with degraded := true, noCacheDev := true }

/-! ## Replacement policies -/

/-- `eio_policy_init`; `got` says whether `eio_get_policy` finds the policy and has
memory for an instance. -/
def Dmc.eioPolicyInit (got : Bool) : Dmc :=
  let req := if d.reqPolicy = 0 then cacheReplDefault else d.reqPolicy
  { d with reqPolicy := req, policyOps := if got then some req else none }

/-- `eio_policy_switch`, with its result; `alloc` says whether the new policy has
memory for its blocks and sets. -/
def Dmc.eioPolicySwitch (policy : Nat) (got alloc : Bool) : Dmc × Bool :=
  if got && alloc then ({ d.eioPolicyInit got with reqPolicy := policy }, true)
  else ({ d.eioPolicyInit got with policyOps := d.policyOps }, false)

/-! ## The SSD comes back -/

/-- The first critical section of `eio_resume_caching`. -/
def Dmc.resumeLock : Dmc :=
  if d.stale then d
  else if d.mode = cacheModeWb then
    if d.failed = false ∨ d.noSourceDev ∨ d.ssdAddInprog then d
    else { d with ssdAddInprog := true, resume := .locked }
  else if d.failed ∨ d.degraded = false ∨ d.ssdAddInprog then d
  else { d with ssdAddInprog := true, resume := .locked }

/-- How `eio_ctr_ssd_add` ends: it does not get the device it expects, it gets no
policy, the metadata or the sets cannot be created, or it succeeds. -/
inductive SsdAdd where
  | noDevice
  | noPolicy
  | noMd
  | ok
deriving DecidableEq, Repr

def Dmc.ctrAssert : Dmc :=
  if d.noSourceDev then { d with bug := some .ssdAdd } else { d with resume := .adding }

def Dmc.ctrSsdAdd : SsdAdd → Dmc
  | .noDevice => { d with resume := .added false }
  | .noPolicy => { d.eioPolicyInit false with resume := .added false }
  | .noMd => { d.eioPolicyInit true with resume := .added false }
  | .ok => { d.eioPolicyInit true with resume := .added true }

/-- The second critical section of `eio_resume_caching`. -/
def Dmc.resumeEnd (ok : Bool) : Dmc :=
  if ok then
    if d.mode ≠ cacheModeWb then
      { d with noCacheDev := false, degraded := false, ssdAddInprog := false, resume := .idle }
    else { d with noCacheDev := false, failed := false, ssdAddInprog := false, resume := .idle }
  else { d with ssdAddInprog := false, resume := .idle }

/-! ## Edits -/

/-- `eio_cache_edit` up to its first critical section. -/
def Dmc.editCheck (e : Edit) : Dmc :=
  if e.mode = 0 ∧ e.policy = 0 then { d with bug := some .edit }
  else if d.mode = e.mode ∧ d.reqPolicy = e.policy then { d with returned := some (e, true) }
  else if d.failed ∨ d.degraded then { d with returned := some (e, false) }
  else { d with checked := e :: d.checked }

def Dmc.editLock (e : Edit) : Dmc :=
  if d.shutdownInprog ∨ d.modInprog then
    { d with checked := d.checked.erase e, returned := some (e, false) }
  else { d with checked := d.checked.erase e, modInprog := true, edit := .locked, args := e }

def Dmc.editStop : Dmc :=
  if d.mode = cacheModeWb ∧ d.failed then { d with edit := .out false }
  else { d with edit := .stopped }

/-- `err`: `eio_finish_nrdirty` fails. -/
def Dmc.editDrain (err : Bool) : Dmc :=
  if d.mode = cacheModeWb ∧ d.args.mode ≠ cacheModeWb ∧ (d.failed ∨ err) then
    { d with edit := .out false }
  else { d with edit := .drained }

/-- `eio_mode_switch` as far as it sets the mode. -/
def Dmc.eioModeSwitch (mode : Nat) : Dmc :=
  if mode = cacheModeWb then { d with mode := mode, edit := .allocating d.mode }
  else if d.mode = cacheModeWb then { d with mode := mode, edit := .switched }
  else if (d.mode = cacheModeRo ∧ mode = cacheModeWt) ∨
      (d.mode = cacheModeWt ∧ mode = cacheModeRo) then
    { d with mode := mode, edit := .switched }
  else { d with bug := some .modeSwitch }

/-- The policy change of an edit, if it asks for one. -/
def Dmc.editPolicy (got alloc : Bool) : Dmc :=
  if d.args.policy ≠ 0 ∧ d.args.policy ≠ d.reqPolicy then
    if (d.eioPolicySwitch d.args.policy got alloc).2 then
      { (d.eioPolicySwitch d.args.policy got alloc).1 with edit := .policySet }
    else { (d.eioPolicySwitch d.args.policy got alloc).1 with
      ttcLock := false, edit := .out false }
  else { d with edit := .policySet }

/-- The mode change of an edit, if it asks for one. -/
def Dmc.editMode : Dmc :=
  if d.args.mode ≠ 0 ∧ d.args.mode ≠ d.mode then d.eioModeSwitch d.args.mode
  else { d with edit := .switched }

/-- `eio_allocate_wb_resources` returns. -/
def Dmc.editAlloc (orig : Nat) (ok : Bool) : Dmc :=
  if ok then { d with edit := .switched }
  else { d with mode := orig, ttcLock := false, edit := .out false }

/-- `eio_sb_store` gets past its test of the flags. -/
def Dmc.Storable : Prop := d.failed ∨ d.degraded → d.ssdAddInprog

instance : Decidable d.Storable := inferInstanceAs (Decidable (_ → _))

/-- `restart`: the clean thread could be started again. -/
def Dmc.editEnd (ok restart : Bool) : Dmc :=
  { d with modInprog := false, edit := .idle, returned := some (d.args, ok && restart) }

/-! ## Steps -/

inductive DevAct where
  | srcRemoved
  | ssdRemoved
  | resumeLock
  | ctrAssert
  | ctrSsdAdd (r : SsdAdd)
  | resumeEnd
  /-- a bio comes to `eio_map` -/
  | map
  | editCheck (e : Edit)
  | editLock (e : Edit)
  | editStop
  | editDrain (err : Bool)
  /-- the edit has `eio_ttc_lock`, and the bios that came before it have ended -/
  | editBlock
  | editPolicy (got alloc : Bool)
  | editMode
  | editAlloc (ok : Bool)
  /-- `eio_sb_store` returns -/
  | editStore (ok : Bool)
  | editEnd (restart : Bool)
  /-- a deletion fails -/
  | stale
  | shutdown
deriving DecidableEq, Repr

def Dmc.act (d : Dmc) : DevAct → Option Dmc
  | .srcRemoved => some d.srcRemoved
  | .ssdRemoved => some d.ssdRemoved
  | .resumeLock => some d.resumeLock
  | .ctrAssert => if d.resume = .locked then some d.ctrAssert else none
  | .ctrSsdAdd r => if d.resume = .adding then some (d.ctrSsdAdd r) else none
  | .resumeEnd =>
    match d.resume with
    | .added ok => some (d.resumeEnd ok)
    | _ => none
  | .map =>
    if d.ttcLock then none
    else if d.failed = false ∧ d.degraded ∧ d.mode = cacheModeWb then
      some { d with bug := some .map }
    else some d
  | .editCheck e => some (d.editCheck e)
  | .editLock e => if e ∈ d.checked then some (d.editLock e) else none
  | .editStop => if d.edit = .locked then some d.editStop else none
  | .editDrain err => if d.edit = .stopped then some (d.editDrain err) else none
  | .editBlock =>
    if d.edit = .drained ∧ d.ttcLock = false then
      some { d with ttcLock := true, edit := .blocked }
    else none
  | .editPolicy got alloc => if d.edit = .blocked then some (d.editPolicy got alloc) else none
  | .editMode => if d.edit = .policySet then some d.editMode else none
  | .editAlloc ok =>
    match d.edit with
    | .allocating orig => some (d.editAlloc orig ok)
    | _ => none
  | .editStore ok =>
    -- an edit whose store fails keeps `eio_ttc_lock`
    if d.edit = .switched ∧ (ok → d.Storable) then
      some { d with ttcLock := !ok, edit := .out ok }
    else none
  | .editEnd restart =>
    match d.edit with
    | .out ok => some (d.editEnd ok restart)
    | _ => none
  | .stale => some { d with stale := true }
  | .shutdown => some { d with shutdownInprog := true }

/-- A failed assertion stops the machine. -/
def Dmc.step (d : Dmc) (a : DevAct) : Option Dmc :=
  if d.bug = none then { d with returned := none }.act a else none

/-- The policy of a new cache: the one asked for, or that of the superblock for a
reload, or else the default. Without a policy the creation fails. -/
def Dmc.create (mode crPolicy : Nat) (sb : Option Nat) (got : Bool) : Option Dmc :=
  if mode < cacheModeWb ∨ cacheModeWt < mode then none
  else if crPolicy ≠ 0 ∧ (crPolicy < cacheReplFirst ∨ cacheReplLast < crPolicy) then none
  else if got then
    some (Dmc.eioPolicyInit
      { mode := mode, failed := false, degraded := false, ssdAddInprog := false, stale := false,
        shutdownInprog := false, modInprog := false, noSourceDev := false, noCacheDev := false,
        reqPolicy := if crPolicy = 0 then sb.getD 0 else crPolicy, policyOps := none,
        ttcLock := false, resume := .idle, checked := [], edit := .idle,
        args := ⟨0, 0⟩, returned := none,
        bug := none } got)
  else none

/-- The states of a cache from its creation on. -/
def Dmc.Reachable (P : Dmc → DevAct → Prop) (d : Dmc) : Prop :=
  ∃ mode crPolicy sb got d₀, Dmc.create mode crPolicy sb got = some d₀ ∧ Run.Reach Dmc.step P d₀ d

theorem Dmc.eioPolicyInit_ne (got : Bool) : (d.eioPolicyInit got).reqPolicy ≠ 0 := by
  simp only [Dmc.eioPolicyInit]
  split
  · decide
  · assumption

/-- A new cache. -/
structure Dmc.Fresh (d : Dmc) : Prop where
  failed : d.failed = false
  degraded : d.degraded = false
  noSourceDev : d.noSourceDev = false
  resume : d.resume = .idle
  edit : d.edit = .idle
  returned : d.returned = none
  bug : d.bug = none
  reqPolicy : d.reqPolicy ≠ 0
  policyOps : d.policyOps = some d.reqPolicy

theorem Dmc.create_fresh {mode crPolicy : Nat} {sb : Option Nat} {got : Bool} {d : Dmc}
    (h : Dmc.create mode crPolicy sb got = some d) : d.Fresh := by
  simp only [Dmc.create, Option.ite_none_left_eq_some, Option.ite_none_right_eq_some] at h
  obtain ⟨-, -, hgot, hd⟩ := h
  cases hd
  subst hgot
  exact ⟨rfl, rfl, rfl, rfl, rfl, rfl, rfl, Dmc.eioPolicyInit_ne _ _, rfl⟩

/-- What a new cache has and every step keeps holds from the creation on. -/
theorem Dmc.Reachable.invariant {P : Dmc → DevAct → Prop} {Inv : Dmc → Prop}
    (hfresh : ∀ {d : Dmc}, d.Fresh → Inv d)
    (hreturned : ∀ {d : Dmc}, Inv d → Inv { d with returned := none })
    (hP : ∀ {d : Dmc} {a : DevAct}, P d a → P { d with returned := none } a)
    (hact : ∀ {d d' : Dmc} {a : DevAct}, Inv d → d.bug = none → d.returned = none → P d a →
      d.act a = some d' → Inv d')
    {d : Dmc} (h : Dmc.Reachable P d) : Inv d := by
  obtain ⟨mode, crPolicy, sb, got, d₀, hd₀, hrun⟩ := h
  refine hrun.invariant (hfresh (Dmc.create_fresh hd₀)) fun {d d' a} hinv hp hs => ?_
  simp only [Dmc.step, Option.ite_none_right_eq_some] at hs
  exact hact (hreturned hinv) hs.1 rfl (hP hp) hs.2

theorem Dmc.Reachable.of_run {P : Dmc → DevAct → Prop} (ok : Dmc → DevAct → Bool)
    (hok : ∀ d a, ok d a = true → P d a) (mode policy : Nat) (acts : List DevAct)
    {R : Dmc → Prop} [DecidablePred R]
    (h : ((Dmc.create mode policy none true).bind fun d₀ => Run.exec Dmc.step ok d₀ acts).any
      (fun d => decide (R d)) = true) : ∃ d, Dmc.Reachable P d ∧ R d := by
  obtain ⟨d, hd, hr⟩ := (Option.any_eq_true _ _).mp h
  obtain ⟨d₀, hd₀, hrun⟩ := Option.bind_eq_some_iff.mp hd
  exact ⟨d, ⟨mode, policy, none, true, d₀, hd₀, .of_exec hok .init hrun⟩, of_decide_eq_true hr⟩

/-! ## Write-back caches are not degraded -/

/-- When an edit switches to write-back, the cache is not degraded: the SSD has not been
removed since the first check of the edit, or has come back. -/
def Dmc.SafeSwitch (d : Dmc) : DevAct → Prop
  | .editMode => d.args.mode = cacheModeWb → d.degraded = false
  | _ => True

instance (a : DevAct) : Decidable (d.SafeSwitch a) :=
  match a with
  | .editMode => inferInstanceAs (Decidable (d.args.mode = cacheModeWb → d.degraded = false))
  | .srcRemoved | .ssdRemoved | .resumeLock | .ctrAssert | .ctrSsdAdd _ | .resumeEnd | .map
  | .editCheck _ | .editLock _ | .editStop | .editDrain _ | .editBlock | .editPolicy _ _
  | .editAlloc _ | .editStore _ | .editEnd _ | .stale | .shutdown =>
    inferInstanceAs (Decidable True)

structure Dmc.WbOk (d : Dmc) : Prop where
  wb : d.mode = cacheModeWb → d.degraded = false
  orig : ∀ orig, d.edit = .allocating orig → orig ≠ cacheModeWb
  suspend : d.bug ≠ some .suspend
  map : d.bug ≠ some .map

namespace Dmc.WbOk

variable {d}

theorem srcRemoved (h : d.WbOk) : d.srcRemoved.WbOk := by
  unfold Dmc.srcRemoved
  split
  · exact h
  · exact { h with wb := fun _ => rfl }

theorem ssdRemoved (h : d.WbOk) : d.ssdRemoved.WbOk := by
  unfold Dmc.ssdRemoved
  split
  · exact h
  · split
    · next hmode =>
      rw [if_neg (by simp [h.wb hmode])]
      exact { h with }
    · next hmode =>
      split
      · exact h
      · exact { h with wb := fun hwb => absurd hwb hmode }

theorem resumeLock (h : d.WbOk) : d.resumeLock.WbOk := by
  unfold Dmc.resumeLock
  repeat' split
  all_goals exact { h with }

theorem ctrAssert (h : d.WbOk) : d.ctrAssert.WbOk := by
  unfold Dmc.ctrAssert
  split
  · exact { h with suspend := by simp, map := by simp }
  · exact { h with }

theorem ctrSsdAdd (h : d.WbOk) (r : SsdAdd) : (d.ctrSsdAdd r).WbOk := by
  cases r <;> exact { h with }

theorem resumeEnd (h : d.WbOk) (ok : Bool) : (d.resumeEnd ok).WbOk := by
  unfold Dmc.resumeEnd
  split
  · split
    · exact { h with wb := fun _ => rfl }
    · exact { h with }
  · exact { h with }

theorem editCheck (h : d.WbOk) (e : Edit) : (d.editCheck e).WbOk := by
  unfold Dmc.editCheck
  split
  · exact { h with suspend := by simp, map := by simp }
  · repeat' split
    all_goals exact { h with }

/-- A step of an edit that leaves the mode alone. -/
theorem editMoves (h : d.WbOk) {pc : EditPc} (hpc : ∀ orig, pc ≠ .allocating orig) :
    { d with edit := pc }.WbOk :=
  { h with orig := fun orig horig => absurd horig (hpc orig) }

theorem editMode (h : d.WbOk) (hsafe : d.args.mode = cacheModeWb → d.degraded = false) :
    d.editMode.WbOk := by
  unfold Dmc.editMode
  split
  · next hargs =>
    unfold Dmc.eioModeSwitch
    split
    · next hwb =>
      refine { h with wb := fun _ => hsafe hwb, orig := fun orig horig => ?_ }
      cases horig
      exact fun heq => hargs.2 (hwb.trans heq.symm)
    · next hwb =>
      have hsame : ∀ {pc : EditPc}, (∀ orig, pc ≠ .allocating orig) →
          { d with mode := d.args.mode, edit := pc }.WbOk := fun hpc =>
        { h with wb := fun heq => absurd heq hwb
                 orig := fun orig horig => absurd horig (hpc orig) }
      split
      · exact hsame (by simp)
      · split
        · exact hsame (by simp)
        · exact { h with suspend := by simp, map := by simp }
  · exact h.editMoves (by simp)

theorem editPolicy (h : d.WbOk) (got alloc : Bool) : (d.editPolicy got alloc).WbOk := by
  have hpolicy : (d.eioPolicySwitch d.args.policy got alloc).1.WbOk := by
    unfold Dmc.eioPolicySwitch
    split <;> exact { h with }
  unfold Dmc.editPolicy
  split
  · split
    · exact hpolicy.editMoves (by simp)
    · exact { hpolicy with orig := by simp }
  · exact h.editMoves (by simp)

theorem act {d' : Dmc} {a : DevAct} (h : d.WbOk) (ha : d.SafeSwitch a)
    (hs : d.act a = some d') : d'.WbOk := by
  cases a <;> simp only [Dmc.act, Option.ite_none_right_eq_some] at hs
  case srcRemoved => cases hs; exact h.srcRemoved
  case ssdRemoved => cases hs; exact h.ssdRemoved
  case resumeLock => cases hs; exact h.resumeLock
  case ctrAssert => cases hs.2; exact h.ctrAssert
  case ctrSsdAdd r => cases hs.2; exact h.ctrSsdAdd r
  case resumeEnd =>
      split at hs
      · next ok _ => cases hs; exact h.resumeEnd ok
      · cases hs
  case map =>
      rw [Option.ite_none_left_eq_some,
        if_neg fun hbad => by simp [h.wb hbad.2.2] at hbad] at hs
      cases hs.2
      exact h
  case editCheck e => cases hs; exact h.editCheck e
  case editLock e =>
      cases hs.2
      unfold Dmc.editLock
      split
      · exact { h with }
      · exact { h with orig := by simp }
  case editStop =>
      cases hs.2
      unfold Dmc.editStop
      split <;> exact h.editMoves (by simp)
  case editDrain err =>
      cases hs.2
      unfold Dmc.editDrain
      split <;> exact h.editMoves (by simp)
  case editBlock => cases hs.2; exact { h with orig := by simp }
  case editPolicy got alloc => cases hs.2; exact h.editPolicy got alloc
  case editMode => cases hs.2; exact h.editMode ha
  case editAlloc ok =>
      split at hs
      · next orig hedit =>
        cases hs
        unfold Dmc.editAlloc
        split
        · exact h.editMoves (by simp)
        · exact { h with wb := fun heq => absurd heq (h.orig orig hedit), orig := by simp }
      · cases hs
  case editStore ok => cases hs.2; exact { h with orig := by simp }
  case editEnd restart =>
      split at hs
      · cases hs; exact { h with orig := by simp [Dmc.editEnd] }
      · cases hs
  case stale => cases hs; exact { h with }
  case shutdown => cases hs; exact { h with }

end Dmc.WbOk

variable {d}

/-- If no edit switches a degraded cache to write-back, no write-back cache is ever
degraded, and the assertions that say so hold. -/
theorem wb_never_degraded (h : Dmc.Reachable Dmc.SafeSwitch d) :
    (d.mode = cacheModeWb → d.degraded = false) ∧ d.bug ≠ some .suspend ∧
      d.bug ≠ some .map := by
  have hok : d.WbOk := by
    refine Dmc.Reachable.invariant (fun hf => ?_) (fun hd => { hd with }) (fun {d a} ha => ?_)
      (fun hd _ _ ha hs => hd.act ha hs) h
    · exact ⟨fun _ => hf.degraded, by simp [hf.edit], by simp [hf.bug], by simp [hf.bug]⟩
    · cases a <;> exact ha
  exact ⟨hok.wb, hok.suspend, hok.map⟩

/-- An edit that switches to write-back, from its first critical section to its
superblock. -/
def switchToWb : List DevAct :=
  [.editLock ⟨cacheModeWb, 0⟩, .editStop, .editDrain false, .editBlock, .editPolicy true true,
    .editMode, .editAlloc true]

theorem wb_never_degraded_edited : ∃ d, Dmc.Reachable Dmc.SafeSwitch d ∧
    d.mode = cacheModeWb ∧ d.failed = true ∧ d.degraded = false ∧ d.bug ≠ some .suspend := by
  obtain ⟨d, hd, hmode, hfailed⟩ : ∃ d, Dmc.Reachable Dmc.SafeSwitch d ∧
      d.mode = cacheModeWb ∧ d.failed = true :=
    Dmc.Reachable.of_run (fun d a => decide (d.SafeSwitch a)) (fun _ _ h => of_decide_eq_true h)
      cacheModeWt 1 (.editCheck ⟨cacheModeWb, 0⟩ :: switchToWb ++
        [.editStore true, .editEnd true, .ssdRemoved]) (by decide)
  obtain ⟨hwb, hsuspend, -⟩ := wb_never_degraded hd
  exact ⟨d, hd, hmode, hfailed, hwb hmode, hsuspend⟩

/-- The SSD is removed between the check of an edit and its mode switch. -/
def removedInEdit : List DevAct :=
  .editCheck ⟨cacheModeWb, 0⟩ :: .ssdRemoved :: switchToWb ++ [.editStore false, .editEnd true]

/-- The same, and a new SSD is added during the edit: the cache is not write-back when
`eio_resume_caching` begins and write-back when it ends, so that it stays degraded. -/
def addedInEdit : List DevAct :=
  .editCheck ⟨cacheModeWb, 0⟩ :: .ssdRemoved :: .resumeLock :: .ctrAssert :: .ctrSsdAdd .ok ::
    switchToWb ++ [.editStore true, .editEnd true, .resumeEnd]

/-- The SSD is removed between the check of an edit and its mode switch: the cache is
degraded and then write-back. Another message about the SSD stops the machine; and if a
new SSD is being added, so that the superblock can be stored, the next bio does. -/
theorem wb_degraded :
    (∃ d, Dmc.Reachable (fun _ _ => True) d ∧ d.mode = cacheModeWb ∧ d.degraded = true) ∧
    (∃ d, Dmc.Reachable (fun _ _ => True) d ∧ d.bug = some .suspend) ∧
    ∃ d, Dmc.Reachable (fun _ _ => True) d ∧ d.bug = some .map := by
  have run (acts : List DevAct) {R : Dmc → Prop} [DecidablePred R]
      (h : ((Dmc.create cacheModeWt 1 none true).bind fun d₀ =>
        Run.exec Dmc.step (fun _ _ => true) d₀ acts).any (fun d => decide (R d)) = true) :
      ∃ d, Dmc.Reachable (fun _ _ => True) d ∧ R d :=
    Dmc.Reachable.of_run (fun _ _ => true) (fun _ _ _ => trivial) cacheModeWt 1 acts h
  refine ⟨?_, ?_, ?_⟩
  · exact run removedInEdit (by decide)
  · exact run (removedInEdit ++ [.ssdRemoved]) (by decide)
  · exact run (addedInEdit ++ [.map]) (by decide)

/-! ## A cache without its source is failed -/

/-- The steps that are not part of an edit. -/
def DevAct.isDevice : DevAct → Bool
  | .srcRemoved | .ssdRemoved | .resumeLock | .ctrAssert | .ctrSsdAdd _ | .resumeEnd | .map
  | .stale | .shutdown => true
  | .editCheck _ | .editLock _ | .editStop | .editDrain _ | .editBlock | .editPolicy _ _
  | .editMode | .editAlloc _ | .editStore _ | .editEnd _ => false

/-- Devices come and go; the source device is not removed between the two critical
sections of `eio_resume_caching`, except, from a cache that is not write-back, behind the
assertion of `eio_ctr_ssd_add`. -/
def Dmc.SourceStays (d : Dmc) (a : DevAct) : Prop :=
  a.isDevice = true ∧ (a = .srcRemoved →
    d.resume ≠ .locked ∧ (d.mode = cacheModeWb → d.resume = .idle))

instance (d : Dmc) (a : DevAct) : Decidable (d.SourceStays a) :=
  inferInstanceAs (Decidable (_ ∧ _))

structure Dmc.SourceOk (d : Dmc) : Prop where
  source : d.noSourceDev = true → d.failed = true
  apart : d.mode ≠ cacheModeWb → d.failed = true → d.degraded = false
  locked : d.resume = .locked → d.noSourceDev = false
  adding : d.mode = cacheModeWb → d.resume ≠ .idle → d.noSourceDev = false
  bug : d.bug ≠ some .ssdAdd

namespace Dmc.SourceOk

theorem srcRemoved (h : d.SourceOk) (ha : d.SourceStays .srcRemoved) : d.srcRemoved.SourceOk := by
  obtain ⟨hlocked, hidle⟩ := ha.2 rfl
  unfold Dmc.srcRemoved
  split
  · exact h
  · exact { h with
      source := fun _ => rfl
      apart := fun _ _ => rfl
      locked := fun hl => absurd hl hlocked
      adding := fun hwb hbusy => absurd (hidle hwb) hbusy }

theorem ssdRemoved (h : d.SourceOk) : d.ssdRemoved.SourceOk := by
  unfold Dmc.ssdRemoved
  split
  · exact h
  · next hactive =>
    split
    · next hmode =>
      split
      · exact { h with bug := by simp }
      · exact { h with source := fun _ => rfl, apart := fun hwb => absurd hmode hwb }
    · next hmode =>
      split
      · exact h
      · refine { h with apart := fun hwb hfailed => ?_ }
        exact absurd ⟨hwb, hfailed⟩ hactive

theorem resumeLock (h : d.SourceOk) : d.resumeLock.SourceOk := by
  unfold Dmc.resumeLock
  split
  · exact h
  · split
    · split
      · exact h
      · next hready =>
        have hsource : d.noSourceDev = false := by simp_all
        exact { h with locked := fun _ => hsource, adding := fun _ _ => hsource }
    · split
      · exact h
      · next hready =>
        -- a cache that is not failed has its source
        have hfailed : d.failed ≠ true := by simp_all
        have hsource : d.noSourceDev = false := by
          cases hs : d.noSourceDev with
          | false => rfl
          | true => exact absurd (h.source hs) hfailed
        exact { h with locked := fun _ => hsource, adding := fun _ _ => hsource }

theorem ctrAssert (h : d.SourceOk) (hlocked : d.resume = .locked) : d.ctrAssert.SourceOk := by
  have hsource := h.locked hlocked
  rw [Dmc.ctrAssert, if_neg (by simp [hsource])]
  exact { h with locked := by simp, adding := fun _ _ => hsource }

theorem ctrSsdAdd (h : d.SourceOk) (hadding : d.resume = .adding) (r : SsdAdd) :
    (d.ctrSsdAdd r).SourceOk := by
  have hwb : d.mode = cacheModeWb → d.noSourceDev = false := fun hwb =>
    h.adding hwb (by simp [hadding])
  cases r <;> exact { h with locked := by simp [Dmc.ctrSsdAdd], adding := fun hm _ => hwb hm }

theorem resumeEnd (h : d.SourceOk) {ok : Bool} (hadded : d.resume = .added ok) :
    (d.resumeEnd ok).SourceOk := by
  unfold Dmc.resumeEnd
  split
  · split
    · next hmode =>
      exact { h with
        apart := fun _ _ => rfl
        locked := by simp
        adding := fun hwb => absurd hwb hmode }
    · next hmode =>
      have hwb : d.mode = cacheModeWb := not_not.mp hmode
      have hsource := h.adding hwb (by simp [hadded])
      exact { h with
        source := fun hs => by simp [hsource] at hs
        apart := fun hne => absurd hwb hne
        locked := by simp
        adding := fun _ _ => hsource }
  · exact { h with locked := by simp, adding := fun _ hbusy => absurd rfl hbusy }

theorem act {d' : Dmc} {a : DevAct} (h : d.SourceOk) (ha : d.SourceStays a)
    (hs : d.act a = some d') : d'.SourceOk := by
  have hdevice := ha.1
  cases a <;> simp only [Dmc.act, Option.ite_none_right_eq_some] at hs
  case srcRemoved => cases hs; exact h.srcRemoved ha
  case ssdRemoved => cases hs; exact h.ssdRemoved
  case resumeLock => cases hs; exact h.resumeLock
  case ctrAssert => cases hs.2; exact h.ctrAssert hs.1
  case ctrSsdAdd r => cases hs.2; exact h.ctrSsdAdd hs.1 r
  case resumeEnd =>
      split at hs
      · next ok hadded => cases hs; exact h.resumeEnd hadded
      · cases hs
  case map =>
      rw [Option.ite_none_left_eq_some] at hs
      obtain ⟨-, hs⟩ := hs
      split at hs
      · cases hs; exact { h with bug := by simp }
      · cases hs; exact h
  case stale => cases hs; exact { h with }
  case shutdown => cases hs; exact { h with }
  all_goals simp [DevAct.isDevice] at hdevice

end Dmc.SourceOk

/-- If the source device is not removed while an SSD is being added, a cache without its
source is failed, a cache that is not write-back is not failed and degraded at once, and
the assertion of `eio_ctr_ssd_add` holds. -/
theorem source_failed (h : Dmc.Reachable Dmc.SourceStays d) :
    (d.noSourceDev = true → d.failed = true) ∧
      (d.mode ≠ cacheModeWb → ¬ (d.failed = true ∧ d.degraded = true)) ∧
      d.bug ≠ some .ssdAdd := by
  have hok : d.SourceOk := by
    refine Dmc.Reachable.invariant (fun hf => ?_) (fun hd => { hd with }) (fun ha => ha)
      (fun hd _ _ ha hs => hd.act ha hs) h
    exact ⟨by simp [hf.noSourceDev], by simp [hf.failed], by simp [hf.resume], by simp [hf.resume],
      by simp [hf.bug]⟩
  refine ⟨hok.source, fun hmode hboth => ?_, hok.bug⟩
  simp [hok.apart hmode hboth.1] at hboth

/-- A new SSD is added. -/
def ssdAdded : List DevAct := [.resumeLock, .ctrAssert, .ctrSsdAdd .ok, .resumeEnd]

theorem source_failed_wt : ∃ d, Dmc.Reachable Dmc.SourceStays d ∧ d.noSourceDev = true ∧
    d.failed = true ∧ d.mode = cacheModeWt ∧ d.degraded = false := by
  obtain ⟨d, hd, hsource, hmode⟩ : ∃ d, Dmc.Reachable Dmc.SourceStays d ∧
      d.noSourceDev = true ∧ d.mode = cacheModeWt :=
    Dmc.Reachable.of_run (fun d a => decide (d.SourceStays a)) (fun _ _ h => of_decide_eq_true h)
      cacheModeWt 1 (.ssdRemoved :: ssdAdded ++ [.ssdRemoved, .srcRemoved, .resumeLock])
      (by decide)
  obtain ⟨hfailed, hapart, -⟩ := source_failed hd
  refine ⟨d, hd, hsource, hfailed hsource, hmode, ?_⟩
  have hne := hapart (by rw [hmode]; decide)
  exact eq_false_of_ne_true fun hdeg => hne ⟨hfailed hsource, hdeg⟩

/-- The source of a write-back cache is removed while its SSD is rebuilt: the end of
`eio_resume_caching` clears the failed flag. And if it is removed before
`eio_ctr_ssd_add`, the assertion there fails. -/
theorem source_not_failed :
    (∃ d, Dmc.Reachable (fun _ a => a.isDevice = true) d ∧ d.noSourceDev = true ∧
      d.failed = false) ∧
    ∃ d, Dmc.Reachable (fun _ a => a.isDevice = true) d ∧ d.bug = some .ssdAdd := by
  constructor
  · exact Dmc.Reachable.of_run (fun _ a => a.isDevice) (fun _ _ h => h) cacheModeWb 1
      [.ssdRemoved, .resumeLock, .ctrAssert, .srcRemoved, .ctrSsdAdd .ok, .resumeEnd] (by decide)
  · exact Dmc.Reachable.of_run (fun _ a => a.isDevice) (fun _ _ h => h) cacheModeWb 1
      [.ssdRemoved, .resumeLock, .srcRemoved, .ctrAssert] (by decide)

/-! ## The running policy -/

/-- No policy switch succeeds: an edit asks for the policy the cache has, or for none, or
its switch fails. -/
def Dmc.KeepsPolicy (d : Dmc) : DevAct → Prop
  | .editPolicy got alloc =>
    d.args.policy = 0 ∨ d.args.policy = d.reqPolicy ∨ (got && alloc) = false
  | _ => True

instance (d : Dmc) (a : DevAct) : Decidable (d.KeepsPolicy a) :=
  match a with
  | .editPolicy got alloc => inferInstanceAs (Decidable
      (d.args.policy = 0 ∨ d.args.policy = d.reqPolicy ∨ (got && alloc) = false))
  | .srcRemoved | .ssdRemoved | .resumeLock | .ctrAssert | .ctrSsdAdd _ | .resumeEnd | .map
  | .editCheck _ | .editLock _ | .editStop | .editDrain _ | .editBlock | .editMode
  | .editAlloc _ | .editStore _ | .editEnd _ | .stale | .shutdown =>
    inferInstanceAs (Decidable True)

/-- The edit is past its policy switch and has not failed. -/
def EditPc.policyDone : EditPc → Bool
  | .policySet | .allocating _ | .switched | .out true => true
  | .idle | .locked | .stopped | .drained | .blocked | .out false => false

structure Dmc.PolicyOk (d : Dmc) : Prop where
  req : d.reqPolicy ≠ 0
  ops : d.failed = false → d.degraded = false → d.policyOps = some d.reqPolicy
  busy : d.resume ≠ .idle → d.failed = false → d.degraded = true
  added : d.resume = .added true → d.policyOps = some d.reqPolicy
  edit : d.edit.policyDone = true → d.args.policy ≠ 0 → d.args.policy = d.reqPolicy
  returned : ∀ e, d.returned = some (e, true) → e.policy ≠ 0 → e.policy = d.reqPolicy

namespace Dmc.PolicyOk

theorem srcRemoved (h : d.PolicyOk) : d.srcRemoved.PolicyOk := by
  unfold Dmc.srcRemoved
  split
  · exact h
  · exact { h with ops := by simp, busy := by simp }

theorem ssdRemoved (h : d.PolicyOk) : d.ssdRemoved.PolicyOk := by
  unfold Dmc.ssdRemoved
  split
  · exact h
  · split
    · split
      · exact { h with }
      · exact { h with ops := by simp, busy := by simp }
    · split
      · exact h
      · exact { h with ops := by simp, busy := by simp }

theorem resumeLock (h : d.PolicyOk) : d.resumeLock.PolicyOk := by
  have hlock (hoff : d.failed = false → d.degraded = true) :
      { d with ssdAddInprog := true, resume := .locked }.PolicyOk :=
    { h with busy := fun _ => hoff, added := by simp }
  unfold Dmc.resumeLock
  split
  · exact h
  · split
    · split
      · exact h
      · next hready => exact hlock (by simp_all)
    · split
      · exact h
      · next hready => exact hlock (by simp_all)

theorem ctrAssert (h : d.PolicyOk) (hlocked : d.resume = .locked) : d.ctrAssert.PolicyOk := by
  unfold Dmc.ctrAssert
  split
  · exact { h with }
  · exact { h with busy := fun _ => h.busy (by simp [hlocked]), added := by simp }

/-- `eio_policy_init` keeps the policy that was asked for. -/
theorem reqPolicy_init (h : d.PolicyOk) (got : Bool) :
    (d.eioPolicyInit got).reqPolicy = d.reqPolicy :=
  if_neg h.req

theorem ctrSsdAdd (h : d.PolicyOk) (hadding : d.resume = .adding) (r : SsdAdd) :
    (d.ctrSsdAdd r).PolicyOk := by
  have hbusy := h.busy (by simp [hadding])
  -- while the SSD is added the cache is failed or degraded
  have hops : ∀ {ops : Option Nat}, d.failed = false → d.degraded = false →
      ops = some d.reqPolicy := by
    intro ops hfailed hdegraded
    simp [hbusy hfailed] at hdegraded
  have hinit : ∀ got pc, (pc = .added true → got = true) →
      { d.eioPolicyInit got with resume := pc }.PolicyOk := by
    intro got pc hpc
    have hreq := h.reqPolicy_init got
    refine ⟨d.eioPolicyInit_ne got, fun hf hd => ?_, fun _ => hbusy, fun hadded => ?_,
      fun hdone hne => ?_, fun e he hne => ?_⟩
    · simp only [hreq]
      exact hops hf hd
    · simp only [Dmc.eioPolicyInit, hpc hadded, if_true]
    · simp only [hreq]
      exact h.edit hdone hne
    · simp only [hreq]
      exact h.returned e he hne
  cases r
  case noDevice => exact { h with busy := fun _ => hbusy, added := by simp [Dmc.ctrSsdAdd] }
  case noPolicy => exact hinit false _ (by simp)
  case noMd => exact hinit true _ (by simp)
  case ok => exact hinit true _ (by simp)

theorem resumeEnd (h : d.PolicyOk) {ok : Bool} (hadded : d.resume = .added ok) :
    (d.resumeEnd ok).PolicyOk := by
  unfold Dmc.resumeEnd
  split
  · next hok =>
    have hops := h.added (hok ▸ hadded)
    split <;> exact { h with ops := fun _ _ => hops, busy := by simp, added := by simp }
  · exact { h with busy := by simp, added := by simp }

theorem editMode (h : d.PolicyOk) (hargs : d.args.policy ≠ 0 → d.args.policy = d.reqPolicy) :
    d.editMode.PolicyOk := by
  unfold Dmc.editMode
  split
  · unfold Dmc.eioModeSwitch
    split
    · exact { h with edit := fun _ => hargs }
    · split
      · exact { h with edit := fun _ => hargs }
      · split <;> exact { h with edit := fun _ => hargs }
  · exact { h with edit := fun _ => hargs }

theorem editPolicy (h : d.PolicyOk) {got alloc : Bool}
    (ha : d.KeepsPolicy (.editPolicy got alloc)) : (d.editPolicy got alloc).PolicyOk := by
  unfold Dmc.editPolicy
  split
  · next hchange =>
    have hfails : (got && alloc) = false := by
      rcases ha with hzero | hsame | hfails
      · exact absurd hzero hchange.1
      · exact absurd hsame hchange.2
      · exact hfails
    have hreq := h.reqPolicy_init got
    simp only [Dmc.eioPolicySwitch, hfails, Bool.false_eq_true, if_false]
    refine { h with
      req := d.eioPolicyInit_ne got
      ops := fun hf hd => ?_
      added := fun hadded => ?_
      edit := by simp [EditPc.policyDone]
      returned := fun e he hne => ?_ }
    · simp only [hreq]
      exact h.ops hf hd
    · simp only [hreq]
      exact h.added hadded
    · simp only [hreq]
      exact h.returned e he hne
  · next hsame =>
    refine { h with edit := fun _ hne => ?_ }
    exact Decidable.byContradiction fun hother => hsame ⟨hne, hother⟩

theorem act {d' : Dmc} {a : DevAct} (h : d.PolicyOk) (ha : d.KeepsPolicy a)
    (hs : d.act a = some d') : d'.PolicyOk := by
  cases a <;> simp only [Dmc.act, Option.ite_none_right_eq_some] at hs
  case srcRemoved => cases hs; exact h.srcRemoved
  case ssdRemoved => cases hs; exact h.ssdRemoved
  case resumeLock => cases hs; exact h.resumeLock
  case ctrAssert => cases hs.2; exact h.ctrAssert hs.1
  case ctrSsdAdd r => cases hs.2; exact h.ctrSsdAdd hs.1 r
  case resumeEnd =>
      split at hs
      · next ok hadded => cases hs; exact h.resumeEnd hadded
      · cases hs
  case map =>
      rw [Option.ite_none_left_eq_some] at hs
      obtain ⟨-, hs⟩ := hs
      split at hs <;> cases hs <;> exact { h with }
  case editCheck e =>
      cases hs
      unfold Dmc.editCheck
      split
      · exact { h with }
      · split
        · next hsame =>
          refine { h with returned := fun e' he' _ => ?_ }
          cases he'
          exact hsame.2.symm
        · split
          · exact { h with returned := by simp }
          · exact { h with }
  case editLock e =>
      cases hs.2
      unfold Dmc.editLock
      split
      · exact { h with returned := by simp }
      · exact { h with edit := by simp [EditPc.policyDone] }
  case editStop =>
      cases hs.2
      unfold Dmc.editStop
      split <;> exact { h with edit := by simp [EditPc.policyDone] }
  case editDrain err =>
      cases hs.2
      unfold Dmc.editDrain
      split <;> exact { h with edit := by simp [EditPc.policyDone] }
  case editBlock => cases hs.2; exact { h with edit := by simp [EditPc.policyDone] }
  case editPolicy got alloc => cases hs.2; exact h.editPolicy ha
  case editMode => cases hs.2; exact h.editMode (h.edit (by rw [hs.1]; rfl))
  case editAlloc ok =>
      split at hs
      · next orig hedit =>
        cases hs
        have hargs := h.edit (by rw [hedit]; rfl)
        unfold Dmc.editAlloc
        split <;> exact { h with edit := fun _ => hargs }
      · cases hs
  case editStore ok =>
      cases hs.2
      exact { h with edit := fun _ => h.edit (by rw [hs.1.1]; rfl) }
  case editEnd restart =>
      split at hs
      · next ok hout =>
        cases hs
        refine { h with edit := by simp [Dmc.editEnd, EditPc.policyDone]
                        returned := fun e he hne => ?_ }
        simp only [Dmc.editEnd, Option.some.injEq, Prod.mk.injEq, Bool.and_eq_true] at he
        obtain ⟨rfl, rfl, -⟩ := he
        exact h.edit (by rw [hout]; rfl) hne
      · cases hs
  case stale => cases hs; exact { h with }
  case shutdown => cases hs; exact { h with }

end Dmc.PolicyOk

/-- If no edit switches the policy, an active cache runs the policy that is configured,
and an edit that returned 0 has left the policy it was given. -/
theorem policy_as_configured (h : Dmc.Reachable Dmc.KeepsPolicy d)
    (hfailed : d.failed = false) (hdegraded : d.degraded = false) :
    d.policyOps = some d.reqPolicy ∧
      ∀ e, d.returned = some (e, true) → e.policy ≠ 0 →
        d.policyOps = some e.policy ∧ d.reqPolicy = e.policy := by
  have hok : d.PolicyOk := by
    refine Dmc.Reachable.invariant (fun hf => ?_) (fun hd => { hd with returned := by simp })
      (fun {d a} ha => ?_) (fun hd _ _ ha hs => hd.act ha hs) h
    · exact ⟨hf.reqPolicy, fun _ _ => hf.policyOps, by simp [hf.resume], by simp [hf.resume],
        by simp [hf.edit, EditPc.policyDone], by simp [hf.returned]⟩
    · cases a <;> exact ha
  have hops := hok.ops hfailed hdegraded
  refine ⟨hops, fun e he hne => ?_⟩
  have hreq := hok.returned e he hne
  exact ⟨hreq ▸ hops, hreq.symm⟩

/-- An edit that asks for the policy `p`. -/
def policyEdit (p : Nat) : List DevAct :=
  [.editCheck ⟨0, p⟩, .editLock ⟨0, p⟩, .editStop, .editDrain false, .editBlock,
    .editPolicy true true, .editMode, .editStore true, .editEnd true]

theorem policy_as_configured_added : ∃ d, Dmc.Reachable Dmc.KeepsPolicy d ∧
    d.failed = false ∧ d.degraded = false ∧ d.returned = some (⟨0, 2⟩, true) ∧
      d.policyOps = some 2 ∧ d.reqPolicy = 2 := by
  obtain ⟨d, hd, hfailed, hdegraded, hret⟩ : ∃ d, Dmc.Reachable Dmc.KeepsPolicy d ∧
      d.failed = false ∧ d.degraded = false ∧ d.returned = some (⟨0, 2⟩, true) :=
    Dmc.Reachable.of_run (fun d a => decide (d.KeepsPolicy a)) (fun _ _ h => of_decide_eq_true h)
      cacheModeWt 2 (.ssdRemoved :: ssdAdded ++ policyEdit 2) (by decide)
  obtain ⟨-, hret'⟩ := policy_as_configured hd hfailed hdegraded
  exact ⟨d, hd, hfailed, hdegraded, hret, hret' _ hret (by decide)⟩

/-- `eio_policy_switch` makes its new instance of the old policy: after an edit from FIFO
to LRU that returned 0 the cache still runs FIFO, with LRU configured. -/
theorem policy_not_switched : ∃ d, Dmc.Reachable (fun _ _ => True) d ∧
    d.failed = false ∧ d.degraded = false ∧ d.returned = some (⟨0, 2⟩, true) ∧
      d.policyOps = some 1 ∧ d.reqPolicy = 2 :=
  Dmc.Reachable.of_run (fun _ _ => true) (fun _ _ _ => trivial) cacheModeWt 1 (policyEdit 2)
    (by decide)

end EnhanceIO.Devices
