import EnhanceIO.Sealed

/-!
# The lock, the flags and the threads of a shutdown

Who has `eio_ttc_lock`, and that those who wait for each other do: while the lock
is taken no thread is in `eio_map`, an edit does not start during a shutdown, and
`eio_reboot_handling` goes on only when neither an edit nor a clean of somebody
else is under way. `Positions` holds in every run, whatever fails.
-/

namespace EnhanceIO

open State

section
variable {g : Geom} {s s' : Sys} {a : Act} {b : Nat}

/-! ## The lock keeps bios out -/

theorem MapPc.not_running {pc : MapPc} : pc.running = false ↔ pc = .absent ∨ pc = .done := by
  cases pc <;> simp [MapPc.running]

/-- Only the thread in `eio_map` moves it on. -/
theorem BioMove.pc {bc : Bio} (h : BioMove g s b a bc) (hpc : (s.bio b).pc.running = false) :
    bc.pc = (s.bio b).pc := by
  cases h with
  | lock hp | enter hp | peek hp | dispatch hp | alloc hp | refuse _ hp | disk hp | put hp =>
    rw [hp] at hpc
    cases hpc
  | path hp =>
    generalize (s.bio b).pc = pc at hp hpc
    cases hp <;> cases hpc
  | mainEndio | ebEndio => exact Bio.put_pc _ _
  | hddDone | main | xfer | mdWrite | enq | same => rfl

theorem Live.not_running (h : Live g s) (hmaps : s.noMaps) (b : Nat) :
    (s.bio b).pc.running = false := by
  refine MapPc.not_running.mpr ?_
  by_cases hb : b < s.nbio
  · exact hmaps b hb
  · exact .inl (h.absent b (by omega))

/-- Without an arrival no thread comes into `eio_map`. -/
theorem Sys.noMaps_act (hinv : Inv g s) (hbug : s.bug = none) (hmaps : s.noMaps)
    (hsus : a ≠ .suspend) (hmap : a.isMap = false) (hs : s.act g a = some s') : s'.noMaps := by
  have hrun := (hinv.live hbug).not_running hmaps
  suffices hpc : ∀ b, (s'.bio b).pc = (s.bio b).pc from fun b _ => by
    rw [hpc b]
    exact MapPc.not_running.mp (hrun b)
  intro b
  cases hb : a.bio with
  | none => rw [(Sys.act_apart hb hmap hsus hs).bio]
  | some b' =>
    obtain ⟨hbeside, hmove⟩ := Sys.act_move hinv.blk hb hs
    by_cases hne : b = b'
    · subst hne
      exact hmove.pc (hrun b)
    · rw [hbeside.bio_ne hne]

/-! ## Changing the mode -/

/-- The directory does not depend on the mode. -/
theorem BlkInv.forget (h : BlkInv g s) (hrest : ∀ i, (s.st g i).Resting) (mode : Mode) :
    BlkInv (g.withMode mode) s.forget where
  allowed := h.allowed
  owned := fun ho => absurd ho (Ebio.not_owns_init _ _)
  excl := fun ho => absurd ho (Ebio.not_owns_init _ _)
  used := fun hu => absurd hu (Ebio.not_uses_init _)
  placed := fun hv => ⟨(h.placed hv).aligned, (h.placed hv).inSet, (h.placed hv).onDisk⟩
  uniq := h.uniq
  held := fun hne => absurd (hrest _) hne
  cleaned := h.cleaned
  zero := h.zero
  onDisk := h.onDisk
  tally := ⟨h.tally.cached, h.tally.dirty, h.tally.total⟩

/-- Once every bio has been ended the cache goes on in another mode. -/
theorem Inv.forget (h : Inv g s) (hbug : s.bug = none) (hup : s.degraded = false)
    (hend : s.allEnded) (mode : Mode) : Inv (g.withMode mode) s.forget := by
  have hl := h.live hbug
  have hst : ∀ e : EbId, (s.ebio e).st = .new ∨ (s.ebio e).st = .done := fun e =>
    (hl.finished hend e.1).2 e.2
  have hreq := (Sealed.of_ended h hbug hup hend).mdreq
  refine .of_live (h.blk.forget (h.blk.resting hst) mode) hbug
    ⟨⟨fun _ => .absent _, fun _ => .absent _, fun _ _ => rfl, ?_, fun _ => hup⟩,
      ⟨⟨?_, ?_, ?_, ?_, ?_, ?_, ?_⟩, ?_⟩⟩ <;>
    simp [Sys.forget, Sys.pending, Sys.inprog, hreq, Bio.absent, Ebio.init]

theorem Inv.markRdonly (h : Inv g s) : Inv g { s with rdonly := true } :=
  ⟨{ h.blk with tally := { h.blk.tally with } }, h.bug,
    fun hbug => { h.live hbug with md := { (h.live hbug).md with } }⟩

/-! ## Steps of the driver -/

theorem Act.ne_suspend (hio : a.isIo = true) : a ≠ .suspend := by
  rintro rfl
  cases hio

theorem Sys.act_degraded (hblk : BlkInv g s) (hsus : a ≠ .suspend) (hs : s.act g a = some s') :
    s'.degraded = s.degraded := by
  cases hb : a.bio with
  | some b => exact (Sys.act_move hblk hb hs).1.degraded
  | none =>
    cases hmap : a.isMap with
    | false => exact (Sys.act_apart hb hmap hsus hs).degraded
    | true =>
      cases a <;> simp only [Act.isMap, Bool.false_eq_true] at hmap
      obtain ⟨-, hs⟩ := Option.ite_none_left_eq_some.mp hs
      obtain ⟨-, rfl⟩ : _ ∧ _ = s' := by simpa [Option.ite_none_right_eq_some] using hs
      rfl

theorem Sys.act_clean_still (hblk : BlkInv g s) (hio : a.isIo = true) (hs : s.act g a = some s')
    (hnone : s.clean = none) : s'.clean = none := by
  cases hclean : a.isClean with
  | false => rw [Sys.act_clean_eq hblk hio hclean hs, hnone]
  | true =>
    rw [Sys.act_clean_none hnone hclean] at hs
    cases hs

theorem Sys.step_eq_some (hbug : s.bug = none) :
    s.step g a = some s' ↔ ∃ t, s.act g a = some t ∧ t.tick (s.now + 1) = s' := by
  simp [Sys.step, hbug, Option.map_eq_some_iff]

end

/-! ## Positions -/

/-- `eio_reboot_handling` has the lock. -/
def ShutPc.locked : ShutPc → Bool
  | .drain | .waitEdit => true
  | _ => false

/-- `eio_cache_edit` has the lock. -/
def EditPc.locked : EditPc → Bool
  | .finishDrain _ | .drain _ | .store => true
  | _ => false

/-- `CACHE_FLAGS_SHUTDOWN_INPROG` is set. -/
def ShutPc.rebooting : ShutPc → Bool
  | .waitEdit | .pause | .clean .reboot | .store .reboot _ | .stored .reboot => true
  | _ => false

/-- Neither the clean thread nor an edit runs. -/
def ShutPc.stopped : ShutPc → Bool
  | .clean .reboot | .store .reboot _ | .stored .reboot => true
  | _ => false

theorem ShutPc.rebooting_of_stopped {pc : ShutPc} (h : pc.stopped = true) :
    pc.rebooting = true := by
  unfold ShutPc.stopped at h
  split at h <;> first | rfl | cases h

def ShutPc.isCleaning : ShutPc → Bool
  | .clean _ => true
  | _ => false

/-- From the read-only mark, or without it from the start of the store. -/
def ShutPc.sealed : ShutPc → Bool
  | .clean .reboot | .store _ _ | .stored _ | .done _ => true
  | _ => false

/-- `eio_md_store` has begun. -/
def ShutPc.storing : ShutPc → Bool
  | .store _ _ | .stored _ | .done _ => true
  | _ => false

/-- `eio_md_store` is over. -/
def ShutPc.isStored : ShutPc → Bool
  | .stored _ | .done _ => true
  | _ => false

namespace Shutdown

/-- Whoever has begun a clean is still there to end it. -/
def cleanerRuns (d : Shutdown) : Prop :=
  match d.cleaner with
  | .thread => d.cleanThread = true
  | .edit => d.edit.isCleaning = true
  | .shutdown => d.shut.isCleaning = true

/-- Who has the lock, and who runs. -/
structure Positions (g : Geom) (d : Shutdown) : Prop where
  inv : Inv (d.geom g) d.sys
  up : d.sys.degraded = false
  alone : d.ttc ≠ none → d.sys.noMaps
  shutLock : d.shut.locked = true → d.ttc = some .reboot
  editLock : d.edit.locked = true → d.ttc = some .edit
  editing : d.modInprog = false → d.edit = .idle
  cleaning : d.sys.clean ≠ none → d.cleanerRuns
  rebooting : d.shut.rebooting = true → d.shutdownInprog = true
  stopped : d.shut.stopped = true → d.cleanThread = false ∧ d.edit = .idle

section
variable {g : Geom} {d d' : Shutdown} {a : ShutAct} {who : Cleaner}

theorem busy_eq_false : d.busy who = false ↔ d.sys.clean = none ∨ d.cleaner ≠ who := by
  cases h : d.sys.clean <;> simp [busy, h]

theorem cleanerRuns.mono (h : d.cleanerRuns) (hwho : d'.cleaner = d.cleaner)
    (hthread : d.cleaner = .thread → d.cleanThread = true → d'.cleanThread = true)
    (hedit : d.cleaner = .edit → d.edit.isCleaning = true → d'.edit.isCleaning = true)
    (hshut : d.cleaner = .shutdown → d.shut.isCleaning = true → d'.shut.isCleaning = true) :
    d'.cleanerRuns := by
  unfold cleanerRuns at h ⊢
  rw [hwho]
  cases hc : d.cleaner with
  | thread => exact hthread hc (by simpa only [hc] using h)
  | edit => exact hedit hc (by simpa only [hc] using h)
  | shutdown => exact hshut hc (by simpa only [hc] using h)

theorem stepIo_eq_some {x : Act} (hbug : d.sys.bug = none) (hs : d.stepIo g x = some d') :
    x.isIo = true ∧ (x.isMap = true → d.ttc = none) ∧
      ∃ s, d.sys.act (d.geom g) x = some s ∧ { d with sys := s.tick (d.sys.now + 1) } = d' := by
  obtain ⟨⟨hio, hmap⟩, hs⟩ := Option.ite_none_right_eq_some.mp hs
  obtain ⟨s, hstep, rfl⟩ := Option.map_eq_some_iff.mp hs
  obtain ⟨t, ht, rfl⟩ := (Sys.step_eq_some hbug).mp hstep
  exact ⟨hio, hmap, t, ht, rfl⟩

theorem stepClean_eq_some {set : Nat} {sel : List Nat} (hbug : d.sys.bug = none)
    (hs : d.stepClean g who set sel = some d') :
    d.mayClean who ∧ ∃ s, d.sys.stepCleanStart (d.geom g) set sel = some s ∧
      { d with sys := s.tick (d.sys.now + 1), cleaner := who } = d' := by
  obtain ⟨hmay, hs⟩ := Option.ite_none_right_eq_some.mp hs
  obtain ⟨s, hstep, rfl⟩ := Option.map_eq_some_iff.mp hs
  obtain ⟨t, ht, rfl⟩ := (Sys.step_eq_some hbug).mp hstep
  exact ⟨hmay, t, ht, rfl⟩

namespace Positions

theorem init (g : Geom) : Positions g (Shutdown.init g) where
  inv := Inv.init g
  up := rfl
  alone := fun h => absurd rfl h
  shutLock := fun h => by cases h
  editLock := fun h => by cases h
  editing := fun _ => rfl
  cleaning := fun h => absurd rfl h
  rebooting := fun h => by cases h
  stopped := fun h => by cases h

section
variable (h : Positions g d)
include h

theorem stepIo {x : Act} (hbug : d.sys.bug = none)
    (hs : d.stepIo g x = some d') : Positions g d' := by
  obtain ⟨hio, hmap, s, hact, rfl⟩ := stepIo_eq_some hbug hs
  refine { h with inv := ?_, up := ?_, alone := fun httc => ?_, cleaning := fun hne => ?_ }
  · exact (h.inv.act hbug hact).devices rfl
  · exact (Sys.act_degraded h.inv.blk (Act.ne_suspend hio) hact).trans h.up
  · have hno : x.isMap = false := by
      cases hm : x.isMap with
      | false => rfl
      | true => exact absurd (hmap hm) httc
    have hmaps : s.noMaps := Sys.noMaps_act h.inv hbug (h.alone httc) (Act.ne_suspend hio) hno hact
    exact hmaps
  · refine h.cleaning fun hnone => hne ?_
    have hclean : s.clean = none := Sys.act_clean_still h.inv.blk hio hact hnone
    exact hclean

theorem stepClean {set : Nat} {sel : List Nat} (hbug : d.sys.bug = none)
    (hs : d.stepClean g who set sel = some d') : Positions g d' := by
  obtain ⟨hmay, s, hact, rfl⟩ := stepClean_eq_some hbug hs
  have hapart : Apart d.sys s :=
    Sys.act_apart (a := .cleanStart set sel) rfl rfl (by simp) hact
  refine { h with inv := ?_, up := ?_, alone := fun httc => ?_, cleaning := fun _ => ?_ }
  · exact (h.inv.stepCleanStart hbug hact).devices rfl
  · exact hapart.degraded.trans h.up
  · have hno := h.alone httc
    unfold Sys.noMaps at hno ⊢
    rw [show (s.tick (d.sys.now + 1)).bio = d.sys.bio from hapart.bio,
      show (s.tick (d.sys.now + 1)).nbio = d.sys.nbio from hapart.nbio]
    exact hno
  · cases who with
    | thread => exact hmay
    | edit => exact hmay.1
    | shutdown => rcases hmay with hc | hc <;> simp [cleanerRuns, hc, ShutPc.isCleaning]

/-! ### The shutdown moves on -/

/-- Nobody else than the shutdown looks at its position. -/
theorem cleaning_shut (hsys : d'.sys.clean = d.sys.clean)
    (hwho : d'.cleaner = d.cleaner) (hthread : d'.cleanThread = d.cleanThread)
    (hedit : d'.edit = d.edit)
    (hpc : d.cleaner = .shutdown → d.shut.isCleaning = true → d'.shut.isCleaning = true)
    (hne : d'.sys.clean ≠ none) : d'.cleanerRuns :=
  (h.cleaning (hsys ▸ hne)).mono hwho (fun _ => hthread ▸ id) (fun _ => hedit ▸ id) hpc

theorem stepRebootLock (hs : d.stepRebootLock = some d') : Positions g d' := by
  obtain ⟨⟨hpc, -, httc, hmaps⟩, rfl⟩ := Option.ite_some_none_eq_some.mp hs
  exact { h with
    alone := fun _ => hmaps
    shutLock := fun _ => rfl
    editLock := fun hl => by rw [h.editLock hl] at httc; cases httc
    cleaning := h.cleaning_shut rfl rfl rfl rfl (by simp [hpc, ShutPc.isCleaning])
    rebooting := fun hr => by cases hr
    stopped := fun hr => by cases hr }

theorem stepRebootDrained (hs : d.stepRebootDrained = some d') : Positions g d' := by
  obtain ⟨⟨hpc, -⟩, rfl⟩ := Option.ite_some_none_eq_some.mp hs
  exact { h with
    shutLock := fun _ => h.shutLock (by rw [hpc]; rfl)
    cleaning := h.cleaning_shut rfl rfl rfl rfl (by simp [hpc, ShutPc.isCleaning])
    rebooting := fun _ => rfl
    stopped := fun hr => by cases hr }

/-- While the shutdown has the lock the edit has not. -/
theorem edit_unlocked (hpc : d.shut.locked = true) : d.edit.locked = false := by
  cases hl : d.edit.locked with
  | false => rfl
  | true =>
    have := (h.shutLock hpc).symm.trans (h.editLock hl)
    cases this

theorem shut_unlocked (hpc : d.edit.locked = true) : d.shut.locked = false := by
  cases hl : d.shut.locked with
  | false => rfl
  | true =>
    rw [h.edit_unlocked hl] at hpc
    cases hpc

theorem stepRebootPause (hs : d.stepRebootPause = some d') : Positions g d' := by
  obtain ⟨⟨hpc, -⟩, rfl⟩ := Option.ite_some_none_eq_some.mp hs
  have hedit := h.edit_unlocked (by rw [hpc]; rfl)
  exact { h with
    alone := fun hne => absurd rfl hne
    shutLock := fun hl => by cases hl
    editLock := fun hl => by rw [hedit] at hl; cases hl
    cleaning := h.cleaning_shut rfl rfl rfl rfl (by simp [hpc, ShutPc.isCleaning])
    rebooting := fun _ => h.rebooting (by rw [hpc]; rfl)
    stopped := fun hr => by cases hr }

theorem stepRebootResume (hs : d.stepRebootResume = some d') : Positions g d' := by
  obtain ⟨⟨hpc, httc, hmaps⟩, rfl⟩ := Option.ite_some_none_eq_some.mp hs
  exact { h with
    alone := fun _ => hmaps
    shutLock := fun _ => rfl
    editLock := fun hl => by rw [h.editLock hl] at httc; cases httc
    cleaning := h.cleaning_shut rfl rfl rfl rfl (by simp [hpc, ShutPc.isCleaning])
    rebooting := fun _ => h.rebooting (by rw [hpc]; rfl)
    stopped := fun hr => by cases hr }

/-- When the cache is sealed no clean is under way. -/
theorem seal_clean (hpc : d.shut = .waitEdit) (hmod : d.modInprog = false)
    (hbusy : d.busy .thread = false) : d.sys.clean = none := by
  by_contra hne
  have hrun := h.cleaning hne
  unfold cleanerRuns at hrun
  cases hc : d.cleaner with
  | thread => exact (busy_eq_false.mp hbusy).elim hne fun hcon => hcon hc
  | edit =>
    simp only [hc, h.editing hmod] at hrun
    cases hrun
  | shutdown =>
    simp only [hc, hpc] at hrun
    cases hrun

theorem stepRebootSeal (hs : d.stepRebootSeal = some d') : Positions g d' := by
  obtain ⟨⟨hpc, hmod, hbusy⟩, rfl⟩ := Option.ite_some_none_eq_some.mp hs
  have hclean := h.seal_clean hpc hmod hbusy
  have hidle := h.editing hmod
  exact { h with
    inv := h.inv.markRdonly
    alone := fun hne => absurd rfl hne
    shutLock := fun hl => by cases hl
    editLock := fun hl => by rw [hidle] at hl; cases hl
    cleaning := fun hne => absurd hclean hne
    rebooting := fun _ => h.rebooting (by rw [hpc]; rfl)
    stopped := fun _ => ⟨rfl, hidle⟩ }

theorem stepNotify (hs : d.stepNotify = some d') : Positions g d' := by
  obtain ⟨⟨hpc, -⟩, rfl⟩ := Option.ite_some_none_eq_some.mp hs
  exact { h with
    shutLock := fun hl => by cases hl
    cleaning := h.cleaning_shut rfl rfl rfl rfl (by simp [ShutPc.isCleaning])
    rebooting := fun hr => by cases hr
    stopped := fun hr => by cases hr }

theorem stepStore (hs : d.stepStore = some d') : Positions g d' := by
  simp only [Shutdown.stepStore] at hs
  split at hs
  · next path hpc =>
    split at hs
    · cases hs
    · next hbusy =>
      have hfree : d.sys.clean = none ∨ d.cleaner ≠ .shutdown :=
        busy_eq_false.mp (by simpa using hbusy)
      cases hs
      exact { h with
        shutLock := fun hl => by cases hl
        cleaning := fun hne => h.cleaning_shut rfl rfl rfl rfl
          (fun hc => (hfree.elim hne fun hcon => hcon hc).elim) hne
        rebooting := fun hr => h.rebooting (by rw [hpc]; cases path <;> exact hr)
        stopped := fun hr => h.stopped (by rw [hpc]; cases path <;> exact hr) }
  · cases hs

theorem stepStoreBlock (hs : d.stepStoreBlock g = some d') : Positions g d' := by
  simp only [Shutdown.stepStoreBlock] at hs
  split at hs
  · next path i hpc =>
    split at hs
    · cases hs
      exact { h with
        shutLock := fun hl => by cases hl
        cleaning := h.cleaning_shut rfl rfl rfl rfl (by simp [hpc, ShutPc.isCleaning])
        rebooting := fun hr => h.rebooting (by rw [hpc]; cases path <;> exact hr)
        stopped := fun hr => h.stopped (by rw [hpc]; cases path <;> exact hr) }
    · cases hs
  · cases hs

theorem stepStoreSb {failed : List Nat} {err : Int}
    (hs : d.stepStoreSb g failed err = some d') : Positions g d' := by
  simp only [Shutdown.stepStoreSb] at hs
  split at hs
  · next path i hpc =>
    split at hs
    · cases hs
      exact { h with
        inv := h.inv.devices rfl
        shutLock := fun hl => by cases hl
        cleaning := h.cleaning_shut rfl rfl rfl rfl (by simp [hpc, ShutPc.isCleaning])
        rebooting := fun hr => h.rebooting (by rw [hpc]; cases path <;> exact hr)
        stopped := fun hr => h.stopped (by rw [hpc]; cases path <;> exact hr) }
    · cases hs
  · cases hs

theorem stepShutEnd (hs : d.stepShutEnd = some d') : Positions g d' := by
  simp only [Shutdown.stepShutEnd] at hs
  split at hs
  · next path hpc =>
    cases hs
    exact { h with
      shutLock := fun hl => by cases hl
      cleaning := h.cleaning_shut rfl rfl rfl rfl (by simp [hpc, ShutPc.isCleaning])
      rebooting := fun hr => by cases hr
      stopped := fun hr => by cases hr }
  · cases hs

/-! ### The edit moves on -/

/-- An edit is under way only while it may be. -/
theorem modInprog (hne : d.edit ≠ .idle) : d.modInprog = true := by
  by_contra hmod
  exact hne (h.editing (by simpa using hmod))

theorem not_stopped (hne : d.edit ≠ .idle) : d.shut.stopped = false := by
  by_contra hstop
  exact hne (h.stopped (by simpa using hstop)).2

theorem stepEditStart {mode : Option Mode}
    (hs : d.stepEditStart mode = some d') : Positions g d' := by
  obtain ⟨⟨hidle, -, hdown, -⟩, rfl⟩ := Option.ite_some_none_eq_some.mp hs
  -- `eio_cache_edit` does not start during a shutdown
  have hstop : d.shut.stopped = false := by
    by_contra hstop
    rw [h.rebooting (ShutPc.rebooting_of_stopped (by simpa using hstop))] at hdown
    cases hdown
  exact { h with
    editLock := fun hl => by cases hl
    editing := fun hm => by cases hm
    cleaning := fun hne => (h.cleaning hne).mono rfl (fun _ => id)
      (by simp [hidle, EditPc.isCleaning]) (fun _ => id)
    stopped := fun hst => by rw [hstop] at hst; cases hst }

theorem stepEditStop (hs : d.stepEditStop = some d') : Positions g d' := by
  simp only [Shutdown.stepEditStop] at hs
  split at hs
  · next mode hedit =>
    have hmod := h.modInprog (by simp [hedit])
    have hstop := h.not_stopped (by simp [hedit])
    split at hs
    · split at hs
      · cases hs
      · next hbusy =>
        have hfree : d.sys.clean = none ∨ d.cleaner ≠ .thread :=
          busy_eq_false.mp (by simpa using hbusy)
        cases hs
        exact { h with
          editLock := fun hl => by split at hl <;> cases hl
          editing := fun hm => by rw [hmod] at hm; cases hm
          cleaning := fun hne => (h.cleaning hne).mono rfl
            (fun hc => (hfree.elim hne fun hcon => hcon hc).elim)
            (by simp [hedit, EditPc.isCleaning]) (fun _ => id)
          stopped := fun hst => by rw [hstop] at hst; cases hst }
    · cases hs
      exact { h with
        editLock := fun hl => by cases hl
        editing := fun hm => by rw [hmod] at hm; cases hm
        cleaning := fun hne => (h.cleaning hne).mono rfl (fun _ => id)
          (by simp [hedit, EditPc.isCleaning]) (fun _ => id)
        stopped := fun hst => by rw [hstop] at hst; cases hst }
  · cases hs

theorem editTakes {pc : EditPc} (hne : d.edit ≠ .idle)
    (hclean : d.edit.isCleaning = false) (hfree : d.lockFree) :
    Positions g { d with ttc := some .edit, edit := pc } :=
  { h with
    alone := fun _ => hfree.2
    shutLock := fun hl => absurd (h.shutLock hl) (by simp [hfree.1])
    editLock := fun _ => rfl
    editing := fun hm => by rw [h.modInprog hne] at hm; cases hm
    cleaning := fun hc => (h.cleaning hc).mono rfl (fun _ => id) (by simp [hclean]) (fun _ => id)
    stopped := fun hst => by rw [h.not_stopped hne] at hst; cases hst }

/-- The edit goes on to a position without the lock; if it has it, it gives it back. -/
theorem editLeaves {pc : EditPc} {ttc : Option TtcHolder}
    (hne : d.edit ≠ .idle) (hpc : pc.locked = false)
    (hclean : d.sys.clean ≠ none → d.cleaner = .edit → d.edit.isCleaning = true →
      pc.isCleaning = true) (httc : ttc = d.ttc ∨ ttc = none ∧ d.edit.locked = true) :
    Positions g { d with ttc := ttc, edit := pc } :=
  { h with
    alone := fun hn => h.alone fun hcon => by rcases httc with rfl | ⟨rfl, -⟩ <;> simp_all
    shutLock := fun hl => by
      rcases httc with rfl | ⟨rfl, hlock⟩
      · exact h.shutLock hl
      · rw [h.shut_unlocked hlock] at hl; cases hl
    editLock := fun hl => by rw [hpc] at hl; cases hl
    editing := fun hm => by rw [h.modInprog hne] at hm; cases hm
    cleaning := fun hc => (h.cleaning hc).mono rfl (fun _ => id) (hclean hc) (fun _ => id)
    stopped := fun hst => by rw [h.not_stopped hne] at hst; cases hst }

theorem stepFinishLock (hs : d.stepFinishLock = some d') : Positions g d' := by
  simp only [Shutdown.stepFinishLock] at hs
  split at hs
  · next hedit =>
    obtain ⟨hfree, rfl⟩ := Option.ite_some_none_eq_some.mp hs
    exact h.editTakes (by simp [hedit]) (by rw [hedit]; rfl) hfree
  · cases hs

theorem stepEditLock (hs : d.stepEditLock = some d') : Positions g d' := by
  simp only [Shutdown.stepEditLock] at hs
  split at hs
  · next hedit =>
    obtain ⟨hfree, rfl⟩ := Option.ite_some_none_eq_some.mp hs
    exact h.editTakes (by simp [hedit]) (by rw [hedit]; rfl) hfree
  · cases hs

theorem stepFinishDrained (hs : d.stepFinishDrained = some d') : Positions g d' := by
  simp only [Shutdown.stepFinishDrained] at hs
  split at hs
  · next hedit =>
    obtain ⟨-, rfl⟩ := Option.ite_some_none_eq_some.mp hs
    exact h.editLeaves (by simp [hedit]) rfl (fun _ _ _ => rfl) (.inr ⟨rfl, by rw [hedit]; rfl⟩)
  · cases hs

theorem stepFinishEnd {fast : Bool} (hs : d.stepFinishEnd fast = some d') : Positions g d' := by
  simp only [Shutdown.stepFinishEnd] at hs
  split at hs
  · next hedit =>
    obtain ⟨⟨hbusy, -⟩, hs⟩ := Option.ite_none_right_eq_some.mp hs
    have hfree := busy_eq_false.mp hbusy
    cases hs
    refine h.editLeaves (by simp [hedit]) ?_ (fun hne hc => ?_) (.inl rfl)
    · split <;> rfl
    · exact (hfree.elim hne fun hcon => hcon hc).elim
  · cases hs

/-- Under the lock, once `nr_ios` is 0, every bio has been ended. -/
theorem drained (hlock : d.edit.locked = true) (hios : d.sys.nrIos = 0) : d.sys.allEnded :=
  Sys.allEnded_of_drained (h.alone (by simp [h.editLock hlock])) hios

theorem switchMode (hbug : d.sys.bug = none) (hlock : d.edit.locked = true)
    (hios : d.sys.nrIos = 0) (mode : Option Mode) :
    Positions g { d with toRunning := d.switchMode mode } := by
  have hne : d.edit ≠ .idle := fun hcon => by rw [hcon] at hlock; cases hlock
  unfold Running.switchMode
  split
  · next mode =>
    split
    · exact h
    · exact { h with
        inv := h.inv.forget hbug h.up (h.drained hlock hios) mode
        alone := fun _ _ _ => .inl rfl
        cleaning := fun hc => (h.cleaning hc).mono rfl (fun _ hthread => by simp [hthread])
          (fun _ => id) (fun _ => id)
        stopped := fun hst => by rw [h.not_stopped hne] at hst; cases hst }
  · exact h

theorem stepEditSwitch {err : Int} (hbug : d.sys.bug = none)
    (hs : d.stepEditSwitch err = some d') : Positions g d' := by
  simp only [Shutdown.stepEditSwitch] at hs
  split at hs
  · next mode hedit =>
    have hlock : d.edit.locked = true := by rw [hedit]; rfl
    obtain ⟨hios, hs⟩ := Option.ite_none_right_eq_some.mp hs
    split at hs
    · cases hs
      exact h.editLeaves (by simp [hedit]) rfl (by simp [hedit, EditPc.isCleaning])
        (.inr ⟨rfl, hlock⟩)
    · cases hs
      have h' := h.switchMode hbug hlock hios mode
      have hne : d.edit ≠ .idle := by simp [hedit]
      exact { h' with
        editLock := fun _ => h'.editLock hlock
        editing := fun hm => absurd (h'.editing hm) hne
        cleaning := fun hc => (h'.cleaning hc).mono rfl (fun _ => id)
          (by simp [hedit, EditPc.isCleaning]) (fun _ => id)
        stopped := fun hst => absurd (h'.stopped hst).2 hne }
  · cases hs

theorem stepEditStore {err : Int} (hs : d.stepEditStore err = some d') : Positions g d' := by
  simp only [Shutdown.stepEditStore] at hs
  split at hs
  · next hedit =>
    have hclean : d.sys.clean ≠ none → d.cleaner = .edit → d.edit.isCleaning = true →
        EditPc.out.isCleaning = true := by simp [hedit, EditPc.isCleaning]
    split at hs
    · cases hs
      have h' : Positions g { d with edit := .out, ttc := none } :=
        h.editLeaves (by simp [hedit]) rfl hclean (.inr ⟨rfl, by rw [hedit]; rfl⟩)
      exact { h' with }
    · cases hs
      exact h.editLeaves (by simp [hedit]) rfl hclean (.inl rfl)
  · cases hs

theorem stepEditEnd {err : Int} (hs : d.stepEditEnd err = some d') : Positions g d' := by
  simp only [Shutdown.stepEditEnd] at hs
  split at hs
  · next hedit =>
    cases hs
    exact { h with
      editLock := fun hl => by cases hl
      editing := fun _ => rfl
      cleaning := fun hc => (h.cleaning hc).mono rfl (fun _ hthread => by simp [hthread])
        (by simp [hedit, EditPc.isCleaning]) (fun _ => id)
      stopped := fun hst => by rw [h.not_stopped (by simp [hedit])] at hst; cases hst }
  · cases hs

/-- Who has the lock and who runs stays in order, whatever happens. -/
theorem act (hbug : d.sys.bug = none) (hs : d.act g a = some d') : Positions g d' := by
  cases a with
  | io => exact h.stepIo hbug hs
  | clean => exact h.stepClean hbug hs
  | rebootLock => exact h.stepRebootLock hs
  | rebootDrained => exact h.stepRebootDrained hs
  | rebootPause => exact h.stepRebootPause hs
  | rebootResume => exact h.stepRebootResume hs
  | rebootSeal => exact h.stepRebootSeal hs
  | notify => exact h.stepNotify hs
  | store => exact h.stepStore hs
  | storeBlock => exact h.stepStoreBlock hs
  | storeSb => exact h.stepStoreSb hs
  | shutEnd => exact h.stepShutEnd hs
  | editStart => exact h.stepEditStart hs
  | editStop => exact h.stepEditStop hs
  | finishLock => exact h.stepFinishLock hs
  | finishDrained => exact h.stepFinishDrained hs
  | finishEnd => exact h.stepFinishEnd hs
  | editLock => exact h.stepEditLock hs
  | editSwitch => exact h.stepEditSwitch hbug hs
  | editStore => exact h.stepEditStore hs
  | editEnd => exact h.stepEditEnd hs

end

end Positions
end

end Shutdown

end EnhanceIO
