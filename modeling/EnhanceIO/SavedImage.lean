import EnhanceIO.Positions

/-!
# A saved image stays true

The claim of a clean shutdown: when `eio_md_store` writes the superblock no block
has a request on it, and from then on what the stored metadata says of a valid
block stays true. Neither way of shutting down keeps it by itself.
`eio_notify_reboot` keeps nothing out. `eio_reboot_handling` lets bios in while it
waits for an edit and does not wait for them again; after it has made the cache
read-only, a read may have marked a block when the superblock is written, and an
I/O error or a later edit changes blocks behind it. `Undisturbed` excludes these.
-/

namespace EnhanceIO

open State

/-- A step of `eio_cache_edit` that leaves the mode alone. -/
def ShutAct.isEdit : ShutAct → Bool
  | .editStart _ | .editStop | .finishLock | .finishDrained | .finishEnd _ | .editLock
  | .editStore _ | .editEnd _ => true
  | _ => false

/-- The superblock says that the metadata can be loaded as it is. -/
def saysClean (sb : BitVec 32) : Prop := sb = mdStateClean ∨ sb = mdStateFastclean

instance (sb : BitVec 32) : Decidable (saysClean sb) := inferInstanceAs (Decidable (_ ∨ _))

namespace Shutdown

/-- When the superblock was written no request was on a block, and what is stored
about valid blocks is still so: they have the same place, and neither their data
nor the disk has changed. -/
def ImageTrue (g : Geom) (d : Shutdown) : Prop :=
  ∃ s₀, d.saved = some s₀ ∧
    (∀ i < g.size, (s₀.st g i).has (blockIoInprog ||| queued) = false) ∧
    ∀ i < g.size, (d.sys.mdDisk i).state.has valid = true →
      d.sys.entry g i = d.sys.mdDisk i ∧ d.sys.ssd i = s₀.ssd i ∧ d.sys.hdd = s₀.hdd

/-- What has to be true of a step for the image to stay true. Every bio has been
ended when the cache is sealed and when the superblock is written; from the first
of these on no I/O fails and bios are let in only to a read-only cache; no set is
cleaned once the blocks are being stored. -/
def Undisturbed (d : Shutdown) : ShutAct → Prop
  | .rebootSeal => d.sys.allEnded
  | .store => d.shut = .clean .notify → d.sys.allEnded ∧ d.sys.clean = none
  | .storeSb _ _ => d.sys.allEnded
  | .io a => d.shut.sealed = true → a.ok = true ∧ (a.isMap = true → d.sys.rdonly = true)
  | .clean _ _ _ => d.shut.storing = false
  | _ => True

instance (d : Shutdown) : DecidablePred d.Undisturbed
  | .rebootSeal => inferInstanceAs (Decidable d.sys.allEnded)
  | .store => inferInstanceAs (Decidable (_ → _ ∧ _))
  | .storeSb _ _ => inferInstanceAs (Decidable d.sys.allEnded)
  | .io _ => inferInstanceAs (Decidable (_ → _ ∧ (_ → _)))
  | .clean _ _ _ => inferInstanceAs (Decidable (_ = _))
  | .rebootLock | .rebootDrained | .rebootPause | .rebootResume | .notify | .storeBlock | .shutEnd
  | .editStart _ | .editStop | .finishLock | .finishDrained | .finishEnd _ | .editLock
  | .editSwitch _ | .editStore _ | .editEnd _ => .isTrue trivial

/-- The cache is sealed from where the shutdown counts on it; what has been read is
what the blocks are, and what has been saved is still so. -/
structure Ok (g : Geom) (d : Shutdown) : Prop extends Positions g d where
  sealed : d.shut.sealed = true → Sealed (d.geom g) d.sys d.sys
  still : d.shut.storing = true → d.sys.clean = none
  image : ∀ {path n}, d.shut = .store path n → ∀ i < n, d.image i = d.sys.entry g i
  saved : ∀ {s₀}, d.saved = some s₀ → d.shut.isStored = true ∧ Sealed (d.geom g) s₀ d.sys ∧
    (∀ i, (s₀.st g i).has (blockIoInprog ||| queued) = false) ∧
    ∀ i < g.size, s₀.mdDisk i = s₀.entry g i
  marked : d.saved = none → ¬ saysClean d.sb ∧ ¬ saysClean d.sbState

end Shutdown

section
variable {g : Geom} {s₀ s s' : Sys} {pc : ShutPc}

theorem ShutPc.storing_of_isStored (h : pc.isStored = true) : pc.storing = true := by
  cases pc <;> first | rfl | cases h

theorem ShutPc.sealed_of_storing (h : pc.storing = true) : pc.sealed = true := by
  cases pc <;> first | rfl | cases h

/-- The mode does not matter, nor do containers that are all gone. -/
theorem Sealed.forget (h : Sealed g s₀ s) (mode : Mode) : Sealed (g.withMode mode) s₀ s.forget :=
  { h with
    bio := fun _ => .finished ⟨.inl rfl, .inl rfl⟩
    ebio := fun _ => rfl }

/-- At rest, and with no clean under way, no block has a request on it. -/
theorem Inv.settled (h : Inv g s) (hbug : s.bug = none) (hend : s.allEnded)
    (hclean : s.clean = none) (i : Nat) :
    (s.st g i).has (blockIoInprog ||| queued) = false := by
  have hst : ∀ e : EbId, (s.ebio e).st = .new ∨ (s.ebio e).st = .done := fun e =>
    ((h.live hbug).finished hend e.1).2 e.2
  rcases h.blk.resting hst i with hc | hc | hc | hc
  case inr.inr.inr =>
    have hset := h.blk.cleaned hc
    simp [Sys.cleanSet, hclean] at hset
  all_goals rw [hc]; decide

end

namespace Shutdown.Ok

variable {g : Geom} {d d' : Shutdown} {a : ShutAct}

theorem init (g : Geom) : Ok g (Shutdown.init g) where
  toPositions := .init g
  sealed := fun h => by cases h
  still := fun h => by cases h
  image := fun h => by cases h
  saved := fun h => by cases h
  marked := fun _ =>
    have hdirty : ¬ saysClean mdStateDirty := by decide
    ⟨hdirty, hdirty⟩

section
variable (h : Ok g d)
include h

/-- Nothing has been saved before the end of `eio_md_store`. -/
theorem saved_none (hpc : d.shut.isStored = false) : d.saved = none := by
  cases hs : d.saved with
  | none => rfl
  | some s₀ =>
    rw [(h.saved hs).1] at hpc
    cases hpc

/-! ## I/O and cleans -/

theorem stepIo {x : Act} (hbug : d.sys.bug = none) (hp : d.Undisturbed (.io x))
    (hs : d.stepIo g x = some d') : Ok g d' := by
  have hpos := h.toPositions.stepIo hbug hs
  obtain ⟨hio, -, s, hact, rfl⟩ := stepIo_eq_some hbug hs
  -- what is not part of a clean keeps the seal, whatever it is compared with
  have hkeep : ∀ {s₀}, d.shut.sealed = true → x.isClean = false → Sealed (d.geom g) s₀ d.sys →
      Sealed (d.geom g) s₀ (s.tick (d.sys.now + 1)) := fun hseal hclean h₀ =>
    (h₀.act h.inv hbug hio hclean (hp hseal).1 (hp hseal).2 hact).tick _
  have hnot : d.shut.storing = true → x.isClean = false := fun hst => by
    by_contra hclean
    rw [Sys.act_clean_none (h.still hst) (by simpa using hclean)] at hact
    cases hact
  have hstill : d.shut.storing = true → s.clean = none := fun hst =>
    Sys.act_clean_still h.inv.blk hio hact (h.still hst)
  refine { hpos with
    sealed := fun hseal => ?_
    still := hstill
    image := fun {path n} hpc i hi => ?_
    saved := fun {s₀} hsaved => ?_
    marked := h.marked }
  · cases hclean : x.isClean with
    | false => exact (hkeep hseal hclean (h.sealed hseal)).rebase
    | true => exact (((h.sealed hseal).act_clean hclean hact).tick _).rebase
  · have hst : d.shut.storing = true := by rw [show d.shut = _ from hpc]; rfl
    have hseal := ShutPc.sealed_of_storing hst
    exact (h.image hpc i hi).trans ((hkeep hseal (hnot hst) (h.sealed hseal)).entry i).symm
  · obtain ⟨hstored, h₀, hrest⟩ := h.saved hsaved
    have hst := ShutPc.storing_of_isStored hstored
    exact ⟨hstored, hkeep (ShutPc.sealed_of_storing hst) (hnot hst) h₀, hrest⟩

theorem stepClean {who : Cleaner} {set : Nat} {sel : List Nat}
    (hbug : d.sys.bug = none) (hp : d.Undisturbed (.clean who set sel))
    (hs : d.stepClean g who set sel = some d') : Ok g d' := by
  have hpos := h.toPositions.stepClean hbug hs
  obtain ⟨-, s, hact, rfl⟩ := stepClean_eq_some hbug hs
  have hst : d.shut.storing = false := hp
  refine { hpos with
    sealed := fun hseal => ?_
    still := fun hcon => by rw [hst] at hcon; cases hcon
    image := fun {path n} hpc => ?_
    saved := fun {s₀} hsaved => ?_
    marked := h.marked }
  · exact (((h.sealed hseal).stepCleanStart hact).tick _).rebase
  · rw [show d.shut = _ from hpc] at hst
    cases hst
  · rw [ShutPc.storing_of_isStored (h.saved hsaved).1] at hst
    cases hst

/-! ## Steps that neither read nor write the blocks -/

theorem early (hpos : Positions g d') (hold : d.shut.isStored = false)
    (hnew : d'.shut.sealed = false) (hsaved : d'.saved = d.saved) (hsb : d'.sb = d.sb)
    (hstate : d'.sbState = d.sbState) : Ok g d' := by
  have hnone := h.saved_none hold
  have hst : d'.shut.storing = false := by
    by_contra hst
    rw [ShutPc.sealed_of_storing (by simpa using hst)] at hnew
    cases hnew
  refine { hpos with
    sealed := fun hseal => by rw [hnew] at hseal; cases hseal
    still := fun hcon => by rw [hst] at hcon; cases hcon
    image := fun {path n} hpc => ?_
    saved := fun {s₀} hs₀ => ?_
    marked := fun _ => ?_ }
  · rw [hpc] at hst
    cases hst
  · rw [hsaved, hnone] at hs₀
    cases hs₀
  · rw [hsb, hstate]
    exact h.marked hnone

/-- The edit leaves the shutdown and what it has stored alone, but may write the
superblock. -/
theorem beside (hpos : Positions g d') (hsys : d'.sys = d.sys)
    (hmode : d'.mode = d.mode) (hshut : d'.shut = d.shut) (himage : d'.image = d.image)
    (hsaved : d'.saved = d.saved) (hsb : d'.sb = d.sb ∨ d'.sb = d.sbState)
    (hstate : d'.sbState = d.sbState) : Ok g d' := by
  have hgeom : d'.geom g = d.geom g := by rw [Running.geom, Running.geom, hmode]
  refine { hpos with
    sealed := ?_
    still := ?_
    image := ?_
    saved := ?_
    marked := fun hnone => ?_ }
  · rw [hgeom, hsys, hshut]
    exact h.sealed
  · rw [hsys, hshut]
    exact h.still
  · rw [hsys, hshut, himage]
    exact h.image
  · rw [hgeom, hsys, hshut, hsaved]
    exact h.saved
  · rw [hsaved] at hnone
    rw [hstate]
    have hm := h.marked hnone
    rcases hsb with hsb | hsb <;> rw [hsb]
    · exact hm
    · exact ⟨hm.2, hm.2⟩

/-! ## The shutdown -/

theorem stepRebootSeal (hbug : d.sys.bug = none) (hp : d.Undisturbed .rebootSeal)
    (hs : d.stepRebootSeal = some d') : Ok g d' := by
  have hpos := h.toPositions.stepRebootSeal hs
  obtain ⟨⟨hpc, -, -⟩, rfl⟩ := Option.ite_some_none_eq_some.mp hs
  have hnone := h.saved_none (by rw [hpc]; rfl)
  exact { hpos with
    sealed := fun _ => .of_ended h.inv.markRdonly hbug h.up hp
    still := fun hst => by cases hst
    image := fun hst => by cases hst
    saved := fun hs₀ => by rw [show d.saved = none from hnone] at hs₀; cases hs₀
    marked := h.marked }

/-- When the shutdown goes on to the store its own cleans are over, and after
`eio_stop_async_tasks` there are no others. -/
theorem store_still {path : ShutPath} (hpc : d.shut = .clean path)
    (hbusy : d.busy .shutdown = false) (hp : d.Undisturbed .store) : d.sys.clean = none := by
  cases path with
  | notify => exact (hp hpc).2
  | reboot =>
    obtain ⟨hthread, hedit⟩ := h.stopped (by rw [hpc]; rfl)
    by_contra hne
    have hrun := h.cleaning hne
    unfold cleanerRuns at hrun
    cases hc : d.cleaner with
    | thread => simp [hc, hthread] at hrun
    | edit => simp [hc, hedit, EditPc.isCleaning] at hrun
    | shutdown => exact (busy_eq_false.mp hbusy).elim hne fun hcon => hcon hc

theorem stepStore (hbug : d.sys.bug = none) (hp : d.Undisturbed .store)
    (hs : d.stepStore = some d') : Ok g d' := by
  have hpos := h.toPositions.stepStore hs
  simp only [Shutdown.stepStore] at hs
  split at hs
  · next path hpc =>
    split at hs
    · cases hs
    · next hbusy =>
      cases hs
      have hnone := h.saved_none (by rw [hpc]; rfl)
      refine { hpos with
        sealed := fun _ => ?_
        still := fun _ => h.store_still hpc (by simpa using hbusy) hp
        image := fun hn i hi => ?_
        saved := fun hs₀ => by rw [show d.saved = none from hnone] at hs₀; cases hs₀
        marked := h.marked }
      · cases path with
        | reboot => exact h.sealed (by rw [hpc]; rfl)
        | notify => exact .of_ended h.inv hbug h.up (hp hpc).1
      · cases hn
        exact absurd hi (Nat.not_lt_zero i)
  · cases hs

theorem stepStoreBlock (hs : d.stepStoreBlock g = some d') : Ok g d' := by
  have hpos := h.toPositions.stepStoreBlock hs
  simp only [Shutdown.stepStoreBlock] at hs
  split at hs
  · next path n hpc =>
    split at hs
    · cases hs
      have hnone := h.saved_none (by rw [hpc]; rfl)
      refine { hpos with
        sealed := fun _ => h.sealed (by rw [hpc]; rfl)
        still := fun _ => h.still (by rw [hpc]; rfl)
        image := fun hn i hi => ?_
        saved := fun hs₀ => by rw [show d.saved = none from hnone] at hs₀; cases hs₀
        marked := h.marked }
      cases hn
      by_cases heq : i = n
      · subst heq
        simp
      · simp only [Function.update_of_ne heq]
        exact h.image hpc i (by omega)
    · cases hs
  · cases hs

theorem stepStoreSb {failed : List Nat} {err : Int} (hbug : d.sys.bug = none)
    (hp : d.Undisturbed (.storeSb failed err)) (hs : d.stepStoreSb g failed err = some d') :
    Ok g d' := by
  have hpos := h.toPositions.stepStoreSb hs
  simp only [Shutdown.stepStoreSb] at hs
  split at hs
  · next path n hpc =>
    split at hs
    · next hn =>
      cases hs
      have hclean : d.sys.clean = none := h.still (by rw [hpc]; rfl)
      have hsealed : Sealed (d.geom g) (d.writeImage g failed) (d.writeImage g failed) :=
        (h.sealed (by rw [hpc]; rfl)).devices rfl
      refine { hpos with
        sealed := fun _ => hsealed
        still := fun _ => hclean
        image := fun hst => by cases hst
        saved := fun hs₀ => ?_
        marked := fun hnone => ?_ }
      · dsimp only at hs₀
        split at hs₀
        · next hfail =>
          cases hs₀
          refine ⟨rfl, hsealed, h.inv.settled hbug hp hclean, fun i hi => ?_⟩
          simp only [Shutdown.writeImage, hfail, hi, List.not_mem_nil, not_false_eq_true,
            and_self, if_true]
          exact h.image hpc i (by omega)
        · cases hs₀
      · have hfail : failed ≠ [] := fun hcon => by simp [hcon] at hnone
        have hstate : d.storedState g failed = mdStateUnstable := if_pos hfail
        have hbad : ¬ saysClean mdStateUnstable := by decide
        rw [hstate]
        refine ⟨?_, hbad⟩
        split
        · exact hbad
        · exact (h.marked (h.saved_none (by rw [hpc]; rfl))).1
    · cases hs
  · cases hs

theorem stepShutEnd (hs : d.stepShutEnd = some d') : Ok g d' := by
  have hpos := h.toPositions.stepShutEnd hs
  simp only [Shutdown.stepShutEnd] at hs
  split at hs
  · next path hpc =>
    cases hs
    exact { hpos with
      sealed := fun _ => h.sealed (by rw [hpc]; rfl)
      still := fun _ => h.still (by rw [hpc]; rfl)
      image := fun hst => by cases hst
      saved := fun hs₀ => ⟨rfl, (h.saved hs₀).2⟩
      marked := h.marked }
  · cases hs

/-! ## The edit -/

/-- A step of the edit that does not switch the mode. -/
theorem editStep (hpos : Positions g d') (ha : a.isEdit = true)
    (hs : d.act g a = some d') : Ok g d' := by
  have hsame : d'.sys = d.sys ∧ d'.mode = d.mode ∧ d'.shut = d.shut ∧ d'.image = d.image ∧
      d'.saved = d.saved ∧ (d'.sb = d.sb ∨ d'.sb = d.sbState) ∧ d'.sbState = d.sbState := by
    cases a <;> simp only [ShutAct.isEdit, Bool.false_eq_true] at ha
    case editStart =>
      obtain ⟨-, rfl⟩ := Option.ite_some_none_eq_some.mp hs
      simp
    case editStop =>
      simp only [Shutdown.act, Shutdown.stepEditStop] at hs
      split at hs
      · split at hs
        · split at hs <;> cases hs
          simp
        · cases hs
          simp
      · cases hs
    case editEnd =>
      simp only [Shutdown.act, Shutdown.stepEditEnd] at hs
      split at hs <;> cases hs
      simp
    all_goals
      simp only [Shutdown.act, Shutdown.stepFinishLock, Shutdown.stepFinishDrained,
        Shutdown.stepFinishEnd, Shutdown.stepEditLock, Shutdown.stepEditStore] at hs
      split at hs
      · split at hs <;> cases hs <;> simp
      · cases hs
  obtain ⟨hsys, hmode, hshut, himage, hsaved, hsb, hstate⟩ := hsame
  exact h.beside hpos hsys hmode hshut himage hsaved hsb hstate

theorem switchMode {mode : Option Mode}
    (hpos : Positions g { d with toRunning := d.switchMode mode }) :
    Ok g { d with toRunning := d.switchMode mode } := by
  unfold Running.switchMode at hpos ⊢
  cases mode with
  | none => exact h
  | some mode =>
    dsimp only at hpos ⊢
    split
    · exact h
    · next hne =>
      rw [if_neg hne] at hpos
      exact { hpos with
        sealed := fun hseal => ((h.sealed hseal).forget mode).rebase
        still := h.still
        image := h.image
        saved := fun hs₀ => ⟨(h.saved hs₀).1, (h.saved hs₀).2.1.forget mode, (h.saved hs₀).2.2⟩
        marked := h.marked }

theorem stepEditSwitch {err : Int} (hbug : d.sys.bug = none)
    (hs : d.stepEditSwitch err = some d') : Ok g d' := by
  have hpos := h.toPositions.stepEditSwitch hbug hs
  simp only [Shutdown.stepEditSwitch] at hs
  split at hs
  · next mode hedit =>
    obtain ⟨hios, hs⟩ := Option.ite_none_right_eq_some.mp hs
    split at hs
    · cases hs
      exact h.beside hpos rfl rfl rfl rfl rfl (.inl rfl) rfl
    · cases hs
      have h' := h.switchMode (h.toPositions.switchMode hbug (by rw [hedit]; rfl) hios mode)
      exact h'.beside hpos rfl rfl rfl rfl rfl (.inl rfl) rfl
  · cases hs

/-! ## All together -/

theorem act (hbug : d.sys.bug = none) (hp : d.Undisturbed a)
    (hs : d.act g a = some d') : Ok g d' := by
  have hpos := h.toPositions.act hbug hs
  cases a with
  | io => exact h.stepIo hbug hp hs
  | clean => exact h.stepClean hbug hp hs
  | rebootLock | rebootDrained | rebootPause | rebootResume | notify =>
    obtain ⟨hc, rfl⟩ := Option.ite_some_none_eq_some.mp hs
    exact h.early hpos (by rw [hc.1]; rfl) rfl rfl rfl rfl
  | rebootSeal => exact h.stepRebootSeal hbug hp hs
  | store => exact h.stepStore hbug hp hs
  | storeBlock => exact h.stepStoreBlock hs
  | storeSb => exact h.stepStoreSb hbug hp hs
  | shutEnd => exact h.stepShutEnd hs
  | editSwitch => exact h.stepEditSwitch hbug hs
  | editStart | editStop | finishLock | finishDrained | finishEnd
  | editLock | editStore | editEnd =>
    exact h.editStep hpos rfl hs

theorem step (hp : d.Undisturbed a) (hs : d.step g a = some d') : Ok g d' := by
  simp only [Shutdown.step] at hs
  split at hs
  · cases hs
  · next hbug => exact h.act (by simpa using hbug) hp hs

/-- What was saved and has been kept is what the device has now. -/
theorem imageTrue (hsb : saysClean d.sb) : d.ImageTrue g := by
  cases hsaved : d.saved with
  | none => exact absurd hsb (h.marked hsaved).1
  | some s₀ =>
    obtain ⟨-, hseal, hset, hdisk⟩ := h.saved hsaved
    refine ⟨s₀, hsaved, fun i _ => hset i, fun i hi _ => ⟨?_, ?_, hseal.hdd⟩⟩
    · rw [hseal.mdDisk, hdisk i hi]
      exact hseal.entry i
    · rw [hseal.ssd]

end

end Shutdown.Ok

section
variable {g : Geom} {d : Shutdown}

theorem Shutdown.Reachable.ok (h : Shutdown.Reachable g Shutdown.Undisturbed d) : d.Ok g :=
  h.invariant (.init g) fun hi hp hs => hi.step hp hs

/-- In every run whose steps are undisturbed, whenever the superblock on the device
says clean or fast clean, what is stored is true: no request was on a block when it
was written, and no valid entry, nor its data, has changed since. -/
theorem saved_image_stays_true (h : Shutdown.Reachable g Shutdown.Undisturbed d)
    (hsb : saysClean d.sb) : d.ImageTrue g :=
  h.ok.imageTrue hsb

end

/-! ## Concrete shutdowns -/

/-- `eio_md_store` of a cache of eight blocks. -/
def storeAll : List ShutAct :=
  ShutAct.store :: List.replicate 8 ShutAct.storeBlock ++ [ShutAct.storeSb [] 0]

/-- A read that misses and fills its block. -/
def filledRead : List Act :=
  [Act.map .read 16 8 false, Act.peek 0 none, Act.dispatch 0, Act.diskIo 0 0, Act.put 0] ++
  (List.range' 16 8).map (Act.hddSector 0) ++
  [Act.hddDone 0 0, Act.readfillStart 0, Act.readfill 0, Act.readfillSubmit 0 0] ++
  (List.range' 16 8).map (Act.ssdSector 0 0) ++
  [Act.ssdDone 0 0 0, Act.ebEndio 0 0, Act.readfill 0, Act.mainEndio 0]

theorem saved_image_stays_true_tiny : ∃ d, Shutdown.Reachable tinyCache Shutdown.Undisturbed d ∧
    d.sys.mdDisk 2 = ⟨16, valid⟩ ∧ saysClean d.sb ∧ d.ImageTrue tinyCache := by
  obtain ⟨d, hd, hentry, hsb⟩ : ∃ d, Shutdown.Reachable tinyCache Shutdown.Undisturbed d ∧
      d.sys.mdDisk 2 = ⟨16, valid⟩ ∧ saysClean d.sb :=
    Run.Reach.of_run (fun (d : Shutdown) (a : ShutAct) => decide (d.Undisturbed a))
      (fun _ _ h => of_decide_eq_true h)
      (filledRead.map .io ++ [.rebootLock, .rebootDrained, .rebootSeal] ++ storeAll)
      (by decide +kernel)
  exact ⟨d, hd, hentry, hsb, saved_image_stays_true hd hsb⟩

/-- Half a block is written, past the cache. -/
def shortWrite : List Act :=
  [Act.map .write 16 4 false, Act.peek 0 none, Act.dispatch 0, Act.uwLock 0, Act.uwLock 0,
    Act.diskIo 0 0, Act.put 0] ++
  (List.range' 16 4).map (Act.hddSector 0) ++
  [Act.hddDone 0 0, Act.flag 0, Act.flag 0, Act.mainEndio 0, Act.ebEndio 0 0]

/-- A read of that block has reserved a place for it and waits for the disk. -/
def pendingRead : List Act :=
  [.map .read 16 8 false, .peek 1 none, .dispatch 1, .diskIo 1 0, .put 1]

/-- The read is on its way when the cache is stored. `eio_notify_reboot` does not
mind; `eio_reboot_handling` has let it in while it waited for an edit. -/
def disturbedRun : ShutPath → List ShutAct
  | .notify => shortWrite.map .io ++ pendingRead.map .io ++ [.notify] ++ storeAll
  | .reboot =>
    shortWrite.map .io ++
    [.editStart (some .ro), .editStop, .editLock, .editSwitch 0, .editStore 0, .rebootLock,
      .rebootDrained, .rebootPause] ++ pendingRead.map .io ++
    [.editEnd 0, .rebootResume, .rebootSeal] ++ storeAll

theorem disturbedRun_stores (path : ShutPath) :
    ∃ d, Shutdown.Reachable tinyCache (fun _ _ => True) d ∧ d.shut = .stored path ∧
      d.sb = mdStateClean ∧ ¬ d.ImageTrue tinyCache ∧ d.sys.mdDisk 2 = ⟨16, valid⟩ ∧
      d.sys.ssd 2 0 ≠ d.sys.hdd 16 := by
  obtain ⟨d, hd, hpc, hsb, hentry, hdata, hmark⟩ : ∃ d,
      Shutdown.Reachable tinyCache (fun _ _ => True) d ∧ d.shut = .stored path ∧
        d.sb = mdStateClean ∧ d.sys.mdDisk 2 = ⟨16, valid⟩ ∧ d.sys.ssd 2 0 ≠ d.sys.hdd 16 ∧
        (d.saved.all fun s₀ => (s₀.st tinyCache 2).has (blockIoInprog ||| queued)) = true :=
    Run.Reach.of_run (fun _ _ => true) (fun _ _ _ => trivial) (disturbedRun path)
      (by cases path <;> decide +kernel)
  refine ⟨d, hd, hpc, hsb, ?_, hentry, hdata⟩
  rintro ⟨s₀, hsaved, hset, -⟩
  rw [hsaved, Option.all_some, hset 2 (by decide)] at hmark
  cases hmark

/-- On both ways a clean superblock is written over a block that is still being
filled. The image says that block 2 has sector 16, but its data is not what was
written there. -/
theorem saved_image_disturbed :
    (∃ d, Shutdown.Reachable tinyCache (fun _ _ => True) d ∧ d.shut = .stored .reboot ∧
      d.sb = mdStateClean ∧ ¬ d.ImageTrue tinyCache ∧ d.sys.mdDisk 2 = ⟨16, valid⟩ ∧
      d.sys.ssd 2 0 ≠ d.sys.hdd 16) ∧
    ∃ d, Shutdown.Reachable tinyCache (fun _ _ => True) d ∧ d.shut = .stored .notify ∧
      d.sb = mdStateClean ∧ ¬ d.ImageTrue tinyCache ∧ d.sys.mdDisk 2 = ⟨16, valid⟩ ∧
      d.sys.ssd 2 0 ≠ d.sys.hdd 16 :=
  ⟨disturbedRun_stores .reboot, disturbedRun_stores .notify⟩

end EnhanceIO
