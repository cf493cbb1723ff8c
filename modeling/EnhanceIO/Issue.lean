import EnhanceIO.Blocks

/-!
# Issuing the I/Os of a bio, one ebio at a time

The counterpart of the completions: `eio_cached_read`, `eio_uncached_write` and
`eio_cached_write` on one ebio, with the branch taken when the device refuses
the I/O, and the two peeks that decide what an ebio works on.
-/

namespace EnhanceIO

open State Sys

section
variable {g : Geom} {s : Sys} {e : EbId} {i : Nat}

/-! ## Cached reads -/

theorem Sys.cachedReadAccept_frame : EbFrame s (s.cachedReadAccept e) e :=
  (EbFrame.refl s e).updEb _

theorem Sys.cachedReadAccept_spec (hok : EbOk (s.ebio e))
    (hat : Stage.readHit.Ok (s.ebio e).role (s.ebio e).st) :
    Handled g s (s.cachedReadAccept e) e Stage.cachedRead.Ok := by
  obtain ⟨hst, hr⟩ := hat
  rcases hr with hr | hr <;>
    exact .issued hok hr hst rfl (fun h => absurd h (by decide)) (by decide) (by simp [Stage.Ok])

theorem Sys.giveUp_frame (err : Int) : EbFrame s (s.giveUp g e i err) e := by
  simp only [giveUp]
  repeat' split
  all_goals grind

/-- Giving up a block reserved by a peek: dirty blocks stay. -/
theorem Sys.giveUp_spec (err : Int) (hb : BlkInv g s) (hok : EbOk (s.ebio e))
    (hi : (s.ebio e).index = some i) (hst : (s.ebio e).st = .peeked)
    (hr : (s.ebio e).role = .hit ∨ (s.ebio e).role = .dirty ∨ (s.ebio e).role = .wr) :
    Handled g s (s.giveUp g e i err) e Ended := by
  have hne : (s.ebio e).st ≠ .done := by simp [hst]
  have hno : (IoType.mainIo).hasInval = false := by decide
  have hown : (s.ebio e).role = .dirty ∨ ∃ f, (s.ebio e).Owns i f := by
    rcases hr with hr | hr | hr
    · exact .inr ⟨_, hi, by rw [hr, hst]; rfl⟩
    · exact .inl hr
    · exact .inr ⟨_, hi, by rw [hr, hst]; rfl⟩
  rcases hown with hr | ⟨f, ho⟩
  · simp only [giveUp, updEb_st, (hb.used ⟨hi, hr, hne⟩).1, ne_eq, not_true_eq_false,
      if_false, endEb_eq, updEb_updEb]
    exact .end_plain (Ebio.not_owns_dirty hr)
      (hok.end_ hne rfl rfl rfl (by simp [hno]) (by simp) rfl)
  · have hc := ((hb.owned ho).1.ne_idle (mem_held_of_holds ho.2)).2.2.1
    simp only [giveUp, updEb_st, hc, ne_eq, not_false_eq_true, if_true, endEb_eq,
      updEb_invalidate, updEb_updEb]
    exact .to_invalid hb ho (hok.end_ hne rfl rfl rfl (by simp [hno]) (by simp) rfl)

/-! ## Uncached writes -/

theorem Sys.uncachedWriteLock_frame : EbFrame s (s.uncachedWriteLock g e) e := by
  simp only [uncachedWriteLock]
  repeat' split
  all_goals grind

theorem IoType.hasInval_or (t : IoType) : (t ||| IoType.inval).hasInval = true := by
  revert t
  decide

/-- An ebio without a block has nothing to write to the SSD. -/
theorem Sys.uncachedWriteLock_miss (hok : EbOk (s.ebio e)) (hst : (s.ebio e).st = .peeked)
    (hr : (s.ebio e).role = .miss) :
    Handled g s (s.uncachedWriteLock g e) e Stage.ucOpen.Ok := by
  have hne : (s.ebio e).st ≠ .done := by simp [hst]
  simp only [uncachedWriteLock, hok.index.mpr hr]
  refine Handled.plain (Ebio.not_owns_miss hr) (Ebio.not_owns_miss hr) ?_ ?_
  · intro j hu
    exact absurd hu.2.1 (by simp [hr])
  · exact hok.go hne (.inl ⟨rfl, .inl hr⟩) (by simp) rfl rfl (fun _ => hr)
      (fun _ _ => IoType.hasInval_or _) (by simp [hok.hold hne, hr, holdsExpected]) rfl rfl

theorem Sys.uncachedWriteLock_block (hb : BlkInv g s) (hok : EbOk (s.ebio e))
    (hst : (s.ebio e).st = .peeked) (hr : (s.ebio e).role = .dirty ∨ (s.ebio e).role = .wr) :
    Handled g s (s.uncachedWriteLock g e) e Stage.ucIssue.Ok := by
  have hne : (s.ebio e).st ≠ .done := by simp [hst]
  have hno : (IoType.mainIo).hasInval = false := by decide
  obtain ⟨i, hi, _⟩ := hok.index_of_ne_miss (by rcases hr with h | h <;> simp [h])
  rcases hr with hr | hr
  · have hu : (s.ebio e).Uses i := ⟨hi, hr, hne⟩
    simp +decide only [uncachedWriteLock, hi, (hb.used hu).1, if_true, if_false]
    exact .on_dirty hr hne (hok.go hne ⟨rfl, .inl hr⟩ (by simp) rfl rfl (by simp [hno]) (by simp)
      (by simp [hok.hold hne, hr, hst, holdsExpected]) rfl rfl)
  · have ho : (s.ebio e).Owns i (valid ||| cacheWriteInprog) := ⟨hi, by rw [hr, hst]; rfl⟩
    have hflags : (s.st g i).has (dirty ||| cacheWriteInprog) = true ∧ s.st g i ≠ alreadyDirty ∧
        Shows ((s.st g i).on diskWriteInprog) (valid ||| cacheWriteInprog ||| diskWriteInprog) ∧
        ((valid ||| cacheWriteInprog ||| diskWriteInprog).has dirty = false →
          (s.st g i).on diskWriteInprog = valid ||| cacheWriteInprog ||| diskWriteInprog →
          s.st g i = valid ||| cacheWriteInprog) := by
      rcases (hb.owned ho).1 with hc | ⟨hc, _⟩ <;> rw [hc] <;> decide
    simp only [uncachedWriteLock, hi, hflags.1, hflags.2.1, not_true_eq_false, if_false]
    exact .hold_on hb ho ⟨hi, by simp [hr, holds]⟩ hflags.2.2 (hok.go hne ⟨rfl, .inr hr⟩ (by simp)
      rfl rfl hok.inval (by simp) (by simp [hok.hold hne, hr, holdsExpected]) rfl rfl)

theorem Sys.uncachedWriteAccept_frame : EbFrame s (s.uncachedWriteAccept e) e :=
  (EbFrame.refl s e).updEb _

theorem Sys.uncachedWriteAccept_spec (hok : EbOk (s.ebio e))
    (hat : Stage.ucIssue.Ok (s.ebio e).role (s.ebio e).st) :
    Handled g s (s.uncachedWriteAccept e) e Stage.ucOpen.Ok := by
  obtain ⟨hst, hr⟩ := hat
  rcases hr with hr | hr <;>
    exact .issued hok hr hst rfl hok.inval (by decide) (by simp [Stage.Ok])

/-- The refused write of a dirty block: the error is noted, the hold stays. -/
theorem Sys.uncachedWriteRefuse_dirty (err : Int) (hb : BlkInv g s) (hok : EbOk (s.ebio e))
    (hi : (s.ebio e).index = some i) (hst : (s.ebio e).st = .ucIssue)
    (hr : (s.ebio e).role = .dirty) :
    ∃ s₁, EbFrame s s₁ e ∧ Handled g s s₁ e Stage.ucOpen.Ok ∧
      s.uncachedWriteRefuse g e i err = s₁.updBio e.1 fun bc => { bc with error := err } := by
  have hne : (s.ebio e).st ≠ .done := by simp [hst]
  refine ⟨s.updEb e fun eb => { eb with ssdError := some err, st := .ucLost false },
    (EbFrame.refl s e).updEb _, ?_, ?_⟩
  · exact .issued hok hr hst rfl hok.inval (by decide) (.inr (.inr ⟨rfl, rfl⟩))
  · simp only [uncachedWriteRefuse, updEb_st, (hb.used ⟨hi, hr, hne⟩).1, if_true,
      updEb_updBio, updEb_updEb]

/-- The refused write of a clean block: the block goes, the ebio is as after a
peek that found nothing. -/
theorem Sys.uncachedWriteRefuse_clean (err : Int) (hb : BlkInv g s) (hok : EbOk (s.ebio e))
    (hi : (s.ebio e).index = some i) (hst : (s.ebio e).st = .ucIssue)
    (hr : (s.ebio e).role = .wr) :
    EbFrame s (s.uncachedWriteRefuse g e i err) e ∧
      Handled g s (s.uncachedWriteRefuse g e i err) e Stage.ucOpen.Ok := by
  have hne : (s.ebio e).st ≠ .done := by simp [hst]
  have ho : (s.ebio e).Owns i (valid ||| cacheWriteInprog ||| diskWriteInprog) :=
    ⟨hi, by rw [hr, hst]; rfl⟩
  have hc := ((hb.owned ho).1.ne_idle (mem_held_of_holds ho.2)).2.2.1
  simp only [uncachedWriteRefuse, updEb_st, if_neg hc, updEb_invalidate,
    updEb_updEb]
  refine ⟨((EbFrame.refl s e).invalidate i).updEb _, ?_, ?_, ?_, rfl, by simp,
    .inr (.inl (by simp))⟩
  · refine .drop ((hb.near_invalidate ho).updEb _) ho (by simp) ?_ ?_
    · intro j f
      simp [Ebio.Owns]
    · intro j hu
      simpa using hu.1
  · rw [updEb_ebio, Function.update_self]
    constructor
    · simp
    · simp
    · intro _ _
      exact IoType.hasInval_or _
    · intro _
      simp [hok.hold hne, hr, hst, holdsExpected]
    · intro _
      exact hok.live hne
    · simp
    · simp
  · simp [Stage.Ok]

/-! ## Cached writes -/

theorem Sys.cachedWriteLock_frame : EbFrame s (s.cachedWriteLock g e i) e := by
  simp only [cachedWriteLock]
  repeat' split
  all_goals grind

theorem Sys.cachedWriteLock_spec (hmode : g.mode = .wb) (hb : BlkInv g s) (hok : EbOk (s.ebio e))
    (hi : (s.ebio e).index = some i)
    (hat : Stage.writeHit.Ok (s.ebio e).role (s.ebio e).st) :
    Handled g s (s.cachedWriteLock g e i) e Stage.cwIssue.Ok := by
  obtain ⟨hst, hr⟩ := hat
  have hne : (s.ebio e).st ≠ .done := by simp [hst]
  have hno : (IoType.mainIo).hasInval = false := by decide
  have hgo : (s.ebio e).Goes { s.ebio e with iotype := IoType.mainIo, st := .cwIssue }
      Stage.cwIssue.Ok :=
    hok.go hne ⟨rfl, hr⟩ (by simp) rfl rfl (by simp [hno]) (by simp)
      (by rw [hok.hold hne]; rcases hr with hr | hr <;> rw [hr, hst] <;> rfl) rfl rfl
  rcases hr with hr | hr
  · have hu : (s.ebio e).Uses i := ⟨hi, hr, hne⟩
    simp +decide only [cachedWriteLock, hmode, (hb.used hu).1, ne_eq, if_true,
      if_false]
    exact .on_dirty hr hne hgo
  · have ho : (s.ebio e).Owns i (valid ||| cacheWriteInprog) := ⟨hi, by rw [hr, hst]; rfl⟩
    have hflags : (s.st g i).has dirty = false ∧ (s.st g i).has cacheWriteInprog = true := by
      rcases (hb.owned ho).1 with hc | ⟨hc, _⟩ <;> rw [hc] <;> decide
    simp only [cachedWriteLock, hmode, hflags, ne_eq, not_true_eq_false, Bool.false_eq_true,
      if_false, updEb_setSt]
    -- the absolute store drops a `QUEUED` flag
    exact Handled.hold_on hb ho ⟨hi, by simp [hr, holds]⟩
      ⟨Shows.self _, fun h => absurd h (by decide)⟩ hgo

theorem Sys.cachedWriteAccept_frame : EbFrame s (s.cachedWriteAccept e) e :=
  (EbFrame.refl s e).updEb _

theorem Sys.cachedWriteAccept_spec (hok : EbOk (s.ebio e))
    (hat : Stage.cwIssue.Ok (s.ebio e).role (s.ebio e).st) :
    Handled g s (s.cachedWriteAccept e) e fun r st => st = .cw ∧ (r = .dirty ∨ r = .wr) := by
  obtain ⟨hst, hr⟩ := hat
  rcases hr with hr | hr <;> exact .issued hok hr hst rfl hok.inval (by decide) (by simp)

theorem Sys.cachedWriteRefuse_frame (err : Int) : EbFrame s (s.cachedWriteRefuse g e i err) e := by
  simp only [cachedWriteRefuse]
  repeat' split
  all_goals grind

theorem Sys.cachedWriteRefuse_spec (err : Int) (hb : BlkInv g s) (hok : EbOk (s.ebio e))
    (hi : (s.ebio e).index = some i)
    (hat : Stage.cwIssue.Ok (s.ebio e).role (s.ebio e).st) :
    Handled g s (s.cachedWriteRefuse g e i err) e Ended := by
  obtain ⟨hst, hr⟩ := hat
  have hne : (s.ebio e).st ≠ .done := by simp [hst]
  rcases hr with hr | hr
  · simp +decide only [cachedWriteRefuse, updEb_st, (hb.used ⟨hi, hr, hne⟩).1, ne_eq,
      if_false, endEb_eq, updEb_updEb]
    exact .end_plain (Ebio.not_owns_dirty hr) (hok.end_ hne rfl rfl rfl id (by simp) rfl)
  · have ho : (s.ebio e).Owns i dirtyInprog := ⟨hi, by rw [hr, hst]; rfl⟩
    simp only [cachedWriteRefuse, updEb_st, hb.dirtying ho, if_true, endEb_eq,
      updEb_invalidate, updEb_updEb]
    exact .to_invalid hb ho (hok.end_ hne rfl rfl rfl id (by simp) rfl)

end
end EnhanceIO
