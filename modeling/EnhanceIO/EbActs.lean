import EnhanceIO.MdActs

/-!
# What an act does to the ebio it works on

`EbWork` lists, act by act, what becomes of the ebio an act works on: where it stands,
which error is noted, and whether `eb_endio` is called. `Sys.act_work` says that this is
all as long as no assertion fails. The branches the driver takes on the flags of the
block are settled here once, by the invariant of the blocks.
-/

namespace EnhanceIO

open State Sys

/-- What becomes of ebio `e` when an act works on it. -/
inductive EbWork (s : Sys) (e : EbId) : Act → Ebio → Prop
  | peek {victim index : Option Nat} {role : Role} {iotype : IoType} :
      (s.bio e.1).pc = .peek e.2 → (s.ebio e).st = .new →
      ((s.req e.1).dir = .write →
        iotype = (s.ebio e).iotype ∨ iotype = (s.ebio e).iotype ||| IoType.inval) →
      EbWork s e (.peek e.1 victim)
        { s.ebio e with index := index, role := role, iotype := iotype, st := .peeked }
  | cachedRead : (s.bio e.1).pc = .cachedRead e.2 → (s.ebio e).st = .peeked →
      EbWork s e (.cachedRead e.1 0)
        { s.ebio e with iotype := IoType.mainIo, st := .readCache, xfer := fun _ => false }
  | readRefused {err : Int} : (s.bio e.1).pc = .cachedRead e.2 → (s.ebio e).st = .peeked →
      err ≠ 0 →
      EbWork s e (.cachedRead e.1 err)
        ({ s.ebio e with iotype := IoType.mainIo, ssdError := some err }.endio err)
  /-- `eio_write` gives the block up after a failed `eio_alloc_mdreqs` -/
  | cwFail {err : Int} : (s.bio e.1).pc = .cwFail e.2 err → (s.ebio e).st = .peeked →
      EbWork s e (.cwFail e.1)
        ({ s.ebio e with iotype := IoType.mainIo, ssdError := some err }.endio err)
  | uwMiss : (s.bio e.1).pc = .uwLock e.2 → (s.ebio e).st = .peeked → (s.ebio e).role = .miss →
      EbWork s e (.uwLock e.1)
        { s.ebio e with iotype := (s.ebio e).iotype ||| IoType.inval, st := .uc true false }
  | uwDirty : (s.bio e.1).pc = .uwLock e.2 → (s.ebio e).st = .peeked → (s.ebio e).role = .dirty →
      EbWork s e (.uwLock e.1)
        { s.ebio e with
          iotype := IoType.mainIo, holdcount := (s.ebio e).holdcount + 1, st := .ucIssue }
  | uwClean : (s.bio e.1).pc = .uwLock e.2 → (s.ebio e).st = .peeked → (s.ebio e).role = .wr →
      EbWork s e (.uwLock e.1) { s.ebio e with st := .ucIssue }
  | uwSubmit : (s.bio e.1).pc = .uwSubmit e.2 → (s.ebio e).st = .ucIssue →
      EbWork s e (.uwSubmit e.1 0) { s.ebio e with st := .uc false false, xfer := fun _ => false }
  | uwLost {err : Int} : (s.bio e.1).pc = .uwSubmit e.2 → (s.ebio e).st = .ucIssue →
      (s.ebio e).role = .dirty → err ≠ 0 →
      EbWork s e (.uwSubmit e.1 err) { s.ebio e with ssdError := some err, st := .ucLost false }
  | uwRefused {err : Int} : (s.bio e.1).pc = .uwSubmit e.2 → (s.ebio e).st = .ucIssue →
      (s.ebio e).role = .wr → err ≠ 0 →
      EbWork s e (.uwSubmit e.1 err)
        { s.ebio e with
          ssdError := some err
          iotype := (s.ebio e).iotype ||| IoType.inval
          index := none
          role := .miss
          st := .uc true false }
  | cwLock : (s.bio e.1).pc = .cwLock e.2 → (s.ebio e).st = .peeked →
      EbWork s e (.cwLock e.1) { s.ebio e with iotype := IoType.mainIo, st := .cwIssue }
  | cwSubmit : (s.bio e.1).pc = .cwSubmit e.2 → (s.ebio e).st = .cwIssue →
      EbWork s e (.cwSubmit e.1 0) { s.ebio e with st := .cw, xfer := fun _ => false }
  | cwRefused {err : Int} : (s.bio e.1).pc = .cwSubmit e.2 → (s.ebio e).st = .cwIssue → err ≠ 0 →
      EbWork s e (.cwSubmit e.1 err) ({ s.ebio e with ssdError := some err }.endio err)
  /-- the HDD I/O of a read has failed, its completion skips the block, or there is
  nothing to fill -/
  | readOver {a : Act} {holdcount : Int} : (s.bio e.1).main ≠ .none → (s.ebio e).st = .peeked →
      a = .flag e.1 ∨ a = .readDone e.1 ∨ a = .readfill e.1 →
      EbWork s e a ({ s.ebio e with holdcount := holdcount }.endio 0)
  /-- the HDD half is over after the SSD half -/
  | flagLast {holdcount : Int} : (s.bio e.1).main ≠ .none → (s.ebio e).st = .uc true false →
      EbWork s e (.flag e.1) ({ s.ebio e with holdcount := holdcount }.endio 0)
  | flagFirst {holdcount : Int} : (s.bio e.1).main ≠ .none → (s.ebio e).st = .uc false false →
      EbWork s e (.flag e.1) { s.ebio e with holdcount := holdcount, st := .uc false true }
  | flagLost {holdcount : Int} : (s.bio e.1).main ≠ .none → (s.ebio e).st = .ucLost false →
      EbWork s e (.flag e.1) { s.ebio e with holdcount := holdcount, st := .ucLost true }
  | fillIssue : (s.bio e.1).main ≠ .none → (s.ebio e).st = .peeked →
      EbWork s e (.readfill e.1) { s.ebio e with st := .fillIssue }
  | dirtyIssue : (s.bio e.1).main ≠ .none → (s.ebio e).st = .peeked →
      EbWork s e (.readfill e.1) { s.ebio e with st := .dirtyIssue }
  | fillSubmit : (s.ebio e).st = .fillIssue →
      EbWork s e (.readfillSubmit e.1 0)
        { s.ebio e with st := .readFill, xfer := fun _ => false }
  | dirtySubmit : (s.ebio e).st = .dirtyIssue →
      EbWork s e (.readfillSubmit e.1 0)
        { s.ebio e with st := .readCache, xfer := fun _ => false }
  | fillRefused {err : Int} : (s.ebio e).st = .fillIssue ∨ (s.ebio e).st = .dirtyIssue → err ≠ 0 →
      EbWork s e (.readfillSubmit e.1 err) ((s.ebio e).endio err)
  | sector {a : Act} {x : Nat} : Sys.EbSt.atSsd (s.ebio e).st = true ∨ (s.ebio e).st = .reread →
      a = .ssdSector e.1 e.2 x ∨ a = .rereadSector e.1 e.2 x → (s.seg e).Covers x →
      (s.ebio e).xfer x = false →
      EbWork s e a { s.ebio e with xfer := Function.update (s.ebio e).xfer x true }
  /-- a failed SSD read is put on the list of `eio_ssderror_diskread` -/
  | readFailed {err : Int} : (s.ebio e).st = .readCache → (s.ebio e).role = .hit → err ≠ 0 →
      EbWork s e (.ssdDone e.1 e.2 err) { s.ebio e with st := .readFail, ssdError := some err }
  | readDone {err : Int} : (s.ebio e).st = .readCache ∨ (s.ebio e).st = .readFill →
      EbWork s e (.ssdDone e.1 e.2 err) ({ s.ebio e with ssdError := some err }.endio err)
  /-- the SSD half is over before the HDD half -/
  | ucFirst {err holdcount : Int} : (s.ebio e).st = .uc false false →
      EbWork s e (.ssdDone e.1 e.2 err)
        { s.ebio e with ssdError := some err, holdcount := holdcount, st := .uc true false }
  | writeDone {err holdcount : Int} : (s.ebio e).st = .uc false true ∨
      (s.ebio e).st = .cw ∧ ((s.ebio e).role = .dirty ∨ (s.ebio e).role = .wr ∧ err ≠ 0) →
      EbWork s e (.ssdDone e.1 e.2 err)
        ({ s.ebio e with ssdError := some err, holdcount := holdcount }.endio err)
  /-- `eio_md_write` -/
  | written : (s.ebio e).st = .cw → (s.ebio e).role = .wr →
      EbWork s e (.ssdDone e.1 e.2 0) { s.ebio e with st := .mdList, ssdError := some 0 }
  | ended : (s.ebio e).st = .done → (s.ebio e).todo ≠ [] →
      EbWork s e (.ebEndio e.1 e.2)
        { s.ebio e with todo := (s.ebio e).todo.tail, ended := (s.ebio e).ended + 1 }
  | reread : (s.ebio e).st = .readFail →
      EbWork s e (.reread e.1 e.2 0) { s.ebio e with st := .reread, xfer := fun _ => false }
  | rereadRefused {err : Int} : (s.ebio e).st = .readFail → err ≠ 0 →
      EbWork s e (.reread e.1 e.2 err) ((s.ebio e).endio err)
  | rereadDone {err : Int} : (s.ebio e).st = .reread →
      EbWork s e (.rereadDone e.1 e.2 err) ((s.ebio e).endio err)

section
variable {g : Geom} {s s' : Sys} {a : Act} {b k : Nat} {e : EbId}

/-! ## `eio_map` -/

/-- What a peek leaves of the ebio. -/
def Ebio.Peeked (dir : Dir) (eb eb' : Ebio) : Prop :=
  ∃ index role iotype,
    (dir = .write → iotype = eb.iotype ∨ iotype = eb.iotype ||| IoType.inval) ∧
    eb' = { eb with index := index, role := role, iotype := iotype, st := .peeked }

theorem Sys.peekMiss_peeked {dir : Dir} {iotype : IoType} (ht : dir = .write → iotype = .inval) :
    (s.ebio e).Peeked dir ((s.peekMiss e iotype).ebio e) :=
  ⟨none, .miss, (s.ebio e).iotype ||| iotype, fun hd => .inr (by rw [ht hd]), by simp [peekMiss]⟩

theorem Sys.peekTake_peeked {t : Sys} {dir : Dir} (ht : t.ebio = s.ebio) (i : Nat) (role : Role) :
    (s.ebio e).Peeked dir ((t.peekTake e i role).ebio e) :=
  ⟨some i, role, (s.ebio e).iotype, fun _ => .inl rfl, by simp [peekTake, ht]⟩

theorem Sys.peekDir_peeked (hblk : BlkInv g s) {victim : Option Nat} {dir : Dir}
    (hv : s.VictimOk g (s.seg e).sector victim) (hbug : (s.peekDir g dir e victim).1.bug = none) :
    (s.ebio e).Peeked dir ((s.peekDir g dir e victim).1.ebio e) := by
  cases dir with
  | read =>
    have hp := readPeek_spec hblk hv
    simp only [peekDir] at hbug ⊢
    generalize s.readPeek g e victim = r at hp hbug
    cases hp with
    | nofit => cases hbug
    | miss => exact peekMiss_peeked fun hd => by cases hd
    | @dirty i =>
      refine ⟨some i, .dirty, IoType.mainIo, fun hd => ?_, by simp [peekTake]⟩
      cases hd
    | hit => exact peekTake_peeked rfl _ _
    | fill fresh =>
      exact peekTake_peeked (recycle_ebio ..) _ _
  | write =>
    have hp := writePeek_spec hblk hv
    simp only [peekDir] at hbug ⊢
    generalize s.writePeek g e victim = r at hp hbug
    cases hp with
    | nofit => cases hbug
    | miss => exact peekMiss_peeked fun _ => rfl
    | dirty => exact peekTake_peeked rfl _ _
    | partly => exact peekTake_peeked rfl _ _
    | whole =>
      rw [countMdwait_ebio]
      exact peekTake_peeked rfl _ _
    | recycled fresh =>
      rw [countMdwait_ebio]
      exact peekTake_peeked (recycle_ebio ..) _ _

theorem Sys.giveUp_ebio (i : Nat) (err : Int) : (s.giveUp g e i err).ebio e =
    ({ s.ebio e with iotype := IoType.mainIo, ssdError := some err } : Ebio).endio err := by
  simp only [giveUp]
  split <;> simp [endEb]

theorem Sys.uncachedWriteLock_work (hblk : BlkInv g s) (hpc : (s.bio e.1).pc = .uwLock e.2)
    (hok : EbOk (s.ebio e))
    (hat : Stage.write.Ok (s.ebio e).role (s.ebio e).st) :
    EbWork s e (.uwLock e.1) ((s.uncachedWriteLock g e).ebio e) := by
  obtain ⟨hst, hr⟩ := hat
  have hne : (s.ebio e).st ≠ .done := by simp [hst]
  rcases hr with hr | hr | hr
  · have heq : s.uncachedWriteLock g e = s.updEb e fun eb =>
        { eb with iotype := eb.iotype ||| IoType.inval, st := .uc true false } := by
      simp only [uncachedWriteLock, hok.index.mpr hr]
    rw [heq, updEb_ebio, Function.update_self]
    exact .uwMiss hpc hst hr
  · obtain ⟨i, hi, -⟩ := hok.index_of_ne_miss (by simp [hr])
    have heq : s.uncachedWriteLock g e = s.updEb e fun eb =>
        { eb with iotype := IoType.mainIo, holdcount := eb.holdcount + 1, st := .ucIssue } := by
      simp +decide only [uncachedWriteLock, hi, (hblk.used ⟨hi, hr, hne⟩).1, if_true, if_false]
    rw [heq, updEb_ebio, Function.update_self]
    exact .uwDirty hpc hst hr
  · obtain ⟨i, hi, -⟩ := hok.index_of_ne_miss (by simp [hr])
    have ho : (s.ebio e).Owns i (valid ||| cacheWriteInprog) := ⟨hi, by rw [hr, hst]; rfl⟩
    have hflags : (s.st g i).has (dirty ||| cacheWriteInprog) = true ∧ s.st g i ≠ alreadyDirty := by
      rcases (hblk.owned ho).1 with hc | ⟨hc, _⟩ <;> rw [hc] <;> decide
    have heq : s.uncachedWriteLock g e = (s.setSt g i ((s.st g i).on diskWriteInprog)).updEb e
        fun eb => { eb with st := .ucIssue } := by
      simp only [uncachedWriteLock, hi, hflags.1, hflags.2, not_true_eq_false, if_false]
    rw [heq, updEb_ebio, Function.update_self]
    exact .uwClean hpc hst hr

theorem Sys.uncachedWriteRefuse_work {i : Nat} {err : Int} (hne : err ≠ 0) (hblk : BlkInv g s)
    (hpc : (s.bio e.1).pc = .uwSubmit e.2) (hi : (s.ebio e).index = some i)
    (hat : Stage.ucIssue.Ok (s.ebio e).role (s.ebio e).st) :
    EbWork s e (.uwSubmit e.1 err) ((s.uncachedWriteRefuse g e i err).ebio e) := by
  obtain ⟨hst, hr⟩ := hat
  rcases hr with hr | hr
  · have hc := (hblk.used ⟨hi, hr, by simp [hst]⟩).1
    simp only [uncachedWriteRefuse, updEb_st, hc, if_true, updEb_ebio,
      updBio_ebio, Function.update_self]
    exact .uwLost hpc hst hr hne
  · have ho : (s.ebio e).Owns i (valid ||| cacheWriteInprog ||| diskWriteInprog) :=
      ⟨hi, by rw [hr, hst]; rfl⟩
    have hc := ((hblk.owned ho).1.ne_idle (mem_held_of_holds ho.2)).2.2.1
    simp only [uncachedWriteRefuse, updEb_st, hc, if_false, updEb_ebio,
      invalidate_ebio, setSt_ebio, Function.update_self]
    exact .uwRefused hpc hst hr hne

theorem Sys.cachedWriteLock_ebio {i : Nat} (hbug : (s.cachedWriteLock g e i).bug = none) :
    (s.cachedWriteLock g e i).ebio e =
      { s.ebio e with iotype := IoType.mainIo, st := .cwIssue } := by
  simp only [cachedWriteLock] at hbug ⊢
  split_ifs at hbug ⊢ <;> simp_all

theorem Sys.cachedWriteRefuse_ebio {i : Nat} {err : Int}
    (hbug : (s.cachedWriteRefuse g e i err).bug = none) :
    (s.cachedWriteRefuse g e i err).ebio e =
      ({ s.ebio e with ssdError := some err } : Ebio).endio err := by
  simp only [cachedWriteRefuse] at hbug ⊢
  split_ifs at hbug ⊢ <;> simp_all [endEb]

/-! ## The completion of the HDD I/O -/

/-- What `eio_flag_abios` can do to an ebio with a block. -/
theorem Sys.flagBlock_ebio {i : Nat} {inv : Bool} (hbug : (s.flagBlock g e i inv).bug = none)
    {eb : Ebio} (heq : (s.flagBlock g e i inv).ebio e = eb) :
    (∃ h, eb = { s.ebio e with holdcount := h, st := (s.ebio e).st.flagDisk } ∧
      ((s.st g i).has dirty = true ∨ (s.st g i).has cacheWriteInprog = true)) ∨
    ∃ h, eb = ({ s.ebio e with holdcount := h } : Ebio).endio 0 ∧
      ((s.st g i).has dirty = true → (s.ebio e).holdcount = 1) ∧
      ((s.st g i).has dirty = false → (s.st g i).has cacheWriteInprog = false) := by
  subst heq
  simp only [flagBlock] at hbug ⊢
  split
  · next hd =>
    split
    · next hlast =>
      rw [if_pos hd, if_pos hlast] at hbug
      simp only [updEb_ebio, Function.update_self] at hlast
      split
      · next hc => simp [hc] at hbug
      split
      · exact .inl ⟨_, by simp; rfl, .inl hd⟩
      · exact .inr ⟨(s.ebio e).holdcount - 1, by simp [endEb, Ebio.endio],
          fun _ => by omega, by simp [hd]⟩
    · exact .inl ⟨(s.ebio e).holdcount - 1, by simp, .inl hd⟩
  · next hd =>
    split
    · next hc => exact .inl ⟨(s.ebio e).holdcount, by simp, .inr hc⟩
    · next hc =>
      refine .inr ⟨(s.ebio e).holdcount, ?_, fun h => absurd h hd, fun _ => by simpa using hc⟩
      split <;> simp [endEb]

/-- `eio_flag_abios` leaves an ebio whose SSD half is out to the completion of that. -/
theorem Sys.flagAbio_open {inv : Bool} (hblk : BlkInv g s) (hok : EbOk (s.ebio e))
    (hat : Stage.ucOpen.Ok (s.ebio e).role (s.ebio e).st)
    (hst : (s.ebio e).st ≠ .uc true false) (hbug : (s.flagAbio g e inv).bug = none) :
    ∃ h, (s.flagAbio g e inv).ebio e =
      { s.ebio e with holdcount := h, st := (s.ebio e).st.flagDisk } := by
  have hopen : ((s.ebio e).st = .uc false false ∧ (s.ebio e).role = .wr) ∨
      ((s.ebio e).role = .dirty ∧
        ((s.ebio e).st = .uc false false ∨ (s.ebio e).st = .ucLost false)) := by
    rcases hat with ⟨h, -⟩ | ⟨h, hr | hr⟩ | ⟨h, hr⟩
    · exact absurd h hst
    · exact .inr ⟨hr, .inl h⟩
    · exact .inl ⟨h, hr⟩
    · exact .inr ⟨hr, .inr h⟩
  have hne : (s.ebio e).st ≠ .done := by
    rcases hopen with ⟨h, -⟩ | ⟨-, h | h⟩ <;> simp [h]
  obtain ⟨i, hi, hinv⟩ := hok.index_of_ne_miss (by
    rcases hopen with ⟨-, h⟩ | ⟨h, -⟩ <;> simp [h])
  have hflag : s.flagAbio g e inv = s.flagBlock g e i false := by
    simp only [flagAbio, hi, hinv, Bool.false_eq_true, if_false, Bool.and_false]
  rw [hflag] at hbug ⊢
  rcases flagBlock_ebio hbug rfl with ⟨h, heq, -⟩ | ⟨h, -, hlast, hclean⟩
  · exact ⟨h, heq⟩
  · exfalso
    rcases hopen with ⟨h, hr⟩ | ⟨hr, h⟩
    · -- the flag of the write at the SSD is on
      have ho : (s.ebio e).Owns i (valid ||| cacheWriteInprog ||| diskWriteInprog) :=
        ⟨hi, by rw [hr, h]; rfl⟩
      rcases (hblk.owned ho).1 with hc | ⟨hc, -⟩ <;> simp +decide [hc] at hclean
    · -- the dirty block has two holds
      have hone := hlast (by rw [(hblk.used ⟨hi, hr, hne⟩).1]; decide)
      rw [hok.hold hne, hr] at hone
      rcases h with h | h <;> simp [h, holdsExpected] at hone

theorem Sys.flagAbio_ebio {inv : Bool} (hbug : (s.flagAbio g e inv).bug = none) :
    ∃ h, (s.flagAbio g e inv).ebio e =
        { s.ebio e with holdcount := h, st := (s.ebio e).st.flagDisk } ∨
      (s.flagAbio g e inv).ebio e = ({ s.ebio e with holdcount := h } : Ebio).endio 0 := by
  simp only [flagAbio] at hbug ⊢
  split
  · split
    · next h => simp_all
    · next i hi h =>
      rw [hi] at hbug
      simp only [if_neg h] at hbug
      rcases flagBlock_ebio hbug rfl with ⟨n, heq, -⟩ | ⟨n, heq, -⟩
      · exact ⟨n, .inl heq⟩
      · exact ⟨n, .inr heq⟩
  · refine ⟨(s.ebio e).holdcount, .inr ?_⟩
    split
    · next h => simp_all
    split
    · have hf : (s.invalBlock g (s.seg e).sector).ebio = s.ebio :=
        (invalBlockSetRange_invals g s _ _ _ _).frame.ebio
      simp [endEb, hf]
    · simp [endEb]

theorem Sys.flagAbio_work {dir : Dir} {inv : Bool} (hblk : BlkInv g s)
    (hmain : (s.bio e.1).main ≠ .none) (hok : EbOk (s.ebio e))
    (hat : (openStage dir).Ok (s.ebio e).role (s.ebio e).st)
    (hat' : (closedStage dir).Ok ((s.flagAbio g e inv).ebio e).role
      ((s.flagAbio g e inv).ebio e).st)
    (hbug : (s.flagAbio g e inv).bug = none) :
    EbWork s e (.flag e.1) ((s.flagAbio g e inv).ebio e) := by
  cases dir with
  | read =>
    obtain ⟨n, heq | heq⟩ := flagAbio_ebio hbug
    · simp [heq, hat.1, EbSt.flagDisk, closedStage, Stage.Ok] at hat'
    · rw [heq]
      exact .readOver hmain hat.1 (by simp)
  | write =>
    by_cases hlast : (s.ebio e).st = .uc true false
    · obtain ⟨n, heq | heq⟩ := flagAbio_ebio hbug
      · simp [heq, hlast, EbSt.flagDisk, closedStage, Stage.Ok] at hat'
      · rw [heq]
        exact .flagLast hmain hlast
    · obtain ⟨n, heq⟩ := flagAbio_open hblk hok hat hlast hbug
      rw [heq]
      rcases hat with ⟨h, -⟩ | ⟨h, -⟩ | ⟨h, -⟩
      · exact absurd h hlast
      · rw [h]
        exact .flagFirst hmain h
      · rw [h]
        exact .flagLost hmain h

theorem Sys.readDoneAbio_ebio (hbug : (s.readDoneAbio g e).bug = none) :
    (s.readDoneAbio g e).ebio e = (s.ebio e).endio 0 := by
  cases hi : (s.ebio e).index <;> simp only [readDoneAbio, hi] at hbug ⊢
  · simp [endEb]
  · split_ifs at hbug ⊢ <;> simp_all [endEb]

theorem Sys.readfillLock_ebio (hbug : (s.readfillLock g e).bug = none) :
    (s.readfillLock g e).ebio e = (s.ebio e).endio 0 ∨
      (s.readfillLock g e).ebio e = { s.ebio e with st := .fillIssue } ∨
      (s.readfillLock g e).ebio e = { s.ebio e with st := .dirtyIssue } := by
  cases hi : (s.ebio e).index <;> simp only [readfillLock, hi] at hbug ⊢
  · simp [endEb]
  · split_ifs at hbug ⊢ <;> simp_all [endEb]

theorem Sys.readfillRefuse_ebio (err : Int) :
    (s.readfillRefuse g e err).ebio e = (s.ebio e).endio err := by
  simp only [readfillRefuse]
  split
  · split <;> simp [endEb]
  · simp [endEb]

/-! ## The completion of the SSD I/O -/

theorem Sys.setPostState_ebio (i : Nat) (err : Int) : (s.setPostState g i err).ebio = s.ebio := by
  simp only [setPostState]
  split <;> rfl

theorem Sys.postRead_ebio {i : Nat} {err : Int} (hbug : (s.postRead g e i err).bug = none) :
    (s.postRead g e i err).ebio e = ({ s.ebio e with ssdError := some err } : Ebio).endio err := by
  simp only [postRead] at hbug ⊢
  split_ifs at hbug ⊢ <;> simp_all [endEb, setPostState_ebio]

theorem Sys.readCacheDone_work {i : Nat} {err : Int} (hst : (s.ebio e).st = .readCache)
    (hrole : (s.ebio e).role ≠ .dirty → (s.ebio e).role = .hit)
    (hdirty : (s.ebio e).role = .dirty → s.st g i = alreadyDirty)
    (hbug : (s.readCacheDone g e i err).bug = none) :
    EbWork s e (.ssdDone e.1 e.2 err) ((s.readCacheDone g e i err).ebio e) := by
  simp only [readCacheDone] at hbug ⊢
  split
  · next h => simp [h] at hbug
  split
  · next h1 h2 => simp [h1, h2] at hbug
  split
  · next h =>
    simp only [updEb_ebio, setSt_ebio, Function.update_self]
    exact .readFailed hst (hrole fun hr => h.2 (hdirty hr)) h.1
  · next h1 h2 h3 =>
    rw [if_neg h1, if_neg h2, if_neg h3] at hbug
    rw [postRead_ebio hbug]
    exact .readDone (.inl hst)

theorem Sys.readFillDone_ebio {i : Nat} {err : Int} (hbug : (s.readFillDone g e i err).bug = none) :
    (s.readFillDone g e i err).ebio e =
      ({ s.ebio e with ssdError := some err } : Ebio).endio err := by
  simp only [readFillDone] at hbug ⊢
  split_ifs at hbug ⊢ with h
  · simp at hbug
  · exact postRead_ebio hbug

/-- An ebio that writes stays if the HDD half or another hold is left, or else it ends. -/
theorem Sys.postWrite_ebio {i : Nat} {err : Int} (hbug : (s.postWrite g e i err).bug = none) :
    ∃ h, (s.postWrite g e i err).ebio e =
        { s.ebio e with ssdError := some err, holdcount := h, st := (s.ebio e).st.flagSsd } ∧
        ((s.st g i).has diskWriteInprog = true ∨ (s.ebio e).holdcount ≠ 1) ∨
      (s.postWrite g e i err).ebio e =
        ({ s.ebio e with ssdError := some err, holdcount := h } : Ebio).endio err := by
  simp only [postWrite] at hbug ⊢
  split
  · next h => simp [h] at hbug
  split
  · next h1 h2 =>
    split
    · next h3 => simp [h1, h2, h3] at hbug
    · exact ⟨(s.ebio e).holdcount, .inl ⟨by simp [setPostState_ebio], .inl h2⟩⟩
  split
  · next h1 h2 h3 =>
    rw [if_neg h1, if_neg h2, if_pos h3] at hbug
    cases hbug
  split
  · refine ⟨(s.ebio e).holdcount - 1, ?_⟩
    split
    · exact .inr (by simp [endEb, setPostState_ebio, Ebio.endio])
    · next hlast =>
      refine .inl ⟨by simp [setPostState_ebio], .inr fun hone => hlast ?_⟩
      simp [hone]
  · exact ⟨(s.ebio e).holdcount, .inr (by simp [endEb, setPostState_ebio])⟩

theorem Sys.writeCacheDone_ebio {i : Nat} {err : Int}
    (hbug : (s.writeCacheDone g e i err).bug = none) :
    (err = 0 ∧ (s.writeCacheDone g e i err).ebio e =
      { s.ebio e with st := .mdList, ssdError := some 0 }) ∨
    ¬ (err = 0 ∧ s.st g i = dirtyInprog) ∧
      ∃ h, (s.writeCacheDone g e i err).ebio e =
          { s.ebio e with ssdError := some err, holdcount := h, st := (s.ebio e).st.flagSsd } ∧
          ((s.st g i).has diskWriteInprog = true ∨ (s.ebio e).holdcount ≠ 1) ∨
        (s.writeCacheDone g e i err).ebio e =
          ({ s.ebio e with ssdError := some err, holdcount := h } : Ebio).endio err := by
  simp only [writeCacheDone] at hbug ⊢
  split
  · next h => simp [h] at hbug
  split
  · next h1 h2 => simp [h1, h2] at hbug
  next h1 h2 =>
  rw [if_neg h1, if_neg h2] at hbug
  split
  · next hmd =>
    rw [if_pos hmd] at hbug
    refine .inl ⟨hmd.1, ?_⟩
    simp only [mdWrite] at hbug ⊢
    split
    · next h => simp [h] at hbug
    · simp
  · next hmd =>
    rw [if_neg hmd] at hbug
    exact .inr ⟨hmd, postWrite_ebio hbug⟩

/-- `eio_post_io_callback` does not move the thread or the HDD I/O of the bio. -/
theorem Sys.writeCacheDone_stage (i k : Nat) (err : Int) (dir : Dir) :
    stage dir ((s.writeCacheDone g e i err).bio e.1).uc ((s.writeCacheDone g e i err).bio e.1).pc
        ((s.writeCacheDone g e i err).bio e.1).main k =
      stage dir (s.bio e.1).uc (s.bio e.1).pc (s.bio e.1).main k := by
  by_cases hmd : err = 0 ∧ s.st g i = dirtyInprog
  · simp only [writeCacheDone]
    split
    · rfl
    split
    · rfl
    rw [mdWrite]
    split
    · rfl
    · simp
  · rw [(writeCacheDone_frame err hmd).bio]

theorem Sys.writeCacheDone_req (i : Nat) (err : Int) :
    (s.writeCacheDone g e i err).req = s.req := by
  by_cases hmd : err = 0 ∧ s.st g i = dirtyInprog
  · simp only [writeCacheDone]
    split
    · rfl
    split
    · rfl
    rw [mdWrite]
    split <;> rfl
  · exact (writeCacheDone_frame err hmd).req

theorem Sys.writeCacheDone_work {i : Nat} {err : Int} {σ : Stage} (hblk : BlkInv g s)
    (hok : EbOk (s.ebio e)) (hi : (s.ebio e).index = some i)
    (hat : σ.Ok (s.ebio e).role (s.ebio e).st)
    (hat' : σ.Ok ((s.writeCacheDone g e i err).ebio e).role
      ((s.writeCacheDone g e i err).ebio e).st)
    (hst : Sys.EbSt.atSsd (s.ebio e).st = true)
    (hne : (s.ebio e).st ≠ .readCache ∧ (s.ebio e).st ≠ .readFill)
    (hbug : (s.writeCacheDone g e i err).bug = none) :
    EbWork s e (.ssdDone e.1 e.2 err) ((s.writeCacheDone g e i err).ebio e) := by
  have hcases := writeCacheDone_ebio hbug
  rcases hat.atSsd hst with ⟨h, -⟩ | ⟨-, h, -⟩ | ⟨rfl, h, -⟩ | ⟨rfl, h, -⟩ | ⟨rfl, h, hr⟩
  · exact absurd h hne.1
  · exact absurd h hne.2
  · -- the HDD half is out: the ebio cannot have ended or waited for a metadata update
    rcases hcases with ⟨-, heq⟩ | ⟨-, n, ⟨heq, -⟩ | heq⟩
    · simp [heq, Stage.Ok] at hat'
    · rw [heq, h]
      exact .ucFirst h
    · simp [heq, Stage.Ok, Ebio.endio] at hat'
  · rcases hcases with ⟨-, heq⟩ | ⟨-, n, ⟨heq, -⟩ | heq⟩
    · simp [heq, Stage.Ok] at hat'
    · simp [heq, h, EbSt.flagSsd, Stage.Ok] at hat'
    · rw [heq]
      exact .writeDone (.inl h)
  · have hhold : (s.ebio e).holdcount = 1 := by
      rw [hok.hold (by simp [h]), h]
      rcases hr with hr | hr <;> rw [hr] <;> rfl
    have hflags : (s.st g i).has diskWriteInprog = false ∧
        ((s.ebio e).role = .wr → s.st g i = dirtyInprog) := by
      rcases hr with hr | hr
      · rw [(hblk.used ⟨hi, hr, by simp [h]⟩).1]
        exact ⟨by decide, by simp [hr]⟩
      · have hc := hblk.dirtying (e := e) (i := i) ⟨hi, by rw [hr, h]; rfl⟩
        rw [hc]
        exact ⟨by decide, fun _ => rfl⟩
    rcases hcases with ⟨rfl, heq⟩ | ⟨hmd, n, ⟨-, hc | hc⟩ | heq⟩
    · rw [heq]
      rcases hr with hr | hr
      · simp [heq, hr, Stage.Ok] at hat'
      · exact .written h hr
    · rw [hflags.1] at hc
      cases hc
    · exact absurd hhold hc
    · rw [heq]
      refine .writeDone (.inr ⟨h, hr.imp_right fun hr => ⟨hr, fun h0 => ?_⟩⟩)
      exact hmd ⟨h0, hflags.2 hr⟩

/-! ## Every act -/

section
variable (hinv : Inv g s) (hbug : s.bug = none) (hs : s.act g a = some s') (hbug' : s'.bug = none)
  (ht : a.touched s = some e)
include hinv hbug hs hbug' ht

/-- The thread in `eio_map`, before its submissions. -/
theorem Sys.act_work_lock
    (ha : (∃ v, a = .peek b v) ∨ a = .uwLock b ∨ a = .cwLock b ∨ a = .cwFail b) :
    EbWork s e a (s'.ebio e) := by
  have hl := hinv.live hbug
  have hfinds := hl.finds hs ht
  rcases ha with ⟨v, rfl⟩ | rfl | rfl | rfl
  · simp only [act, stepPeek] at hs
    split at hs
    · next k hpc =>
      simp only [Act.touched, hpc] at ht
      obtain ⟨rfl, hk⟩ := ebioAt_eq_some ht
      obtain ⟨hv, rfl⟩ := Option.ite_some_none_eq_some.mp hs
      obtain ⟨index, role, iotype, htype, heq⟩ := peekDir_peeked hinv.blk hv.2 hbug'
      rw [updBio_ebio, heq]
      exact .peek (e := (b, k)) hpc hfinds htype
    · cases hs
  · simp only [act, stepUwLock] at hs
    split at hs
    · next k hpc =>
      simp only [Act.touched, hpc] at ht
      obtain ⟨rfl, hk⟩ := ebioAt_eq_some ht
      rw [if_pos hk] at hs
      cases hs
      have hat := (hl.bio b).at_ k hk
      simp only [hpc, stage, Nat.lt_irrefl, if_false] at hat
      exact uncachedWriteLock_work (e := (b, k)) hinv.blk hpc ((hl.bio b).ebs k) hat
    · cases hs
  · simp only [act, stepCwLock] at hs
    split at hs
    · next k hpc =>
      simp only [Act.touched, hpc] at ht
      obtain ⟨rfl, hk⟩ := ebioAt_eq_some ht
      rw [if_pos hk] at hs
      cases hs
      split at hbug'
      · cases hbug'
      · next i _ =>
        rw [updBio_ebio, cachedWriteLock_ebio hbug']
        exact .cwLock (e := (b, k)) hpc hfinds
    · cases hs
  · simp only [act, stepCwFail] at hs
    split at hs
    · next k err hpc =>
      simp only [Act.touched, hpc] at ht
      obtain ⟨rfl, hk⟩ := ebioAt_eq_some ht
      rw [if_pos hk] at hs
      cases hs
      split at hbug'
      · cases hbug'
      · next i _ =>
        rw [updBio_ebio, giveUp_ebio]
        exact .cwFail (e := (b, k)) hpc hfinds
    · cases hs

/-- The submissions of `eio_map`. -/
theorem Sys.act_work_submit
    (ha : (∃ r, a = .cachedRead b r) ∨ (∃ r, a = .uwSubmit b r) ∨ ∃ r, a = .cwSubmit b r) :
    EbWork s e a (s'.ebio e) := by
  have hl := hinv.live hbug
  have hfinds := hl.finds hs ht
  rcases ha with ⟨r, rfl⟩ | ⟨r, rfl⟩ | ⟨r, rfl⟩
  · simp only [act, stepCachedRead] at hs
    split at hs
    · next k hpc =>
      simp only [Act.touched, hpc] at ht
      obtain ⟨rfl, hk⟩ := ebioAt_eq_some ht
      rw [if_pos hk] at hs
      obtain ⟨-, rfl⟩ := Option.ite_some_none_eq_some.mp hs
      split at hbug'
      · cases hbug'
      · rw [updBio_ebio]
        split
        · next hr =>
          subst hr
          rw [cachedReadAccept, updEb_ebio, Function.update_self]
          exact .cachedRead (e := (b, k)) hpc hfinds
        · next hr =>
          rw [giveUp_ebio]
          exact .readRefused (e := (b, k)) hpc hfinds hr
    · cases hs
  · simp only [act, stepUwSubmit] at hs
    split at hs
    · next k hpc =>
      simp only [Act.touched, hpc] at ht
      cases ht
      have hpcOk := (hl.bio b).pc
      rw [hpc] at hpcOk
      have hat := (hl.bio b).at_ k hpcOk.2.2.2
      simp only [hpc, stage, Nat.lt_irrefl, if_false, if_true] at hat
      obtain ⟨-, rfl⟩ := Option.ite_some_none_eq_some.mp hs
      split at hbug'
      · cases hbug'
      · next i hi =>
        rw [updBio_ebio]
        split
        · next hr =>
          subst hr
          rw [uncachedWriteAccept, updEb_ebio, Function.update_self]
          exact .uwSubmit (e := (b, k)) hpc hfinds
        · next hr => exact uncachedWriteRefuse_work (e := (b, k)) hr hinv.blk hpc hi hat
    · cases hs
  · simp only [act, stepCwSubmit] at hs
    split at hs
    · next k hpc =>
      simp only [Act.touched, hpc] at ht
      cases ht
      obtain ⟨-, rfl⟩ := Option.ite_some_none_eq_some.mp hs
      split at hbug'
      · cases hbug'
      · rw [updBio_ebio]
        split
        · next hr =>
          subst hr
          rw [cachedWriteAccept, updEb_ebio, Function.update_self]
          exact .cwSubmit (e := (b, k)) hpc hfinds
        · next hr =>
          rw [if_neg hr] at hbug'
          rw [cachedWriteRefuse_ebio hbug']
          exact .cwRefused (e := (b, k)) hpc hfinds hr
    · cases hs

/-- What follows the completion of the HDD I/O. -/
theorem Sys.act_work_main
    (ha : a = .flag b ∨ a = .readDone b ∨ a = .readfill b ∨ ∃ r, a = .readfillSubmit b r) :
    EbWork s e a (s'.ebio e) := by
  have hl := hinv.live hbug
  have hl' := (hinv.act hbug hs).live hbug'
  have hfinds := hl.finds hs ht
  rcases ha with rfl | rfl | rfl | ⟨r, rfl⟩
  · simp only [act, stepFlag] at hs
    split at hs
    · next k inv err hmain =>
      simp only [Act.touched, hmain] at ht
      obtain ⟨rfl, hk⟩ := ebioAt_eq_some ht
      rw [if_pos hk] at hs
      cases hs
      have hat := (hl.bio b).mainAt (by simp [hmain]) hk
      have hreq : (s.flagAbio g (b, k) inv).req = s.req := (flagAbio_frame inv).req
      have hat' := (hl'.bio b).mainAt (k := k) (by simp) (by simpa [hreq] using hk)
      simp only [hmain, mainStage, Nat.lt_irrefl, if_false] at hat
      simp only [updBio_bio, Function.update_self, updBio_req, hreq, mainStage,
        Nat.lt_succ_self, if_true, updBio_ebio] at hat'
      rw [updBio_ebio]
      exact flagAbio_work (e := (b, k)) hinv.blk (by simp [hmain]) ((hl.bio b).ebs k) hat
        hat' hbug'
    · cases hs
  · simp only [act, stepReadDone] at hs
    split at hs
    · next k hmain =>
      simp only [Act.touched, hmain] at ht
      obtain ⟨rfl, hk⟩ := ebioAt_eq_some ht
      rw [if_pos hk] at hs
      cases hs
      rw [updBio_ebio, readDoneAbio_ebio hbug']
      exact .readOver (e := (b, k)) (by simp [hmain]) hfinds (by simp)
    · cases hs
  · simp only [act, stepReadfill] at hs
    split at hs
    · next k hmain =>
      simp only [Act.touched, hmain] at ht
      obtain ⟨rfl, hk⟩ := ebioAt_eq_some ht
      rw [if_pos hk] at hs
      cases hs
      rw [updBio_ebio]
      rcases readfillLock_ebio hbug' with heq | heq | heq <;> rw [heq]
      · exact .readOver (e := (b, k)) (by simp [hmain]) hfinds (by simp)
      · exact .fillIssue (e := (b, k)) (by simp [hmain]) hfinds
      · exact .dirtyIssue (e := (b, k)) (by simp [hmain]) hfinds
    · cases hs
  · simp only [act, stepReadfillSubmit] at hs
    split at hs
    · next k hmain =>
      simp only [Act.touched, hmain] at ht
      cases ht
      obtain ⟨-, rfl⟩ := Option.ite_some_none_eq_some.mp hs
      rw [updBio_ebio]
      split
      · next hr =>
        subst hr
        rw [readfillAccept, updEb_ebio, Function.update_self]
        rcases hfinds with hst | hst
        · simpa [hst] using EbWork.fillSubmit hst
        · simpa [hst] using EbWork.dirtySubmit hst
      · next hr =>
        rw [readfillRefuse_ebio]
        exact .fillRefused (e := (b, k)) hfinds hr
    · cases hs

/-- The completions of the I/Os of an ebio, and its end. -/
theorem Sys.act_work_ssd {k : Nat} (ha : (∃ x, a = .ssdSector b k x) ∨ (∃ r, a = .ssdDone b k r) ∨
      a = .ebEndio b k ∨ (∃ r, a = .reread b k r) ∨ (∃ x, a = .rereadSector b k x) ∨
      ∃ r, a = .rereadDone b k r) :
    EbWork s e a (s'.ebio e) := by
  have hl := hinv.live hbug
  have hl' := (hinv.act hbug hs).live hbug'
  have hfinds := hl.finds hs ht
  rcases ha with ⟨x, rfl⟩ | ⟨r, rfl⟩ | rfl | ⟨r, rfl⟩ | ⟨x, rfl⟩ | ⟨r, rfl⟩ <;>
    cases ht
  · simp only [act, stepSsdSector] at hs
    split at hs
    · cases hs
    · obtain ⟨⟨-, hx, hfirst⟩, hs⟩ := Option.ite_none_right_eq_some.mp hs
      split at hs <;> cases hs
      · rw [updBio_ebio, updEb_ebio, Function.update_self]
        exact .sector (.inl hfinds) (.inl rfl) hx hfirst
      · simp only [updEb_ebio, Function.update_self]
        exact .sector (.inl hfinds) (.inl rfl) hx hfirst
  · have hk := ((hl.bio b).started (k := k) (EbSt.atSsd_ne hfinds).1).1
    have hat := (hl.bio b).at_ k hk
    simp only [act, stepSsdDone] at hs
    obtain ⟨-, hs⟩ := Option.ite_none_right_eq_some.mp hs
    split at hs
    · cases hs
      cases hbug'
    next i hi =>
    split at hs <;> cases hs
    · next hst =>
      refine readCacheDone_work (e := (b, k)) hst ?_ ?_ hbug'
      · intro hr
        rcases hat.atSsd hfinds with ⟨-, ⟨-, hr'⟩ | hr', -⟩ | ⟨-, h, -⟩ | ⟨-, h, -⟩ | ⟨-, h, -⟩ |
          ⟨-, h, -⟩
        · exact hr'
        · exact absurd hr' hr
        all_goals simp [hst] at h
      · intro hr
        exact (hinv.blk.used ⟨hi, hr, by simp [hst]⟩).1
    · next hst =>
      rw [readFillDone_ebio hbug']
      exact .readDone (e := (b, k)) (.inr hst)
    · next h1 h2 =>
      refine writeCacheDone_work (e := (b, k)) hinv.blk ((hl.bio b).ebs k) hi hat ?_ hfinds
        ⟨h1, h2⟩ hbug'
      have hat' := (hl'.bio b).at_ k (by rw [writeCacheDone_req]; exact hk)
      rw [writeCacheDone_req] at hat'
      exact writeCacheDone_stage (e := (b, k)) i k r (s.req b).dir ▸ hat'
  · simp only [act, stepEbEndio] at hs
    split at hs
    · cases hs
    · next htodo =>
      cases hs
      simp only [ebEndio, bcPut, updBio_ebio, updEb_ebio, Function.update_self]
      exact .ended (e := (b, k)) hfinds (by simp [htodo])
  · simp only [act, stepReread] at hs
    obtain ⟨-, hs⟩ := Option.ite_none_right_eq_some.mp hs
    split at hs
    · cases hs
      cases hbug'
    · split at hs
      · next hr =>
        cases hs
        subst hr
        simp only [rereadAccept] at hbug' ⊢
        split
        · next h => simp [h] at hbug'
        · rw [updEb_ebio, Function.update_self]
          exact .reread (e := (b, k)) hfinds
      · next hr =>
        split at hs <;> cases hs
        · cases hbug'
        · rw [rereadEnd, endEb, updEb_ebio, Function.update_self]
          exact .rereadRefused (e := (b, k)) hfinds hr
  · simp only [act, stepRereadSector] at hs
    obtain ⟨⟨-, hx, hfirst⟩, rfl⟩ := Option.ite_some_none_eq_some.mp hs
    rw [updBio_ebio, updEb_ebio, Function.update_self]
    exact .sector (.inr hfinds) (.inr rfl) hx hfirst
  · simp only [act, stepRereadDone] at hs
    obtain ⟨-, hs⟩ := Option.ite_none_right_eq_some.mp hs
    split at hs <;> cases hs
    rw [rereadEnd, endEb, updEb_ebio, Function.update_self]
    exact .rereadDone (e := (b, k)) hfinds

theorem Sys.act_work : EbWork s e a (s'.ebio e) := by
  cases a <;> try (simp only [Act.touched, reduceCtorEq] at ht)
  case peek b _ | uwLock b | cwLock b | cwFail b =>
    exact act_work_lock (b := b) hinv hbug hs hbug' ht (by simp)
  case cachedRead b _ | uwSubmit b _ | cwSubmit b _ =>
    exact act_work_submit (b := b) hinv hbug hs hbug' ht (by simp)
  case flag b | readDone b | readfill b | readfillSubmit b _ =>
    exact act_work_main (b := b) hinv hbug hs hbug' ht (by simp)
  case ssdSector b k _ | ssdDone b k _ | ebEndio b k | reread b k _ | rereadSector b k _
     | rereadDone b k _ =>
    exact act_work_ssd (b := b) (k := k) hinv hbug hs hbug' ht (by simp)

end

end
end EnhanceIO
