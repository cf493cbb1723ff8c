import EnhanceIO.Preserve.Paths

/-!
# The completion of the HDD I/O keeps the invariant

`eio_post_io_callback` of `READDISK` and `WRITEDISK`, the loops of
`eio_flag_abios`, `eio_uncached_read_done` and `eio_do_readfill`, and the end of
the main ebio.
-/

namespace EnhanceIO

open State

section
variable {g : Geom} {s s' s₀ s₁ : Sys} {b k : Nat}

/-! ## A bio whose HDD I/O has been issued -/

theorem BioOk.issued {r : Req} {bc : Bio} {eb : Nat → Ebio} (h : BioOk g r bc eb)
    (hm : bc.main ≠ .none) : bc.pc = .put ∨ bc.pc = .done := by
  have hp := h.pc
  cases hpc : bc.pc <;> rw [hpc] at hp
  case put => exact .inl rfl
  case done => exact .inr rfl
  case absent =>
    rw [hp.1] at hm
    exact absurd rfl hm
  case spin => exact absurd hp hm
  all_goals exact absurd hp.1 hm

theorem stage_issued {dir : Dir} {uc : Bool} {pc : MapPc} (hpc : pc = .put ∨ pc = .done)
    (m : MainPc) (k : Nat) : stage dir uc pc m k = mainStage dir m k := by
  rcases hpc with rfl | rfl <;> rfl

theorem pcOk_issued {r : Req} {bc : Bio} (hpc : bc.pc = .put ∨ bc.pc = .done) :
    PcOk g r bc bc.pc ↔ MainOk g r bc bc.main := by
  rcases hpc with h | h <;> rw [h] <;> rfl

theorem BioOk.mainOk {r : Req} {bc : Bio} {eb : Nat → Ebio} (h : BioOk g r bc eb)
    (hm : bc.main ≠ .none) : MainOk g r bc bc.main :=
  (pcOk_issued (h.issued hm)).mp h.pc

theorem BioOk.mainAt {r : Req} {bc : Bio} {eb : Nat → Ebio} (h : BioOk g r bc eb)
    (hm : bc.main ≠ .none) (hk : k < r.segs.length) :
    (mainStage r.dir bc.main k).Ok (eb k).role (eb k).st := by
  have hat := h.at_ k hk
  rwa [stage_issued (h.issued hm)] at hat

theorem Quiet.issued {bc bc' : Bio} {d : Int} (hpc : bc.pc = .put ∨ bc.pc = .done)
    (hm : bc.main ≠ .none) (href : mainRef bc'.main + d = mainRef bc.main)
    (hsame : bc'.holdcount = bc.holdcount ∧ bc'.endio = bc.endio ∧ bc'.ended = bc.ended ∧
      bc'.locks = bc.locks ∧ bc'.uc = bc.uc ∧ bc'.bcDir = bc.bcDir ∧
      bc'.mainIotype = bc.mainIotype ∧ bc'.pc = bc.pc) : Quiet d bc bc' := by
  obtain ⟨h1, h2, h3, h4, h5, h6, h7, h8⟩ := hsame
  refine ⟨h1, h2, h3, h4, h5, h6, h7, ?_, fun _ => hm, ?_, ?_⟩
  · rw [h8, Int.add_assoc, href]
  · rw [h8]
    exact id
  · rcases hpc with h | h <;> simp [h]

/-- The completion of the HDD I/O handles ebio `k` and moves on to `m`. -/
theorem Inv.mainEbio {P : Role → EbSt → Prop} {m : MainPc} (h : Live g s) (hbug : s.bug = none)
    (hb₀ : BlkInv g s₀) (heb₀ : s₀.ebio (b, k) = s.ebio (b, k)) (hs₀ : Sound s s₀)
    (hf : EbFrame s s₁ (b, k)) (hh : Handled g s₀ s₁ (b, k) P)
    (hk : k < (s.req b).segs.length) (hnew : (s.ebio (b, k)).st ≠ .new)
    (hw : (s.ebio (b, k)).st.waiting = false) (hw' : ∀ r st, P r st → st.waiting = false)
    (hm : (s.bio b).main ≠ .none) (href : mainRef m = mainRef (s.bio b).main)
    (hat : ∀ r st, P r st → (mainStage (s.req b).dir m k).Ok r st)
    (hoth : ∀ j, j ≠ k → mainStage (s.req b).dir m j = mainStage (s.req b).dir (s.bio b).main j)
    (hok : MainOk g (s.req b) (s.bio b) m) :
    Inv g (s₁.updBio b fun bc => { bc with main := m }) := by
  have hpc := (h.bio b).issued hm
  refine .ebio (e := (b, k)) h hbug hb₀ heb₀ hs₀ hf hh hk hnew hw hw'
    (.issued hpc hm (by rw [Int.add_zero, href]) ⟨rfl, rfl, rfl, rfl, rfl, rfl, rfl, rfl⟩)
    rfl ?_ ?_ ?_
  · intro r st hp
    rw [stage_issued hpc]
    exact hat r st hp
  · intro j _ hj
    rw [stage_issued hpc, stage_issued hpc]
    exact hoth j hj
  · exact (pcOk_issued (by exact hpc)).mpr (by cases m <;> exact hok)

theorem Inv.mainMove {fb : Bio → Bio} (h : Live g s) (hblk : BlkInv g s)
    (hbug : s.bug = none) (hi : Invals g s s₁) (hm : (s.bio b).main ≠ .none)
    (hlist : (fb (s.bio b)).mdlist = (s.bio b).mdlist)
    (hsame : (fb (s.bio b)).holdcount = (s.bio b).holdcount ∧
      (fb (s.bio b)).endio = (s.bio b).endio ∧ (fb (s.bio b)).ended = (s.bio b).ended ∧
      (fb (s.bio b)).locks = (s.bio b).locks ∧ (fb (s.bio b)).uc = (s.bio b).uc ∧
      (fb (s.bio b)).bcDir = (s.bio b).bcDir ∧
      (fb (s.bio b)).mainIotype = (s.bio b).mainIotype ∧ (fb (s.bio b)).pc = (s.bio b).pc)
    (href : mainRef (fb (s.bio b)).main = mainRef (s.bio b).main)
    (hat : ∀ k < (s.req b).segs.length,
      (mainStage (s.req b).dir (fb (s.bio b)).main k).Ok (s.ebio (b, k)).role (s.ebio (b, k)).st)
    (hok : MainOk g (s.req b) (s.bio b) (fb (s.bio b)).main) : Inv g (s₁.updBio b fb) := by
  have hpc := (h.bio b).issued hm
  have hpc' : (fb (s.bio b)).pc = .put ∨ (fb (s.bio b)).pc = .done := by
    rw [hsame.2.2.2.2.2.2.2]
    exact hpc
  refine .invals h hblk hbug hi (.issued hpc hm (by rw [Int.add_zero, href]) hsame) hlist ?_ ?_
  · intro k hk
    rw [stage_issued hpc']
    exact hat k hk
  · rw [pcOk_issued hpc']
    cases hm' : (fb (s.bio b)).main <;> rw [hm'] at hok <;>
      simpa only [MainOk, hsame.2.2.2.2.1, hsame.2.2.2.2.2.1] using hok

/-! ## The HDD -/

theorem Inv.stepHddSector {x : Nat} (h : Inv g s) (hbug : s.bug = none)
    (hs : s.stepHddSector b x = some s') : Inv g s' := by
  have hl := h.live hbug
  have hb := hl.bio b
  simp only [Sys.stepHddSector] at hs
  split at hs
  · next hc =>
    have hm : (s.bio b).main ≠ .none := by simp [hc.1]
    split at hs
    · cases hs
      refine Inv.devices (s := s.updBio b fun bc =>
        { bc with mainXfer := Function.update bc.mainXfer x true }) ?_ rfl
      exact .mainMove hl h.blk hbug (.refl g s) hm rfl (by simp) rfl
        (fun k hk => hb.mainAt hm hk) (hb.mainOk hm)
    · cases hs
      rw [Sys.updBio_updBio]
      exact .mainMove hl h.blk hbug (.refl g s) hm rfl (by simp) rfl
        (fun k hk => hb.mainAt hm hk) (hb.mainOk hm)
  · cases hs

/-- A bio that is not forced has an HDD I/O without `EB_INVAL`. -/
theorem BioOk.hasInval {r : Req} {bc : Bio} {eb : Nat → Ebio} (h : BioOk g r bc eb)
    (hm : bc.main ≠ .none) (hinv : bc.mainIotype.hasInval = false) : r.forced = false := by
  rw [h.iotype hm] at hinv
  by_contra hf
  rw [if_pos (by simpa using hf)] at hinv
  exact absurd hinv (by decide)

/-- Where the completion of the HDD I/O can go. -/
theorem BioOk.hddDone {r : Req} {bc : Bio} {eb : Nat → Ebio} (h : BioOk g r bc eb)
    (hm : bc.main = .inflight) (err : Int) :
    (s.hddDonePc r bc err = .readfillQ → bc.bcDir = .uncachedReadAndReadfill) ∧
      mainRef (s.hddDonePc r bc err) = 1 ∧
      (∀ k < r.segs.length,
        (mainStage r.dir (s.hddDonePc r bc err) k).Ok (eb k).role (eb k).st) ∧
      MainOk g r bc (s.hddDonePc r bc err) := by
  have hne : bc.main ≠ .none := by simp [hm]
  have huc := h.mainOk hne
  rw [hm] at huc
  have hat : ∀ k < r.segs.length, (openStage r.dir).Ok (eb k).role (eb k).st := by
    intro k hk
    have := h.mainAt hne hk
    rwa [hm] at this
  cases hd : r.dir with
  | write =>
    rw [hd] at hat
    simp only [Sys.hddDonePc, hd]
    split
    · exact ⟨by simp, rfl, hat, huc⟩
    · exact ⟨by simp, rfl, hat, huc, by simp [hd]⟩
  | read =>
    rw [hd] at hat
    simp only [Sys.hddDonePc, hd]
    split
    · exact ⟨by simp, rfl, hat, huc⟩
    · next hcond =>
      have hforced : r.forced = false := h.hasInval hne (by simp_all)
      have hpc : bc.pc ≠ .absent := by rcases h.issued hne with h | h <;> simp [h]
      have hdir := h.dir hd hforced hpc
      split
      · next hnil =>
        exact ⟨by simp, rfl, by simp [hnil], huc⟩
      · split
        · next hun =>
          refine ⟨by simp, rfl, fun k hk => ?_, huc hforced, hd, hun⟩
          have hplain : ∀ k, (eb k).role = .miss ∨ (eb k).role = .hit := by
            rcases hdir with h1 | h1 | h1
            · simp [hun] at h1
            · exact h1.2
            · simp [hun] at h1
          exact ⟨(hat k hk).1, hplain k⟩
        · next hun =>
          refine ⟨fun _ => ?_, rfl, hat, huc hforced, hd⟩
          rcases hdir with h1 | h1 | h1
          · exact h1
          · exact absurd h1.1 hun
          · simp [huc hforced] at h1

theorem waiting_ucClosed {r : Role} {st : EbSt} (h : Stage.ucClosed.Ok r st) :
    st.waiting = false := by
  rcases h with ⟨rfl, _⟩ | ⟨rfl, _⟩ | rfl <;> rfl

theorem Sys.seg_getElem? (e : EbId) (hk : e.2 < (s.req e.1).segs.length) :
    (s.req e.1).segs[e.2]? = some (s.seg e) := by
  rw [Sys.seg, List.getElem?_eq_getElem hk]
  rfl

theorem Live.aligned {e : EbId} (h : Live g s) (hk : e.2 < (s.req e.1).segs.length)
    (hr : (s.ebio e).role = .fill) : g.roundSector (s.seg e).sector = (s.seg e).sector := by
  have hseg := Sys.seg_getElem? e hk
  exact ((h.req e.1).segOk hseg).aligned ((h.bio e.1).full e.2 _ hseg (.inl hr))

section
variable (h : Inv g s) (hbug : s.bug = none)
include h hbug

theorem Inv.stepHddDone {err : Int} (hs : s.stepHddDone b err = some s') : Inv g s' := by
  have hl := h.live hbug
  simp only [Sys.stepHddDone] at hs
  split at hs
  · next hc =>
    obtain ⟨hq, href, hat, hok⟩ := (hl.bio b).hddDone (s := s) hc.1 err
    rw [if_neg (fun hcon => hcon.2 (hq hcon.1))] at hs
    cases hs
    exact .mainMove hl h.blk hbug (.refl g s) (by simp [hc.1]) rfl (by simp)
      (by rw [hc.1]; exact href) hat hok
  · cases hs

theorem Inv.stepInvalMain (hs : s.stepInvalMain g b = some s') : Inv g s' := by
  have hl := h.live hbug
  have hb := hl.bio b
  simp only [Sys.stepInvalMain] at hs
  split at hs
  · next snum iosize err hmain =>
    have hm : (s.bio b).main ≠ .none := by simp [hmain]
    have hat := fun k hk => hb.mainAt (k := k) hm hk
    have hok := hb.mainOk hm
    rw [hmain] at hok
    simp only [hmain] at hat
    split at hs
    · cases hs
      exact .mainMove hl h.blk hbug (.refl g s) hm rfl (by simp) (by rw [hmain]; rfl) hat
        ⟨hok, fun _ => rfl⟩
    · cases hs
      exact .mainMove hl h.blk hbug (Sys.invalBlockSetRange_invals g s _ _ _ _) hm rfl (by simp)
        (by rw [hmain]; rfl) hat hok
  · cases hs

/-! ## `eio_flag_abios` -/

theorem Inv.stepFlag (hs : s.stepFlag g b = some s') : Inv g s' := by
  have hl := h.live hbug
  have hb := hl.bio b
  simp only [Sys.stepFlag] at hs
  split at hs
  · next k inv err hmain =>
    have hm : (s.bio b).main ≠ .none := by simp [hmain]
    have hok := hb.mainOk hm
    rw [hmain] at hok
    split at hs
    · next hk =>
      cases hs
      have hat := hb.mainAt hm hk
      simp only [hmain, mainStage, Nat.lt_irrefl, if_false] at hat
      have hoth : ∀ j, j ≠ k → mainStage (s.req b).dir (.flag (k + 1) inv err) j =
          mainStage (s.req b).dir (s.bio b).main j := by
        intro j hj
        simp only [hmain, mainStage, ite_lt_succ hj]
      have hself : mainStage (s.req b).dir (.flag (k + 1) inv err) k =
          closedStage (s.req b).dir := by
        simp [mainStage]
      have href : mainRef (.flag (k + 1) inv err) = mainRef (s.bio b).main := by
        rw [hmain]
        rfl
      cases hd : (s.req b).dir with
      | read =>
        rw [hd] at hat
        have hinv : inv = true := hok.2 hd
        subst hinv
        refine .mainEbio hl hbug h.blk rfl (.inl rfl) (Sys.flagAbio_frame _)
          (Sys.flagAbio_read h.blk (hb.ebs k) hat) hk (by simp [hat.1]) (by rw [hat.1]; rfl)
          (by rintro r st rfl; rfl) hm href ?_ hoth hok
        rintro r st rfl
        rw [hself, hd]
        exact .inr (.inr rfl)
      | write =>
        rw [hd] at hat
        have hinvals : Invals g s (if (s.ebio (b, k)).role = .miss ∧ inv = false then
            s.invalBlock g (s.seg (b, k)).sector else s) := by
          split
          · exact Sys.invalBlockSetRange_invals g s _ _ _ _
          · exact .refl g s
        refine .mainEbio hl hbug (hinvals.blk h.blk) (by rw [hinvals.frame.ebio]) hinvals.bug
          (Sys.flagAbio_frame _) (Sys.flagAbio_write h.blk (hb.ebs k) inv hat) hk
          (waiting_ucOpen hat).2 (waiting_ucOpen hat).1 (fun r st => waiting_ucClosed) hm href
          ?_ hoth hok
        intro r st hst
        rwa [hself, hd]
    · next hk =>
      cases hs
      refine .mainMove hl h.blk hbug (.refl g s) hm rfl (by simp) (by rw [hmain]; rfl) ?_ hok.1
      intro j hj
      have hat := hb.mainAt hm hj
      simpa only [hmain, mainStage, if_pos (show j < k by omega)] using hat
  · cases hs

/-! ## `eio_uncached_read_done` -/

theorem Inv.stepReadDone (hs : s.stepReadDone g b = some s') : Inv g s' := by
  have hl := h.live hbug
  have hb := hl.bio b
  simp only [Sys.stepReadDone] at hs
  split at hs
  · next k hmain =>
    have hm : (s.bio b).main ≠ .none := by simp [hmain]
    have hok := hb.mainOk hm
    rw [hmain] at hok
    split at hs
    · next hk =>
      cases hs
      have hat := hb.mainAt hm hk
      simp only [hmain, mainStage, Nat.lt_irrefl, if_false] at hat
      refine .mainEbio hl hbug h.blk rfl (.inl rfl) Sys.readDoneAbio_frame
        (Sys.readDoneAbio_spec h.blk (hb.ebs k) hat) hk (by simp [hat.1]) (by rw [hat.1]; rfl)
        (by rintro r st rfl; rfl) hm (by rw [hmain]; rfl) ?_ ?_ hok
      · rintro r st rfl
        simp [mainStage, Stage.Ok]
      · intro j hj
        simp only [hmain, mainStage, ite_lt_succ hj]
    · next hk =>
      cases hs
      refine .mainMove hl h.blk hbug (.refl g s) hm rfl (by simp) (by rw [hmain]; rfl) ?_
        fun _ => hok.1
      intro j hj
      have hat := hb.mainAt hm hj
      simp only [hmain, mainStage, if_pos (show j < k by omega)] at hat
      simpa [mainStage, hok.2.1, closedStage] using hat
  · cases hs

/-! ## `eio_do_readfill` -/

theorem Inv.stepReadfillStart (hs : s.stepReadfillStart b = some s') : Inv g s' := by
  have hl := h.live hbug
  have hb := hl.bio b
  simp only [Sys.stepReadfillStart] at hs
  split at hs
  · next hmain =>
    cases hs
    have hm : (s.bio b).main ≠ .none := by simp [hmain]
    have hok := hb.mainOk hm
    have hat := fun k hk => hb.mainAt (k := k) hm hk
    rw [hmain] at hok
    simp only [hmain] at hat
    exact .mainMove hl h.blk hbug (.refl g s) hm rfl (by simp) (by rw [hmain]; rfl) hat hok
  · cases hs

theorem Inv.stepReadfill (hs : s.stepReadfill g b = some s') : Inv g s' := by
  have hl := h.live hbug
  have hb := hl.bio b
  simp only [Sys.stepReadfill] at hs
  split at hs
  · next k hmain =>
    have hm : (s.bio b).main ≠ .none := by simp [hmain]
    have hok := hb.mainOk hm
    rw [hmain] at hok
    split at hs
    · next hk =>
      cases hs
      have hat := hb.mainAt hm hk
      simp only [hmain, mainStage, Nat.lt_irrefl, if_false] at hat
      rcases Sys.readfillLock_spec h.blk (hb.ebs k) hat (hl.aligned (e := (b, k)) hk) with
        hh | ⟨_, s₁, heq, hb₁⟩
      case inr =>
        rw [heq]
        exact .of_fail_updBio hb₁ rfl
      have hnew : (s.ebio (b, k)).st ≠ .new := by simp [hat.1]
      have hwait : (s.ebio (b, k)).st.waiting = false := by rw [hat.1]; rfl
      rcases hh.at_ with hfill | hdone
      · have hissues : ((s.readfillLock g (b, k)).ebio (b, k)).st = .fillIssue ∨
            ((s.readfillLock g (b, k)).ebio (b, k)).st = .dirtyIssue :=
          hfill.imp And.left And.left
        simp only [hissues, if_true]
        have hh' : Handled g s (s.readfillLock g (b, k)) (b, k) Stage.fillIssue.Ok :=
          { hh with at_ := hfill }
        refine .mainEbio hl hbug h.blk rfl (.inl rfl) Sys.readfillLock_frame hh' hk hnew hwait
          ?_ hm (by rw [hmain]; rfl) ?_ ?_ ⟨hok.1, hok.2, hk⟩
        · rintro r st (⟨rfl, _⟩ | ⟨rfl, _⟩) <;> rfl
        · intro r st hst
          simpa [mainStage] using hst
        · intro j hj
          simp only [hmain, mainStage, if_neg hj]
      · simp only [hdone, reduceCtorEq, or_self, if_false]
        have hh' : Handled g s (s.readfillLock g (b, k)) (b, k) fun _ st => st = .done :=
          { hh with at_ := hdone }
        refine .mainEbio hl hbug h.blk rfl (.inl rfl) Sys.readfillLock_frame hh' hk hnew hwait
          (by rintro r st rfl; rfl) hm (by rw [hmain]; rfl) ?_ ?_ hok
        · rintro r st rfl
          simp [mainStage, Stage.Ok]
        · intro j hj
          simp only [hmain, mainStage, ite_lt_succ hj]
    · next hk =>
      cases hs
      refine .mainMove hl h.blk hbug (.refl g s) hm rfl (by simp) (by rw [hmain]; rfl) ?_
        fun _ => hok.1
      intro j hj
      have hat := hb.mainAt hm hj
      simp only [hmain, mainStage, if_pos (show j < k by omega)] at hat
      simpa [mainStage, hok.2, closedStage] using hat
  · cases hs

theorem Inv.stepReadfillSubmit {refused : Int}
    (hs : s.stepReadfillSubmit g b refused = some s') : Inv g s' := by
  have hl := h.live hbug
  have hb := hl.bio b
  simp only [Sys.stepReadfillSubmit] at hs
  split at hs
  · next k hmain =>
    have hm : (s.bio b).main ≠ .none := by simp [hmain]
    have hok := hb.mainOk hm
    rw [hmain] at hok
    obtain ⟨huc, hdir, hk⟩ := hok
    split at hs
    · cases hs
      have hat := hb.mainAt hm hk
      simp only [hmain, mainStage, Nat.lt_irrefl, if_false, if_true] at hat
      have hst : (s.ebio (b, k)).st = .fillIssue ∨ (s.ebio (b, k)).st = .dirtyIssue :=
        hat.imp And.left And.left
      have hnew : (s.ebio (b, k)).st ≠ .new := by rcases hst with h | h <;> simp [h]
      have hwait : (s.ebio (b, k)).st.waiting = false := by
        rcases hst with h | h <;> rw [h] <;> rfl
      have hoth : ∀ j, j ≠ k → mainStage (s.req b).dir (.readfill (k + 1)) j =
          mainStage (s.req b).dir (s.bio b).main j := by
        intro j hj
        simp only [hmain, mainStage, ite_lt_succ hj, if_neg hj]
      have hself : mainStage (s.req b).dir (.readfill (k + 1)) k = .filled := by
        simp [mainStage]
      have href : mainRef (.readfill (k + 1)) = mainRef (s.bio b).main := by
        rw [hmain]
        rfl
      split
      · refine .mainEbio hl hbug h.blk rfl (.inl rfl) Sys.readfillAccept_frame
          (Sys.readfillAccept_spec (hb.ebs k) hat) hk hnew hwait ?_ hm href ?_ hoth ⟨huc, hdir⟩
        · rintro r st (⟨rfl, _⟩ | ⟨rfl, _⟩ | rfl) <;> rfl
        · intro r st hst
          rwa [hself]
      · refine .mainEbio hl hbug h.blk rfl (.inl rfl) (Sys.readfillRefuse_frame _)
          (Sys.readfillRefuse_spec refused h.blk (hb.ebs k) hat) hk hnew hwait
          (by rintro r st rfl; rfl) hm href ?_ hoth ⟨huc, hdir⟩
        rintro r st rfl
        rw [hself]
        exact .inr (.inr rfl)
    · cases hs
  · cases hs

/-! ## The end of the main ebio -/

theorem Inv.stepMainEndio (hs : s.stepMainEndio g b = some s') : Inv g s' := by
  have hl := h.live hbug
  have hb := hl.bio b
  simp only [Sys.stepMainEndio] at hs
  split at hs
  · next err hmain =>
    cases hs
    have hm : (s.bio b).main ≠ .none := by simp [hmain]
    have hpc := hb.issued hm
    have hne : (s.bio b).pc ≠ .absent := by rcases hpc with h | h <;> simp [h]
    have hok := hb.mainOk hm
    rw [hmain] at hok
    rw [Sys.mainEndio, Sys.bcPut_eq, Sys.updBio_updBio]
    refine .bio hl h.blk hbug ?_ hne (Bio.put_mdlist _ _)
      fun c hc => Bio.put_locks _ _ _ (hl.cleaning c hc b)
    refine hb.put (d := 1) s.now (.issued hpc hm (by rw [hmain]; rfl)
      ⟨rfl, rfl, rfl, rfl, rfl, rfl, rfl, rfl⟩) hne (by simp) hb.ebs hb.beyond
      (fun _ => .inl rfl) ?_ ?_
    · intro k hk
      have hat := hb.mainAt hm hk
      rw [stage_issued hpc]
      rwa [hmain] at hat
    · refine (pcOk_issued (by exact hpc)).mpr ?_
      exact hok
  · cases hs

end

end
end EnhanceIO
