import EnhanceIO.Preserve.Main

/-!
# The completion of the SSD I/Os keeps the invariant

`eio_post_io_callback` of the cache jobs, the second read from the HDD after a
failed one, `eio_md_write`, and `eb_endio` with the reference it gives back.
-/

namespace EnhanceIO

open State

section
variable {g : Geom} {s s' s₁ : Sys} {e : EbId} {b k : Nat}

/-! ## An ebio on its way -/

theorem BioOk.started {r : Req} {bc : Bio} {eb : Nat → Ebio} (h : BioOk g r bc eb)
    (hst : (eb k).st ≠ .new) :
    k < r.segs.length ∧ bc.pc ≠ .absent ∧ ∀ rest, bc.pc ≠ .lock rest := by
  have hk : k < r.segs.length := by
    by_contra hk
    rw [h.beyond k (Nat.le_of_not_lt hk)] at hst
    exact hst rfl
  have hat := h.at_ k hk
  refine ⟨hk, fun hpc => ?_, fun rest hpc => ?_⟩ <;> rw [hpc] at hat <;> exact hst hat.2

theorem Sys.updBio_id (s : Sys) (b : Nat) : s.updBio b id = s := by
  simp [Sys.updBio]

/-- `bc'` differs from `bc` at most in fields on which no reference, set lock or
position depends. -/
def Bio.Aside (bc bc' : Bio) : Prop :=
  bc' = { bc with
    error := bc'.error
    mdwait := bc'.mdwait
    mdlist := bc'.mdlist
    mdreqs := bc'.mdreqs
    enq := bc'.enq
    buf := bc'.buf }

theorem Quiet.aside {bc bc' : Bio} (h : bc.Aside bc') (hpc : bc.pc ≠ .absent)
    (hlock : ∀ rest, bc.pc ≠ .lock rest) : Quiet 0 bc bc' := by
  rw [h]
  exact ⟨rfl, rfl, rfl, rfl, rfl, rfl, rfl, Int.add_zero _, id, id, hpc,
    fun rest hr => absurd hr (hlock rest)⟩

/-- Ebio `e` is handled while `eio_map` and the HDD I/O of its bio stay where they are. -/
theorem Bios.ebio {P : Role → EbSt → Prop} {fb : Bio → Bio} (h : Bios g s)
    (hf : Local s s₁ e) (hbio : s₁.bio e.1 = s.bio e.1) (hh : Handled g s s₁ e P)
    (ha : (s.bio e.1).Aside (fb (s.bio e.1))) (hnew : (s.ebio e).st ≠ .new)
    (hat : ∀ σ : Stage, σ.Ok (s.ebio e).role (s.ebio e).st → ∀ r st, P r st → σ.Ok r st) :
    Bios g (s₁.updBio e.1 fb) := by
  have hb := h.bio e.1
  obtain ⟨hk, hne, hlock⟩ := hb.started (k := e.2) hnew
  have q := Quiet.aside ha hne hlock
  have hbc : (s₁.updBio e.1 fb).bio e.1 = fb (s.bio e.1) := by simp [hbio]
  have hpc : (fb (s.bio e.1)).pc = (s.bio e.1).pc ∧ (fb (s.bio e.1)).main = (s.bio e.1).main := by
    rw [ha]
    exact ⟨rfl, rfl⟩
  refine h.of_local (hf.updBio fb) ?_ hne ?_
  · rw [hbc]
    show BioOk g (s.req e.1) (fb (s.bio e.1)) fun k => s₁.ebio (e.1, k)
    refine hb.handled rfl hf.ebio hh hk hnew q ?_ ?_ ?_
    · intro r st hr
      rw [hpc.1, hpc.2]
      exact hat _ (hb.at_ e.2 hk) r st hr
    · intro j _ _
      rw [hpc.1, hpc.2]
    · rw [hpc.1]
      exact hb.pc.congr hne hpc.2 q.uc q.bcDir
  · rw [hbc, q.locks]
    exact fun c hc => h.cleaning c hc e.1

/-- The same, for an ebio that does not wait for a metadata update. -/
theorem Inv.ebioAside {P : Role → EbSt → Prop} {fb : Bio → Bio} (h : Live g s) (hbug : s.bug = none)
    (hblk : BlkInv g s) (hf : EbFrame s s₁ e) (hh : Handled g s s₁ e P)
    (ha : (s.bio e.1).Aside (fb (s.bio e.1)))
    (hlist : (fb (s.bio e.1)).mdlist = (s.bio e.1).mdlist)
    (hnew : (s.ebio e).st ≠ .new) (hw : (s.ebio e).st.waiting = false)
    (hw' : ∀ r st, P r st → st.waiting = false)
    (hat : ∀ σ : Stage, σ.Ok (s.ebio e).role (s.ebio e).st → ∀ r st, P r st → σ.Ok r st) :
    Inv g (s₁.updBio e.1 fb) := by
  have hbc : (s₁.updBio e.1 fb).bio e.1 = fb (s.bio e.1) := by simp [hf.bio]
  refine .of_live ((hh.how.blk hblk).congr rfl rfl rfl) (hh.bug.trans hbug)
    ⟨h.toBios.ebio hf.toLocal (by rw [hf.bio]) hh ha hnew hat, ?_⟩
  exact h.md.of_local (hf.toLocal.updBio fb) (by rw [hbc, hlist]) hw (hw' _ _ hh.at_)

theorem Inv.ebioStep {P : Role → EbSt → Prop} (h : Live g s) (hbug : s.bug = none)
    (hblk : BlkInv g s) (hf : EbFrame s s₁ e) (hh : Handled g s s₁ e P)
    (hnew : (s.ebio e).st ≠ .new) (hw : (s.ebio e).st.waiting = false)
    (hw' : ∀ r st, P r st → st.waiting = false)
    (hat : ∀ σ : Stage, σ.Ok (s.ebio e).role (s.ebio e).st → ∀ r st, P r st → σ.Ok r st) :
    Inv g s₁ := by
  rw [← s₁.updBio_id e.1]
  exact .ebioAside h hbug hblk hf hh rfl rfl hnew hw hw' hat

theorem Handled.transfer (hok : EbOk (s.ebio e)) (f : Nat → Bool) :
    Handled g s (s.updEb e fun eb => { eb with xfer := f }) e
      fun r st => r = (s.ebio e).role ∧ st = (s.ebio e).st := by
  have hgo : (s.ebio e).Goes { s.ebio e with xfer := f }
      fun r st => r = (s.ebio e).role ∧ st = (s.ebio e).st :=
    ⟨⟨hok.index, hok.inval, hok.missInval, hok.hold, hok.live, hok.dead, hok.new⟩, ⟨rfl, rfl⟩,
      rfl, rfl, rfl⟩
  by_cases ho : ∃ i c, (s.ebio e).Owns i c
  · obtain ⟨i, c, ho⟩ := ho
    exact .keep ho ho hgo
  · exact .plain (fun j c hj => ho ⟨j, c, hj⟩) (fun j c hj => ho ⟨j, c, hj⟩) (fun j hu => hu) hgo

/-! ## Sectors -/

theorem EbSt.atSsd_ne {st : EbSt} (h : Sys.EbSt.atSsd st = true) :
    st ≠ .new ∧ st.waiting = false := by
  cases st <;> simp_all [Sys.EbSt.atSsd, EbSt.waiting]

theorem Inv.stepSsdSector {x : Nat} (h : Inv g s) (hbug : s.bug = none)
    (hs : s.stepSsdSector g b k x = some s') : Inv g s' := by
  have hl := h.live hbug
  have hb := hl.bio b
  simp only [Sys.stepSsdSector] at hs
  split at hs
  · cases hs
  · split at hs
    · next i hi hc =>
      obtain ⟨hnew, hw⟩ := EbSt.atSsd_ne hc.1
      have hh := Handled.transfer (g := g) (hb.ebs k) (Function.update (s.ebio (b, k)).xfer x true)
      have hw' : ∀ r st, r = (s.ebio (b, k)).role ∧ st = (s.ebio (b, k)).st →
          st.waiting = false := by
        rintro r st ⟨-, rfl⟩
        exact hw
      have hat : ∀ σ : Stage, σ.Ok (s.ebio (b, k)).role (s.ebio (b, k)).st →
          ∀ r st, r = (s.ebio (b, k)).role ∧ st = (s.ebio (b, k)).st → σ.Ok r st := by
        rintro σ hσ r st ⟨rfl, rfl⟩
        exact hσ
      split at hs
      · cases hs
        exact .ebioAside (e := (b, k)) hl hbug h.blk ((EbFrame.refl s _).updEb _) hh rfl rfl hnew
          hw hw' hat
      · cases hs
        refine Inv.devices (s := s.updEb (b, k) fun eb =>
          { eb with xfer := Function.update eb.xfer x true }) ?_ rfl
        exact .ebioStep hl hbug h.blk ((EbFrame.refl s _).updEb _) hh hnew hw hw' hat
    · cases hs

theorem Inv.stepRereadSector {x : Nat} (h : Inv g s) (hbug : s.bug = none)
    (hs : s.stepRereadSector b k x = some s') : Inv g s' := by
  have hl := h.live hbug
  have hb := hl.bio b
  simp only [Sys.stepRereadSector] at hs
  split at hs
  · next hc =>
    cases hs
    have hh := Handled.transfer (g := g) (hb.ebs k) (Function.update (s.ebio (b, k)).xfer x true)
    have hw : (s.ebio (b, k)).st.waiting = false := by rw [hc.1]; rfl
    refine .ebioAside (e := (b, k)) hl hbug h.blk ((EbFrame.refl s _).updEb _) hh rfl rfl
      (by simp [hc.1]) hw ?_ ?_
    · rintro r st ⟨-, rfl⟩
      exact hw
    · rintro σ hσ r st ⟨rfl, rfl⟩
      exact hσ
  · cases hs

/-! ## Completions -/

theorem Stage.Ok.atSsd {σ : Stage} {r : Role} {st : EbSt} (h : σ.Ok r st)
    (hst : Sys.EbSt.atSsd st = true) :
    (st = .readCache ∧ ((σ = .cachedRead ∧ r = .hit) ∨ r = .dirty) ∧ σ.Ok r .done) ∨
      (σ = .filled ∧ st = .readFill ∧ r = .fill) ∨
      (σ = .ucOpen ∧ st = .uc false false ∧ (r = .dirty ∨ r = .wr)) ∨
      (σ = .ucClosed ∧ st = .uc false true ∧ (r = .dirty ∨ r = .wr)) ∨
      (σ = .cwOpen ∧ st = .cw ∧ (r = .dirty ∨ r = .wr)) := by
  cases σ <;> cases st <;> simp_all [Stage.Ok, Sys.EbSt.atSsd]
  case ucOpen.uc ssd disk => cases ssd <;> simp_all

theorem EbOk.atSsd_index {σ : Stage} {eb : Ebio} (h : EbOk eb) (hat : σ.Ok eb.role eb.st)
    (hst : Sys.EbSt.atSsd eb.st = true) : ∃ i, eb.index = some i := by
  have hr : eb.role ≠ .miss := by
    rcases hat.atSsd hst with ⟨_, ⟨_, hr⟩ | hr, _⟩ | ⟨_, _, hr⟩ | ⟨_, _, hr | hr⟩ |
      ⟨_, _, hr | hr⟩ | ⟨_, _, hr | hr⟩ <;> simp [hr]
  obtain ⟨i, hi, _⟩ := h.index_of_ne_miss hr
  exact ⟨i, hi⟩

/-- Ebio `e` ends while `eio_map` and the HDD I/O of its bio stay where they are. -/
theorem Inv.ebioDone (h : Live g s) (hbug : s.bug = none)
    (hblk : BlkInv g s) (hf : EbFrame s s₁ e) (hh : Handled g s s₁ e fun _ st => st = .done)
    (hnew : (s.ebio e).st ≠ .new) (hw : (s.ebio e).st.waiting = false)
    (hat : ∀ σ : Stage, σ.Ok (s.ebio e).role (s.ebio e).st → ∀ r, σ.Ok r .done) : Inv g s₁ := by
  refine .ebioStep h hbug hblk hf hh hnew hw ?_ ?_
  · rintro r st rfl
    rfl
  · rintro σ hσ r st rfl
    exact hat σ hσ r

theorem Inv.readCacheDone {i : Nat} (err : Int) (h : Live g s) (hbug : s.bug = none)
    (hblk : BlkInv g s) (hi : (s.ebio e).index = some i) (hst : (s.ebio e).st = .readCache) :
    Inv g (s.readCacheDone g e i err) := by
  have hok := (h.bio e.1).ebs e.2
  have hat := (h.bio e.1).at_ e.2 ((h.bio e.1).started (k := e.2) (by simp [hst])).1
  have hnew : (s.ebio e).st ≠ .new := by simp [hst]
  have hw : (s.ebio e).st.waiting = false := by rw [hst]; rfl
  have hr : (s.ebio e).role = .hit ∨ (s.ebio e).role = .dirty := by
    rcases hat.atSsd (by rw [hst]; rfl) with ⟨_, hr, _⟩ | ⟨_, h', _⟩ | ⟨_, h', _⟩ | ⟨_, h', _⟩ |
      ⟨_, h', _⟩
    · exact hr.imp And.right id
    all_goals simp [hst] at h'
  by_cases hd : s.dbn g i = s.want g e
  case neg =>
    rw [Sys.readCacheDone_mismatch err hd]
    exact .of_fail hblk rfl
  have hh := Sys.readCacheDone_spec err hblk hok hi hst hr hd
  refine .ebioStep h hbug hblk (Sys.readCacheDone_frame err)
    (P := fun r st => (r = .hit ∧ (s.ebio e).role = .hit ∧ st = .readFail) ∨ st = .done)
    { hh with at_ := ?_ } hnew hw ?_ ?_
  · rcases hh.at_ with ⟨h1, h2⟩ | h1
    · rcases hh.role with h3 | h3 | h3
      · exact .inl ⟨h1, h3 ▸ h1, h2⟩
      · rw [h3] at h1
        cases h1
      · exact absurd h3 hnew
    · exact .inr h1
  · rintro r st (⟨_, _, rfl⟩ | rfl) <;> rfl
  · intro σ hσ
    rw [hst] at hσ
    rcases hσ.atSsd rfl with ⟨_, ⟨rfl, hr⟩ | hr, hd⟩ | ⟨_, h', _⟩ | ⟨_, h', _⟩ | ⟨_, h', _⟩ |
      ⟨_, h', _⟩
    · rintro r st (⟨rfl, _, rfl⟩ | rfl) <;> simp [Stage.Ok]
    · rintro r st (⟨_, hr', _⟩ | rfl)
      · rw [hr] at hr'
        cases hr'
      · cases σ <;> simp_all [Stage.Ok]
    all_goals cases h'

theorem Inv.readFillDone {i : Nat} (err : Int) (h : Live g s) (hbug : s.bug = none)
    (hblk : BlkInv g s) (hi : (s.ebio e).index = some i) (hst : (s.ebio e).st = .readFill) :
    Inv g (s.readFillDone g e i err) := by
  have hok := (h.bio e.1).ebs e.2
  have hk := ((h.bio e.1).started (k := e.2) (by simp [hst])).1
  have hat := (h.bio e.1).at_ e.2 hk
  have hfill : ∀ σ : Stage, σ.Ok (s.ebio e).role (s.ebio e).st →
      σ = .filled ∧ (s.ebio e).role = .fill := by
    intro σ hσ
    rcases hσ.atSsd (by rw [hst]; rfl) with ⟨h', _⟩ | ⟨h1, _, h2⟩ | ⟨_, h', _⟩ | ⟨_, h', _⟩ |
      ⟨_, h', _⟩
    case inr.inl => exact ⟨h1, h2⟩
    all_goals simp [hst] at h'
  have hr := (hfill _ hat).2
  by_cases hd : s.dbn g i = (s.seg e).sector
  case neg =>
    rw [Sys.readFillDone_mismatch err hd]
    exact .of_fail hblk rfl
  refine .ebioDone h hbug hblk (Sys.readFillDone_frame err)
    (Sys.readFillDone_spec err hblk hok hi hst hr hd) (by simp [hst])
    (by rw [hst]; rfl) ?_
  intro σ hσ r
  rw [(hfill σ hσ).1]
  exact .inr (.inr rfl)

/-! ## `eio_md_write` -/

theorem List.takeWhile_insert_perm {α : Type} (p : α → Bool) (a : α) (l : List α) :
    List.Perm (l.takeWhile p ++ a :: l.drop (l.takeWhile p).length) (a :: l) := by
  have h : l.takeWhile p ++ l.drop (l.takeWhile p).length = l :=
    List.prefix_iff_eq_append.mp (List.takeWhile_prefix p)
  exact List.perm_middle.trans (List.Perm.of_eq (by rw [h]))

/-- Ebio `e` moves from one list to another. -/
theorem MdLists.move {fe : Ebio → Ebio} {ls ls' : Nat → List Nat} {ps qs ps' qs' : Nat → List EbId}
    (h : MdLists g s ls ps qs)
    (hls : ∀ b k, k ∈ ls' b ↔ if (b, k) = e then (fe (s.ebio e)).st = .mdList else k ∈ ls b)
    (hps : ∀ set e', e' ∈ ps' set ↔
      if e' = e then (fe (s.ebio e)).st = .mdPend ∧ s.setOf g e = set else e' ∈ ps set)
    (hqs : ∀ set e', e' ∈ qs' set ↔
      if e' = e then (fe (s.ebio e)).st = .mdProg ∧ s.setOf g e = set else e' ∈ qs set)
    (hnl : ∀ b, (ls' b).Nodup) (hnp : ∀ set, (ps' set).Nodup) (hnq : ∀ set, (qs' set).Nodup)
    (hin : (fe (s.ebio e)).st = .mdProg →
      (fe (s.ebio e)).index.getD 0 / g.assoc = s.setOf g e) :
    MdLists g (s.updEb e fe) ls' ps' qs' := by
  refine ⟨?_, hnl, ?_, hnp, ?_, hnq, ?_⟩
  · intro b k
    rw [hls]
    by_cases he : (b, k) = e
    · subst he
      simp
    · simpa [he] using h.list b k
  · intro set e'
    rw [hps]
    by_cases he : e' = e
    · subst he
      simp
    · simpa [he] using h.pend set e'
  · intro set e'
    rw [hqs]
    by_cases he : e' = e
    · subst he
      simp
    · simpa [he] using h.prog set e'
  · intro e' hprog
    by_cases he : e' = e
    · subst he
      simp only [Sys.updEb_ebio, Function.update_self] at hprog ⊢
      exact hin hprog
    · simp only [Sys.updEb_ebio, Function.update_of_ne he] at hprog ⊢
      exact h.inSet e' hprog

/-- `eio_md_write` keeps the lists: the ebio joins `bc_mdlist`. -/
theorem MdOk.mdWrite {fe : Ebio → Ebio} {fb : Bio → Bio} (h : MdOk g s)
    (hw : (s.ebio e).st.waiting = false) (hst : (fe (s.ebio e)).st = .mdList)
    (hperm : List.Perm (fb (s.bio e.1)).mdlist (e.2 :: (s.bio e.1).mdlist)) :
    MdOk g ((s.updBio e.1 fb).updEb e fe) := by
  have hnot : ∀ st, (s.ebio e).st = st → st.waiting = true → False := by
    rintro st rfl hwait
    rw [hw] at hwait
    cases hwait
  refine ⟨?_, h.reqs⟩
  have hmd : MdLists g (s.updBio e.1 fb) (fun b => (s.bio b).mdlist) s.pending s.inprog :=
    ⟨h.list, h.listNodup, h.pend, h.pendNodup, h.prog, h.progNodup, h.inSet⟩
  have hlist : ∀ b, (((s.updBio e.1 fb).updEb e fe).bio b).mdlist =
      if b = e.1 then (fb (s.bio e.1)).mdlist else (s.bio b).mdlist := by
    intro b
    by_cases hb : b = e.1 <;> simp [hb]
  refine hmd.move ?_ ?_ ?_ ?_ h.pendNodup h.progNodup (by simp [hst])
  · intro b k
    rw [hlist, Sys.updBio_ebio, hst]
    by_cases hb : b = e.1
    · subst hb
      rw [if_pos rfl, hperm.mem_iff, List.mem_cons]
      by_cases hk : k = e.2
      · simp [hk]
      · have hne : (e.1, k) ≠ e := fun he => hk (by rw [← he])
        simp [hk, hne]
    · have hne : (b, k) ≠ e := fun he => hb (by rw [← he])
      simp [hb, hne]
  · intro set e'
    rw [Sys.updBio_ebio, hst]
    split
    · next he =>
      subst he
      simp only [reduceCtorEq, false_and, iff_false]
      exact fun hmem => hnot _ ((h.pend set e').mp hmem).1 rfl
    · rfl
  · intro set e'
    rw [Sys.updBio_ebio, hst]
    split
    · next he =>
      subst he
      simp only [reduceCtorEq, false_and, iff_false]
      exact fun hmem => hnot _ ((h.prog set e').mp hmem).1 rfl
    · rfl
  · intro b
    rw [hlist]
    split
    · refine hperm.nodup_iff.mpr (List.nodup_cons.mpr ⟨?_, h.listNodup _⟩)
      exact fun hmem => hnot _ ((h.list e.1 e.2).mp hmem) rfl
    · exact h.listNodup b

theorem Inv.mdWrite (h : Live g s) (hbug : s.bug = none) (hblk : BlkInv g s)
    (hr : (s.ebio e).role = .wr) (hst : (s.ebio e).st = .cw) : Inv g (s.mdWrite g e) := by
  simp only [Sys.mdWrite]
  split
  · exact .of_fail hblk rfl
  · have hb := h.bio e.1
    have hok := hb.ebs e.2
    have hnew : (s.ebio e).st ≠ .new := by simp [hst]
    have hne : (s.ebio e).st ≠ .done := by simp [hst]
    obtain ⟨i, hi, _⟩ := hok.index_of_ne_miss (by simp [hr])
    -- the block stays in `DIRTY_INPROG`
    have hh : Handled g s (s.updEb e fun eb => { eb with st := .mdList, ssdError := some 0 }) e
        fun r st => r = .wr ∧ st = .mdList :=
      .keep (i := i) (f := dirtyInprog) ⟨hi, by rw [hr, hst]; rfl⟩ ⟨hi, by simp [hr, holds]⟩
        (hok.go hne ⟨hr, rfl⟩ (by simp) rfl rfl hok.inval (by simp)
          (by simp [hok.hold hne, hr, hst, holdsExpected]) rfl rfl)
    refine .of_live ((hh.how.blk hblk).congr rfl rfl rfl) hbug ⟨?_, ?_⟩
    · rw [← Sys.updEb_updBio]
      refine h.toBios.ebio ((Local.refl s e).updEb _) rfl hh rfl hnew ?_
      rw [hr, hst]
      rintro σ hσ r st ⟨rfl, rfl⟩
      rcases hσ.atSsd rfl with ⟨h', _⟩ | ⟨_, h', _⟩ | ⟨_, h', _⟩ | ⟨_, h', _⟩ | ⟨rfl, _⟩
      case inr.inr.inr.inr => simp [Stage.Ok]
      all_goals cases h'
    · exact h.md.mdWrite (by rw [hst]; rfl) rfl (List.takeWhile_insert_perm _ _ _)

theorem Inv.writeCacheDone {i : Nat} (err : Int) (h : Live g s) (hbug : s.bug = none)
    (hblk : BlkInv g s) (hi : (s.ebio e).index = some i)
    (hst : (∃ disk, (s.ebio e).st = .uc false disk) ∨ (s.ebio e).st = .cw) :
    Inv g (s.writeCacheDone g e i err) := by
  have hok := (h.bio e.1).ebs e.2
  have hat : Sys.EbSt.atSsd (s.ebio e).st = true := by
    rcases hst with ⟨disk, hst⟩ | hst <;> rw [hst] <;> rfl
  obtain ⟨hnew, hw⟩ := EbSt.atSsd_ne hat
  have hσ := (h.bio e.1).at_ e.2 ((h.bio e.1).started (k := e.2) hnew).1
  by_cases hd : s.dbn g i = s.want g e
  case neg =>
    rw [Sys.writeCacheDone_mismatch err hd]
    exact .of_fail hblk rfl
  rcases hσ.atSsd hat with ⟨h', _⟩ | ⟨_, h', _⟩ | ⟨_, h1, hr⟩ | ⟨_, h1, hr⟩ | ⟨_, h1, hr⟩
  · rcases hst with ⟨disk, hst⟩ | hst <;> simp [hst] at h'
  · rcases hst with ⟨disk, hst⟩ | hst <;> simp [hst] at h'
  · obtain ⟨hc, hh⟩ := Sys.writeCacheDone_open err hblk hok hd hi hr h1
    refine .ebioStep h hbug hblk (Sys.writeCacheDone_frame err (fun hcon => hc hcon.2)) hh hnew hw
      (fun r st hp => (waiting_ucOpen hp).1) ?_
    intro σ hσ
    rcases hσ.atSsd hat with ⟨h', _⟩ | ⟨_, h', _⟩ | ⟨rfl, _⟩ | ⟨_, h', _⟩ | ⟨_, h', _⟩
    case inr.inr.inl => exact fun r st hp => hp
    all_goals simp [h1] at h'
  · obtain ⟨hc, hh⟩ := Sys.writeCacheDone_closed err hblk hok hd hi hr h1
    refine .ebioDone h hbug hblk (Sys.writeCacheDone_frame err (fun hcon => hc hcon.2))
      hh hnew hw ?_
    intro σ hσ r
    rcases hσ.atSsd hat with ⟨h', _⟩ | ⟨_, h', _⟩ | ⟨_, h', _⟩ | ⟨rfl, _⟩ | ⟨_, h', _⟩
    case inr.inr.inr.inl => exact .inr (.inr rfl)
    all_goals simp [h1] at h'
  · have hend : ∀ σ : Stage, σ.Ok (s.ebio e).role (s.ebio e).st → ∀ r, σ.Ok r .done := by
      intro σ hσ r
      rcases hσ.atSsd hat with ⟨h', _⟩ | ⟨_, h', _⟩ | ⟨_, h', _⟩ | ⟨_, h', _⟩ | ⟨rfl, _⟩
      case inr.inr.inr.inr => exact .inr (.inr rfl)
      all_goals simp [h1] at h'
    rcases hr with hr | hr
    · have hne : (s.ebio e).st ≠ .done := by simp [h1]
      obtain ⟨hc, hh⟩ := Sys.writeCacheDone_dirty err hblk hok hd ⟨hi, hr, hne⟩
        (by rw [hok.hold hne, hr, h1]; rfl)
      exact .ebioDone h hbug hblk (Sys.writeCacheDone_frame err (fun hcon => hc hcon.2)) hh hnew hw
        hend
    · by_cases herr : err = 0
      · subst herr
        rw [Sys.writeCacheDone_ok hblk hd hi hr h1]
        exact .mdWrite h hbug hblk hr h1
      · exact .ebioDone h hbug hblk (Sys.writeCacheDone_frame err (fun hcon => herr hcon.1))
          (Sys.writeCacheDone_failed err hblk hok herr hd hi hr h1) hnew hw hend

theorem Inv.stepSsdDone {err : Int} (h : Inv g s) (hbug : s.bug = none)
    (hs : s.stepSsdDone g b k err = some s') : Inv g s' := by
  have hl := h.live hbug
  have hb := hl.bio b
  simp only [Sys.stepSsdDone] at hs
  split at hs
  · next hc =>
    obtain ⟨hnew, _⟩ := EbSt.atSsd_ne hc.1
    obtain ⟨i, hi⟩ := (hb.ebs k).atSsd_index (hb.at_ k (hb.started hnew).1) hc.1
    simp only [hi] at hs
    split at hs <;> cases hs
    · next hst => exact .readCacheDone err hl hbug h.blk hi hst
    · next hst => exact .readFillDone err hl hbug h.blk hi hst
    · next hst hst' =>
      refine .writeCacheDone err hl hbug h.blk hi ?_
      have hat := hc.1
      cases hcase : (s.ebio (b, k)).st <;> rw [hcase] at hat hst hst'
      case uc ssd disk =>
        cases ssd
        · exact .inl ⟨disk, rfl⟩
        · cases hat
      case cw => exact .inr rfl
      case readCache => exact absurd rfl hst
      case readFill => exact absurd rfl hst'
      all_goals cases hat
  · cases hs

/-! ## Reading again from the HDD -/

theorem Stage.Ok.rereading {σ : Stage} {r : Role} {st : EbSt} (h : σ.Ok r st)
    (hst : st = .readFail ∨ st = .reread) : σ = .cachedRead ∧ r = .hit := by
  rcases hst with rfl | rfl <;> cases σ <;> simp_all [Stage.Ok]

theorem Inv.rereadEnd {i : Nat} (err : Int) (h : Live g s) (hbug : s.bug = none)
    (hblk : BlkInv g s) (hi : (s.ebio e).index = some i)
    (hst : (s.ebio e).st = .readFail ∨ (s.ebio e).st = .reread) :
    Inv g (s.rereadEnd g e i err) := by
  have hnew : (s.ebio e).st ≠ .new := by rcases hst with h | h <;> simp [h]
  have hw : (s.ebio e).st.waiting = false := by rcases hst with h | h <;> rw [h] <;> rfl
  have hat := (h.bio e.1).at_ e.2 ((h.bio e.1).started (k := e.2) hnew).1
  refine .ebioDone h hbug hblk (((EbFrame.refl s e).invalidate i).endEb err)
    (Sys.rereadEnd_spec err hblk ((h.bio e.1).ebs e.2) hi (hat.rereading hst).2 hst) hnew hw ?_
  intro σ hσ r
  rw [(hσ.rereading hst).1]
  exact .inr (.inr rfl)

theorem Inv.stepReread {refused : Int} (h : Inv g s) (hbug : s.bug = none)
    (hs : s.stepReread g b k refused = some s') : Inv g s' := by
  have hl := h.live hbug
  have hb := hl.bio b
  simp only [Sys.stepReread] at hs
  split at hs
  · next hst =>
    have hok := hb.ebs k
    have hat := hb.at_ k (hb.started (k := k) (by simp [hst])).1
    have hr := (hat.rereading (.inl hst)).2
    obtain ⟨i, hi⟩ := hb.index (k := k) (by simp [hr])
    have hread := h.blk.rereading (e := (b, k)) (i := i) (f := valid ||| diskReadInprog)
      ⟨hi, by rw [hr, hst]; rfl⟩ rfl
    simp only [hi, hread, not_true_eq_false, if_false] at hs
    split at hs <;> cases hs
    · refine .ebioStep hl hbug h.blk Sys.rereadAccept_frame
        (Sys.rereadAccept_spec h.blk hok hi hr hst) (by simp [hst]) (by rw [hst]; rfl) ?_ ?_
      · rintro r st ⟨_, rfl⟩
        rfl
      · rintro σ hσ r st ⟨rfl, rfl⟩
        rw [(hσ.rereading (.inl hst)).1]
        simp [Stage.Ok]
    · exact .rereadEnd refused hl hbug h.blk hi (.inl hst)
  · cases hs

theorem Inv.stepRereadDone {err : Int} (h : Inv g s) (hbug : s.bug = none)
    (hs : s.stepRereadDone g b k err = some s') : Inv g s' := by
  simp only [Sys.stepRereadDone] at hs
  split at hs
  · next hc =>
    split at hs
    · cases hs
    · next i hi =>
      cases hs
      exact .rereadEnd err (h.live hbug) hbug h.blk hi (.inr hc.1)
  · cases hs

/-! ## `eb_endio` -/

theorem openEbios_end {n : Nat} {eb eb' : Nat → Ebio} (hk : k < n) (h0 : (eb k).ended = 0)
    (h1 : (eb' k).ended ≠ 0) (hoth : ∀ j, j ≠ k → (eb' j).ended = (eb j).ended) :
    openEbios n eb = openEbios n eb' + 1 := by
  induction n with
  | zero => omega
  | succ n ih =>
    simp only [openEbios, List.range_succ, List.countP_append] at ih ⊢
    by_cases hkn : k = n
    · subst hkn
      have hsame : (List.range k).countP (fun j => (eb' j).ended = 0) =
          (List.range k).countP fun j => (eb j).ended = 0 := by
        refine List.countP_congr fun j hj => ?_
        rw [hoth j (Nat.ne_of_lt (List.mem_range.mp hj))]
      rw [hsame]
      simp [h0, h1]
    · have := ih (by omega)
      rw [this]
      have hlast := hoth n (fun h => hkn h.symm)
      simp only [List.countP_singleton, hlast]
      omega

/-- The `eb_endio` of an ebio is carried out. -/
theorem BioOk.ebEnded {r : Req} {bc : Bio} {eb eb' : Nat → Ebio} {error : Int}
    (h : BioOk g r bc eb) (now : Nat) (hst : (eb k).st = .done) (h0 : (eb k).ended = 0)
    (hself : eb' k = { eb k with todo := [], ended := 1 }) (hoth : ∀ j, j ≠ k → eb' j = eb j) :
    BioOk g r (Bio.put g now { bc with error := error }) eb' := by
  obtain ⟨hk, hpc, hlock⟩ := h.started (k := k) (by simp [hst])
  have hok := h.ebs k
  have hsame : ∀ j, (eb' j).role = (eb j).role ∧ (eb' j).st = (eb j).st := by
    intro j
    by_cases hj : j = k
    · subst hj
      rw [hself]
      exact ⟨rfl, rfl⟩
    · rw [hoth j hj]
      exact ⟨rfl, rfl⟩
  refine h.put (d := 0) now (.aside rfl hpc hlock) hpc ?_ ?_ ?_ ?_ ?_ (h.pc.congr hpc rfl rfl rfl)
  · have h1 : (eb' k).ended ≠ 0 := by simp [hself]
    have := openEbios_end hk h0 h1 fun j hj => congrArg Ebio.ended (hoth j hj)
    omega
  · intro j
    by_cases hj : j = k
    · subst hj
      rw [hself]
      exact ⟨hok.index, hok.inval, hok.missInval, hok.hold, fun hne => absurd hst hne,
        fun _ => rfl, hok.new⟩
    · rw [hoth j hj]
      exact h.ebs j
  · intro j hj
    rw [hoth j (by omega)]
    exact h.beyond j hj
  · exact fun j => .inl (hsame j).1
  · intro j hj
    rw [(hsame j).1, (hsame j).2]
    exact h.at_ j hj

theorem Inv.stepEbEndio (h : Inv g s) (hbug : s.bug = none)
    (hs : s.stepEbEndio g b k = some s') : Inv g s' := by
  have hl := h.live hbug
  have hb := hl.bio b
  simp only [Sys.stepEbEndio] at hs
  split at hs
  · cases hs
  · next err rest htodo =>
    cases hs
    have hok := hb.ebs k
    have hst : (s.ebio (b, k)).st = .done := by
      by_contra hne
      have := (hok.live hne).1
      rw [htodo] at this
      cases this
    have hdead : rest = [] ∧ (s.ebio (b, k)).ended = 0 := by
      have := hok.dead hst
      simp only [htodo, List.length_cons] at this
      exact ⟨List.length_eq_zero_iff.mp (by omega), by omega⟩
    obtain ⟨hk, hpc, hlock⟩ := hb.started (k := k) (by simp [hst])
    have hw : (s.ebio (b, k)).st.waiting = false := by rw [hst]; rfl
    rw [Sys.ebEndio, Sys.bcPut_eq, Sys.updBio_updBio]
    generalize hfe : (fun eb : Ebio => { eb with todo := eb.todo.tail, ended := eb.ended + 1 }) = fe
    have hself : (s.updEb (b, k) fe).ebio (b, k) =
        { s.ebio (b, k) with todo := [], ended := 1 } := by
      simp [← hfe, htodo, hdead]
    have hoth : ∀ j, j ≠ k → (s.updEb (b, k) fe).ebio (b, j) = s.ebio (b, j) := by
      intro j hj
      simp [hj]
    have hblk : BlkInv g (s.updEb (b, k) fe) := by
      refine Handover.blk (e := (b, k)) (.plain ((Near.refl g s (b, k) 0).updEb fe) rfl rfl
        (Ebio.not_owns_done hst) ?_ ?_) h.blk
      · rw [hself]
        exact Ebio.not_owns_done hst
      · rw [hself]
        exact fun j hu => absurd hu (Ebio.not_uses_done hst j)
    have l := (Local.refl s (b, k)).updEb fe
    refine .of_live (hblk.congr rfl rfl rfl) hbug (hl.of_local (l.updBio _) ?_ hpc
      (hl.md.of_local (l.updBio _) ?_ hw ?_) ?_)
    · simp only [Sys.updBio_bio, Sys.updEb_bio, Function.update_self]
      exact hb.ebEnded s.now hst hdead.2 hself hoth
    · simp [Bio.put_mdlist]
    · rw [Sys.updBio_ebio, hself]
      exact hw
    · intro c hc
      simp only [Sys.updBio_bio, Sys.updEb_bio, Function.update_self]
      exact Bio.put_locks _ _ _ (hl.cleaning c hc b)

end
end EnhanceIO
