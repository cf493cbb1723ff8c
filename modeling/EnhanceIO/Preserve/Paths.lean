import EnhanceIO.Preserve.Map

/-!
# The steps of `eio_map` keep the invariant: issuing the I/Os

The loops of `eio_cached_read`, `eio_uncached_write` and `eio_cached_write`
over the ebios of a bio, `eio_disk_io`, and the reference `eio_map` gives back.
-/

namespace EnhanceIO

open State

/-- A loop variable that moves past `k` changes nothing for the others. -/
theorem ite_lt_succ {α : Type} {j k : Nat} (h : j ≠ k) (a b : α) :
    (if j < k + 1 then a else b) = if j < k then a else b := by
  have : j < k + 1 ↔ j < k := by omega
  simp only [this]

section
variable {g : Geom} {s s' : Sys} {b : Nat}

theorem BioOk.index {r : Req} {bc : Bio} {eb : Nat → Ebio} (h : BioOk g r bc eb) {k : Nat}
    (hr : (eb k).role ≠ .miss) : ∃ i, (eb k).index = some i := by
  obtain ⟨i, hi, _⟩ := (h.ebs k).index_of_ne_miss hr
  exact ⟨i, hi⟩

/-! ## The loops -/

/-- The thread is in one of the loops, or past it, and has its reference still. -/
def MapPc.Issuing (pc : MapPc) : Prop := pc.late = true ∧ mapRef pc = 1

theorem Quiet.issuing {bc : Bio} {pc pc' : MapPc} {err : Int} (hpc : bc.pc = pc) (hi : pc.Issuing)
    (hi' : pc'.Issuing) : Quiet 0 bc { bc with pc := pc', error := err } := by
  subst hpc
  refine ⟨rfl, rfl, rfl, rfl, rfl, rfl, rfl, ?_, id, fun _ => hi'.1, ?_, ?_⟩
  · simp [hi.2, hi'.2]
  · intro hcon
    simp [MapPc.Issuing, MapPc.late, hcon] at hi
  · intro rest hcon
    simp [MapPc.Issuing, MapPc.late, hcon] at hi

section
variable {k : Nat} {pc pc' : MapPc} {fb : Bio → Bio} (h : Inv g s) (hbug : s.bug = none)
  (hpc : (s.bio b).pc = pc) (hi : pc.Issuing) (hi' : pc'.Issuing)
include h hbug hpc hi hi'

/-- The loop has handled ebio `k` and goes on at `pc'`. -/
theorem Inv.issued {P : Role → EbSt → Prop} {s₁ : Sys} {st : EbSt} {err : Int}
    (hfb : fb (s.bio b) = { s.bio b with pc := pc', error := err })
    (hk : k < (s.req b).segs.length) (hst : (s.ebio (b, k)).st = st)
    (hnew : st ≠ .new ∧ st.waiting = false)
    (hf : EbFrame s s₁ (b, k)) (hh : Handled g s s₁ (b, k) P)
    (hat : ∀ {r st}, P r st → st.waiting = false ∧
      (stage (s.req b).dir (s.bio b).uc pc' (s.bio b).main k).Ok r st)
    (hoth : ∀ j, j ≠ k → stage (s.req b).dir (s.bio b).uc pc' (s.bio b).main j =
      stage (s.req b).dir (s.bio b).uc pc (s.bio b).main j)
    (hok : PcOk g (s.req b) { s.bio b with pc := pc', error := err } pc') :
    Inv g (s₁.updBio b fb) := by
  refine .ebio (e := (b, k)) (h.live hbug) hbug h.blk rfl (.inl rfl) hf hh hk (hst ▸ hnew.1)
    (hst ▸ hnew.2) (fun _ _ hp => (hat hp).1) (hfb ▸ .issuing hpc hi hi') ?_ ?_ ?_ ?_ <;>
    simp only [hfb]
  · exact fun _ _ hp => (hat hp).2
  · exact fun j _ hj => hpc ▸ hoth j hj
  · exact hok

/-- The loop is over. -/
theorem Inv.issuedAll
    (hat : ∀ j < (s.req b).segs.length, ∀ {r st},
      (stage (s.req b).dir (s.bio b).uc pc (s.bio b).main j).Ok r st →
        (stage (s.req b).dir (s.bio b).uc pc' (s.bio b).main j).Ok r st)
    (hok : PcOk g (s.req b) { s.bio b with pc := pc' } pc') :
    Inv g (s.updBio b fun bc => { bc with pc := pc' }) :=
  .container (h.live hbug) h.blk hbug (.issuing hpc hi hi') rfl
    (fun j hj => hat j hj (hpc ▸ ((h.live hbug).bio b).at_ j hj)) hok

end

theorem waiting_ucOpen {r : Role} {st : EbSt} (h : Stage.ucOpen.Ok r st) :
    st.waiting = false ∧ st ≠ .new := by
  rcases h with ⟨rfl, _⟩ | ⟨rfl, _⟩ | ⟨rfl, _⟩ <;> exact ⟨rfl, by simp⟩

section
variable (h : Inv g s) (hbug : s.bug = none)
include h hbug

/-! ## Cached reads -/

theorem Inv.stepCachedRead {refused : Int}
    (hs : s.stepCachedRead g b refused = some s') : Inv g s' := by
  have hb := (h.live hbug).bio b
  simp only [Sys.stepCachedRead] at hs
  split at hs
  · next k hpc =>
    have hp := hb.pc
    rw [hpc] at hp
    obtain ⟨hmain, hforced, huc, hdir⟩ := hp
    split at hs
    · next hk =>
      have hat := hb.at_ k hk
      simp only [hpc, stage, Nat.lt_irrefl, if_false] at hat
      obtain ⟨i, hi⟩ := hb.index (k := k) (by rcases hat.2 with hr | hr <;> simp [hr])
      split at hs
      · cases hs
        simp only [hi]
        by_cases href : refused = 0
        · simp only [href, if_true]
          refine h.issued hbug hpc ⟨rfl, rfl⟩ ⟨rfl, rfl⟩ rfl hk hat.1 ⟨by simp, rfl⟩
            Sys.cachedReadAccept_frame (Sys.cachedReadAccept_spec (hb.ebs k) hat)
            (fun hst => ⟨?_, by simpa [stage] using hst⟩)
            (fun j hj => by simp only [stage, ite_lt_succ hj]) ⟨hmain, hforced, huc, hdir⟩
          rcases hst with ⟨_, h1 | h1 | h1⟩ | ⟨_, h1⟩ | h1 <;> simp [h1, EbSt.waiting]
        · simp only [href, if_false]
          exact h.issued hbug hpc ⟨rfl, rfl⟩ ⟨rfl, rfl⟩ rfl hk hat.1 ⟨by simp, rfl⟩
            (Sys.giveUp_frame _)
            (Sys.giveUp_spec refused h.blk (hb.ebs k) hi hat.1 (hat.2.imp id .inl))
            (fun hst => by simp [stage, Stage.Ok, hst, EbSt.waiting])
            (fun j hj => by simp only [stage, ite_lt_succ hj]) ⟨hmain, hforced, huc, hdir⟩
      · cases hs
    · next hk =>
      cases hs
      refine h.issuedAll hbug hpc ⟨rfl, rfl⟩ ⟨rfl, rfl⟩ (fun j hj _ _ hst => ?_) ?_
      · simpa [stage, mainStage, hmain, hdir, show j < k by omega] using hst
      · simp [PcOk, MainOk, hmain, hforced, huc, hdir]
  · cases hs

/-! ## Uncached writes -/

theorem Inv.stepUwLock (hs : s.stepUwLock g b = some s') : Inv g s' := by
  have hb := (h.live hbug).bio b
  simp only [Sys.stepUwLock] at hs
  split at hs
  · next k hpc =>
    have hp := hb.pc
    rw [hpc] at hp
    obtain ⟨hmain, huc, hdir⟩ := hp
    split at hs
    · next hk =>
      cases hs
      have hat := hb.at_ k hk
      simp only [hpc, stage, Nat.lt_irrefl, if_false] at hat
      rcases hat with ⟨hst, hr⟩
      by_cases hm : (s.ebio (b, k)).role = .miss
      · have hi : (s.ebio (b, k)).index = none := (hb.ebs k).index.mpr hm
        simp only [hi, if_true]
        exact h.issued hbug hpc ⟨rfl, rfl⟩ ⟨rfl, rfl⟩ rfl hk hst ⟨by simp, rfl⟩
          Sys.uncachedWriteLock_frame (Sys.uncachedWriteLock_miss (hb.ebs k) hst hm)
          (fun hst => ⟨(waiting_ucOpen hst).1, by simpa [stage] using hst⟩)
          (fun j hj => by simp only [stage, ite_lt_succ hj]) ⟨hmain, huc, hdir⟩
      · obtain ⟨i, hi⟩ := hb.index hm
        simp only [hi, reduceCtorEq, if_false]
        exact h.issued hbug hpc ⟨rfl, rfl⟩ ⟨rfl, rfl⟩ rfl hk hst ⟨by simp, rfl⟩
          Sys.uncachedWriteLock_frame
          (Sys.uncachedWriteLock_block h.blk (hb.ebs k) hst (hr.resolve_left hm))
          (fun hst => ⟨by rw [hst.1]; rfl, by simpa [stage] using hst⟩)
          (fun j hj => by simp only [stage, if_neg hj]) ⟨hmain, huc, hdir, hk⟩
    · next hk =>
      cases hs
      refine h.issuedAll hbug hpc ⟨rfl, rfl⟩ ⟨rfl, rfl⟩ (fun j hj _ _ hst => ?_)
        ⟨hmain, fun _ => huc⟩
      simpa [stage, openStage, hdir, show j < k by omega] using hst
  · cases hs

theorem Inv.stepUwSubmit {refused : Int}
    (hs : s.stepUwSubmit g b refused = some s') : Inv g s' := by
  have hb := (h.live hbug).bio b
  simp only [Sys.stepUwSubmit] at hs
  split at hs
  · next k hpc =>
    have hp := hb.pc
    rw [hpc] at hp
    obtain ⟨hmain, huc, hdir, hk⟩ := hp
    split at hs
    · cases hs
      have hat := hb.at_ k hk
      simp only [hpc, stage, Nat.lt_irrefl, if_false, if_true] at hat
      obtain ⟨i, hi⟩ := hb.index (k := k) (by rcases hat.2 with hr | hr <;> simp [hr])
      have hgo : ∀ {s₁ : Sys} {err : Int}, EbFrame s s₁ (b, k) →
          Handled g s s₁ (b, k) Stage.ucOpen.Ok →
          Inv g (s₁.updBio b fun bc => { bc with pc := .uwLock (k + 1), error := err }) :=
        fun hf hh => h.issued hbug hpc ⟨rfl, rfl⟩ ⟨rfl, rfl⟩ rfl hk hat.1 ⟨by simp, rfl⟩ hf hh
          (fun hst => ⟨(waiting_ucOpen hst).1, by simpa [stage] using hst⟩)
          (fun j hj => by simp only [stage, ite_lt_succ hj, if_neg hj]) ⟨hmain, huc, hdir⟩
      simp only [hi]
      by_cases href : refused = 0
      · simp only [href, if_true]
        exact hgo Sys.uncachedWriteAccept_frame (Sys.uncachedWriteAccept_spec (hb.ebs k) hat)
      · simp only [href, if_false]
        rcases hat.2 with hr | hr
        · obtain ⟨s₁, hf, hh, heq⟩ :=
            Sys.uncachedWriteRefuse_dirty refused h.blk (hb.ebs k) hi hat.1 hr
          rw [heq, Sys.updBio_updBio]
          exact hgo hf hh
        · obtain ⟨hf, hh⟩ := Sys.uncachedWriteRefuse_clean refused h.blk (hb.ebs k) hi hat.1 hr
          exact hgo hf hh
    · cases hs
  · cases hs

/-! ## Cached writes -/

theorem Inv.stepCwAlloc {err : Int} (hs : s.stepCwAlloc b err = some s') : Inv g s' := by
  simp only [Sys.stepCwAlloc] at hs
  split at hs
  · next hpc =>
    cases hs
    have hb := (h.live hbug).bio b
    have hp := hb.pc
    have hat := hb.at_
    simp only [hpc] at hp hat
    by_cases herr : err = 0 <;> simp only [herr, if_true, if_false]
    all_goals
      refine .container (h.live hbug) h.blk hbug ?_ rfl ?_ hp
      · constructor <;> simp [hpc, mapRef, MapPc.late]
      · simpa [stage] using hat
  · cases hs

theorem Inv.stepCwLock (hs : s.stepCwLock g b = some s') : Inv g s' := by
  have hb := (h.live hbug).bio b
  simp only [Sys.stepCwLock] at hs
  split at hs
  · next k hpc =>
    have hp := hb.pc
    rw [hpc] at hp
    obtain ⟨hmain, hforced, huc, hdir, hmode⟩ := hp
    split at hs
    · next hk =>
      cases hs
      have hat := hb.at_ k hk
      simp only [hpc, stage, Nat.lt_irrefl, if_false] at hat
      obtain ⟨i, hi⟩ := hb.index (k := k) (by rcases hat.2 with hr | hr <;> simp [hr])
      simp only [hi]
      exact h.issued hbug hpc ⟨rfl, rfl⟩ ⟨rfl, rfl⟩ rfl hk hat.1 ⟨by simp, rfl⟩
        Sys.cachedWriteLock_frame (Sys.cachedWriteLock_spec hmode h.blk (hb.ebs k) hi hat)
        (fun hst => ⟨by rw [hst.1]; rfl, by simpa [stage] using hst⟩)
        (fun j hj => by simp only [stage, if_neg hj]) ⟨hmain, hforced, huc, hdir, hmode, hk⟩
    · next hk =>
      cases hs
      refine h.issuedAll hbug hpc ⟨rfl, rfl⟩ ⟨rfl, rfl⟩ (fun j hj _ _ hst => ?_) ?_
      · simpa [stage, mainStage, hmain, hdir, show j < k by omega] using hst
      · simp [PcOk, MainOk, hmain, hforced, huc, hmode]
  · cases hs

theorem Inv.stepCwSubmit {refused : Int}
    (hs : s.stepCwSubmit g b refused = some s') : Inv g s' := by
  have hb := (h.live hbug).bio b
  simp only [Sys.stepCwSubmit] at hs
  split at hs
  · next k hpc =>
    have hp := hb.pc
    rw [hpc] at hp
    obtain ⟨hmain, hforced, huc, hdir, hmode, hk⟩ := hp
    split at hs
    · cases hs
      have hat := hb.at_ k hk
      simp only [hpc, stage, Nat.lt_irrefl, if_false, if_true] at hat
      obtain ⟨i, hi⟩ := hb.index (k := k) (by rcases hat.2 with hr | hr <;> simp [hr])
      have hoth : ∀ j, j ≠ k →
          stage (s.req b).dir (s.bio b).uc (.cwLock (k + 1)) (s.bio b).main j =
            stage (s.req b).dir (s.bio b).uc (.cwSubmit k) (s.bio b).main j := by
        intro j hj
        simp only [stage, ite_lt_succ hj, if_neg hj]
      simp only [hi]
      by_cases href : refused = 0
      · simp only [href, if_true]
        exact h.issued hbug hpc ⟨rfl, rfl⟩ ⟨rfl, rfl⟩ rfl hk hat.1 ⟨by simp, rfl⟩
          Sys.cachedWriteAccept_frame (Sys.cachedWriteAccept_spec (hb.ebs k) hat)
          (fun hst => ⟨by rw [hst.1]; rfl, by simpa [stage] using .inl hst⟩) hoth
          ⟨hmain, hforced, huc, hdir, hmode⟩
      · simp only [href, if_false]
        exact h.issued hbug hpc ⟨rfl, rfl⟩ ⟨rfl, rfl⟩ rfl hk hat.1 ⟨by simp, rfl⟩
          (Sys.cachedWriteRefuse_frame _)
          (Sys.cachedWriteRefuse_spec refused h.blk (hb.ebs k) hi hat)
          (fun hst => by simp [stage, Stage.Ok, hst, EbSt.waiting]) hoth
          ⟨hmain, hforced, huc, hdir, hmode⟩
    · cases hs
  · cases hs

theorem Inv.stepCwFail (hs : s.stepCwFail g b = some s') : Inv g s' := by
  have hb := (h.live hbug).bio b
  simp only [Sys.stepCwFail] at hs
  split at hs
  · next k err hpc =>
    have hp := hb.pc
    rw [hpc] at hp
    obtain ⟨hmain, hforced, huc, hdir, hmode⟩ := hp
    split at hs
    · next hk =>
      cases hs
      have hat := hb.at_ k hk
      simp only [hpc, stage, Nat.lt_irrefl, if_false] at hat
      obtain ⟨i, hi⟩ := hb.index (k := k) (by rcases hat.2 with hr | hr <;> simp [hr])
      simp only [hi]
      exact h.issued hbug hpc ⟨rfl, rfl⟩ ⟨rfl, rfl⟩ rfl hk hat.1 ⟨by simp, rfl⟩ (Sys.giveUp_frame _)
        (Sys.giveUp_spec err h.blk (hb.ebs k) hi hat.1 (.inr hat.2))
        (fun hst => by simp [stage, Stage.Ok, hst, EbSt.waiting])
        (fun j hj => by simp only [stage, ite_lt_succ hj]) ⟨hmain, hforced, huc, hdir, hmode⟩
    · next hk =>
      cases hs
      refine h.issuedAll hbug hpc ⟨rfl, rfl⟩ ⟨rfl, rfl⟩ (fun j hj _ _ hst => ?_) ?_
      · simp only [stage, if_pos (show j < k by omega), Stage.Ok] at hst
        simp [stage, mainStage, hmain, hdir, Stage.Ok, hst]
      · simp [PcOk, MainOk, hmain, hforced, huc, hmode]
  · cases hs

/-! ## The end of `eio_map` -/

theorem Inv.stepDiskIo {refused : Int} (hs : s.stepDiskIo b refused = some s') : Inv g s' := by
  have hl := h.live hbug
  have hb := hl.bio b
  simp only [Sys.stepDiskIo] at hs
  split at hs
  · next hpc =>
    cases hs
    have hp := hb.pc
    rw [hpc] at hp
    obtain ⟨hmain, huc⟩ := hp
    refine .bio hl h.blk hbug ?_ (by simp [hpc]) rfl fun c hc => hl.cleaning c hc b
    generalize hm : (if refused = 0 then MainPc.inflight
      else .inval (s.req b).sector ((s.req b).nsect * 512) refused) = m
    have hm' : m = .inflight ∨ ∃ x y z, m = .inval x y z := by
      rw [← hm]
      split <;> simp
    have hhold := hb.hold
    simp only [hpc, hmain, mapRef, mainRef] at hhold
    constructor
    case ebs => exact hb.ebs
    case beyond => exact hb.beyond
    case at_ =>
      intro k hk
      have hat := hb.at_ k hk
      simp only [hpc, stage] at hat
      rcases hm' with rfl | ⟨x, y, z, rfl⟩ <;> exact hat
    case full => exact hb.full
    case pc => rcases hm' with rfl | ⟨x, y, z, rfl⟩ <;> exact huc
    case dir =>
      intro hd hf _
      rcases hb.dir hd hf (by simp [hpc]) with h1 | h1 | ⟨h1, h2, _⟩
      · exact .inl h1
      · exact .inr (.inl h1)
      · exact .inr (.inr ⟨h1, h2, rfl⟩)
    case iotype => exact fun _ => rfl
    case hold =>
      rcases hm' with rfl | ⟨x, y, z, rfl⟩ <;> simp only [mapRef, mainRef] <;> omega
    case notEnded => exact fun _ => hb.notEnded (by omega)
    case isEnded =>
      intro h0
      dsimp only at h0
      omega
    case locked =>
      intro hw _ he set hset
      rcases hb.locked hw (by simp [hpc]) he set hset with h1 | ⟨rest, h1, _⟩
      · exact .inl h1
      · simp [hpc] at h1
  · cases hs

end

/-- Giving back a set lock does not disturb the cleaner. -/
theorem Bio.put_locks (bc : Bio) (now set : Nat) (h : set ∉ bc.locks) :
    set ∉ (Bio.put g now bc).locks := by
  simp only [Bio.put]
  split
  · dsimp only
    split <;> simp [h]
  · exact h

theorem Bio.put_mdlist (bc : Bio) (now : Nat) : (Bio.put g now bc).mdlist = bc.mdlist := by
  simp only [Bio.put]
  split <;> rfl

theorem Bio.put_pc (bc : Bio) (now : Nat) : (Bio.put g now bc).pc = bc.pc := by
  simp only [Bio.put]
  split <;> rfl

theorem Bio.put_uc (bc : Bio) (now : Nat) : (Bio.put g now bc).uc = bc.uc := by
  simp only [Bio.put]
  split <;> rfl

theorem Bio.put_main (bc : Bio) (now : Nat) : (Bio.put g now bc).main = bc.main := by
  simp only [Bio.put]
  split <;> rfl

theorem Inv.stepPut (h : Inv g s) (hbug : s.bug = none) (hs : s.stepPut g b = some s') :
    Inv g s' := by
  have hl := h.live hbug
  have hb := hl.bio b
  simp only [Sys.stepPut] at hs
  split at hs
  · next hpc =>
    cases hs
    have hp := hb.pc
    rw [hpc] at hp
    rw [Sys.bcPut_eq, Sys.updBio_updBio]
    refine .bio hl h.blk hbug ?_ (by simp [hpc]) (Bio.put_mdlist _ _)
      fun c hc => Bio.put_locks _ _ _ (hl.cleaning c hc b)
    refine hb.put (d := 1) s.now ?_ (by simp) (by simp) hb.ebs hb.beyond (fun _ => .inl rfl) ?_ hp
    · constructor <;> simp [hpc, mapRef, MapPc.late]
      omega
    · intro k hk
      simpa only [hpc, stage] using hb.at_ k hk
  · cases hs

end
end EnhanceIO
