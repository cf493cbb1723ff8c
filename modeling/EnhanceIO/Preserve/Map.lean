import EnhanceIO.Live

/-!
# The steps of `eio_map` keep the invariant: up to the choice of the path

A bio arrives, takes its set locks, invalidates its range if it is forced to
the disk, peeks its blocks and is sent down one of the paths.
-/

namespace EnhanceIO

open State

section
variable {g : Geom} {s s' : Sys} {b : Nat}

/-! ## Where a bio enters -/

theorem openEbios_init (n : Nat) : openEbios n (fun _ => Ebio.init) = n := by
  simp [openEbios, Ebio.init]

namespace Sys

theorem enterPc_cases (g : Geom) (forced : Bool) (sector nsect : Nat) :
    (∃ snum iosize, enterPc g forced sector nsect = .inval snum iosize ∧ forced = true) ∨
      enterPc g forced sector nsect = .spin ∨
      (enterPc g forced sector nsect = .peek 0 ∧ forced = false) := by
  simp only [enterPc]
  split
  · next h => exact .inl ⟨_, _, rfl, h⟩
  · next h =>
    split
    · exact .inr (.inl rfl)
    · exact .inr (.inr ⟨rfl, by simpa using h⟩)

theorem stage_enterPc (dir : Dir) (uc forced : Bool) (sector nsect : Nat)
    (main : MainPc) (k : Nat) :
    stage dir uc (enterPc g forced sector nsect) main k = .fresh := by
  rcases enterPc_cases g forced sector nsect with ⟨_, _, h, _⟩ | h | ⟨h, _⟩ <;> rw [h] <;> rfl

theorem mapRef_enterPc (forced : Bool) (sector nsect : Nat) :
    mapRef (enterPc g forced sector nsect) = 1 := by
  rcases enterPc_cases g forced sector nsect with ⟨_, _, h, _⟩ | h | ⟨h, _⟩ <;> rw [h] <;> rfl

theorem pcOk_enterPc {r : Req} {bc : Bio} (hmain : bc.main = .none)
    (hwb : r.dir = .write → bc.uc = false → g.mode = .wb) (sector nsect : Nat) :
    PcOk g r bc (enterPc g r.forced sector nsect) := by
  rcases enterPc_cases g r.forced sector nsect with ⟨_, _, h, hf⟩ | h | ⟨h, hf⟩ <;> rw [h]
  · exact ⟨hmain, hf⟩
  · exact hmain
  · exact ⟨hmain, hf, hwb⟩

theorem newReq_ok (hdeg : g.mode = .wb → s.degraded = false) {dir : Dir} {sector nsect : Nat}
    (hdisk : sector + nsect ≤ g.diskSize) : ReqOk g (s.newReq g dir sector nsect) where
  disk := hdisk
  cut := rfl
  wb := fun hm => by simp [newReq, hm, hdeg hm]

theorem newBio_uc {r : Req} {keep : Bool} (hw : r.dir = .write)
    (huc : (s.newBio g r keep).uc = false) :
    g.mode = .wb := by
  simp only [newBio, hw, decide_true, Bool.true_and, Bool.or_eq_false_iff, decide_eq_false_iff_not,
    ne_eq, not_not] at huc
  exact huc.1

theorem newBio_pc (r : Req) (keep : Bool) :
    (g.mode = .wb ∧ (s.newBio g r keep).pc = .lock (g.lockSets r.sector r.nsect)) ∨
      (g.mode ≠ .wb ∧ (s.newBio g r keep).pc = enterPc g r.forced r.sector r.nsect) := by
  by_cases hm : g.mode = .wb <;> simp [newBio, hm]

theorem newBio_ok (r : Req) (keep : Bool) :
    BioOk g r (s.newBio g r keep) fun _ => Ebio.init := by
  have hpc := s.newBio_pc (g := g) r keep
  have hmain : (s.newBio g r keep).main = .none := rfl
  constructor
  · exact fun _ => EbOk.init
  · exact fun _ _ => rfl
  · intro k _
    have hst : stage r.dir (s.newBio g r keep).uc (s.newBio g r keep).pc
        (s.newBio g r keep).main k = .fresh := by
      rcases hpc with ⟨_, h⟩ | ⟨_, h⟩ <;> rw [h]
      · rfl
      · exact stage_enterPc ..
    rw [hst]
    exact ⟨rfl, rfl⟩
  · intro k seg _ hrole
    simp [Ebio.init] at hrole
  · rcases hpc with ⟨hm, h⟩ | ⟨_, h⟩ <;> rw [h]
    · exact ⟨hmain, hm⟩
    · exact pcOk_enterPc hmain newBio_uc _ _
  · intro hd hf _
    refine .inr (.inl ⟨?_, fun _ => .inl rfl⟩)
    simp [newBio, hd, hf]
  · exact fun h => absurd hmain h
  · have hmap : mapRef (s.newBio g r keep).pc = 1 := by
      rcases hpc with ⟨_, h⟩ | ⟨_, h⟩ <;> rw [h]
      · rfl
      · exact mapRef_enterPc ..
    rw [hmap, openEbios_init]
    simp [newBio, mainRef, Bio.absent]
  · exact fun _ => ⟨rfl, rfl⟩
  · intro h
    have hhold : (s.newBio g r keep).holdcount = 1 + r.segs.length := rfl
    omega
  · intro hm _ _ set hset
    rcases hpc with ⟨_, h⟩ | ⟨h, _⟩
    · exact .inr ⟨_, h, hset⟩
    · exact absurd hm h

end Sys

/-! ## Arrival -/

theorem BlkInv.arrive (h : BlkInv g s) (hc : s'.counts = s.counts) (heb : s'.ebio = s.ebio)
    (hreq : ∀ e, s.ebio e = Ebio.init ∨ s'.seg e = s.seg e) : BlkInv g s' := by
  have hmd : s'.md = s.md := congrArg Prod.fst hc
  have hst : ∀ i, s'.st g i = s.st g i := fun i => by simp only [Sys.st, hmd]
  have hdbn : ∀ i, s'.dbn g i = s.dbn g i := fun i => by simp only [Sys.dbn, hmd]
  constructor
  · intro i
    rw [hst]
    exact h.allowed i
  · intro e i f ho
    rw [heb] at ho
    rw [hst, hdbn]
    rcases hreq e with hi | hi
    · exact absurd (hi ▸ ho) (Ebio.not_owns_init i f)
    · rw [Sys.want, hi]
      exact h.owned ho
  · intro e e' i f f' ho ho'
    rw [heb] at ho ho'
    exact h.excl ho ho'
  · intro e i hu
    rw [heb] at hu
    rw [hst, hdbn]
    rcases hreq e with hi | hi
    · exact absurd (hi ▸ hu) (Ebio.not_uses_init i)
    · rw [Sys.want, hi]
      exact h.used hu
  · intro i hv
    rw [hst] at hv
    rw [hdbn]
    exact h.placed hv
  · intro hsize i j hv hv' hd
    rw [hst] at hv hv'
    rw [hdbn, hdbn] at hd
    exact h.uniq hsize hv hv' hd
  · intro i hr
    rw [hst] at hr
    rw [heb]
    exact h.held hr
  · intro i hcl
    simp only [Sys.counts, Prod.mk.injEq] at hc
    rw [hst] at hcl
    rw [hc.2.2.2.2.2]
    exact h.cleaned hcl
  · exact hmd ▸ h.zero
  · intro i
    rw [hdbn]
    exact h.onDisk i
  · exact h.tally.congr hc

theorem Live.ebio_absent (h : Live g s) {e : EbId} (hb : s.nbio ≤ e.1) : s.ebio e = Ebio.init := by
  have hpc := (h.bio e.1).pc
  rw [h.absent e.1 hb] at hpc
  exact (h.bio e.1).beyond e.2 (by simp [hpc.2, Req.absent])

/-- The driver with one more bio. -/
def Sys.arrive (s : Sys) (req : Req) (bc : Bio) : Sys :=
  { s with
    nbio := s.nbio + 1
    req := Function.update s.req s.nbio req
    bio := Function.update s.bio s.nbio bc }

theorem Live.seg_arrive (h : Live g s) (req : Req) (bc : Bio) (e : EbId) :
    s.ebio e = Ebio.init ∨ (s.arrive req bc).seg e = s.seg e := by
  by_cases he : e.1 = s.nbio
  · exact .inl (h.ebio_absent (Nat.le_of_eq he.symm))
  · right
    simp only [Sys.seg, Sys.arrive, Function.update_of_ne he]

theorem Bios.arrive (h : Live g s) {req : Req} {bc : Bio} (hreq : ReqOk g req)
    (hbio : BioOk g req bc fun _ => Ebio.init) (hlocks : bc.locks = []) :
    Bios g (s.arrive req bc) where
  req := fun b => by
    by_cases hb : b = s.nbio
    · subst hb
      simpa [Sys.arrive] using hreq
    · simpa [Sys.arrive, hb] using h.req b
  bio := fun b => by
    by_cases hb : b = s.nbio
    · subst hb
      have heb : (fun k => s.ebio (s.nbio, k)) = fun _ => Ebio.init := by
        funext k
        exact h.ebio_absent (Nat.le_refl _)
      simp only [Sys.arrive, Function.update_self, heb]
      exact hbio
    · simpa [Sys.arrive, hb] using h.bio b
  absent := fun b hb => by
    have hlt : s.nbio + 1 ≤ b := hb
    have hne : b ≠ s.nbio := by omega
    simpa [Sys.arrive, hne] using h.absent b (by omega)
  cleaning := fun c hc b => by
    by_cases hb : b = s.nbio
    · subst hb
      simp [Sys.arrive, hlocks]
    · simpa [Sys.arrive, hb] using h.cleaning c hc b
  degraded := h.degraded

theorem MdOk.arrive (h : Live g s) (req : Req) {bc : Bio} (hlist : bc.mdlist = []) :
    MdOk g (s.arrive req bc) := by
  have hset := h.seg_arrive req bc
  refine ⟨⟨?_, ?_, ?_, ?_, ?_, ?_, ?_⟩, ?_⟩
  · intro b k
    by_cases hb : b = s.nbio
    · subst hb
      simp [Sys.arrive, hlist, h.ebio_absent (e := (s.nbio, k)) (Nat.le_refl _), Ebio.init]
    · simpa [Sys.arrive, hb] using h.md.list b k
  · intro b
    by_cases hb : b = s.nbio
    · subst hb
      simp [Sys.arrive, hlist]
    · simpa [Sys.arrive, hb] using h.md.listNodup b
  · intro set e
    rcases hset e with hi | hi
    · have := h.md.pend set e
      simpa [Sys.arrive, Sys.pending, hi, Ebio.init] using this
    · rw [Sys.setOf, hi]
      exact h.md.pend set e
  · exact h.md.pendNodup
  · intro set e
    rcases hset e with hi | hi
    · have := h.md.prog set e
      simpa [Sys.arrive, Sys.inprog, hi, Ebio.init] using this
    · rw [Sys.setOf, hi]
      exact h.md.prog set e
  · exact h.md.progNodup
  · intro e hprog
    rcases hset e with hi | hi
    · have hinit : (s.ebio e).st = .mdProg := hprog
      simp [hi, Ebio.init] at hinit
    · rw [Sys.setOf, hi]
      exact h.md.inSet e hprog
  · exact h.md.reqs

theorem Inv.stepMap {dir : Dir} {sector nsect : Nat} {keep : Bool} (h : Inv g s)
    (hbug : s.bug = none) (hs : s.stepMap g dir sector nsect keep = some s') : Inv g s' := by
  have hl := h.live hbug
  simp only [Sys.stepMap] at hs
  obtain ⟨-, hs⟩ := Option.ite_none_left_eq_some.mp hs
  split at hs
  · next hguard =>
    cases hs
    refine .of_live (h.blk.arrive rfl rfl (hl.seg_arrive _ _)) hbug ⟨?_, ?_⟩
    · exact .arrive hl (Sys.newReq_ok hl.degraded hguard.2.1) (Sys.newBio_ok _ _) rfl
    · exact .arrive hl _ rfl
  · cases hs

/-! ## Set locks -/

theorem Inv.stepLock (h : Inv g s) (hbug : s.bug = none) (hs : s.stepLock g b = some s') :
    Inv g s' := by
  have hl := h.live hbug
  have hb := hl.bio b
  simp only [Sys.stepLock] at hs
  split at hs
  · next hpc =>
    cases hs
    have hp := hb.pc
    rw [hpc] at hp
    refine .container hl h.blk hbug ?_ rfl ?_ ?_
    · have hmap : mapRef (.lock []) = 1 := rfl
      constructor <;> simp [hpc, hp.1, Sys.mapRef_enterPc, hmap, MapPc.late]
    · intro k hk
      rw [Sys.stage_enterPc]
      have := hb.at_ k hk
      rwa [hpc] at this
    · exact Sys.pcOk_enterPc (by exact hp.1) (fun _ _ => hp.2) _ _
  · next set rest hpc =>
    split at hs
    · cases hs
    · next hclean =>
      cases hs
      have hp := hb.pc
      rw [hpc] at hp
      refine .bio hl h.blk hbug ?_ (by simp [hpc]) rfl ?_
      · refine ⟨hb.ebs, hb.beyond, ?_, hb.full, hp, ?_, hb.iotype, ?_, hb.notEnded, ?_, ?_⟩
        · intro k hk
          have := hb.at_ k hk
          rwa [hpc] at this
        · intro hd hf _
          have := hb.dir hd hf (by simp [hpc])
          simpa [hpc, MapPc.late] using this
        · have := hb.hold
          rwa [hpc] at this
        · intro h0 _
          exact hb.isEnded h0 (by simp [hpc])
        · intro hm _ he set' hset
          rcases hb.locked hm (by simp [hpc]) he set' hset with hmem | ⟨rest', hr, hmem⟩
          · exact .inl (List.mem_cons_of_mem _ hmem)
          · rw [hpc] at hr
            cases hr
            rcases List.mem_cons.mp hmem with rfl | hmem
            · exact .inl List.mem_cons_self
            · exact .inr ⟨rest, rfl, hmem⟩
      · intro c hc hmem
        rcases List.mem_cons.mp hmem with heq | hmem
        · simp [Sys.cleaning, hc, heq] at hclean
        · exact hl.cleaning c hc b hmem
  · cases hs

/-! ## Invalidation of a forced I/O -/

theorem Inv.stepInvalMap (h : Inv g s) (hbug : s.bug = none) (hs : s.stepInvalMap g b = some s') :
    Inv g s' := by
  have hl := h.live hbug
  have hb := hl.bio b
  simp only [Sys.stepInvalMap] at hs
  split at hs
  · next snum iosize hpc =>
    have hp := hb.pc
    rw [hpc] at hp
    have hnil : (s.req b).segs = [] := (hl.req b).segs_forced hp.2
    split at hs
    · cases hs
      refine .container hl h.blk hbug ?_ rfl (by simp [hnil]) ⟨hp.1, by simp [hp.2]⟩
      constructor <;> simp [hpc, hp.1, mapRef, MapPc.late]
    · cases hs
      refine .invals hl h.blk hbug (Sys.invalBlockSetRange_invals g s _ _ _ _) ?_ rfl
        (by simp [hnil]) hp
      constructor <;> simp [hpc, hp.1, mapRef, MapPc.late]
  · cases hs

/-! ## The peeks -/

theorem Sys.readPeeked_bio {e : EbId} {r : Sys × Bool} (h : ReadPeeked g s e r)
    (hfit : r ≠ (s.fail .dbnSet, false)) :
    Local s r.1 e ∧ ∃ dir, r.1.bio e.1 = { s.bio e.1 with bcDir := dir } ∧
      (dir = .uncachedReadAndReadfill ∨ dir = (s.bio e.1).bcDir ∧
        ((r.1.ebio e).role = .miss ∨ (r.1.ebio e).role = .hit)) := by
  have l := Local.refl s e
  cases h with
  | nofit => exact absurd rfl hfit
  | miss =>
    refine ⟨l.peekMiss 0, (s.bio e.1).bcDir, rfl, .inr ⟨rfl, .inl ?_⟩⟩
    simp [Sys.peekMiss]
  | @dirty i =>
    dsimp only
    refine ⟨((l.peekTake i .dirty).updEb _).updBio _, .uncachedReadAndReadfill, ?_, .inl rfl⟩
    simp [Sys.peekTake]
  | @hit i =>
    refine ⟨(l.setSt g i _).peekTake i .hit, (s.bio e.1).bcDir, rfl, .inr ⟨rfl, .inr ?_⟩⟩
    simp [Sys.peekTake]
  | @fill i c fresh =>
    dsimp only
    refine ⟨((l.recycle g i _ _ fresh).peekTake i .fill).updBio _, .uncachedReadAndReadfill, ?_,
      .inl rfl⟩
    cases fresh <;> simp [Sys.peekTake, Sys.recycle]

theorem Sys.countMdwait_bio {e : EbId} :
    Local s (s.countMdwait g e false) e ∧
      ∃ n, (s.countMdwait g e false).bio e.1 = { s.bio e.1 with mdwait := n } := by
  simp only [Sys.countMdwait]
  split
  · refine ⟨(Local.refl s e).updBio _, (s.bio e.1).mdwait + 1, ?_⟩
    simp
  · exact ⟨Local.refl s e, (s.bio e.1).mdwait, rfl⟩

theorem Sys.writePeeked_bio {e : EbId} {r : Sys × Bool} (h : WritePeeked g s e r)
    (hfit : r ≠ (s.fail .dbnSet, false)) :
    Local s r.1 e ∧ ∃ n, r.1.bio e.1 = { s.bio e.1 with mdwait := n } := by
  have l := Local.refl s e
  cases h with
  | nofit => exact absurd rfl hfit
  | miss => exact ⟨l.peekMiss _, (s.bio e.1).mdwait, rfl⟩
  | @dirty i => exact ⟨l.peekTake i .dirty, (s.bio e.1).mdwait, rfl⟩
  | @partly i => exact ⟨(l.setSt g i _).peekTake i .wr, (s.bio e.1).mdwait, rfl⟩
  | @whole i =>
    obtain ⟨hl, n, hn⟩ := ((s.setSt g i (valid ||| cacheWriteInprog)).peekTake e i
      .wr).countMdwait_bio (g := g) (e := e)
    exact ⟨((l.setSt g i _).peekTake i .wr).trans hl, n, hn⟩
  | @recycled i c fresh =>
    obtain ⟨hl, n, hn⟩ := ((s.recycle g i (valid ||| cacheWriteInprog) (s.seg e).sector
      fresh).peekTake e i .wr).countMdwait_bio (g := g) (e := e)
    refine ⟨((l.recycle g i _ _ fresh).peekTake i .wr).trans hl, n, hn.trans ?_⟩
    cases fresh <;> rfl

theorem peekStage_mono {dir : Dir} {uc uc' : Bool} {role : Role} {st : EbSt}
    (h : (peekStage dir uc).Ok role st) (huc : uc = true → uc' = true) :
    (peekStage dir uc').Ok role st := by
  cases dir <;> cases uc <;> cases uc' <;> simp_all [peekStage, Stage.Ok]
  all_goals rcases h.2 with hr | hr <;> simp [hr]

/-- The step of a peek, whichever it is. -/
theorem Inv.peeked {r : Sys × Bool} {k : Nat} {P : Role → EbSt → Prop} (h : Live g s)
    (hblk : BlkInv g s) (hbug : s.bug = none) (hpc : (s.bio b).pc = .peek k)
    (hk : k < (s.req b).segs.length) (hfresh : (s.ebio (b, k)).st = .new) (l : Local s r.1 (b, k))
    (hh : Handled g s r.1 (b, k) P)
    (hP : ∀ role st, P role st → (peekStage (s.req b).dir ((s.bio b).uc || !r.2)).Ok role st ∧
      (role = .fill ∨ (role = .wr ∧ r.2 = true) → (s.seg (b, k)).nsect = g.blockSize))
    {d : IoDir} {n : Int} (hbc : r.1.bio b = { s.bio b with bcDir := d, mdwait := n })
    (hdir : (s.req b).dir = .read → d = .uncachedReadAndReadfill ∨ d = (s.bio b).bcDir ∧
      ((r.1.ebio (b, k)).role = .miss ∨ (r.1.ebio (b, k)).role = .hit)) :
    Inv g (r.1.updBio b fun bc => { bc with pc := .peek (k + 1), uc := bc.uc || !r.2 }) := by
  have hb := h.bio b
  have hp := hb.pc
  rw [hpc] at hp
  have hne : ∀ j, j ≠ k → r.1.ebio (b, j) = s.ebio (b, j) := fun j hj =>
    l.ebio _ (by simpa using hj)
  have hst : ((peekStage (s.req b).dir ((s.bio b).uc || !r.2)).Ok (r.1.ebio (b, k)).role
      (r.1.ebio (b, k)).st) := (hP _ _ hh.at_).1
  have hpeeked : (r.1.ebio (b, k)).st = .peeked := by
    cases hd : (s.req b).dir <;> cases hu : ((s.bio b).uc || !r.2) <;> rw [hd, hu] at hst <;>
      exact hst.1
  have hnew : (r.1.updBio b fun bc => { bc with pc := .peek (k + 1), uc := bc.uc || !r.2 }).bio b =
      { s.bio b with
        bcDir := d, mdwait := n, pc := .peek (k + 1), uc := (s.bio b).uc || !r.2 } := by
    simp [hbc]
  have l' : Local s (r.1.updBio b fun bc => { bc with pc := .peek (k + 1), uc := bc.uc || !r.2 })
      (b, k) := l.updBio _
  refine .of_live ((hh.how.blk hblk).congr rfl rfl rfl) (hh.bug.trans hbug)
    (h.of_local l' ?_ (by simp [hpc]) (h.md.of_local l' ?_ ?_ ?_) ?_)
  · rw [hnew]
    change BioOk g (s.req b) _ fun j => r.1.ebio (b, j)
    refine ⟨?_, ?_, ?_, ?_, ?_, ?_, hb.iotype, ?_, hb.notEnded, ?_, ?_⟩
    · intro j
      by_cases hj : j = k
      · exact hj ▸ hh.ok
      · exact (hne j hj).symm ▸ hb.ebs j
    · intro j hj
      exact (hne j (by omega)).trans (hb.beyond j hj)
    · intro j hj
      by_cases hjk : j = k
      · subst hjk
        simpa [stage] using hst
      · have hold := hb.at_ j hj
        simp only [stage, hpc, hne j hjk] at hold ⊢
        by_cases hlt : j < k
        · rw [if_pos hlt] at hold
          rw [if_pos (by omega)]
          exact peekStage_mono hold (fun hu => by simp [hu])
        · rw [if_neg hlt] at hold
          rw [if_neg (by omega)]
          exact hold
    · intro j seg hj hfull
      by_cases hjk : j = k
      · subst hjk
        have hseg : s.seg (b, j) = seg := by simp [Sys.seg, hj]
        rw [← hseg]
        refine (hP _ _ hh.at_).2 ?_
        rcases hfull with hf | ⟨hf, hu⟩
        · exact .inl hf
        · exact .inr ⟨hf, by simpa using (Bool.or_eq_false_iff.mp hu).2⟩
      · simp only [hne j hjk] at hfull
        refine hb.full j seg hj ?_
        rcases hfull with hf | ⟨hf, hu⟩
        · exact .inl hf
        · exact .inr ⟨hf, (Bool.or_eq_false_iff.mp hu).1⟩
    · refine ⟨hp.1, hp.2.1, fun hw hu => hp.2.2 hw (Bool.or_eq_false_iff.mp hu).1⟩
    · intro hr hf _
      rcases hdir hr with hd | ⟨hd, hrole⟩
      · exact .inl hd
      · rcases hb.dir hr hf (by simp [hpc]) with h1 | ⟨h1, h2⟩ | ⟨_, _, h3⟩
        · exact .inl (hd.trans h1)
        · refine .inr (.inl ⟨hd.trans h1, fun j => ?_⟩)
          by_cases hjk : j = k
          · exact hjk ▸ hrole
          · simpa only [hne j hjk] using h2 j
        · rw [hpc] at h3
          cases h3
    · have hopen : openEbios (s.req b).segs.length (fun j => r.1.ebio (b, j)) =
          openEbios (s.req b).segs.length (fun j => s.ebio (b, j)) := by
        refine openEbios_congr fun j => ?_
        by_cases hjk : j = k
        · exact hjk ▸ hh.ended
        · rw [hne j hjk]
      have hold := hb.hold
      rw [hpc] at hold
      simpa [hopen, mapRef] using hold
    · intro h0 _
      exact hb.isEnded h0 (by simp [hpc])
    · intro hm _ he set hset
      rcases hb.locked hm (by simp [hpc]) he set hset with hmem | ⟨_, hr, _⟩
      · exact .inl hmem
      · rw [hpc] at hr
        cases hr
  · rw [hnew]
  · rw [hfresh]
    rfl
  · simp [hpeeked, EbSt.waiting]
  · rw [hnew]
    exact fun c hc => h.cleaning c hc b

theorem Inv.stepPeek {victim : Option Nat} (h : Inv g s) (hbug : s.bug = none)
    (hs : s.stepPeek g b victim = some s') : Inv g s' := by
  have hlive := h.live hbug
  have hb := hlive.bio b
  simp only [Sys.stepPeek] at hs
  split at hs
  · next k hpc =>
    split at hs
    · next hguard =>
      cases hs
      obtain ⟨hk, hvictim⟩ := hguard
      have hseg : SegOk g (s.seg (b, k)) := by
        have hget : (s.req b).segs[k]? = some (s.seg (b, k)) := by
          simp [Sys.seg, List.getElem?_eq_getElem hk]
        exact (hlive.req b).segOk hget
      have hat := hb.at_ k hk
      simp only [hpc, stage, Nat.lt_irrefl, if_false] at hat
      cases hdir : (s.req b).dir with
      | read =>
        have hr := Sys.readPeek_spec h.blk hvictim
        by_cases hfit : s.readPeek g (b, k) victim = (s.fail .dbnSet, false)
        · change Inv g ((s.readPeek g (b, k) victim).1.updBio b _)
          rw [hfit]
          exact .of_fail_updBio h.blk rfl
        have hh := hr.handled hfit h.blk hseg (hb.ebs k) hat
        obtain ⟨l, d, hbc, hd⟩ := Sys.readPeeked_bio hr hfit
        change Inv g ((s.readPeek g (b, k) victim).1.updBio b _)
        refine .peeked (n := (s.bio b).mdwait) hlive h.blk hbug hpc hk hat.2 l hh ?_ hbc
          (fun _ => hd)
        rintro role st ⟨h1, h2, h3⟩
        refine ⟨?_, ?_⟩
        · rw [hdir]
          cases hu : ((s.bio b).uc || !(s.readPeek g (b, k) victim).2) with
          | true => exact h1
          | false => exact h2 (by simpa using (Bool.or_eq_false_iff.mp hu).2)
        · rintro (hf | ⟨hf, _⟩)
          · exact h3 hf
          · exact absurd hf h1.2
      | write =>
        have hr := Sys.writePeek_spec h.blk hvictim
        by_cases hfit : s.writePeek g (b, k) victim = (s.fail .dbnSet, false)
        · change Inv g ((s.writePeek g (b, k) victim).1.updBio b _)
          rw [hfit]
          exact .of_fail_updBio h.blk rfl
        have hh := hr.handled hfit h.blk hseg (hb.ebs k) hat
        obtain ⟨l, n, hbc⟩ := Sys.writePeeked_bio hr hfit
        change Inv g ((s.writePeek g (b, k) victim).1.updBio b _)
        refine .peeked (d := (s.bio b).bcDir) hlive h.blk hbug hpc hk hat.2 l hh ?_ hbc
          (fun hread => by simp [hdir] at hread)
        rintro role st ⟨h1, h2, h3⟩
        refine ⟨?_, ?_⟩
        · rw [hdir]
          cases hu : ((s.bio b).uc || !(s.writePeek g (b, k) victim).2) with
          | true => exact h1
          | false => exact h2 (by simpa using (Bool.or_eq_false_iff.mp hu).2)
        · rintro (hf | ⟨hf, hret⟩)
          · simp [Stage.Ok, hf] at h1
          · exact h3 hf hret
    · cases hs
  · cases hs

/-! ## The choice of the path -/

theorem stage_peeked (dir : Dir) (uc : Bool) (main : MainPc) {k n : Nat} (hk : k < n) :
    stage dir uc (.peek n) main k = peekStage dir uc := by
  simp [stage, hk]

/-- `eio_map` leaves the peeks for a path. -/
theorem BioOk.dispatch {r : Req} {bc : Bio} {eb : Nat → Ebio} {d : IoDir} {n : Int} {pc : MapPc}
    (h : BioOk g r bc eb) (hpc : bc.pc = .peek r.segs.length) (href : mapRef pc = 1)
    (hat : ∀ {role st}, (peekStage r.dir bc.uc).Ok role st →
      ∀ k, (stage r.dir bc.uc pc bc.main k).Ok role st)
    (hok : PcOk g r { bc with mdwait := n, bcDir := d, pc := pc } pc)
    (hdir : DirOk r { bc with mdwait := n, bcDir := d, pc := pc } eb) :
    BioOk g r { bc with mdwait := n, bcDir := d, pc := pc } eb where
  ebs := h.ebs
  beyond := h.beyond
  at_ := fun k hk => by
    have hold := h.at_ k hk
    rw [hpc, stage_peeked _ _ _ hk] at hold
    exact hat hold k
  full := h.full
  pc := hok
  dir := hdir
  iotype := h.iotype
  hold := by
    have hold := h.hold
    rw [hpc] at hold
    rw [href]
    exact hold
  notEnded := h.notEnded
  isEnded := fun h0 _ => h.isEnded h0 (by simp [hpc])
  locked := fun hm _ he set hset => by
    rcases h.locked hm (by simp [hpc]) he set hset with hmem | ⟨_, hr, _⟩
    · exact .inl hmem
    · rw [hpc] at hr
      cases hr

theorem dispatchBio_ok {r : Req} {bc : Bio} {eb : Nat → Ebio} (h : BioOk g r bc eb)
    (hpc : bc.pc = .peek r.segs.length) : BioOk g r (Sys.dispatchBio r.dir bc) eb := by
  have hp := h.pc
  rw [hpc] at hp
  obtain ⟨hmain, hforced, hwb⟩ := hp
  unfold Sys.dispatchBio
  split
  · next hd hu =>
    refine h.dispatch hpc rfl (fun hst k => ?_) ⟨hmain, fun _ => hu⟩ fun _ hf _ => ?_
    · simpa [stage, peekStage, openStage, hd, hu] using hst
    · simpa [hpc, hu, MapPc.late] using h.dir hd hf (by simp [hpc])
  · next hd hu =>
    exact h.dispatch hpc rfl (fun hst k => by simpa [stage, peekStage, hd, hu] using hst)
      ⟨hmain, hforced, hu, hd⟩ fun _ _ _ => .inr (.inr ⟨rfl, hu, rfl⟩)
  · next hd hu =>
    exact h.dispatch hpc rfl (fun hst k => by simpa [stage, peekStage, hd, hu] using hst)
      ⟨hmain, hu, hd⟩ fun hr => by simp [hd] at hr
  · next hd hu =>
    split <;>
      exact h.dispatch hpc rfl (fun hst k => by simpa [stage, peekStage, hd, hu] using hst)
        ⟨hmain, hforced, hu, hd, hwb hd hu⟩ fun hr => by simp [hd] at hr

theorem Inv.stepDispatch (h : Inv g s) (hbug : s.bug = none) (hs : s.stepDispatch b = some s') :
    Inv g s' := by
  have hl := h.live hbug
  simp only [Sys.stepDispatch] at hs
  split at hs
  · next hpc =>
    cases hs
    have hkeep : ∀ (dir : Dir) (bc : Bio), (Sys.dispatchBio dir bc).mdlist = bc.mdlist ∧
        (Sys.dispatchBio dir bc).locks = bc.locks := by
      intro dir bc
      cases dir <;> cases hu : bc.uc <;> simp [Sys.dispatchBio, hu]
    refine .bio hl h.blk hbug (dispatchBio_ok (hl.bio b) hpc) (by simp [hpc]) (hkeep _ _).1 ?_
    rw [(hkeep _ _).2]
    exact fun c hc => hl.cleaning c hc b
  · cases hs

end
end EnhanceIO
