import EnhanceIO.Lib.Run
import EnhanceIO.Preserve.Ssd
import Mathlib.Data.List.TakeWhile

/-!
# Metadata updates keep the invariant

`eio_enq_mdupdate`, `eio_do_mdupdate` and `eio_post_mdupdate` go through lists
of ebios that wait for the metadata of their set. The loops are folds; their
invariants say on which list the ebios still to come are counted.
-/

namespace EnhanceIO

open State Sys

section
variable {g : Geom} {s s' : Sys} {e : EbId} {b set : Nat}

/-! ## Ebios that wait -/

theorem Stage.Ok.waiting {σ : Stage} {r : Role} {st : EbSt} (h : σ.Ok r st)
    (hst : st.waiting = true) : σ = .cwOpen ∧ r = .wr := by
  cases σ <;> cases st <;> simp_all [Stage.Ok, EbSt.waiting]

/-- A waiting ebio holds its block in `DIRTY_INPROG`. -/
theorem Bios.waiting (h : Bios g s) (hst : (s.ebio e).st.waiting = true) :
    (s.ebio e).role = .wr ∧ ∃ i, (s.ebio e).Owns i dirtyInprog := by
  have hnew : (s.ebio e).st ≠ .new := by
    intro hn
    rw [hn] at hst
    cases hst
  have hb := h.bio e.1
  have hr := ((hb.at_ e.2 (hb.started (k := e.2) hnew).1).waiting hst).2
  obtain ⟨i, hi, _⟩ := (hb.ebs e.2).index_of_ne_miss (by simp [hr])
  refine ⟨hr, i, hi, ?_⟩
  rw [hr]
  cases hcase : (s.ebio e).st <;> rw [hcase] at hst
  case mdList | mdPend | mdProg => rfl
  all_goals cases hst

theorem holds_waiting {st : EbSt} (h : st.waiting = true) : holds .wr st = some dirtyInprog := by
  cases st
  case mdList | mdPend | mdProg => rfl
  all_goals cases h

/-- A waiting ebio moves on to another list. -/
theorem Handled.wait {i : Nat} {st : EbSt} (hok : EbOk (s.ebio e)) (hr : (s.ebio e).role = .wr)
    (ho : (s.ebio e).Owns i dirtyInprog) (hw : (s.ebio e).st.waiting = true)
    (hst : st.waiting = true) :
    Handled g s (s.updEb e fun eb => { eb with st := st }) e fun r st' => r = .wr ∧ st' = st := by
  have hne : (s.ebio e).st ≠ .done := by
    intro hd
    rw [hd] at hw
    cases hw
  have hexp : ∀ st', st'.waiting = true → holdsExpected .wr st' = 1 := by
    intro st' h
    cases st' <;> rfl
  refine .keep ho ⟨ho.1, ?_⟩ ?_
  · show holds (s.ebio e).role st = some dirtyInprog
    rw [hr, holds_waiting hst]
  · refine hok.go hne ⟨hr, rfl⟩ ?_ rfl rfl hok.inval ?_ ?_ rfl rfl
    · constructor <;> rintro rfl <;> cases hst
    · rintro rfl
      cases hst
    · show (s.ebio e).holdcount = _
      rw [hok.hold hne, hr, hexp _ hw, hexp _ hst]

theorem Bios.wait (h : Bios g s) (st : EbSt) (hw : (s.ebio e).st.waiting = true)
    (hst : st.waiting = true) : Bios g (s.updEb e fun eb => { eb with st := st }) := by
  obtain ⟨hr, i, ho⟩ := h.waiting hw
  rw [← updBio_id (s.updEb e fun eb => { eb with st := st }) e.1]
  refine h.ebio ((Local.refl s e).updEb _) rfl
    (Handled.wait ((h.bio e.1).ebs e.2) hr ho hw hst) rfl ?_ ?_
  · intro hn
    rw [hn] at hw
    cases hw
  · rintro σ hσ r st' ⟨rfl, rfl⟩
    obtain ⟨rfl, _⟩ := hσ.waiting hw
    cases st'
    case mdList | mdPend | mdProg => simp [Stage.Ok]
    all_goals cases hst

theorem Bios.congr (h : Bios g s) (hreq : s'.req = s.req) (hbio : s'.bio = s.bio)
    (heb : s'.ebio = s.ebio) (hnbio : s'.nbio = s.nbio) (hclean : s'.clean = s.clean)
    (hdeg : s'.degraded = s.degraded) : Bios g s' where
  req := by rw [hreq]; exact h.req
  bio := by rw [hreq, hbio, heb]; exact h.bio
  absent := by rw [hnbio, hbio]; exact h.absent
  cleaning := by rw [hclean, hbio]; exact h.cleaning
  degraded := by rw [hdeg]; exact h.degraded

theorem BioOk.aside {r : Req} {bc bc' : Bio} {eb : Nat → Ebio} (h : BioOk g r bc eb)
    (ha : bc.Aside bc') (hpc : bc.pc ≠ .absent) : BioOk g r bc' eb := by
  rw [ha]
  exact ⟨h.ebs, h.beyond, h.at_, h.full, h.pc.congr hpc rfl rfl rfl, h.dir, h.iotype, h.hold,
    h.notEnded, h.isEnded, h.locked⟩

theorem Bios.aside {fb : Bio → Bio} (h : Bios g s) (ha : (s.bio b).Aside (fb (s.bio b)))
    (hpc : (s.bio b).pc ≠ .absent) : Bios g (s.updBio b fb) := by
  have hbc : (s.updBio b fb).bio b = fb (s.bio b) := by simp
  refine h.of_local ((Local.refl s (b, 0)).updBio fb) ?_ hpc ?_
  · rw [hbc]
    exact (h.bio b).aside ha hpc
  · rw [hbc, ha]
    exact fun c hc => h.cleaning c hc b

/-! ## `eio_enq_mdupdate` -/

/-- No assertion on the flags of a block has failed. -/
def Sys.Safe (s : Sys) : Prop := ∀ x, s.bug = some x → x.excluded = false

/-- In the loop of `eio_enq_mdupdate`: `l` are the ebios of the set still to be
handled, `rest` is what stays on `bc_mdlist`. -/
structure EnqLoop (g : Geom) (b set : Nat) (rest : List Nat) (l : List EbId) (s : Sys) : Prop where
  blk : BlkInv g s
  safe : s.Safe
  todo : ∀ e ∈ l, e.1 = b ∧ s.setOf g e = set ∧ (s.ebio e).role = .wr ∧ (s.ebio e).st = .mdList ∧
    ∃ i, (s.ebio e).Owns i dirtyInprog
  nodup : l.Nodup
  mdlist : (s.bio b).mdlist = rest
  bios : s.bug = none → Bios g s
  lists : s.bug = none → MdLists g s
    (Function.update (fun b => (s.bio b).mdlist) b (l.map Prod.snd ++ rest)) s.pending s.inprog
  reqs : s.bug = none → ∀ set r, s.mdreq set = some r → r.Ok

/-- The ebio at the head of the loop joins `pending_mdlist`. -/
theorem MdLists.enq {ls : Nat → List Nat} {ps qs : Nat → List EbId} {t : List Nat}
    (h : MdLists g s (Function.update ls e.1 (e.2 :: t)) ps qs) :
    MdLists g (s.updEb e fun eb => { eb with st := .mdPend }) (Function.update ls e.1 t)
      (Function.update ps (s.setOf g e) (e :: ps (s.setOf g e))) qs := by
  have hst : (s.ebio e).st = .mdList := (h.list e.1 e.2).mp (by simp)
  have hnodup : e.2 ∉ t ∧ t.Nodup := by simpa using h.listNodup e.1
  have hnp : ∀ set, e ∉ ps set := by
    intro set hmem
    have := ((h.pend set e).mp hmem).1
    simp [hst] at this
  have hnq : ∀ set, e ∉ qs set := by
    intro set hmem
    have := ((h.prog set e).mp hmem).1
    simp [hst] at this
  refine h.move ?_ ?_ ?_ ?_ ?_ h.progNodup (by simp)
  · intro b k
    by_cases hb : b = e.1
    · subst hb
      by_cases hk : k = e.2
      · subst hk
        simp [hnodup.1]
      · have hne : (e.1, k) ≠ e := fun he => hk (by rw [← he])
        simp [hk, hne]
    · have hne : (b, k) ≠ e := fun he => hb (by rw [← he])
      simp [hb, hne]
  · intro set e'
    by_cases hset : set = s.setOf g e
    · subst hset
      by_cases he : e' = e <;> simp [he]
    · by_cases he : e' = e
      · subst he
        simp [hset, hnp, Ne.symm hset]
      · simp [hset, he]
  · intro set e'
    by_cases he : e' = e
    · subst he
      simp [hnq]
    · simp [he]
  · intro b
    by_cases hb : b = e.1
    · subst hb
      simpa using hnodup.2
    · simpa [hb] using h.listNodup b
  · intro set
    by_cases hset : set = s.setOf g e
    · subst hset
      simpa [hnp] using h.pendNodup (s.setOf g e)
    · simpa [hset] using h.pendNodup set

/-- The metadata update of a set with one more ebio waiting for it. -/
theorem Sys.pending_enq (r : MdReq) (hr : s'.mdreq = Function.update s.mdreq set (some r))
    (hp : r.pending = e :: s.pending set) (hq : r.inprog = s.inprog set) :
    s'.pending = Function.update s.pending set (e :: s.pending set) ∧ s'.inprog = s.inprog := by
  constructor
  · funext set'
    by_cases h : set' = set
    · subst h
      simp [pending, hr] at hp ⊢
      exact hp
    · simp [pending, hr, h]
  · funext set'
    by_cases h : set' = set
    · subst h
      simp [inprog, hr] at hq ⊢
      exact hq
    · simp [inprog, hr, h]

theorem EnqLoop.next {rest : List Nat} {l : List EbId} (h : EnqLoop g b set rest (e :: l) s)
    (hmd : s'.counts = s.counts) (hreq : s'.req = s.req)
    (heb : s'.ebio = (s.updEb e fun eb => { eb with st := .mdPend }).ebio)
    (hlist : ∀ b, (s'.bio b).mdlist = (s.bio b).mdlist) (hsafe : s'.Safe)
    (hok : s'.bug = none → s.bug = none ∧ Bios g s' ∧ ∃ r,
      s'.mdreq = Function.update s.mdreq set (some r) ∧ r.pending = e :: s.pending set ∧
        r.inprog = s.inprog set ∧ (r.phase = .queued → r.inprog = [])) :
    EnqLoop g b set rest l s' := by
  obtain ⟨heb1, hset, hr, hst, i, ho⟩ := h.todo e (by simp)
  have hnodup := List.nodup_cons.mp h.nodup
  have hseg : ∀ e', s'.setOf g e' = s.setOf g e' := by
    intro e'
    simp only [Sys.setOf, Sys.seg, hreq]
  constructor
  case blk =>
    refine BlkInv.congr (s := s.updEb e fun eb => { eb with st := .mdPend }) ?_ hmd heb hreq
    refine Handover.blk (.keep (i := i) ((Near.refl g s e i).updEb _) rfl rfl ho ⟨?_, ?_⟩) h.blk
    · simpa using ho.1
    · simp [hr, holds]
  case safe => exact hsafe
  case todo =>
    intro e' he'
    have hne : e' ≠ e := fun hcon => hnodup.1 (hcon ▸ he')
    rw [hseg, heb]
    simpa [hne] using h.todo e' (List.mem_cons_of_mem _ he')
  case nodup => exact hnodup.2
  case mdlist => rw [hlist, h.mdlist]
  case bios => exact fun hb => (hok hb).2.1
  case lists =>
    intro hb
    obtain ⟨hb₀, _, r, hm, hp, hq, _⟩ := hok hb
    obtain ⟨hpend, hprog⟩ := pending_enq r hm hp hq
    have hl := h.lists hb₀
    simp only [List.map_cons, List.cons_append] at hl
    rw [← heb1] at hl ⊢
    have hl' := hl.enq
    rw [hset] at hl'
    rw [hpend, hprog]
    simp only [hlist]
    exact ⟨heb ▸ hl'.list, hl'.listNodup, fun set' e' => by rw [hseg, heb]; exact hl'.pend set' e',
      hl'.pendNodup, fun set' e' => by rw [hseg, heb]; exact hl'.prog set' e', hl'.progNodup,
      fun e' => by rw [hseg, heb]; exact hl'.inSet e'⟩
  case reqs =>
    intro hb set' r' hr'
    obtain ⟨hb₀, _, r, hm, hp, _, hq⟩ := hok hb
    rw [hm] at hr'
    by_cases hs : set' = set
    · subst hs
      simp only [Function.update_self, Option.some.injEq] at hr'
      subst hr'
      exact ⟨hq, .inl (by simp [hp])⟩
    · rw [Function.update_of_ne hs] at hr'
      exact h.reqs hb₀ set' r' hr'

theorem EnqLoop.step {rest : List Nat} {l : List EbId} (h : EnqLoop g b set rest (e :: l) s) :
    EnqLoop g b set rest l (Sys.enqOne set s e) := by
  obtain ⟨_, _, _, hst, _⟩ := h.todo e (by simp)
  have hw : (s.ebio e).st.waiting = true := by rw [hst]; rfl
  have hbios := fun hb => (h.bios hb).wait .mdPend hw rfl
  simp only [enqOne, updEb_mdreq]
  split
  · next r hr =>
    have hr' : s.mdreq set = some r := hr
    refine h.next rfl rfl rfl (fun _ => rfl) h.safe fun hb =>
      ⟨hb, (hbios hb).congr rfl rfl rfl rfl rfl rfl, { r with pending := e :: r.pending },
       ?_, ?_, ?_, ?_⟩
    · show Function.update s.mdreq set ((s.mdreq set).map _) = _
      rw [hr']
      rfl
    · simp [pending, hr']
    · simp [inprog, hr']
    · exact (h.reqs hb set r hr').queued
  · next hr =>
    have hr' : s.mdreq set = none := hr
    split
    · refine h.next rfl rfl rfl (fun _ => rfl) ?_ (fun hb => by simp at hb)
      intro x hx
      obtain rfl : Bug.enqMdupdate = x := by simpa using hx
      rfl
    · refine h.next rfl rfl rfl ?_ h.safe fun hb =>
        ⟨hb, ?_, { MdReq.init with pending := [e] }, rfl, ?_, ?_, fun _ => rfl⟩
      · intro b'
        by_cases hb' : b' = e.1 <;> simp [hb']
      · have hnew : (s.ebio e).st ≠ .new := by simp [hst]
        have hpc := (((h.bios hb).bio e.1).started (k := e.2) hnew).2.1
        have hbc : Bios g ((s.updEb e fun eb => { eb with st := .mdPend }).updBio e.1 fun bc =>
            { bc with mdreqs := bc.mdreqs - 1 }) := (hbios hb).aside rfl hpc
        exact hbc.congr rfl rfl rfl rfl rfl rfl
      · simp [pending, hr']
      · simp [inprog, hr', MdReq.init]

theorem EnqLoop.inv {rest : List Nat} (h : EnqLoop g b set rest [] s) : Inv g s := by
  refine ⟨h.blk, h.safe, fun hb => ⟨h.bios hb, ?_, h.reqs hb⟩⟩
  have hl := h.lists hb
  rwa [List.map_nil, List.nil_append, ← h.mdlist, Function.update_eq_self] at hl

/-- The ebios of the first set leave `bc_mdlist` together. -/
theorem Inv.enqGroup {group rest : List Nat} {fb : Bio → Bio} (h : Inv g s) (hbug : s.bug = none)
    (hpc : (s.bio b).pc ≠ .absent) (happ : group ++ rest = (s.bio b).mdlist)
    (hset : ∀ j ∈ group, s.setOf g (b, j) = set) (ha : (s.bio b).Aside (fb (s.bio b)))
    (hrest : (fb (s.bio b)).mdlist = rest) :
    Inv g ((group.map fun j => (b, j)).foldl (Sys.enqOne set) (s.updBio b fb)) := by
  have hl := h.live hbug
  have hst : ∀ j ∈ group, (s.ebio (b, j)).st = .mdList := by
    intro j hj
    refine (hl.md.list b j).mp ?_
    rw [← happ]
    exact List.mem_append_left _ hj
  have hsnd : (group.map fun j => (b, j)).map Prod.snd = group := by
    simp [Function.comp_def]
  refine EnqLoop.inv (b := b) (Run.foldl_rest (fun l s' => EnqLoop g b set rest l s')
    (fun e l s' hloop => hloop.step) ?_)
  constructor
  case blk => exact h.blk.congr rfl rfl rfl
  case safe => exact h.bug
  case todo =>
    intro e he
    obtain ⟨j, hj, rfl⟩ := List.mem_map.mp he
    obtain ⟨hr, ho⟩ := hl.toBios.waiting (e := (b, j)) (by rw [hst j hj]; rfl)
    exact ⟨rfl, hset j hj, hr, hst j hj, ho⟩
  case nodup =>
    have hnodup := hl.md.listNodup b
    rw [← happ] at hnodup
    exact (List.nodup_append.mp hnodup).1.map (Prod.mk_right_injective b)
  case mdlist => simpa using hrest
  case bios => exact fun _ => hl.toBios.aside ha hpc
  case lists =>
    intro _
    have hsame : Function.update (fun b' => ((s.updBio b fb).bio b').mdlist) b (group ++ rest) =
        fun b' => (s.bio b').mdlist := by
      funext b'
      by_cases hb : b' = b
      · subst hb
        simp [happ]
      · simp [hb]
    rw [hsnd, hsame]
    exact ⟨hl.md.list, hl.md.listNodup, hl.md.pend, hl.md.pendNodup, hl.md.prog, hl.md.progNodup,
      hl.md.inSet⟩
  case reqs => exact fun _ => hl.md.reqs

theorem Inv.stepEnqMd (h : Inv g s) (hbug : s.bug = none) (hs : s.stepEnqMd g b = some s') :
    Inv g s' := by
  have hl := h.live hbug
  simp only [Sys.stepEnqMd] at hs
  split at hs
  · next henq =>
    cases hs
    have hpc : (s.bio b).pc ≠ .absent := by
      intro hpc
      have hp := (hl.bio b).pc
      rw [hpc] at hp
      rw [hp.1] at henq
      cases henq
    simp only [enqMdupdate]
    split
    · exact .bio hl h.blk hbug ((hl.bio b).aside rfl hpc) hpc rfl fun c hc => hl.cleaning c hc b
    · refine h.enqGroup hbug hpc (List.prefix_iff_eq_append.mp (List.takeWhile_prefix _)) ?_ rfl rfl
      intro j hj
      have := List.mem_takeWhile_imp hj
      exact of_decide_eq_true this
  · cases hs

/-! ## `eio_do_mdupdate` -/

/-- The ebio at the head of the loop joins `inprog_mdlist`. -/
theorem MdLists.start {ls : Nat → List Nat} {ps qs : Nat → List EbId} {t done : List EbId}
    (h : MdLists g s ls (Function.update ps set (e :: t)) (Function.update qs set done))
    (hin : (s.ebio e).index.getD 0 / g.assoc = set) :
    MdLists g (s.updEb e fun eb => { eb with st := .mdProg }) ls (Function.update ps set t)
      (Function.update qs set (done ++ [e])) := by
  obtain ⟨hst, hset⟩ := (h.pend set e).mp (by simp)
  have hnodup : e ∉ t ∧ t.Nodup := by simpa using h.pendNodup set
  have hnl : ∀ b k, (b, k) = e → k ∉ ls b := by
    rintro b k rfl hmem
    have := (h.list b k).mp hmem
    simp [hst] at this
  have hnp : ∀ set', set' ≠ set → e ∉ ps set' := by
    intro set' hne hmem
    have := ((h.pend set' e).mp (by simpa [hne] using hmem)).2
    exact hne (this.symm.trans hset)
  have hnq : ∀ set', e ∉ Function.update qs set done set' := by
    intro set' hmem
    have := ((h.prog set' e).mp hmem).1
    simp [hst] at this
  have hdone : e ∉ done := by simpa using hnq set
  refine h.move ?_ ?_ ?_ h.listNodup ?_ ?_ fun _ => hin.trans hset.symm
  · intro b k
    by_cases he : (b, k) = e
    · simp [he, hnl b k he]
    · simp [he]
  · intro set' e'
    by_cases hs : set' = set
    · subst hs
      by_cases he : e' = e <;> simp [he, hnodup.1]
    · by_cases he : e' = e
      · subst he
        simp [hs, hnp set' hs]
      · simp [hs, he]
  · intro set' e'
    by_cases hs : set' = set
    · subst hs
      by_cases he : e' = e <;> simp [he, hset]
    · by_cases he : e' = e
      · subst he
        have := hnq set'
        simpa [hs, hset, Ne.symm hs] using this
      · simp [hs, he]
  · intro set'
    by_cases hs : set' = set
    · subst hs
      simpa using hnodup.2
    · simpa [hs] using h.pendNodup set'
  · intro set'
    by_cases hs : set' = set
    · subst hs
      have hd : done.Nodup := by simpa using h.progNodup set'
      simpa using List.Nodup.concat hdone hd
    · simpa [hs] using h.progNodup set'

/-- In the loop of `eio_do_mdupdate`: `l` are the ebios still to be taken over. -/
structure StartLoop (g : Geom) (s₀ : Sys) (set : Nat) (pending l : List EbId) (s : Sys) : Prop where
  frame : s = { s₀ with ebio := s.ebio }
  blk : BlkInv g s
  bios : Bios g s
  lists : ∃ done, done ++ l = pending ∧ MdLists g s (fun b => (s₀.bio b).mdlist)
    (Function.update s₀.pending set l) (Function.update s₀.inprog set done)
  inSet : ∀ e ∈ l, (s.ebio e).index.getD 0 / g.assoc = set

theorem StartLoop.step {s₀ : Sys} {pending l : List EbId}
    (h : StartLoop g s₀ set pending (e :: l) s) :
    StartLoop g s₀ set pending l (s.updEb e fun eb => { eb with st := .mdProg }) := by
  obtain ⟨done, happ, hl⟩ := h.lists
  have hst : (s.ebio e).st = .mdPend := ((hl.pend set e).mp (by simp)).1
  have hw : (s.ebio e).st.waiting = true := by rw [hst]; rfl
  obtain ⟨hr, i, ho⟩ := h.bios.waiting hw
  refine ⟨?_, ?_, h.bios.wait .mdProg hw rfl,
    ⟨done ++ [e], by simp [happ], hl.start (h.inSet e (by simp))⟩, ?_⟩
  · rw [h.frame]
    rfl
  · exact (Handled.wait ((h.bios.bio e.1).ebs e.2) hr ho hw rfl).how.blk h.blk
  · intro e' he'
    have hin := h.inSet e' (List.mem_cons_of_mem _ he')
    by_cases he : e' = e
    · subst he
      simpa using hin
    · simpa [he] using hin

theorem Sys.updMd_pending (s : Sys) (set : Nat) (f : MdReq → MdReq) :
    (s.updMd set f).pending =
      Function.update s.pending set ((s.mdreq set).elim [] fun r => (f r).pending) := by
  funext set'
  by_cases h : set' = set
  · subst h
    cases hr : s.mdreq set' <;> simp [pending, hr]
  · simp [pending, h]

theorem Sys.updMd_inprog (s : Sys) (set : Nat) (f : MdReq → MdReq) :
    (s.updMd set f).inprog =
      Function.update s.inprog set ((s.mdreq set).elim [] fun r => (f r).inprog) := by
  funext set'
  by_cases h : set' = set
  · subst h
    cases hr : s.mdreq set' <;> simp [inprog, hr]
  · simp [inprog, h]

theorem StartLoop.inv {s₀ : Sys} {r : MdReq} {f : MdReq → MdReq}
    (h : StartLoop g s₀ set r.pending [] s) (hbug : s₀.bug = none) (hmd : MdOk g s₀)
    (hr : s₀.mdreq set = some r) (hne : r.pending ≠ [])
    (hf : (f r).pending = [] ∧ (f r).inprog = r.pending ∧ (f r).phase ≠ .queued) :
    Inv g (s.updMd set f) := by
  obtain ⟨done, happ, hl⟩ := h.lists
  rw [List.append_nil] at happ
  subst happ
  have hreq : s.mdreq = s₀.mdreq ∧ s.bio = s₀.bio ∧ s.bug = s₀.bug := by
    rw [h.frame]
    exact ⟨rfl, rfl, rfl⟩
  have hpend : s.pending = s₀.pending ∧ s.inprog = s₀.inprog := by
    constructor <;> funext set' <;> simp only [pending, inprog, hreq.1]
  refine .of_live (h.blk.congr rfl rfl rfl) (hreq.2.2.trans hbug)
    ⟨h.bios.congr rfl rfl rfl rfl rfl rfl, ?_, ?_⟩
  · have hlist : (fun b => ((s.updMd set f).bio b).mdlist) = fun b => (s₀.bio b).mdlist := by
      rw [← hreq.2.1]
      rfl
    rw [hlist, updMd_pending, updMd_inprog, hreq.1, hr, hpend.1, hpend.2]
    simp only [Option.elim_some, hf.1, hf.2.1]
    exact ⟨hl.list, hl.listNodup, hl.pend, hl.pendNodup, hl.prog, hl.progNodup, hl.inSet⟩
  · intro set' r' hr'
    by_cases hs : set' = set
    · subst hs
      simp only [updMd_mdreq, Function.update_self, hreq.1, hr, Option.map_some,
        Option.some.injEq] at hr'
      subst hr'
      refine ⟨fun hph => absurd hph hf.2.2, .inr ?_⟩
      rw [hf.2.1]
      exact hne
    · simp only [updMd_mdreq, Function.update_of_ne hs, hreq.1] at hr'
      exact hmd.reqs set' r' hr'

theorem Inv.stepDoMd (h : Inv g s) (hbug : s.bug = none) (hs : s.stepDoMd g set = some s') :
    Inv g s' := by
  have hl := h.live hbug
  simp only [Sys.stepDoMd] at hs
  split at hs
  · next r hr =>
    split at hs
    · next hph =>
      cases hs
      have hpend : s.pending set = r.pending := by simp [pending, hr]
      have hinprog : s.inprog set = [] := by simp [inprog, hr, (hl.md.reqs set r hr).queued hph]
      have hdirty : ¬ ∃ e ∈ r.pending, s.st g ((s.ebio e).index.getD 0) ≠ dirtyInprog := by
        rintro ⟨e, he, hne⟩
        have hst := ((hl.md.pend set e).mp (hpend ▸ he)).1
        obtain ⟨_, i, ho⟩ := hl.toBios.waiting (e := e) (by rw [hst]; rfl)
        rw [ho.1] at hne
        exact hne (h.blk.dirtying ho)
      simp only [doMdupdate, if_neg hdirty]
      split
      · exact .of_fail h.blk rfl
      · split
        · exact .of_fail h.blk rfl
        · next hindex =>
          have hin : ∀ e ∈ r.pending, (s.ebio e).index.getD 0 / g.assoc = set := by
            intro e he
            have hlo : setStart g set ≤ (s.ebio e).index.getD 0 ∧
                (s.ebio e).index.getD 0 < setStart g set + g.assoc := by
              by_contra hcon
              exact hindex ⟨e, he, by omega⟩
            refine Nat.div_eq_of_lt_le hlo.1 ?_
            rw [Nat.succ_mul]
            exact hlo.2
          have hloop : StartLoop g s set r.pending [] (r.pending.foldl
              (fun s e => s.updEb e fun eb => { eb with st := .mdProg }) s) := by
            refine Run.foldl_rest (fun l s' => StartLoop g s set r.pending l s')
              (fun e l s' hloop => hloop.step) ⟨rfl, h.blk, hl.toBios, ⟨[], rfl, ?_⟩, hin⟩
            rw [← hpend, ← hinprog, Function.update_eq_self, Function.update_eq_self]
            exact hl.md.toMdLists
          have hok := hl.md.reqs set r hr
          have hne : r.pending ≠ [] := by simpa [hok.queued hph] using hok.busy
          exact hloop.inv hbug hl.md hr hne ⟨rfl, rfl, by simp⟩
    · cases hs
  · cases hs

/-! ## The writes of the metadata pages -/

theorem Inv.updMd {f : MdReq → MdReq} (h : Inv g s) (hbug : s.bug = none)
    (hf : ∀ r, s.mdreq set = some r → (f r).pending = r.pending ∧ (f r).inprog = r.inprog ∧
      ((f r).phase = .queued → r.phase = .queued)) : Inv g (s.updMd set f) := by
  have hl := h.live hbug
  have hsame : (s.updMd set f).pending = s.pending ∧ (s.updMd set f).inprog = s.inprog := by
    rw [updMd_pending, updMd_inprog]
    constructor <;> rw [Function.update_eq_iff] <;> refine ⟨?_, fun _ _ => rfl⟩ <;>
      cases hr : s.mdreq set <;> simp [pending, inprog, hr, hf]
  refine .of_live (h.blk.congr rfl rfl rfl) hbug
    ⟨hl.toBios.congr rfl rfl rfl rfl rfl rfl, ?_, ?_⟩
  · rw [hsame.1, hsame.2]
    exact ⟨hl.md.list, hl.md.listNodup, hl.md.pend, hl.md.pendNodup, hl.md.prog, hl.md.progNodup,
      hl.md.inSet⟩
  · intro set' r' hr'
    by_cases hs : set' = set
    · subst hs
      rw [updMd_mdreq, Function.update_self, Option.map_eq_some_iff] at hr'
      obtain ⟨r, hr, rfl⟩ := hr'
      have hok := hl.md.reqs set' r hr
      constructor
      · rw [(hf r hr).2.1]
        exact fun hph => hok.queued ((hf r hr).2.2 hph)
      · rw [(hf r hr).1, (hf r hr).2.1]
        exact hok.busy
    · rw [updMd_mdreq, Function.update_of_ne hs] at hr'
      exact hl.md.reqs set' r' hr'

theorem Inv.stepMdSubmit {refused : Int} (h : Inv g s) (hbug : s.bug = none)
    (hs : s.stepMdSubmit g set refused = some s') : Inv g s' := by
  simp only [Sys.stepMdSubmit] at hs
  split at hs
  · split at hs
    · cases hs
      simp only [mdSubmit]
      split
      · split
        · exact h.updMd hbug fun r _ => ⟨rfl, rfl, by simp⟩
        · exact h.updMd hbug fun r _ => ⟨rfl, rfl, by simp⟩
      · refine h.updMd hbug fun r _ => ⟨rfl, rfl, fun hph => ?_⟩
        dsimp only at hph
        split at hph <;> cases hph
    · cases hs
  · cases hs

theorem Inv.stepMdSector {p q : Nat} (h : Inv g s) (hbug : s.bug = none)
    (hs : s.stepMdSector g set p q = some s') : Inv g s' := by
  simp only [Sys.stepMdSector] at hs
  split at hs
  · split at hs
    · cases hs
      exact Inv.updMd (h.devices rfl) hbug fun r _ => ⟨rfl, rfl, id⟩
    · cases hs
  · cases hs

theorem Inv.stepMdDone {p : Nat} {err : Int} (h : Inv g s) (hbug : s.bug = none)
    (hs : s.stepMdDone set p err = some s') : Inv g s' := by
  simp only [Sys.stepMdDone] at hs
  split at hs
  · split at hs
    · cases hs
      refine h.updMd hbug fun r _ => ⟨rfl, rfl, fun hph => ?_⟩
      dsimp only at hph
      split at hph
      · cases hph
      · exact hph
    · cases hs
  · cases hs

/-! ## `eio_post_mdupdate` -/

/-- The ebio at the head of the loop ends. -/
theorem MdLists.post {ls : Nat → List Nat} {ps qs : Nat → List EbId} {t : List EbId}
    {f : Ebio → Ebio} (h : MdLists g s ls ps (Function.update qs set (e :: t)))
    (hdone : (f (s.ebio e)).st = .done) :
    MdLists g (s.updEb e f) ls ps (Function.update qs set t) := by
  obtain ⟨hst, hset⟩ := (h.prog set e).mp (by simp)
  have hnodup : e ∉ t ∧ t.Nodup := by simpa using h.progNodup set
  refine h.move ?_ ?_ ?_ h.listNodup h.pendNodup ?_ (by simp [hdone])
  · intro b k
    split
    · next he =>
      subst he
      rw [h.list, hst, hdone]
      simp
    · rfl
  · intro set' e'
    split
    · next he =>
      subst he
      rw [h.pend, hst, hdone]
      simp
    · rfl
  · intro set' e'
    by_cases hs : set' = set
    · subst hs
      by_cases he : e' = e <;> simp [he, hnodup.1, hdone]
    · by_cases he : e' = e
      · subst he
        have hnot : e' ∉ qs set' := by
          intro hmem
          have := ((h.prog set' e').mp (by simpa [hs] using hmem)).2
          exact hs (this.symm.trans hset)
        simp [hs, hnot, hdone]
      · simp [hs, he]
  · intro set'
    by_cases hs : set' = set
    · subst hs
      simpa using hnodup.2
    · simpa [hs] using h.progNodup set'

/-- The block of an ebio whose metadata update is over: dirty, and counted. -/
@[simps]
def Sys.dirtied (g : Geom) (set : Nat) (s : Sys) (i : Nat) : Sys :=
  { s.setSt g i alreadyDirty with
    setNrDirty := Function.update s.setNrDirty set (s.setNrDirty set + 1)
    nrDirty := s.nrDirty + 1 }

theorem Recount.dirtied {i : Nat} (hc : s.st g i = dirtyInprog) (hset : i / g.assoc = set) :
    Recount g s (s.dirtied g set i) i := by
  have hst : (s.dirtied g set i).st g i = alreadyDirty := setSt_st.trans (if_pos rfl)
  have hd : alreadyDirty.counted = true ∧ dirtyInprog.counted = false := by decide
  refine ⟨rfl, rfl, ?_, fun set' => ?_, ?_⟩
  · rw [hst, hc, show dirtyInprog.has valid = alreadyDirty.has valid by decide, Nat.add_sub_cancel]
    rfl
  · rw [hst, hc, hd.1, hd.2, hset]
    by_cases hs : set = set'
    · subst hs
      simp [Sys.dirtied]
    · simp [Sys.dirtied, hs, Ne.symm hs]
  · rw [hst, hc, hd.1, hd.2]
    simp [Sys.dirtied]

/-- A metadata update is over: the ebio ends, leaving the block dirty. -/
theorem Handled.post {i : Nat} (err : Int) (hok : EbOk (s.ebio e))
    (ho : (s.ebio e).Owns i dirtyInprog) (hblk : BlkInv g s) (hne : (s.ebio e).st ≠ .done)
    (hset : i / g.assoc = set) :
    Handled g s ((s.dirtied g set i).endEb e err) e Ended where
  how := by
    have hc := hblk.dirtying ho
    have hnear : Near g s (s.dirtied g set i) e i :=
      .flags (.dirtied hc hset) rfl rfl (fun _ _ => rfl) (by rw [hc]; decide)
    refine .settle (hnear.updEb _) ho (setSt_st.trans (if_pos rfl)) ?_ (by simp)
    exact setSt_dbn (.inr ⟨by decide, by rw [hc]; decide⟩)
  ok := by simpa using (hok.endio hne err).ok
  at_ := by simp
  bug := rfl
  ended := by simp
  role := .inl (by simp)

/-- In the loop of `eio_post_mdupdate`: `l` are the ebios still to be ended. -/
structure PostLoop (g : Geom) (s₀ : Sys) (set : Nat) (l : List EbId) (s : Sys) : Prop where
  frame : s.bio = s₀.bio ∧ s.mdreq = s₀.mdreq ∧ s.bug = s₀.bug
  blk : BlkInv g s
  bios : Bios g s
  lists : MdLists g s (fun b => (s₀.bio b).mdlist) s₀.pending (Function.update s₀.inprog set l)

theorem PostLoop.step {s₀ : Sys} {l : List EbId} {err : Int} (h : PostLoop g s₀ set (e :: l) s) :
    PostLoop g s₀ set l (Sys.postOne g set err s e) := by
  have hst : (s.ebio e).st = .mdProg := ((h.lists.prog set e).mp (by simp)).1
  have hne : (s.ebio e).st ≠ .done := by simp [hst]
  have hw : (s.ebio e).st.waiting = true := by rw [hst]; rfl
  have hok := (h.bios.bio e.1).ebs e.2
  obtain ⟨hr, i, ho⟩ := h.bios.waiting hw
  have hc := h.blk.dirtying ho
  have hat : ∀ σ : Stage, σ.Ok (s.ebio e).role (s.ebio e).st →
      ∀ r st, st = .done → σ.Ok r st := by
    rintro σ hσ r st rfl
    obtain ⟨rfl, _⟩ := hσ.waiting hw
    exact .inr (.inr rfl)
  have hbios : ∀ {s₁ : Sys}, Local s s₁ e → s₁.bio = s.bio →
      Handled g s s₁ e (fun _ st => st = .done) → Bios g s₁ := by
    intro s₁ hf hbio hh
    rw [← updBio_id s₁ e.1]
    exact h.bios.ebio hf (by rw [hbio]) hh rfl (by simp [hst]) hat
  simp only [postOne, ho.1, Option.getD_some, hc, ne_eq, not_true_eq_false, if_false]
  split
  · have hh : Handled g s ((s.invalidate g i).endEb e err) e Ended :=
      .to_invalid h.blk ho (hok.endio hne err)
    refine ⟨h.frame, hh.how.blk h.blk,
      hbios (((EbFrame.refl s e).invalidate i).endEb err).toLocal rfl hh, ?_⟩
    have hl := h.lists.post (e := e) (f := (·.endio err)) rfl
    exact ⟨hl.list, hl.listNodup, hl.pend, hl.pendNodup, hl.prog, hl.progNodup, hl.inSet⟩
  · have hin : i / g.assoc = set := by
      obtain ⟨hprog, hset⟩ := (h.lists.prog set e).mp (by simp)
      simpa [ho.1, hset] using h.lists.inSet e hprog
    have hh := Handled.post err hok ho h.blk hne hin
    have hlocal : Local s (s.dirtied g set i) e :=
      ⟨rfl, rfl, rfl, rfl, rfl, fun _ _ => rfl, fun _ _ => rfl⟩
    refine ⟨h.frame, hh.how.blk h.blk, hbios (hlocal.updEb (·.endio err)) rfl hh, ?_⟩
    have hl := h.lists.post (e := e) (f := (·.endio err)) rfl
    exact ⟨hl.list, hl.listNodup, hl.pend, hl.pendNodup, hl.prog, hl.progNodup, hl.inSet⟩

theorem PostLoop.inv {s₀ : Sys} {r : MdReq} (h : PostLoop g s₀ set [] s) (hbug : s₀.bug = none)
    (hmd : MdOk g s₀) (hr : s₀.mdreq set = some r) :
    Inv g { s with
      mdreq := Function.update s.mdreq set
        (if r.pending = [] then none else some { r with inprog := [], phase := .queued }) } := by
  obtain ⟨hbio, hreq, hb⟩ := h.frame
  generalize hm : (if r.pending = [] then none
    else some { r with inprog := [], phase := .queued }) = m
  have hp : m.elim [] (·.pending) = r.pending := by
    split at hm <;> subst hm <;> simp_all
  have hq : ∀ r', m = some r' → r'.inprog = [] ∧ r'.pending ≠ [] := by
    rintro r' rfl
    split at hm <;> cases hm
    exact ⟨rfl, by assumption⟩
  refine .of_live (h.blk.congr rfl rfl rfl) (hb.trans hbug)
    ⟨h.bios.congr rfl rfl rfl rfl rfl rfl, ?_, ?_⟩
  · have hpend : pending { s with mdreq := Function.update s.mdreq set m } = s₀.pending := by
      funext set'
      by_cases hs : set' = set
      · subst hs
        simpa [pending, hr] using hp
      · simp [pending, hreq, hs]
    have hprog : inprog { s with mdreq := Function.update s.mdreq set m } =
        Function.update s₀.inprog set [] := by
      funext set'
      by_cases hs : set' = set
      · subst hs
        cases m with
        | none => simp [inprog]
        | some r' => simpa [inprog] using (hq r' rfl).1
      · simp [inprog, hreq, hs]
    rw [hpend, hprog]
    have hl := h.lists
    exact ⟨hbio ▸ hl.list, hbio ▸ hl.listNodup, hl.pend, hl.pendNodup, hl.prog, hl.progNodup,
      hl.inSet⟩
  · intro set' r' hr'
    by_cases hs : set' = set
    · subst hs
      have hr' := hq r' (by simpa using hr')
      exact ⟨fun _ => hr'.1, .inl hr'.2⟩
    · simp only [Function.update_of_ne hs, hreq] at hr'
      exact hmd.reqs set' r' hr'

theorem Inv.stepPostMd (h : Inv g s) (hbug : s.bug = none) (hs : s.stepPostMd g set = some s') :
    Inv g s' := by
  have hl := h.live hbug
  simp only [Sys.stepPostMd] at hs
  split at hs
  · next r hr =>
    split at hs
    · cases hs
      have hinprog : s.inprog set = r.inprog := by simp [inprog, hr]
      have hloop : PostLoop g s set [] (r.inprog.foldl (postOne g set r.error) s) := by
        refine Run.foldl_rest (fun l s' => PostLoop g s set l s')
          (fun e l s' hloop => hloop.step) ⟨⟨rfl, rfl, rfl⟩, h.blk, hl.toBios, ?_⟩
        rw [← hinprog, Function.update_eq_self]
        exact hl.md.toMdLists
      exact hloop.inv hbug hl.md hr
    · cases hs
  · cases hs

end
end EnhanceIO
