import EnhanceIO.EbActs
import EnhanceIO.MdQueue

/-!
# The bookkeeping of a cached write

`eio_write_peek` counts in `bc_mdwait` the blocks a write is going to dirty. Each of them
that has been written to the SSD is parked on `bc_mdlist` and taken off the count, and
when the count comes to zero all of them are handed over to the metadata updates. A
block whose write fails is ended at once, but nobody takes it off the count.

`CwOk` says this of every bio: `bc_mdwait` is the number of blocks to be dirtied that
have not been written successfully, and as long as it is not zero those that have been
are parked.
-/

namespace EnhanceIO

open State Sys

section
variable {g : Geom} {s s' : Sys} {a : Act} {b k : Nat} {e : EbId} {eb : Ebio}
  {P : Sys → Act → Prop}

/-! ## Invariants of an ebio -/

/-- What holds of an ebio that has not been peeked, and after every act that fails no
assertion, holds of every ebio as long as the driver runs. -/
theorem Reachable.ebio_invariant {Q : Req → Ebio → Prop} (hnew : ∀ r, Q r Ebio.init)
    (hstep : ∀ {s s' : Sys} {a : Act} {e : EbId}, Inv g s → s.bug = none → P s a →
      s.act g a = some s' → s'.bug = none → Q (s.req e.1) (s.ebio e) → EbFate g s s' e a →
      Q (s.req e.1) (s'.ebio e))
    (h : Reachable g P s) (hbug : s.bug = none) (e : EbId) : Q (s.req e.1) (s.ebio e) := by
  let Held : Sys → Prop := fun s => s.bug = none → ∀ e, Q (s.req e.1) (s.ebio e)
  have hinit : Held (init g) := fun _ _ => hnew _
  refine Run.Reach.invariant_with (fun hr => And.intro (Reachable.inv hr) (Reachable.mdQueue hr))
    hinit ?_ h hbug e
  intro s t a ⟨hinv, hq⟩ _ hok hp hs hbug' e
  obtain ⟨hbug, s', hact, rfl⟩ := of_step hs
  have hfate := act_ebFate hinv hbug (fun b => (hq.stock hbug b).stocked) hact e
  have hkept : Q (s.req e.1) (s'.ebio e) := hstep hinv hbug hp hact hbug' (hok hbug e) hfate
  show Q (s'.req e.1) (s'.ebio e)
  cases act_fate hinv.blk hact e.1 with
  | same hreq | move _ hreq =>
    rw [hreq]
    exact hkept
  | new ha hb =>
    -- the ebios of a bio that arrives are as they were before
    have heb : s'.ebio e = s.ebio e := by
      subst ha
      cases hfate with
      | same heb => exact heb
      | work htouch => cases htouch
    rw [heb, (hinv.live hbug).ebio_absent (Nat.le_of_eq hb.symm)]
    exact hnew _

/-! ## The result of the SSD I/O -/

/-- The SSD has not answered yet. -/
def EbSt.unanswered : EbSt → Bool
  | .new | .peeked | .readCache | .fillIssue | .dirtyIssue | .readFill | .ucIssue | .uc false _
  | .cwIssue | .cw => true
  | _ => false

/-- What is known of the SSD I/O of an ebio, by its state. -/
structure Ebio.SsdOk (eb : Ebio) : Prop where
  unanswered : eb.st.unanswered = true → eb.ssdError = none
  waiting : eb.st.waiting = true → eb.ssdError = some 0
  failed : eb.st = .readFail ∨ eb.st = .reread → eb.ssdError ≠ none
  half : eb.role ≠ .miss → eb.st = .uc true false → eb.ssdError ≠ none
  finished : eb.role = .wr → eb.st = .done → eb.ssdError ≠ none

theorem Ebio.SsdOk.init : Ebio.init.SsdOk := by
  constructor <;> simp [Ebio.init, EbSt.waiting]

theorem Ebio.SsdOk.endio (h : eb.role = .wr → eb.ssdError ≠ none) (err : Int) :
    (eb.endio err).SsdOk := by
  constructor <;> simp_all [Ebio.endio, EbSt.unanswered, EbSt.waiting]

/-- A block to fill or to read in place is not written. -/
theorem Stage.Ok.filling {σ : Stage} {r : Role} {st : EbSt} (h : σ.Ok r st)
    (hst : st = .fillIssue ∨ st = .dirtyIssue) : r ≠ .wr := by
  rcases hst with rfl | rfl <;> cases σ <;> simp_all [Stage.Ok]

/-- Once the HDD I/O is issued, no write stands where the peek has left it. -/
theorem mainStage_ne_write (dir : Dir) (main : MainPc) (k : Nat) :
    mainStage dir main k ≠ .write ∧ mainStage dir main k ≠ .writeHit := by
  cases main <;> cases dir <;> simp only [mainStage, openStage, closedStage] <;>
    first
    | decide
    | (split <;> first | decide | (split <;> decide))

/-- What the completion of the HDD I/O finds untouched belongs to a read. -/
theorem BioOk.peeked_read {r : Req} {bc : Bio} {ebs : Nat → Ebio} (h : BioOk g r bc ebs)
    (hm : bc.main ≠ .none) (hst : (ebs k).st = .peeked) : (ebs k).role ≠ .wr := by
  have hat := h.mainAt hm (h.started (k := k) (by simp [hst])).1
  obtain ⟨h1, h2⟩ := mainStage_ne_write r.dir bc.main k
  rw [hst] at hat
  intro hr
  rw [hr] at hat
  generalize mainStage r.dir bc.main k = σ at hat h1 h2
  cases σ <;> simp_all [Stage.Ok]

theorem EbWork.ssdOk (hl : Live g s) (h : (s.ebio e).SsdOk) (hw : EbWork s e a eb) : eb.SsdOk := by
  have hbio := hl.bio e.1
  have hnone : (s.ebio e).st.unanswered = true → (s.ebio e).ssdError = none := h.unanswered
  cases hw with
  | peek _ hst | cachedRead _ hst | uwDirty _ hst | uwClean _ hst | uwSubmit _ hst | cwLock _ hst
  | cwSubmit _ hst | fillIssue _ hst | dirtyIssue _ hst | fillSubmit hst | dirtySubmit hst =>
    rw [hst] at hnone
    constructor <;> simp_all [EbSt.unanswered, EbSt.waiting]
  | uwMiss _ hst hr => constructor <;> simp_all [EbSt.unanswered, EbSt.waiting]
  | uwLost | uwRefused | readFailed | ucFirst | written =>
    constructor <;> simp_all [EbSt.unanswered, EbSt.waiting]
  | flagFirst _ hst =>
    rw [hst] at hnone
    constructor <;> simp_all [EbSt.unanswered, EbSt.waiting]
  | flagLost _ hst => constructor <;> simp_all [EbSt.unanswered, EbSt.waiting]
  | readRefused | cwFail | cwRefused | readDone | writeDone => exact .endio (by simp) _
  | readOver hm hst =>
    refine .endio (fun hr => ?_) _
    exact absurd hr (hbio.peeked_read (k := e.2) hm hst)
  | flagLast _ hst =>
    refine .endio (fun hr => ?_) _
    exact h.half (fun hm => by simp [hm] at hr) hst
  | fillRefused hst =>
    have hk := (hbio.started (k := e.2) (by rcases hst with hst | hst <;> simp [hst])).1
    exact .endio (fun hr => absurd hr ((hbio.at_ e.2 hk).filling hst)) _
  | sector hst =>
    exact ⟨h.unanswered, h.waiting, h.failed, h.half, h.finished⟩
  | ended hst => exact ⟨h.unanswered, h.waiting, h.failed, h.half, h.finished⟩
  | reread hst => constructor <;> simp_all [EbSt.unanswered, EbSt.waiting, h.failed (.inl hst)]
  | rereadRefused hst => exact .endio (fun _ => h.failed (.inl hst)) _
  | rereadDone hst => exact .endio (fun _ => h.failed (.inr hst)) _

theorem EbFate.ssdOk (hinv : Inv g s) (hbug : s.bug = none) (hs : s.act g a = some s')
    (hbug' : s'.bug = none) (h : (s.ebio e).SsdOk) (hf : EbFate g s s' e a) :
    (s'.ebio e).SsdOk := by
  cases hf with
  | same heb =>
    rw [heb]
    exact h
  | work ht => exact (act_work hinv hbug hs hbug' ht).ssdOk (hinv.live hbug) h
  | pend hst heb | prog hst heb =>
    have hpark := h.waiting (by rw [hst]; rfl)
    rw [heb]
    constructor <;> simp [EbSt.unanswered, hpark]
  | post hst _ heb =>
    have hpark := h.waiting (by rw [hst]; rfl)
    rw [heb]
    exact .endio (fun _ => by simp [hpark]) _

theorem Reachable.ssdOk (h : Reachable g P s) (hbug : s.bug = none) (e : EbId) :
    (s.ebio e).SsdOk :=
  h.ebio_invariant (Q := fun _ eb => eb.SsdOk) (fun _ => .init)
    (fun hinv hbug _ hact hbug' hok hfate => hfate.ssdOk hinv hbug hact hbug' hok) hbug e

/-! ## Where the ebios of a cached write can be -/

/-- The positions on the cached path. -/
def EbSt.onCached : EbSt → Bool
  | .new | .peeked | .cwIssue | .cw | .mdList | .mdPend | .mdProg | .done => true
  | _ => false

/-- The stages of a write that has met no miss. -/
def Stage.onCached : Stage → Bool
  | .fresh | .writeHit | .cwIssue | .cwOpen | .ended => true
  | _ => false

theorem Stage.Ok.onCached {σ : Stage} {r : Role} {st : EbSt} (h : σ.Ok r st)
    (hσ : σ.onCached = true) : st.onCached = true := by
  cases σ <;> cases hσ <;> simp only [Stage.Ok] at h
  case cwOpen =>
    rcases h with ⟨rfl, -⟩ | ⟨-, rfl | rfl | rfl⟩ | rfl <;> rfl
  case ended =>
    subst h
    rfl
  case fresh =>
    rw [h.2]
    rfl
  all_goals
    rw [h.1]
    rfl

/-- A write that has met no miss goes nowhere near the HDD. -/
theorem BioOk.cached_stage {r : Req} {bc : Bio} {ebs : Nat → Ebio} (h : BioOk g r bc ebs)
    (hdir : r.dir = .write) (huc : bc.uc = false) (hreq : r.forced = false) :
    bc.main = .none ∧ (stage r.dir bc.uc bc.pc bc.main k).onCached = true := by
  have hp := h.pc
  have hmain : bc.main = .none := by
    by_contra hm
    have hok := h.mainOk hm
    cases hmain : bc.main <;> rw [hmain] at hok hm <;> simp_all [MainOk]
  refine ⟨hmain, ?_⟩
  rw [hdir, huc, hmain]
  cases hpc : bc.pc <;> rw [hpc] at hp <;> simp only [stage]
  case cachedRead =>
    have hread := hp.2.2.2
    rw [hdir] at hread
    cases hread
  case uwLock | uwSubmit =>
    have hmiss := hp.2.1
    rw [huc] at hmiss
    cases hmiss
  case diskIo =>
    have hmiss := hp.2 hreq
    rw [huc] at hmiss
    cases hmiss
  case peek | cwLock | cwFail => split <;> rfl
  case cwSubmit =>
    split
    · rfl
    · split <;> rfl
  all_goals rfl

/-- The ebios of a write that has met no miss. -/
theorem Live.onCached (hl : Live g s) (hdir : (s.req b).dir = .write) (huc : (s.bio b).uc = false)
    (hnew : (s.ebio (b, k)).st ≠ .new) :
    (s.bio b).main = .none ∧ (s.ebio (b, k)).st.onCached = true := by
  have hk := ((hl.bio b).started (k := k) hnew).1
  have hf : (s.req b).forced = false := by
    by_contra hf
    rw [(hl.req b).segs_forced (by simpa using hf)] at hk
    exact Nat.not_lt_zero k hk
  obtain ⟨hmain, hstage⟩ := (hl.bio b).cached_stage (k := k) hdir huc hf
  exact ⟨hmain, ((hl.bio b).at_ k hk).onCached hstage⟩

/-! ## What is left to be dirtied -/

/-- The ebio is to dirty its block, and the data has not been written. -/
def Ebio.ToDirty (eb : Ebio) : Prop := eb.role = .wr ∧ eb.ssdError ≠ some 0

instance (eb : Ebio) : Decidable eb.ToDirty := inferInstanceAs (Decidable (_ ∧ _))

/-- Blocks of the bio that are to be dirtied and have not been written. -/
def Sys.toDirty (s : Sys) (b : Nat) : Nat :=
  (List.range (s.req b).segs.length).countP fun k => decide (s.ebio (b, k)).ToDirty

/-- What an act does to an ebio of a cached write: the peek aside, only the completion
of a successful write changes whether its block is still to be dirtied. -/
theorem EbWork.toDirty (hl : Live g s) (hdir : (s.req e.1).dir = .write)
    (huc : (s.bio e.1).uc = false) (hfail : ∀ err, (s.bio e.1).pc = .cwFail e.2 err → err ≠ 0)
    (hok : (s.ebio e).SsdOk) (hw : EbWork s e a eb) :
    (∃ v, a = .peek e.1 v) ∨
      (a = .ssdDone e.1 e.2 0 ∧ (s.ebio e).st = .cw ∧ (s.ebio e).role = .wr ∧ eb.st = .mdList ∧
        eb.ssdError = some 0) ∨
      eb.role = (s.ebio e).role ∧ (eb.ToDirty ↔ (s.ebio e).ToDirty) := by
  have hbio := hl.bio e.1
  have hpcOk := hbio.pc
  have hon := hl.onCached (b := e.1) (k := e.2) hdir huc
  cases hw with
  | peek => exact .inl ⟨_, rfl⟩
  | written hst hr => exact .inr (.inl ⟨rfl, hst, hr, rfl, rfl⟩)
  | cachedRead hpc | readRefused hpc =>
    rw [hpc] at hpcOk
    have hread := hpcOk.2.2.2
    rw [hdir] at hread
    cases hread
  | uwMiss hpc | uwDirty hpc | uwClean hpc | uwSubmit hpc | uwLost hpc | uwRefused hpc =>
    rw [hpc] at hpcOk
    have hmiss := hpcOk.2.1
    rw [huc] at hmiss
    cases hmiss
  | cwFail hpc hst =>
    have hne := hfail _ hpc
    have hnone := hok.unanswered (by rw [hst]; rfl)
    exact .inr (.inr ⟨rfl, by simp [Ebio.ToDirty, Ebio.endio, hne, hnone]⟩)
  | cwRefused _ hst hne =>
    have hnone := hok.unanswered (by rw [hst]; rfl)
    exact .inr (.inr ⟨rfl, by simp [Ebio.ToDirty, Ebio.endio, hne, hnone]⟩)
  | cwLock | cwSubmit | sector | ended => exact .inr (.inr ⟨rfl, Iff.rfl⟩)
  | readOver hm hst | fillIssue hm hst | dirtyIssue hm hst =>
    exact absurd (hon (by rw [Prod.mk.eta, hst]; simp)).1 hm
  | flagLast _ hst | flagFirst _ hst | flagLost _ hst | fillSubmit hst | dirtySubmit hst
  | readFailed hst | ucFirst hst | reread hst | rereadRefused hst | rereadDone hst =>
    have hcached := (hon (by rw [Prod.mk.eta, hst]; simp)).2
    rw [Prod.mk.eta, hst] at hcached
    cases hcached
  | fillRefused hst | readDone hst =>
    have hcached := (hon (by rw [Prod.mk.eta]; rcases hst with hst | hst <;> simp [hst])).2
    rw [Prod.mk.eta] at hcached
    rcases hst with hst | hst <;> rw [hst] at hcached <;> cases hcached
  | writeDone hst =>
    rcases hst with hst | ⟨hst, hr⟩
    · have hcached := (hon (by rw [Prod.mk.eta, hst]; simp)).2
      rw [Prod.mk.eta, hst] at hcached
      cases hcached
    · have hnone := hok.unanswered (by rw [hst]; rfl)
      refine .inr (.inr ⟨rfl, ?_⟩)
      rcases hr with hr | ⟨hr, hne⟩
      · simp [Ebio.ToDirty, Ebio.endio, hr]
      · simp [Ebio.ToDirty, Ebio.endio, hne, hnone]

/-- A write peek that finds what the cached path needs counts the block it is going to
dirty. -/
theorem Sys.writePeek_mdwait (hblk : BlkInv g s) {victim : Option Nat}
    (hv : s.VictimOk g (s.seg e).sector victim) (hmode : g.mode = .wb)
    (hbug : (s.writePeek g e victim).1.bug = none) (hhit : (s.writePeek g e victim).2 = true) :
    ((s.writePeek g e victim).1.bio e.1).mdwait =
        (s.bio e.1).mdwait +
          if ((s.writePeek g e victim).1.ebio e).role = .wr then 1 else 0 := by
  have hp := writePeek_spec hblk hv
  generalize s.writePeek g e victim = r at hp hbug hhit
  cases hp with
  | nofit => cases hbug
  | miss | partly => cases hhit
  | dirty => simp [peekTake]
  | whole => simp [countMdwait, hmode, peekTake]
  | recycled fresh => cases fresh <;> simp [countMdwait, hmode, peekTake, recycle]

/-- A write with a block to be dirtied is one of a write-back cache. -/
theorem BioOk.cached_wb {r : Req} {bc : Bio} {ebs : Nat → Ebio} (h : BioOk g r bc ebs)
    (hpc : bc.pc = .peek k) (hdir : r.dir = .write) (huc : bc.uc = false) : g.mode = .wb := by
  have hp := h.pc
  rw [hpc] at hp
  exact hp.2.2 hdir huc

theorem Sys.act_peek_mdwait (hblk : BlkInv g s) (hl : Live g s) {victim : Option Nat}
    (hs : s.act g (.peek b victim) = some s') (hbug' : s'.bug = none)
    (hdir : (s.req b).dir = .write) (huc₀ : (s.bio b).uc = false) (huc : (s'.bio b).uc = false) :
    ∃ k < (s.req b).segs.length, (s.bio b).pc = .peek k ∧
      (s'.bio b).mdwait =
        (s.bio b).mdwait + if (s'.ebio (b, k)).role = .wr then 1 else 0 := by
  simp only [act, stepPeek] at hs
  split at hs
  · next k hpc =>
    obtain ⟨⟨hk, hv⟩, rfl⟩ := Option.ite_some_none_eq_some.mp hs
    refine ⟨k, hk, hpc, ?_⟩
    simp only [updBio_bio, Function.update_self, Bool.or_eq_false_iff, Bool.not_eq_false',
      updBio_ebio, peekDir, hdir] at huc ⊢
    simp only [updBio_bug, peekDir, hdir] at hbug'
    exact writePeek_mdwait (e := (b, k)) hblk hv ((hl.bio b).cached_wb hpc hdir huc₀) hbug' huc.2
  · cases hs

/-! ## The invariant -/

/-- The bookkeeping of a bio on the cached path. -/
structure CwOk (s : Sys) (b : Nat) : Prop where
  count : (s.req b).dir = .write → (s.bio b).uc = false → (s.bio b).mdwait = s.toDirty b
  parked : (s.req b).dir = .write → (s.bio b).uc = false → 0 < (s.bio b).mdwait →
    ∀ k, (s.ebio (b, k)).role = .wr → (s.ebio (b, k)).ssdError = some 0 →
      (s.ebio (b, k)).st = .mdList
  listed : (s.bio b).mdlist ≠ [] → (s.bio b).enq = true ∨ 0 < (s.bio b).mdwait
  failed : ∀ k err, (s.bio b).pc = .cwFail k err → err ≠ 0

theorem CwOk.init (g : Geom) (b : Nat) : CwOk (Sys.init g) b where
  count := by simp [Sys.init, Req.absent]
  parked := by simp [Sys.init, Req.absent]
  listed := by simp [Sys.init, Bio.absent]
  failed := by simp [Sys.init, Bio.absent]

theorem Act.touched_bio (ht : a.touched s = some e) : a.bio = some e.1 := by
  cases a <;> simp only [Act.touched, reduceCtorEq] at ht
  case peek | cachedRead | uwLock | cwLock | cwFail | flag | readDone | readfill =>
    split at ht <;> try cases ht
    all_goals rw [(ebioAt_eq_some ht).1]; rfl
  case uwSubmit | cwSubmit | readfillSubmit =>
    split at ht <;> cases ht
    all_goals rfl
  all_goals
    cases ht
    rfl

/-- An ebio when another bio, or none, acts. -/
theorem EbFate.elsewhere (hf : EbFate g s s' e a) (hne : a.bio ≠ some e.1) :
    (s'.ebio e).role = (s.ebio e).role ∧ (s'.ebio e).ssdError = (s.ebio e).ssdError ∧
      (s'.ebio e = s.ebio e ∨ (s.ebio e).st = .mdPend ∨ (s.ebio e).st = .mdProg) := by
  cases hf with
  | same heb => exact ⟨by rw [heb], by rw [heb], .inl heb⟩
  | work ht => exact absurd (Act.touched_bio ht) hne
  | pend => exact absurd rfl hne
  | prog hst heb => exact ⟨by rw [heb], by rw [heb], .inr (.inl hst)⟩
  | post hst _ heb => exact ⟨by rw [heb]; rfl, by rw [heb]; rfl, .inr (.inr hst)⟩

/-- The cached path is only ever left. -/
theorem BioMove.uc {bc : Bio} (h : BioMove g s b a bc) (huc : bc.uc = false) :
    (s.bio b).uc = false := by
  cases h with
  | peek => exact (Bool.or_eq_false_iff.mp huc).1
  | dispatch =>
    simp only [dispatchBio] at huc
    split at huc <;> exact huc
  | put | mainEndio | ebEndio =>
    rw [Bio.put_uc] at huc
    exact huc
  | lock | enter | alloc | path | refuse | disk | hddDone | main | xfer | mdWrite | enq | same =>
    exact huc

theorem CwOk.failed_move {bc : Bio} (h : CwOk s b) (hmove : BioMove g s b a bc)
    {k : Nat} {err : Int}
    (hpc : bc.pc = .cwFail k err) : err ≠ 0 := by
  cases hmove with
  | path hp =>
    generalize hpc₀ : (s.bio b).pc = pc at hp
    cases hp with
    | cwRefuse hne =>
      cases hpc
      exact hne
    | cwFail =>
      cases hpc
      exact h.failed _ _ hpc₀
    | inval | invalidated | cachedRead | cachedReadEnd | uwMiss | uwLock | uwSubmit | uwEnd | cwLock
    | cwSubmit | cwEnd | cwFailEnd => cases hpc
  | enter =>
    rcases enterPc_cases g (s.req b).forced (s.req b).sector (s.req b).nsect with
      ⟨_, _, hp, _⟩ | hp | ⟨hp, _⟩ <;> simp [hp] at hpc
  | dispatch =>
    simp only [dispatchBio] at hpc
    split at hpc <;> try cases hpc
    split at hpc <;> cases hpc
  | put | mainEndio | ebEndio =>
    rw [Bio.put_pc] at hpc
    first
    | cases hpc
    | exact h.failed k err hpc
  | lock | peek | alloc | refuse | disk => cases hpc
  | hddDone | main | xfer | mdWrite | enq | same => exact h.failed k err hpc

theorem Sys.toDirty_congr (hreq : s'.req b = s.req b)
    (h : ∀ k < (s.req b).segs.length, (s'.ebio (b, k)).ToDirty ↔ (s.ebio (b, k)).ToDirty) :
    s'.toDirty b = s.toDirty b := by
  rw [toDirty, toDirty, hreq]
  refine List.countP_congr fun k hk => ?_
  simp [h k (List.mem_range.mp hk)]

/-- The count when it changes at ebio `k`. -/
theorem Sys.toDirty_change (hreq : s'.req b = s.req b) (hk : k < (s.req b).segs.length)
    (h : ∀ j ≠ k, s'.ebio (b, j) = s.ebio (b, j)) :
    s'.toDirty b + (decide (s.ebio (b, k)).ToDirty).toNat =
      s.toDirty b + (decide (s'.ebio (b, k)).ToDirty).toNat := by
  rw [toDirty, toDirty, hreq]
  exact Count.countP_change (p := fun k => decide (s.ebio (b, k)).ToDirty)
    (q := fun k => decide (s'.ebio (b, k)).ToDirty) List.nodup_range (List.mem_range.mpr hk)
    (fun j hj => by rw [h j hj])

theorem EbWork.peek_ssdError {v : Option Nat} (hw : EbWork s e (.peek b v) eb) :
    eb.ssdError = (s.ebio e).ssdError := by
  generalize hact : Act.peek b v = act at hw
  cases hw with
  | peek | sector => rfl
  | readOver _ _ ha => rcases ha with rfl | rfl | rfl <;> cases hact
  | _ => cases hact

/-- Only `eio_md_write` parks an ebio. -/
theorem EbWork.listed (hw : EbWork s e a eb) (hst : eb.st = .mdList)
    (hnot : (s.ebio e).st ≠ .mdList) :
    (s.ebio e).st = .cw ∧ (s.ebio e).role = .wr ∧ eb.ssdError = some 0 := by
  cases hw with
  | written hcw hr => exact ⟨hcw, hr, rfl⟩
  | sector | ended => exact absurd hst hnot
  | _ => cases hst

/-- What a bio on the cached path counts and parks, the peek aside. -/
theorem BioMove.mdwait {bc : Bio} (h : BioMove g s b a bc) (hdir : (s.req b).dir = .write)
    (huc : (s.bio b).uc = false) (hpeek : ∀ v, a ≠ .peek b v) :
    bc.mdwait = (s.bio b).mdwait ∧ bc.mdlist = (s.bio b).mdlist ∨
      (∃ k, a = .ssdDone b k 0 ∧ k ∈ bc.mdlist ∧ bc.mdwait = (s.bio b).mdwait - 1) ∨
      a = .enqMd b := by
  cases h with
  | peek => exact absurd rfl (hpeek _)
  | dispatch =>
    left
    simp only [dispatchBio, hdir, huc, and_self]
  | mdWrite =>
    exact .inr (.inl ⟨_, rfl, List.mem_append_right _ List.mem_cons_self, rfl⟩)
  | enq => exact .inr (.inr rfl)
  | put | mainEndio | ebEndio =>
    refine .inl ⟨?_, Bio.put_mdlist _ _⟩
    rw [Bio.put]
    split <;> rfl
  | lock | enter | alloc | path | refuse | disk | hddDone | main | xfer | same =>
    exact .inl ⟨rfl, rfl⟩

section
variable (h : CwOk s b) (hinv : Inv g s) (hq : MdQueue g s) (hok : ∀ e, (s.ebio e).SsdOk)
  (hbug : s.bug = none) (hs : s.act g a = some s') (hbug' : s'.bug = none)
include h hinv hq hok hbug hs hbug'

/-- `bc_mdwait` moves with the blocks to be dirtied. -/
theorem CwOk.count_move (ha : a.bio = some b) (hdir : (s.req b).dir = .write)
    (huc' : (s'.bio b).uc = false) : (s'.bio b).mdwait = s'.toDirty b := by
  have hl := hinv.live hbug
  have hl' := (hinv.act hbug hs).live hbug'
  obtain ⟨hbeside, hmove⟩ := act_move hinv.blk ha hs
  have huc := hmove.uc huc'
  have hcount := h.count hdir huc
  have hreq : s'.req b = s.req b := by rw [hbeside.req]
  by_cases hpeek : ∃ v, a = .peek b v
  · obtain ⟨v, rfl⟩ := hpeek
    obtain ⟨k, hk, hpc, hwait⟩ := act_peek_mdwait hinv.blk hl hs hbug' hdir huc huc'
    have htouch : Act.touched s (.peek b v) = some (b, k) := by
      simp [Act.touched, ebioAt, hpc, hk]
    have hrest := (act_moved hinv.blk ha (by simp) hs).rest
    have hchange := toDirty_change hreq hk fun j hj =>
      hrest (b, j) (by rw [htouch]; simpa using Ne.symm hj)
    -- the ebio had no block before, and the SSD has not been asked yet
    have hat := (hl.bio b).at_ k hk
    simp only [hpc, stage, Nat.lt_irrefl, if_false] at hat
    have hbefore : ¬ (s.ebio (b, k)).ToDirty := fun hd => by simp [hd.1, Stage.Ok] at hat
    have hnone : (s'.ebio (b, k)).ssdError = none := by
      rw [(act_work hinv hbug hs hbug' htouch).peek_ssdError]
      exact (hok _).unanswered (by rw [hat.2]; rfl)
    have hafter : (s'.ebio (b, k)).ToDirty ↔ (s'.ebio (b, k)).role = .wr := by
      simp [Ebio.ToDirty, hnone]
    simp only [hbefore, hafter, decide_false, Bool.toNat_false] at hchange
    rw [hwait, hcount]
    split at hwait <;> simp_all
  · have hpeek : ∀ v, a ≠ .peek b v := fun v hv => hpeek ⟨v, hv⟩
    have hfate := fun k => act_ebFate hinv hbug (fun b => (hq.stock hbug b).stocked) hs (b, k)
    have hsame : (∀ k, k ∈ (s'.bio b).mdlist → k ∈ (s.bio b).mdlist) →
        s'.toDirty b = s.toDirty b := by
      intro hlist
      refine toDirty_congr hreq fun k hk => ?_
      cases hfate k with
      | same heb => rw [heb]
      | work ht =>
        have hw := act_work hinv hbug hs hbug' ht
        rcases hw.toDirty hl hdir huc (h.failed k) (hok _) with
          ⟨v, hv⟩ | ⟨-, hst, -, hst', -⟩ | ⟨-, hiff⟩
        · exact absurd hv (hpeek v)
        · have hmem := hlist k ((hl'.md.list b k).mpr hst')
          rw [(hl.md.list b k).mp hmem] at hst
          cases hst
        · exact hiff
      | pend _ heb | prog _ heb => rw [heb]; rfl
      | post _ _ heb => rw [heb]; rfl
    rcases hmove.mdwait hdir huc hpeek with ⟨hwait, hlist⟩ | ⟨k, rfl, hmem, hwait⟩ | rfl
    · rw [hwait, hcount, hsame (fun k hk => hlist ▸ hk)]
    · have htouch : Act.touched s (.ssdDone b k 0) = some (b, k) := rfl
      have hfinds := hl.finds hs htouch
      have hk := ((hl.bio b).started (k := k) (EbSt.atSsd_ne hfinds).1).1
      have hrest := (act_moved hinv.blk ha (by simp) hs).rest
      have hchange := toDirty_change hreq hk fun j hj =>
        hrest (b, j) (by rw [htouch]; simpa using Ne.symm hj)
      obtain ⟨hst, hr, hzero⟩ := (act_work hinv hbug hs hbug' htouch).listed
        ((hl'.md.list b k).mp hmem) (fun hst => by rw [hst] at hfinds; cases hfinds)
      have hbefore : (s.ebio (b, k)).ToDirty :=
        ⟨hr, by simp [(hok (b, k)).unanswered (by rw [hst]; rfl)]⟩
      have hafter : ¬ (s'.ebio (b, k)).ToDirty := fun hd => hd.2 hzero
      simp only [hbefore, hafter, decide_true, decide_false, Bool.toNat_true,
        Bool.toNat_false] at hchange
      rw [hwait, hcount]
      omega
    · obtain ⟨set, group, rest, hg⟩ := (hq.stock hbug b).stocked.act hs
      have hwait : (s'.bio b).mdwait = (s.bio b).mdwait := by rw [hg.bio, Function.update_self]
      rw [hwait, hcount, hsame]
      intro k hk
      rw [hg.bio, Function.update_self] at hk
      rw [hg.list]
      exact List.mem_append_right _ hk

/-- What has been written stays parked while something is left to be written. -/
theorem CwOk.parked_move (ha : a.bio = some b) (hdir : (s.req b).dir = .write)
    (huc' : (s'.bio b).uc = false) (hpos : 0 < (s'.bio b).mdwait)
    (hr : (s'.ebio (b, k)).role = .wr) (hzero : (s'.ebio (b, k)).ssdError = some 0) :
    (s'.ebio (b, k)).st = .mdList := by
  have hl := hinv.live hbug
  obtain ⟨-, hmove⟩ := act_move hinv.blk ha hs
  have huc := hmove.uc huc'
  have hfate := act_ebFate hinv hbug (fun b => (hq.stock hbug b).stocked) hs (b, k)
  -- unless it is being parked now, the block was written before
  have hcases : (s'.ebio (b, k)).st = .mdList ∨
      (s.ebio (b, k)).role = .wr ∧ (s.ebio (b, k)).ssdError = some 0 := by
    cases hfate with
    | same heb => exact .inr ⟨heb ▸ hr, heb ▸ hzero⟩
    | work ht =>
      have hw := act_work hinv hbug hs hbug' ht
      rcases hw.toDirty hl hdir huc (h.failed k) (hok _) with
        ⟨v, rfl⟩ | ⟨-, -, -, hst', -⟩ | ⟨hrole, hiff⟩
      · have hst : (s.ebio (b, k)).st = .new := hl.finds hs ht
        have hnone := (hok (b, k)).unanswered (by rw [hst]; rfl)
        rw [hw.peek_ssdError, hnone] at hzero
        cases hzero
      · exact .inl hst'
      · have hr₀ := hrole.symm.trans hr
        refine .inr ⟨hr₀, ?_⟩
        by_contra hne
        exact (hiff.mpr ⟨hr₀, hne⟩).2 hzero
    | pend _ heb | prog _ heb =>
      rw [heb] at hr hzero
      exact .inr ⟨hr, hzero⟩
    | post _ _ heb =>
      rw [heb] at hr hzero
      exact .inr ⟨hr, hzero⟩
  rcases hcases with hst' | ⟨hr₀, hzero₀⟩
  · exact hst'
  -- a peek finds no block written, and nothing else raises `bc_mdwait`
  have hpeek : ∀ v, a ≠ .peek b v := by
    rintro v rfl
    obtain ⟨j, -, hpc, -⟩ := act_peek_mdwait hinv.blk hl hs hbug' hdir huc huc'
    have hk : k < (s.req b).segs.length := by
      by_contra hk
      rw [(hl.bio b).beyond k (Nat.le_of_not_lt hk)] at hr₀
      cases hr₀
    have hat := (hl.bio b).at_ k hk
    simp only [hpc, stage, hdir, huc] at hat
    have hst : (s.ebio (b, k)).st.unanswered = true := by
      split at hat
      · rw [hat.1]
        rfl
      · rw [hat.2]
        rfl
    rw [(hok (b, k)).unanswered hst] at hzero₀
    cases hzero₀
  have hnotEnq : a = .enqMd b → (s'.bio b).mdwait = 0 := by
    rintro rfl
    have henq : (s.bio b).enq = true := (Option.ite_none_right_eq_some.mp hs).1
    obtain ⟨set, group, rest, hg⟩ := (hq.stock hbug b).stocked.act hs
    rw [hg.bio, Function.update_self]
    exact ((hq.stock hbug b).enq henq).2.1
  have hpos₀ : 0 < (s.bio b).mdwait := by
    rcases hmove.mdwait hdir huc hpeek with ⟨hwait, -⟩ | ⟨j, -, -, hwait⟩ | rfl
    · omega
    · omega
    · have := hnotEnq rfl
      omega
  have hst := h.parked hdir huc hpos₀ k hr₀ hzero₀
  cases hfate with
  | same heb => rw [heb, hst]
  | work _ hfinds =>
    rw [hst] at hfinds
    cases hfinds.not_waiting
  | pend =>
    have := hnotEnq rfl
    omega
  | prog hprog | post hprog => rw [hst] at hprog; cases hprog

omit hok hbug' in
theorem CwOk.listed_move (ha : a.bio = some b) (hne : (s'.bio b).mdlist ≠ []) :
    (s'.bio b).enq = true ∨ 0 < (s'.bio b).mdwait := by
  have hl := hinv.live hbug
  obtain ⟨-, hmove⟩ := act_move hinv.blk ha hs
  rcases hmove.sameMd with hsame | ⟨k, list, -, hpos, -, hbc⟩ | rfl
  · rw [hsame.mdlist] at hne
    obtain ⟨k, l, hcons⟩ := List.exists_cons_of_ne_nil hne
    have hst := (hl.md.list b k).mp (by rw [hcons]; exact List.mem_cons_self)
    have hc := hl.caching (b := b) (k := k) (by rw [hst]; rfl)
    rw [hsame.enq, hsame.mdwait hc]
    exact h.listed hne
  · rw [hbc]
    dsimp only
    by_cases hlast : (s.bio b).mdwait - 1 = 0
    · exact .inl (by simp [hlast])
    · exact .inr (by omega)
  · obtain ⟨set, group, rest, hg⟩ := (hq.stock hbug b).stocked.act hs
    rw [hg.bio, Function.update_self] at hne ⊢
    exact .inl (by simpa using hne)

end

theorem CwOk.new {req : Req} {keep : Bool} (hbio : s'.bio b = s.newBio g req keep)
    (heb : ∀ k, (s'.ebio (b, k)).role = .miss) : CwOk s' b where
  count := fun _ _ => by
    have hzero : s'.toDirty b = 0 := by
      rw [toDirty, List.countP_eq_zero]
      intro k _
      simp [Ebio.ToDirty, heb k]
    rw [hbio, hzero]
    rfl
  parked := fun _ _ hpos => by
    rw [hbio] at hpos
    cases hpos
  listed := fun hne => by
    rw [hbio] at hne
    exact absurd rfl hne
  failed := fun k err hpc => by
    rw [hbio] at hpc
    rcases s.newBio_pc (g := g) req keep with ⟨-, h⟩ | ⟨-, h⟩
    · rw [h] at hpc
      cases hpc
    · rcases enterPc_cases g req.forced req.sector req.nsect with ⟨_, _, hp, _⟩ | hp | ⟨hp, _⟩ <;>
        rw [h, hp] at hpc <;> cases hpc

theorem CwOk.act (h : ∀ b, CwOk s b) (hinv : Inv g s) (hq : MdQueue g s)
    (hok : ∀ e, (s.ebio e).SsdOk) (hbug : s.bug = none) (hs : s.act g a = some s')
    (hbug' : s'.bug = none) (b : Nat) : CwOk s' b := by
  have hl := hinv.live hbug
  have hfate := fun k => act_ebFate hinv hbug (fun b => (hq.stock hbug b).stocked) hs (b, k)
  by_cases ha : a.bio = some b
  · obtain ⟨hbeside, hmove⟩ := act_move hinv.blk ha hs
    have hreq : s'.req b = s.req b := by rw [hbeside.req]
    refine ⟨?_, ?_, (h b).listed_move hinv hq hbug hs ha, fun k err => (h b).failed_move hmove⟩
    · rw [hreq]
      exact (h b).count_move hinv hq hok hbug hs hbug' ha
    · rw [hreq]
      exact fun hdir huc hpos k => (h b).parked_move hinv hq hok hbug hs hbug' ha hdir huc hpos
  · cases act_fate hinv.blk hs b with
    | move hb => exact absurd hb ha
    | new _ hb _ hbio =>
      refine .new hbio fun k => ?_
      rw [((hfate k).elsewhere ha).1, hl.ebio_absent (e := (b, k)) (Nat.le_of_eq hb.symm)]
      rfl
    | same hreq hbio =>
      have helse := fun k => (hfate k).elsewhere ha
      refine ⟨?_, ?_, ?_, ?_⟩
      · rw [hreq, hbio, toDirty_congr hreq fun k _ => ?_]
        · exact (h b).count
        · simp only [Ebio.ToDirty, (helse k).1, (helse k).2.1]
      · rw [hreq, hbio]
        intro hdir huc hpos k
        obtain ⟨hrole, hssd, hst⟩ := helse k
        rw [hrole, hssd]
        intro hr hzero
        have hlist := (h b).parked hdir huc hpos k hr hzero
        rcases hst with heb | hst | hst
        · rw [heb, hlist]
        · rw [hlist] at hst
          cases hst
        · rw [hlist] at hst
          cases hst
      · rw [hbio]
        exact (h b).listed
      · rw [hbio]
        exact (h b).failed

theorem Reachable.cwOk (h : Reachable g P s) (hbug : s.bug = none) (b : Nat) : CwOk s b := by
  let Held : Sys → Prop := fun s => s.bug = none → ∀ b, CwOk s b
  have hinit : Held (init g) := fun _ => CwOk.init g
  refine Run.Reach.invariant_with (fun hr => And.intro (Reachable.inv hr)
    (And.intro (Reachable.mdQueue hr) (Reachable.ssdOk hr))) hinit ?_ h hbug b
  intro s t a ⟨hinv, hq, hok⟩ _ hcw _ hs hbug' b
  obtain ⟨hbug, s', hact, rfl⟩ := of_step hs
  have h' := CwOk.act (hcw hbug) hinv hq (hok hbug) hbug hact hbug' b
  exact ⟨h'.count, h'.parked, h'.listed, h'.failed⟩

end
end EnhanceIO
