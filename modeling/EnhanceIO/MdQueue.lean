import EnhanceIO.Asserts
import EnhanceIO.Lib.Sorted
import EnhanceIO.MdActs
import EnhanceIO.States
import Mathlib.Data.Finset.Card

/-!
# The queue of metadata updates

A write that dirties blocks parks its ebios on `bc_mdlist`, in the order of their sets,
and `eio_enq_mdupdate` hands them over set by set: to the request that is attached to
the set, or to one of those the bio has allocated, one for each set it has locked. The
request works off `pending_mdlist` in batches; `eio_post_mdupdate` ends a batch, and
detaches the request unless more ebios have joined it meanwhile.

`MdQueue` is what holds in every state: the order of the lists, when the work of a
request is queued, and that a bio never runs out of requests.
-/

namespace EnhanceIO

open State Sys

section
variable {g : Geom} {s s' : Sys} {a : Act} {b : Nat} {e : EbId} {P : Sys → Act → Prop}

/-! ## Requests -/

/-- Pages of the request that are at the SSD. -/
def MdReq.inflight (g : Geom) (r : MdReq) : Nat :=
  (List.range (Sys.mdPages g)).countP fun p => decide (r.page p = .inflight)

/-- When the work of a request is queued: exactly while no update is in progress. The
references of an update outnumber its pages at the SSD. -/
structure MdReq.Phased (g : Geom) (r : MdReq) : Prop where
  idle : r.phase = .queued ↔ r.inprog = []
  quiet : r.phase = .queued ∨ r.phase = .post → ∀ p, r.page p ≠ .inflight
  submit : ∀ j, r.phase = .submit j →
    1 + r.inflight g ≤ r.holdcount ∧ ∀ p, j ≤ p → r.page p ≠ .inflight
  wait : r.phase = .wait → r.inflight g ≤ r.holdcount
  bound : ∀ p, Sys.mdPages g ≤ p → r.page p ≠ .inflight

theorem MdReq.Phased.init (g : Geom) : MdReq.init.Phased g := by
  constructor <;> simp [MdReq.init]

theorem MdReq.inflight_pos {r : MdReq} {p : Nat} (hp : p < Sys.mdPages g)
    (hpage : r.page p = .inflight) : 0 < r.inflight g := by
  rw [MdReq.inflight, List.countP_pos_iff]
  exact ⟨p, List.mem_range.mpr hp, by simpa using hpage⟩

theorem MdReq.page_of_inflight {r : MdReq} (hbound : ∀ p, Sys.mdPages g ≤ p → r.page p ≠ .inflight)
    (h : r.inflight g = 0) (p : Nat) : r.page p ≠ .inflight := by
  intro hpage
  by_cases hp : p < mdPages g
  · have := MdReq.inflight_pos hp hpage
    omega
  · exact hbound p (Nat.le_of_not_lt hp) hpage

/-- The pages at the SSD when the state of page `p` changes. -/
theorem MdReq.inflight_update (r : MdReq) {p : Nat} (st : PageIo) (hp : p < Sys.mdPages g) :
    MdReq.inflight g { r with page := Function.update r.page p st } +
        (decide (r.page p = .inflight)).toNat =
      r.inflight g + (decide (st = .inflight)).toNat := by
  have hchange := Count.countP_change (p := fun p => decide (r.page p = .inflight))
    (q := fun q => decide (Function.update r.page p st q = .inflight)) (a := p) List.nodup_range
    (List.mem_range.mpr hp) (fun q hq => by simp [hq])
  simpa [MdReq.inflight] using hchange

namespace MdReq.Phased

variable {r : MdReq} {p : Nat}

theorem busy (h : r.Phased g) (hph : r.phase ≠ .queued) : r.inprog ≠ [] :=
  fun hnil => hph (h.idle.mpr hnil)

/-- A page is submitted: if the SSD takes it, there is one more page and one more
reference; if not, the reference is there all the same. -/
theorem issue (h : r.Phased g) (hph : r.phase = .submit p) (hp : p < Sys.mdPages g)
    (refused err : Int) :
    Phased g { r with
      phase := .submit (p + 1)
      holdcount := r.holdcount + 1
      error := err
      page := if refused = 0 then Function.update r.page p .inflight else r.page } := by
  obtain ⟨hhold, hlater⟩ := h.submit p hph
  have hbusy := h.busy (by simp [hph])
  by_cases hrefused : refused = 0
  · have hcount := MdReq.inflight_update r .inflight hp
    have hbefore : r.page p ≠ .inflight := hlater p (Nat.le_refl p)
    simp only [hbefore, decide_false, Bool.toNat_false, decide_true, Bool.toNat_true] at hcount
    have hnew : ∀ q, p + 1 ≤ q → Function.update r.page p .inflight q ≠ .inflight := by
      intro q hq
      rw [Function.update_of_ne (by omega)]
      exact hlater q (by omega)
    simp only [hrefused, if_true]
    refine ⟨by simpa using hbusy, by simp, ?_, by simp, fun q hq => hnew q (by omega)⟩
    intro j hj
    obtain rfl : p + 1 = j := by simpa using hj
    refine ⟨?_, hnew⟩
    simp only [MdReq.inflight] at hcount hhold ⊢
    omega
  · simp only [hrefused, if_false]
    refine ⟨by simpa using hbusy, by simp, ?_, by simp, h.bound⟩
    intro j hj
    obtain rfl : p + 1 = j := by simpa using hj
    refine ⟨?_, fun q hq => hlater q (by omega)⟩
    simp only [MdReq.inflight] at hhold ⊢
    omega

theorem issued (h : r.Phased g) (hph : r.phase = .submit p) :
    Phased g { r with
      phase := if r.holdcount - 1 = 0 then .post else .wait
      holdcount := r.holdcount - 1 } := by
  obtain ⟨hhold, -⟩ := h.submit p hph
  have hbusy := h.busy (by simp [hph])
  by_cases hlast : r.holdcount - 1 = 0
  · -- the last reference: no page is at the SSD any more
    simp only [hlast, if_true]
    refine ⟨by simpa using hbusy, fun _ => ?_, by simp, by simp, h.bound⟩
    exact MdReq.page_of_inflight (r := r) h.bound (by omega)
  · simp only [hlast, if_false]
    refine ⟨by simpa using hbusy, by simp, by simp, fun _ => ?_, h.bound⟩
    simp only [MdReq.inflight] at hhold ⊢
    omega

theorem done (h : r.Phased g) (hpage : r.page p = .inflight) (err : Int) :
    Phased g { r with
      page := Function.update r.page p .done
      error := err
      holdcount := r.holdcount - 1
      phase := if r.holdcount - 1 = 0 then .post else r.phase } := by
  have hp : p < mdPages g := by
    by_contra hp
    exact h.bound p (Nat.le_of_not_lt hp) hpage
  have hcount := MdReq.inflight_update r .done hp
  simp only [hpage, decide_true, Bool.toNat_true, reduceCtorEq, decide_false,
    Bool.toNat_false] at hcount
  have hpages : ∀ q, r.page q ≠ .inflight → Function.update r.page p .done q ≠ .inflight := by
    intro q hq
    by_cases hqp : q = p
    · simp [hqp]
    · rwa [Function.update_of_ne hqp]
  have hbound := fun q hq => hpages q (h.bound q hq)
  have hphase : r.phase ≠ .queued ∧ r.phase ≠ .post := by
    constructor <;> intro hph
    · exact h.quiet (.inl hph) p hpage
    · exact h.quiet (.inr hph) p hpage
  have hbusy := h.busy hphase.1
  by_cases hlast : r.holdcount - 1 = 0
  · -- while pages are submitted there is a reference besides those of the pages
    have hwait : r.inflight g ≤ r.holdcount := by
      cases hph : r.phase with
      | queued => exact absurd hph hphase.1
      | post => exact absurd hph hphase.2
      | submit j =>
        have := (h.submit j hph).1
        omega
      | wait => exact h.wait hph
    simp only [hlast, if_true]
    refine ⟨by simpa using hbusy, fun _ => ?_, by simp, by simp, hbound⟩
    refine MdReq.page_of_inflight (r := { r with page := Function.update r.page p .done }) hbound ?_
    omega
  · simp only [hlast, if_false]
    refine ⟨h.idle, ?_, ?_, ?_, hbound⟩
    · intro hph
      rcases hph with hph | hph
      · exact absurd hph hphase.1
      · exact absurd hph hphase.2
    · intro j hph
      obtain ⟨hhold, hlater⟩ := h.submit j hph
      refine ⟨?_, fun q hq => hpages q (hlater q hq)⟩
      simp only [MdReq.inflight] at hcount hhold ⊢
      omega
    · intro hph
      have hhold := h.wait hph
      simp only [MdReq.inflight] at hcount hhold ⊢
      omega

end MdReq.Phased

theorem MdMove.phased {set : Nat} {o : Option MdReq} {r' : MdReq}
    (h : MdMove g s set a o (some r')) (hok : ∀ r, o = some r → r.Phased g ∧ r.Ok) :
    r'.Phased g := by
  generalize hsome : some r' = o' at h
  cases h with
  | same => exact (hok r' hsome.symm).1
  | join =>
    cases hsome
    cases o with
    | none => exact { MdReq.Phased.init g with }
    | some r => exact { (hok r rfl).1 with }
  | @start r hph =>
    cases hsome
    obtain ⟨hphased, hreq⟩ := hok r rfl
    -- the update takes over a list that is not empty
    have hpend : r.pending ≠ [] := by simpa [hphased.idle.mp hph] using hreq.busy
    constructor <;> simp [mdStarted, MdReq.inflight, hpend]
  | issue hph hp =>
    cases hsome
    exact (hok _ rfl).1.issue hph hp _ _
  | @skip r p refused hph =>
    cases hsome
    obtain ⟨hphased, -⟩ := hok r rfl
    obtain ⟨hhold, hlater⟩ := hphased.submit p hph
    refine ⟨by simpa [hph] using hphased.idle, by simp, ?_, by simp, hphased.bound⟩
    intro j hj
    obtain rfl : p + 1 = j := by simpa using hj
    exact ⟨hhold, fun q hq => hlater q (by omega)⟩
  | issued hph =>
    cases hsome
    exact (hok _ rfl).1.issued hph
  | sector =>
    cases hsome
    exact { (hok _ rfl).1 with }
  | done hpage =>
    cases hsome
    exact (hok _ rfl).1.done hpage _
  | post hph =>
    split at hsome
    · cases hsome
    · cases hsome
      have hquiet := (hok _ rfl).1.quiet (.inr hph)
      constructor <;> simp [hquiet]

/-! ## The requests of a bio -/

/-- `eio_cached_write` is at work on the bio, or has been. -/
def Bio.Caching (r : Req) (bc : Bio) : Prop :=
  (∃ j, bc.pc = .cwLock j) ∨ (∃ j, bc.pc = .cwSubmit j) ∨
    (bc.pc = .put ∨ bc.pc = .done) ∧ bc.main = .none ∧ r.dir = .write

/-- The sets of the ebios on `bc_mdlist`. -/
def Sys.mdSets (g : Geom) (s : Sys) (b : Nat) : Finset Nat :=
  ((s.bio b).mdlist.map fun k => s.setOf g (b, k)).toFinset

/-- A bio has enough requests: one for each of its sets while blocks are still to be
dirtied, and one for each set left to be handed over afterwards. -/
structure MdStock (g : Geom) (s : Sys) (b : Nat) : Prop where
  alloc : (s.bio b).Caching (s.req b) → (s.bio b).mdwait ≠ 0 → (s.bio b).endio = [] →
    (s.bio b).mdreqs = (s.bio b).locks.length ∨
      ∀ k < (s.req b).segs.length, (s.ebio (b, k)).st = .done
  enq : (s.bio b).enq = true → (s.bio b).mdlist ≠ [] ∧ (s.bio b).mdwait = 0 ∧
    (s.mdSets g b).card ≤ (s.bio b).mdreqs

theorem MdStock.stocked (h : MdStock g s b) : s.Stocked g b where
  some_left := fun henq => (h.enq henq).1
  req_left := fun henq k hk _ => by
    have hpos : 0 < (s.mdSets g b).card := by
      refine Finset.card_pos.mpr ⟨s.setOf g (b, k), ?_⟩
      rw [mdSets, List.mem_toFinset]
      exact List.mem_map.mpr ⟨k, List.mem_of_mem_head? hk, rfl⟩
    have := (h.enq henq).2.2
    omega

/-- Only a bio on the cached path has ebios that wait. -/
theorem Live.caching (hl : Live g s) {k : Nat} (hw : (s.ebio (b, k)).st.waiting = true) :
    (s.bio b).Caching (s.req b) := by
  have hb := hl.bio b
  have hnew : (s.ebio (b, k)).st ≠ .new := fun hn => by rw [hn] at hw; cases hw
  exact stage_eq_cwOpen ((hb.at_ k (hb.started (k := k) hnew).1).waiting hw).1

theorem Sys.hddDonePc_ne_none {r : Req} {bc : Bio} {err : Int} :
    s.hddDonePc r bc err ≠ .none := by
  simp only [hddDonePc]
  split
  · split <;> simp
  · split
    · simp
    split
    · simp
    split <;> simp

theorem Bio.put_open {bc : Bio} {now : Nat} (h : (Bio.put g now bc).endio = []) :
    Bio.put g now bc = { bc with holdcount := bc.holdcount - 1 } := by
  simp only [Bio.put] at h ⊢
  split at h
  · simp at h
  · next hne => rw [if_neg hne]

/-- A step that adds nothing to `bc_mdlist` and hands nothing over; on the cached path,
and as long as the bio is not ended, it leaves the requests alone as well. -/
structure Bio.SameMd (r : Req) (bc bc' : Bio) : Prop where
  mdlist : bc'.mdlist = bc.mdlist
  enq : bc'.enq = bc.enq
  mdwait : bc.Caching r → bc'.mdwait = bc.mdwait
  mdreqs : bc.Caching r → bc'.endio = [] →
    bc.endio = [] ∧ bc'.mdreqs = bc.mdreqs ∧ bc'.locks = bc.locks

theorem Bio.Caching.pc_ne {r : Req} {bc : Bio} (hc : bc.Caching r) {pc : MapPc} (hpc : bc.pc = pc) :
    (∃ j, pc = .cwLock j) ∨ (∃ j, pc = .cwSubmit j) ∨ pc = .put ∨ pc = .done := by
  subst hpc
  rcases hc with h | h | ⟨h, -⟩
  · exact .inl h
  · exact .inr (.inl h)
  · exact .inr (.inr h)

theorem Bio.SameMd.of_put {r : Req} {bc bc' : Bio} (now : Nat) (hlist : bc'.mdlist = bc.mdlist)
    (henq : bc'.enq = bc.enq) (hwait : bc'.mdwait = bc.mdwait) (hend : bc'.endio = bc.endio)
    (hreqs : bc'.mdreqs = bc.mdreqs) (hlocks : bc'.locks = bc.locks) :
    bc.SameMd r (Bio.put g now bc') := by
  refine ⟨(Bio.put_mdlist _ _).trans hlist, ?_, fun _ => ?_, fun _ hopen => ?_⟩
  · rw [← henq, Bio.put]
    split <;> rfl
  · rw [← hwait, Bio.put]
    split <;> rfl
  · have hput := Bio.put_open hopen
    rw [hput] at hopen ⊢
    exact ⟨hend ▸ hopen, hreqs, hlocks⟩

theorem dispatchBio_mdlist (dir : Dir) (bc : Bio) :
    (Sys.dispatchBio dir bc).mdlist = bc.mdlist ∧ (Sys.dispatchBio dir bc).enq = bc.enq := by
  simp only [dispatchBio]
  split <;> exact ⟨rfl, rfl⟩

/-- Only `eio_md_write` and `eio_enq_mdupdate` do more. -/
theorem BioMove.sameMd {bc : Bio} (h : BioMove g s b a bc) :
    (s.bio b).SameMd (s.req b) bc ∨
      (∃ k list, a = .ssdDone b k 0 ∧ 0 < (s.bio b).mdwait ∧ k ∈ list ∧
        bc = { s.bio b with
          mdlist := list
          mdwait := (s.bio b).mdwait - 1
          enq := (s.bio b).mdwait - 1 = 0 }) ∨
      a = .enqMd b := by
  have hout : ∀ {pc : MapPc} {p : Prop}, (s.bio b).pc = pc → (∀ j, pc ≠ .cwLock j) →
      (∀ j, pc ≠ .cwSubmit j) → pc ≠ .put ∧ pc ≠ .done → (s.bio b).Caching (s.req b) → p := by
    intro pc p hpc h1 h2 h3 hc
    rcases hc.pc_ne hpc with ⟨j, hj⟩ | ⟨j, hj⟩ | hj | hj
    · exact absurd hj (h1 j)
    · exact absurd hj (h2 j)
    · exact absurd hj h3.1
    · exact absurd hj h3.2
  cases h with
  | lock hpc | peek hpc | alloc hpc =>
    exact .inl ⟨rfl, rfl, hout hpc (by simp) (by simp) (by simp),
      hout hpc (by simp) (by simp) (by simp)⟩
  | enter hpc =>
    exact .inl ⟨rfl, rfl, fun _ => rfl, fun _ hopen => ⟨hopen, rfl, rfl⟩⟩
  | dispatch hpc =>
    obtain ⟨hlist, henq⟩ := dispatchBio_mdlist (s.req b).dir (s.bio b)
    exact .inl ⟨hlist, henq, hout hpc (by simp) (by simp) (by simp),
      hout hpc (by simp) (by simp) (by simp)⟩
  | put | mainEndio | ebEndio => exact .inl (.of_put _ rfl rfl rfl rfl rfl rfl)
  | mdWrite hpos =>
    exact .inr (.inl ⟨_, _, rfl, hpos, List.mem_append_right _ List.mem_cons_self, rfl⟩)
  | enq => exact .inr (.inr rfl)
  | path | refuse | disk | hddDone | main | xfer | same =>
    exact .inl ⟨rfl, rfl, fun _ => rfl, fun _ hopen => ⟨hopen, rfl, rfl⟩⟩

theorem Bio.Caching.congr {r : Req} {bc bc' : Bio} (h : bc'.Caching r) (hpc : bc'.pc = bc.pc)
    (hmain : bc'.main = bc.main) : bc.Caching r := by
  rwa [Bio.Caching, hpc, hmain] at h

/-- Past `eio_disk_io` a bio is not on the cached path. -/
theorem Bio.Caching.main_none {r : Req} {bc bc' : Bio} (h : bc'.Caching r)
    (hnot : ¬ bc.Caching r) (hpc : bc'.pc = bc.pc) : bc'.main = .none := by
  rcases h with ⟨j, hj⟩ | ⟨j, hj⟩ | ⟨-, hmain, -⟩
  · exact absurd (.inl ⟨j, hpc ▸ hj⟩) hnot
  · exact absurd (.inr (.inl ⟨j, hpc ▸ hj⟩)) hnot
  · exact hmain

/-- How a bio comes to the cached path: without a block to dirty, with requests for
all its sets, or at the end of the loop that gives up all its blocks. -/
theorem BioMove.enters {bc : Bio} (h : BioMove g s b a bc)
    (hnot : ¬ (s.bio b).Caching (s.req b)) (hc : bc.Caching (s.req b)) :
    bc.mdwait = 0 ∨ bc.mdreqs = bc.locks.length ∨
      (∃ k err, (s.bio b).pc = .cwFail k err ∧ (s.req b).segs.length ≤ k) ∨
      ∃ k, (s.bio b).pc = .cachedRead k ∧ (s.req b).dir = .write := by
  cases h with
  | lock | peek | refuse => simp [Bio.Caching] at hc
  | enter =>
    rcases enterPc_cases g (s.req b).forced (s.req b).sector (s.req b).nsect with
      ⟨_, _, hp, _⟩ | hp | ⟨hp, _⟩ <;> simp [Bio.Caching, hp] at hc
  | dispatch =>
    simp only [dispatchBio] at hc ⊢
    split at hc
    · simp [Bio.Caching] at hc
    · simp [Bio.Caching] at hc
    · exact .inl rfl
    · split at hc
      · simp [Bio.Caching] at hc
      · next hwait => exact .inl (by simpa using hwait)
  | alloc => exact .inr (.inl rfl)
  | path hp =>
    generalize hpc : (s.bio b).pc = pc at hp
    cases hp with
    | cachedReadEnd =>
      refine .inr (.inr (.inr ⟨_, rfl, ?_⟩))
      rcases hc with ⟨j, hj⟩ | ⟨j, hj⟩ | ⟨-, -, hdir⟩
      · cases hj
      · cases hj
      · exact hdir
    | cwFailEnd hk => exact .inr (.inr (.inl ⟨_, _, rfl, hk⟩))
    | cwLock | cwEnd => exact absurd (.inl ⟨_, hpc⟩) hnot
    | cwSubmit => exact absurd (.inr (.inl ⟨_, hpc⟩)) hnot
    | inval | invalidated | cachedRead | uwMiss | uwLock | uwSubmit | uwEnd | cwRefuse | cwFail =>
      simp [Bio.Caching] at hc
  | @disk refused =>
    by_cases hr : refused = 0 <;> simp [Bio.Caching, hr] at hc
  | put hpc =>
    refine absurd (.inr (.inr ⟨.inl hpc, ?_⟩)) hnot
    rcases hc with ⟨j, hj⟩ | ⟨j, hj⟩ | ⟨-, hmain, hdir⟩
    · rw [Bio.put_pc] at hj
      cases hj
    · rw [Bio.put_pc] at hj
      cases hj
    · rw [Bio.put_main] at hmain
      exact ⟨hmain, hdir⟩
  | hddDone hmain =>
    have hnone := hc.main_none hnot rfl
    exact absurd hnone hddDonePc_ne_none
  | main hm =>
    have hnone : _ = MainPc.none := hc.main_none hnot rfl
    subst hnone
    generalize (s.bio b).main = m at hm
    cases hm
  | mainEndio =>
    have hnone := hc.main_none hnot (Bio.put_pc _ _)
    rw [Bio.put_main] at hnone
    cases hnone
  | ebEndio => exact absurd (hc.congr (Bio.put_pc _ _) (Bio.put_main _ _)) hnot
  | xfer | mdWrite | enq | same => exact absurd (hc.congr rfl rfl) hnot

/-! ## The whole queue -/

/-- The metadata queue of a running driver. -/
structure MdQueue (g : Geom) (s : Sys) : Prop where
  sorted : ∀ b, (s.bio b).mdlist.Pairwise fun j k => s.setOf g (b, j) ≤ s.setOf g (b, k)
  phased : ∀ set r, s.mdreq set = some r → r.Phased g
  stock : s.bug = none → ∀ b, MdStock g s b
  enough : s.bug ≠ some .enqMdupdate

theorem MdQueue.init (g : Geom) : MdQueue g (Sys.init g) where
  sorted := by simp [Sys.init, Bio.absent]
  phased := by simp [Sys.init]
  stock := fun _ b => ⟨by simp [Sys.init, Bio.absent], by simp [Sys.init, Bio.absent]⟩
  enough := by simp [Sys.init]

theorem Sys.setOf_congr {k : Nat} (hreq : s'.req b = s.req b) :
    s'.setOf g (b, k) = s.setOf g (b, k) := by
  simp only [setOf, seg, hreq]

theorem MdQueue.sorted_act (h : MdQueue g s) (hblk : BlkInv g s) (hs : s.act g a = some s')
    (b : Nat) :
    (s'.bio b).mdlist.Pairwise fun j k => s'.setOf g (b, j) ≤ s'.setOf g (b, k) := by
  have hold := h.sorted b
  cases act_fate hblk hs b with
  | same hreq hbio => simpa only [hbio, setOf_congr hreq] using hold
  | new _ _ _ hbio => simp [hbio, newBio, Bio.absent]
  | move _ hreq hmove =>
    simp only [setOf_congr hreq]
    generalize s'.bio b = bc at hmove
    cases hmove with
    | mdWrite _ hbefore =>
      subst hbefore
      exact Sorted.pairwise_insert _ hold
    | enq hlist =>
      rw [hlist] at hold
      exact (List.pairwise_append.mp hold).2.1
    | put | mainEndio | ebEndio =>
      rw [Bio.put_mdlist]
      exact hold
    | dispatch =>
      rw [(dispatchBio_mdlist _ _).1]
      exact hold
    | lock | enter | peek | alloc | path | refuse | disk | hddDone | main | xfer | same =>
      exact hold

theorem MdQueue.phased_act (h : MdQueue g s) (hinv : Inv g s) (hbug : s.bug = none)
    (hs : s.act g a = some s') {set : Nat} {r : MdReq} (hr : s'.mdreq set = some r) :
    r.Phased g := by
  have hmove := act_mdMove hinv hbug (fun b => (h.stock hbug b).stocked) hs set
  rw [hr] at hmove
  exact hmove.phased fun r hr => ⟨h.phased set r hr, (hinv.live hbug).md.reqs set r hr⟩

theorem MdQueue.enough_act (h : MdQueue g s) (hbug : s.bug = none) (hs : s.act g a = some s') :
    s'.bug ≠ some .enqMdupdate := by
  intro hbug'
  rcases act_fails hs with hsame | ⟨x, hx, hfail⟩
  · rw [hsame, hbug] at hbug'
    cases hbug'
  · obtain rfl : x = .enqMdupdate := Option.some.inj (hfail.symm.trans hbug')
    have ha : ∃ b, a = .enqMd b := by
      cases a <;> simp_all [Act.asserts]
    obtain ⟨b, rfl⟩ := ha
    obtain ⟨set, group, rest, hg⟩ := (h.stock hbug b).stocked.act hs
    rw [hg.frame] at hbug'
    rw [hbug] at hbug'
    cases hbug'

/-- The sets of a bio's ebios that wait are among those it has locked. -/
theorem Live.mdSets_card (hl : Live g s) (hmode : g.mode = .wb) (b : Nat) :
    (s.mdSets g b).card ≤ (s.bio b).locks.length := by
  have hsub : s.mdSets g b ⊆ (s.bio b).locks.toFinset := by
    intro set hset
    rw [mdSets, List.mem_toFinset, List.mem_map] at hset
    obtain ⟨k, hk, rfl⟩ := hset
    have hst := (hl.md.list b k).mp hk
    exact List.mem_toFinset.mpr (hl.setOf_locked hmode (by simp [hst]) (by simp [hst]))
  exact (Finset.card_le_card hsub).trans (List.toFinset_card_le _)

/-- The group that is handed over is all of its set. -/
theorem EnqGroup.card {set : Nat} {group rest : List Nat} (hg : EnqGroup g s b s' set group rest)
    (hsorted : (s.bio b).mdlist.Pairwise fun j k => s.setOf g (b, j) ≤ s.setOf g (b, k)) :
    (s'.mdSets g b).card + 1 ≤ (s.mdSets g b).card := by
  have hset : ∀ k, s'.setOf g (b, k) = s.setOf g (b, k) := fun k =>
    setOf_congr (by rw [hg.frame])
  have hlist : (s'.bio b).mdlist = rest := by simp [hg.bio]
  have hnot : set ∉ s'.mdSets g b := by
    rw [mdSets, List.mem_toFinset, hlist]
    simp only [hset]
    rw [hg.list] at hsorted
    exact Sorted.not_mem_keys_of_group hsorted hg.ne hg.sets hg.next
  rw [← Finset.card_insert_of_notMem hnot]
  apply Finset.card_le_card
  intro x hx
  rw [mdSets, List.mem_toFinset, hg.list, List.map_append, List.mem_append]
  rcases Finset.mem_insert.mp hx with rfl | hx
  · obtain ⟨k, l, hcons⟩ := List.exists_cons_of_ne_nil hg.ne
    refine .inl (List.mem_map.mpr ⟨k, ?_, hg.sets k ?_⟩) <;> rw [hcons] <;> exact List.mem_cons_self
  · rw [mdSets, List.mem_toFinset, hlist] at hx
    simp only [hset] at hx
    exact .inr hx

theorem Live.caching_wb (hl : Live g s) (hc : (s.bio b).Caching (s.req b)) : g.mode = .wb := by
  have hpc := (hl.bio b).pc
  rcases hc with ⟨j, hj⟩ | ⟨j, hj⟩ | ⟨hj, hmain, hdir⟩
  · rw [hj] at hpc
    exact hpc.2.2.2.2
  · rw [hj] at hpc
    exact hpc.2.2.2.2.1
  · have hm := (pcOk_issued hj).mp hpc
    rw [hmain] at hm
    exact hm.2.2 hdir

section
variable (h : MdQueue g s) (hinv : Inv g s) (hbug : s.bug = none) (hs : s.act g a = some s')
include h hinv hbug hs

theorem MdQueue.done_act {k : Nat} (hk : (s.ebio (b, k)).st = .done) :
    (s'.ebio (b, k)).st = .done := by
  rcases act_done hinv hbug (fun b => (h.stock hbug b).stocked) hs hk with heb | ⟨heb, -⟩ <;>
    rw [heb] <;> exact hk

/-- Requests for blocks still to be dirtied. -/
theorem MdQueue.alloc_act (hmove : BioMove g s b a (s'.bio b))
    (hc' : (s'.bio b).Caching (s.req b)) (hwait : (s'.bio b).mdwait ≠ 0)
    (hopen : (s'.bio b).endio = []) :
    (s'.bio b).mdreqs = (s'.bio b).locks.length ∨
      ∀ k < (s.req b).segs.length, (s'.ebio (b, k)).st = .done := by
  have hst := h.stock hbug b
  have hdone : (∀ k < (s.req b).segs.length, (s.ebio (b, k)).st = .done) →
      ∀ k < (s.req b).segs.length, (s'.ebio (b, k)).st = .done :=
    fun hall k hk => h.done_act hinv hbug hs (hall k hk)
  by_cases hc : (s.bio b).Caching (s.req b)
  · rcases hmove.sameMd with hsame | ⟨k, list, -, hpos, -, hbc⟩ | rfl
    · obtain ⟨hend, hreqs, hlocks⟩ := hsame.mdreqs hc hopen
      rw [hsame.mdwait hc] at hwait
      rw [hreqs, hlocks]
      exact (hst.alloc hc hwait hend).imp_right hdone
    · rw [hbc] at hopen ⊢
      exact (hst.alloc hc (Int.ne_of_gt hpos) hopen).imp_right hdone
    · -- what is handed over is complete: no block is left to be dirtied
      have henq : (s.bio b).enq = true := (Option.ite_none_right_eq_some.mp hs).1
      obtain ⟨set, group, rest, hg⟩ := hst.stocked.act hs
      refine absurd ?_ hwait
      rw [hg.bio, Function.update_self]
      exact (hst.enq henq).2.1
  · rcases hmove.enters hc hc' with h0 | hreqs | ⟨k, err, hpc, hk⟩ | ⟨k, hpc, hdir⟩
    · exact absurd h0 hwait
    · exact .inl hreqs
    · refine .inr (hdone fun j hj => ?_)
      have hat := ((hinv.live hbug).bio b).at_ j hj
      rw [hpc] at hat
      simp only [stage, if_pos (Nat.lt_of_lt_of_le hj hk)] at hat
      exact hat
    · have hp := ((hinv.live hbug).bio b).pc
      rw [hpc] at hp
      rw [hp.2.2.2] at hdir
      cases hdir

/-- Requests for the sets still to be handed over. -/
theorem MdQueue.enq_act (hl' : Live g s') (hreq : s'.req b = s.req b)
    (hmove : BioMove g s b a (s'.bio b)) (henq' : (s'.bio b).enq = true) :
    (s'.bio b).mdlist ≠ [] ∧ (s'.bio b).mdwait = 0 ∧
      (s'.mdSets g b).card ≤ (s'.bio b).mdreqs := by
  have hl := hinv.live hbug
  have hst := h.stock hbug b
  -- a bio with an ebio on its list has not been ended, and is on the cached path
  have hlisted : ∀ {t : Sys} {k : Nat}, Live g t → k ∈ (t.bio b).mdlist →
      (t.bio b).endio = [] ∧ (t.bio b).Caching (t.req b) := by
    intro t k hlt hk
    have hk := (hlt.md.list b k).mp hk
    have hn := ((hlt.bio b).started (k := k) (by simp [hk])).1
    exact ⟨(hlt.bio b).unended hn (by simp [hk]), hlt.caching (k := k) (by rw [hk]; rfl)⟩
  rcases hmove.sameMd with hsame | ⟨k, list, -, hpos, hmem, hbc⟩ | rfl
  · obtain ⟨hne, hwait, hcard⟩ := hst.enq (hsame.enq ▸ henq')
    obtain ⟨k, l, hcons⟩ := List.exists_cons_of_ne_nil hne
    have hk : k ∈ (s.bio b).mdlist := by rw [hcons]; exact List.mem_cons_self
    obtain ⟨-, hc⟩ := hlisted hl hk
    obtain ⟨hopen, -⟩ := hlisted hl' (hsame.mdlist ▸ hk)
    have hsets : s'.mdSets g b = s.mdSets g b := by
      simp only [mdSets, hsame.mdlist, setOf_congr hreq]
    rw [hsame.mdlist, hsame.mdwait hc, hsets, (hsame.mdreqs hc hopen).2.1]
    exact ⟨hne, hwait, hcard⟩
  · -- the last block has been written
    have hk : k ∈ (s'.bio b).mdlist := by rw [hbc]; exact hmem
    obtain ⟨hopen, hc'⟩ := hlisted hl' hk
    have hwait : (s'.bio b).mdwait = 0 := by
      rw [hbc] at henq' ⊢
      exact of_decide_eq_true henq'
    refine ⟨List.ne_nil_of_mem hk, hwait, ?_⟩
    have hcard := hl'.mdSets_card (hl'.caching_wb hc') b
    have hreqs : (s.bio b).mdreqs = (s.bio b).locks.length ∨
        ∀ k < (s.req b).segs.length, (s.ebio (b, k)).st = .done := by
      rw [hreq] at hc'
      refine hst.alloc (hc'.congr ?_ ?_) (Int.ne_of_gt hpos) ?_
      · rw [hbc]
      · rw [hbc]
      · rwa [hbc] at hopen
    rcases hreqs with hreqs | hall
    · rw [hbc] at hcard ⊢
      exact hcard.trans (Nat.le_of_eq hreqs.symm)
    · have hst' := (hl'.md.list b k).mp hk
      have hn := ((hl'.bio b).started (k := k) (by simp [hst'])).1
      rw [hreq] at hn
      have hdone := h.done_act hinv hbug hs (hall k hn)
      rw [hst'] at hdone
      cases hdone
  · have henq : (s.bio b).enq = true := (Option.ite_none_right_eq_some.mp hs).1
    obtain ⟨-, hwait, hcard⟩ := hst.enq henq
    obtain ⟨set, group, rest, hg⟩ := hst.stocked.act hs
    have hfewer := hg.card (h.sorted b)
    rw [hg.bio, Function.update_self] at henq' ⊢
    refine ⟨of_decide_eq_true henq', hwait, ?_⟩
    dsimp only
    split <;> omega

end

theorem MdQueue.stock_act (h : MdQueue g s) (hinv : Inv g s) (hbug : s.bug = none)
    (hl' : Live g s') (hs : s.act g a = some s') (b : Nat) : MdStock g s' b := by
  cases act_fate hinv.blk hs b with
  | same hreq hbio =>
    have hst := h.stock hbug b
    refine ⟨?_, ?_⟩
    · rw [hbio, hreq]
      intro hc hwait hopen
      exact (hst.alloc hc hwait hopen).imp_right fun hall k hk =>
        h.done_act hinv hbug hs (hall k hk)
    · have hsets : s'.mdSets g b = s.mdSets g b := by
        simp only [mdSets, hbio, setOf_congr hreq]
      rw [hbio, hsets]
      exact hst.enq
  | @new dir sector nsect keep _ _ _ hbio =>
    have hpc : ¬ (s.newBio g (s.newReq g dir sector nsect) keep).Caching (s'.req b) := by
      intro hc
      have hpc := s.newBio_pc (g := g) (s.newReq g dir sector nsect) keep
      rcases hpc with ⟨-, hpc⟩ | ⟨-, hpc⟩
      · simpa using hc.pc_ne hpc
      · rcases enterPc_cases g (s.newReq g dir sector nsect).forced
          (s.newReq g dir sector nsect).sector (s.newReq g dir sector nsect).nsect with
          ⟨_, _, hp, _⟩ | hp | ⟨hp, _⟩ <;> simpa [hp] using hc.pc_ne hpc
    rw [← hbio] at hpc
    exact ⟨fun hc => absurd hc hpc, fun henq => by rw [hbio] at henq; cases henq⟩
  | move ha hreq hmove =>
    refine ⟨?_, h.enq_act hinv hbug hs hl' hreq hmove⟩
    rw [hreq]
    exact h.alloc_act hinv hbug hs hmove

theorem MdQueue.act (h : MdQueue g s) (hinv : Inv g s) (hbug : s.bug = none)
    (hs : s.act g a = some s') : MdQueue g s' where
  sorted := h.sorted_act hinv.blk hs
  phased := fun _ _ hr => h.phased_act hinv hbug hs hr
  stock := fun hbug' b => h.stock_act hinv hbug ((hinv.act hbug hs).live hbug') hs b
  enough := h.enough_act hbug hs

theorem Reachable.mdQueue (h : Reachable g P s) : MdQueue g s := by
  refine Run.Reach.invariant_with (fun hr => Reachable.inv hr) (MdQueue.init g) ?_ h
  intro s t a hinv _ hq _ hs
  obtain ⟨hbug, s', hact, rfl⟩ := of_step hs
  have h' := hq.act hinv hbug hact
  exact ⟨h'.sorted, h'.phased, fun hb b => ⟨(h'.stock hb b).alloc, (h'.stock hb b).enq⟩, h'.enough⟩

/-! ## The protocol -/

/-- The ebio is on one of the two lists of the request of its set, once, and on no list
of another set. -/
def Sys.Queued (g : Geom) (s : Sys) (e : EbId) : Prop :=
  (s.pending (s.setOf g e)).count e + (s.inprog (s.setOf g e)).count e = 1 ∧
    ∀ set, set ≠ s.setOf g e → e ∉ s.pending set ∧ e ∉ s.inprog set

/-- What holds of the queue at any time. -/
structure Sys.MdProtocol (g : Geom) (s : Sys) : Prop where
  sorted : ∀ b, (s.bio b).mdlist.Pairwise fun j k => s.setOf g (b, j) ≤ s.setOf g (b, k)
  /-- an ebio on a list of a request is on that list only -/
  single : ∀ set e, e ∈ s.pending set ∨ e ∈ s.inprog set → s.Queued g e
  /-- a request with waiting ebios and no update in progress has its work queued -/
  queued : ∀ set r, s.mdreq set = some r → r.pending ≠ [] → r.inprog = [] → r.phase = .queued
  /-- a bio has not run out of requests -/
  enough : s.bug ≠ some .enqMdupdate

/-- What a step does to an ebio of the queue. -/
structure Sys.MdStep (g : Geom) (s : Sys) (a : Act) (s' : Sys) (e : EbId) : Prop where
  /-- `eio_enq_mdupdate` loses none of the ebios it is given -/
  handed : a = .enqMd e.1 → e.2 ∈ (s.bio e.1).mdlist → e.2 ∈ (s'.bio e.1).mdlist ∨ s'.Queued g e
  /-- and only that puts an ebio on the lists of a request -/
  joins : s'.Queued g e → s.Queued g e ∨ a = .enqMd e.1 ∧ e.2 ∈ (s.bio e.1).mdlist
  /-- an ebio stays on the lists until `eio_post_mdupdate` ends it -/
  leaves : s.Queued g e → s'.Queued g e ∨
    a = .postMd (s.setOf g e) ∧ e ∈ s.inprog (s.setOf g e) ∧ (s.ebio e).todo = [] ∧
      (s.ebio e).ended = 0 ∧ ∃ err, s'.ebio e = (s.ebio e).endio err
  /-- and nothing ends it again or puts it back -/
  once : (s.ebio e).st = .done → (s'.ebio e).st = .done ∧ ¬ s'.Queued g e ∧
    (s'.ebio e).todo.length + (s'.ebio e).ended = 1

/-- The ebios of the queue, by their state. -/
theorem Live.queued_iff (hl : Live g s) :
    s.Queued g e ↔ (s.ebio e).st = .mdPend ∨ (s.ebio e).st = .mdProg := by
  have hpend := hl.md.pend (s.setOf g e) e
  have hprog := hl.md.prog (s.setOf g e) e
  have hcount : ∀ {l : List EbId}, l.Nodup → l.count e = if e ∈ l then 1 else 0 :=
    fun hnodup => List.Nodup.count hnodup
  rw [Sys.Queued, hcount (hl.md.pendNodup _), hcount (hl.md.progNodup _)]
  constructor
  · intro h
    by_cases hp : e ∈ s.pending (s.setOf g e)
    · exact .inl (hpend.mp hp).1
    · by_cases hq : e ∈ s.inprog (s.setOf g e)
      · exact .inr (hprog.mp hq).1
      · simp [hp, hq] at h
  · intro h
    refine ⟨?_, fun set hset => ⟨fun hmem => ?_, fun hmem => ?_⟩⟩
    · rcases h with h | h <;> simp [hpend, hprog, h]
    · exact hset ((hl.md.pend set e).mp hmem).2.symm
    · exact hset ((hl.md.prog set e).mp hmem).2.symm

/-- A failed assertion leaves the requests as they were. -/
theorem MdQueue.mdreq_of_bug (h : MdQueue g s) (hinv : Inv g s) (hbug : s.bug = none)
    (hs : s.act g a = some s') (hbug' : s'.bug ≠ none) : s'.mdreq = s.mdreq := by
  have hsame : s'.bug ≠ s.bug := by rwa [hbug]
  cases hb : a.bio with
  | some b =>
    by_cases henq : a = .enqMd b
    · subst henq
      obtain ⟨set, group, rest, hg⟩ := (h.stock hbug b).stocked.act hs
      exact absurd (by rw [hg.frame]) hsame
    · exact (act_moved hinv.blk hb henq hs).mdreq
  | none =>
    cases hmd : a.isMd with
    | false => exact (act_still hb hmd hs).1
    | true =>
      cases a <;> simp only [Act.isMd, Bool.false_eq_true] at hmd
      case doMd =>
        obtain ⟨r, -, -, ⟨x, -, rfl⟩ | ⟨-, -, hb⟩⟩ := act_doMd (hinv.live hbug) hs
        · rfl
        · exact absurd hb hsame
      case postMd =>
        obtain ⟨r, -, -, -, -, hb⟩ := act_postMd hinv hbug hs
        exact absurd hb hsame
      all_goals
        rcases act_fails hs with hb | ⟨x, hx, -⟩
        · exact absurd hb hsame
        · cases hx

theorem MdQueue.queued_of_bug (h : MdQueue g s) (hinv : Inv g s) (hbug : s.bug = none)
    (hs : s.act g a = some s') (hbug' : s'.bug ≠ none) : s'.Queued g e ↔ s.Queued g e := by
  have hmd := h.mdreq_of_bug hinv hbug hs hbug'
  have hreq : s'.req e.1 = s.req e.1 := by
    cases act_fate hinv.blk hs e.1 with
    | same hreq | move _ hreq => exact hreq
    | new ha =>
      subst ha
      rcases act_fails hs with hb | ⟨x, hx, -⟩
      · exact absurd (hb.trans hbug) hbug'
      · cases hx
  have hset : s'.setOf g e = s.setOf g e := setOf_congr (b := e.1) (k := e.2) hreq
  simp only [Sys.Queued, pending, inprog, hmd, hset]

/-- Where the ebios on the lists of a request come from. -/
theorem MdMove.mem {set : Nat} {o o' : Option MdReq} (h : MdMove g s set a o o')
    (hmem : e ∈ o'.elim [] (·.pending) ∨ e ∈ o'.elim [] (·.inprog)) :
    e ∈ o.elim [] (·.pending) ∨ e ∈ o.elim [] (·.inprog) ∨
      a = .enqMd e.1 ∧ e.2 ∈ (s.bio e.1).mdlist := by
  cases h with
  | same | issue | skip | issued | sector | done => exact hmem.imp_right .inl
  | @join b l o hne hl =>
    have hnew : e ∈ l → Act.enqMd b = .enqMd e.1 ∧ e.2 ∈ (s.bio e.1).mdlist := by
      intro he
      obtain ⟨hb, hk, -⟩ := hl e he
      rw [hb]
      exact ⟨rfl, hk⟩
    cases o with
    | none =>
      have he : e ∈ l := by simpa [MdReq.init] using hmem
      exact .inr (.inr (hnew he))
    | some r =>
      have hmem : (e ∈ l ∨ e ∈ r.pending) ∨ e ∈ r.inprog := by simpa using hmem
      rcases hmem with (he | he) | he
      · exact .inr (.inr (hnew he))
      · exact .inl he
      · exact .inr (.inl he)
  | start => exact .inl (by simpa [mdStarted] using hmem)
  | @post r =>
    by_cases hnil : r.pending = []
    · simp [hnil] at hmem
    · exact .inl (by simpa [hnil] using hmem)

theorem MdMove.attached {set : Nat} {o o' : Option MdReq} (h : MdMove g s set a o o')
    (ho : o.isSome = true) : o'.isSome = true ∨ a = .postMd set ∧ o.elim [] (·.pending) = [] := by
  cases h with
  | same => exact .inl ho
  | join | start | issue | skip | issued | sector | done => exact .inl rfl
  | @post r =>
    by_cases hnil : r.pending = []
    · exact .inr ⟨rfl, hnil⟩
    · exact .inl (by simp [hnil])

/-- An ebio that has been ended stays so: its `eb_endio` is carried out once. -/
theorem MdQueue.once (h : MdQueue g s) (hinv : Inv g s) (hbug : s.bug = none)
    (hs : s.act g a = some s') (hdone : (s.ebio e).st = .done) :
    (s'.ebio e).st = .done ∧ (s'.ebio e).todo.length + (s'.ebio e).ended = 1 := by
  have hone : (s.ebio e).todo.length + (s.ebio e).ended = 1 :=
    (((hinv.live hbug).bio e.1).ebs e.2).dead hdone
  rcases act_done hinv hbug (fun b => (h.stock hbug b).stocked) hs hdone with heb | ⟨heb, htodo⟩
  · rw [heb]
    exact ⟨hdone, hone⟩
  · rw [heb]
    refine ⟨hdone, ?_⟩
    show (s.ebio e).todo.tail.length + ((s.ebio e).ended + 1) = 1
    have hpos := List.length_pos_iff.mpr htodo
    rw [List.length_tail]
    omega

theorem MdQueue.mdStep (h : MdQueue g s) (hinv : Inv g s) (hbug : s.bug = none)
    (hs : s.act g a = some s') (e : EbId) : s.MdStep g a s' e := by
  have hl := hinv.live hbug
  have hstock := fun b => (h.stock hbug b).stocked
  by_cases hbug' : s'.bug = none
  · have hl' := (hinv.act hbug hs).live hbug'
    refine ⟨?_, ?_, ?_, ?_⟩
    · rintro rfl hmem
      obtain ⟨set, group, rest, hg⟩ := (hstock e.1).act hs
      rw [hg.list] at hmem
      rcases List.mem_append.mp hmem with hmem | hmem
      · have heb := hg.ebio e
        rw [if_pos (List.mem_map.mpr ⟨e.2, hmem, rfl⟩)] at heb
        exact .inr (hl'.queued_iff.mpr (.inl (by rw [heb])))
      · left
        rw [hg.bio, Function.update_self]
        exact hmem
    · intro hq'
      have hmem : e ∈ s'.pending (s'.setOf g e) ∨ e ∈ s'.inprog (s'.setOf g e) := by
        rcases hl'.queued_iff.mp hq' with hst | hst
        · exact .inl ((hl'.md.pend _ e).mpr ⟨hst, rfl⟩)
        · exact .inr ((hl'.md.prog _ e).mpr ⟨hst, rfl⟩)
      rcases (act_mdMove hinv hbug hstock hs (s'.setOf g e)).mem hmem with hp | hp | hnew
      · exact .inl (hl.queued_iff.mpr (.inl ((hl.md.pend _ e).mp hp).1))
      · exact .inl (hl.queued_iff.mpr (.inr ((hl.md.prog _ e).mp hp).1))
      · exact .inr hnew
    · intro hq
      have hst := hl.queued_iff.mp hq
      have hw : (s.ebio e).st.waiting = true := by rcases hst with hst | hst <;> rw [hst] <;> rfl
      cases act_ebFate hinv hbug hstock hs e with
      | same heb => exact .inl (hl'.queued_iff.mpr (by rw [heb]; exact hst))
      | work _ hfinds => rw [hfinds.not_waiting] at hw; cases hw
      | pend hlist => simp [hlist] at hst
      | prog _ heb => exact .inl (hl'.queued_iff.mpr (.inr (by rw [heb])))
      | post hprog _ heb =>
        have hopen := ((hl.bio e.1).ebs e.2).live (by simp [hprog])
        exact .inr ⟨rfl, (hl.md.prog _ e).mpr ⟨hprog, rfl⟩, hopen.1, hopen.2, _, heb⟩
    · intro hdone
      obtain ⟨hdone', hone⟩ := h.once hinv hbug hs hdone
      exact ⟨hdone', fun hq => by simpa [hdone'] using hl'.queued_iff.mp hq, hone⟩
  · -- the driver has stopped at an assertion, with the lists as they were
    have hiff : s'.Queued g e ↔ s.Queued g e := h.queued_of_bug hinv hbug hs hbug'
    refine ⟨?_, fun hq => .inl (hiff.mp hq), fun hq => .inl (hiff.mpr hq), fun hdone => ?_⟩
    · rintro rfl
      obtain ⟨set, group, rest, hg⟩ := (hstock e.1).act hs
      refine absurd ?_ hbug'
      rw [hg.frame]
      exact hbug
    · obtain ⟨hdone', hone⟩ := h.once hinv hbug hs hdone
      refine ⟨hdone', fun hq => ?_, hone⟩
      simpa [hdone] using hl.queued_iff.mp (hiff.mp hq)

/-- Every ebio on the lists of a request is on one of them, once. -/
theorem Reachable.single (h : Reachable g P s) (set : Nat) (e : EbId)
    (hmem : e ∈ s.pending set ∨ e ∈ s.inprog set) : s.Queued g e := by
  have hlive : ∀ {t : Sys}, Live g t → e ∈ t.pending set ∨ e ∈ t.inprog set → t.Queued g e := by
    intro t hl hmem
    refine hl.queued_iff.mpr (hmem.imp (fun hp => ?_) fun hp => ?_)
    · exact ((hl.md.pend set e).mp hp).1
    · exact ((hl.md.prog set e).mp hp).1
  by_cases hbug : s.bug = none
  · exact hlive (h.inv.live hbug) hmem
  · -- a driver that has stopped: the lists are those of the state before
    cases h with
    | init => exact absurd rfl hbug
    | @step s₀ _ a hr hp hs =>
      have hr : Reachable g P s₀ := hr
      obtain ⟨hbug₀, t, hact, rfl⟩ := of_step hs
      have hmd := hr.mdQueue.mdreq_of_bug hr.inv hbug₀ hact hbug
      have hq := hlive (hr.inv.live hbug₀) (by
        simpa only [pending, inprog, tick_mdreq, hmd] using hmem)
      exact (hr.mdQueue.queued_of_bug hr.inv hbug₀ hact hbug).mpr hq

/-- The protocol of the metadata updates, whatever is interleaved: `bc_mdlist` is sorted,
an ebio that has been handed over is on exactly one list of its set until
`eio_post_mdupdate` ends it, once; a request is detached only when nothing waits for it,
its work is queued whenever it has something to do and no update is in progress, and
there is always a request to attach. -/
theorem mdupdate_queue (h : Reachable g P s) :
    s.MdProtocol g ∧ ∀ a s', s.step g a = some s' →
      (∀ e, s.MdStep g a s' e) ∧
      ∀ set, (s.mdreq set).isSome = true →
        (s'.mdreq set).isSome = true ∨ a = .postMd set ∧ s.pending set = [] := by
  have hq := h.mdQueue
  refine ⟨⟨hq.sorted, h.single, ?_, hq.enough⟩, ?_⟩
  · intro set r hr _ hidle
    exact (hq.phased set r hr).idle.mpr hidle
  · intro a s' hs
    obtain ⟨hbug, t, hact, rfl⟩ := of_step hs
    refine ⟨fun e => ?_, fun set hsome => ?_⟩
    · have hstep := hq.mdStep h.inv hbug hact e
      exact ⟨hstep.handed, hstep.joins, hstep.leaves, hstep.once⟩
    · have hmove := act_mdMove h.inv hbug (fun b => (hq.stock hbug b).stocked) hact set
      exact hmove.attached hsome

/-- The run of a write that dirties one block, up to the metadata update. -/
theorem mdupdate_queue_dirty : ∃ s, Reachable smallCache (fun _ _ => True) s ∧
    s.pending 1 = [(0, 0)] ∧ s.MdProtocol smallCache ∧
    ∀ a s', s.step smallCache a = some s' →
      (∀ e, s.MdStep smallCache a s' e) ∧
      ∀ set, (s.mdreq set).isSome = true →
        (s'.mdreq set).isSome = true ∨ a = .postMd set ∧ s.pending set = [] := by
  obtain ⟨s, hs, hp⟩ := Reachable.run smallCache (dirtyingWrite.take 18)
    (R := fun s => s.pending 1 = [(0, 0)]) (by decide +kernel)
  exact ⟨s, hs, hp, mdupdate_queue hs⟩

end
end EnhanceIO
