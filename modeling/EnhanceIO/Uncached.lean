import EnhanceIO.Progress

/-!
# Reads and uncached writes come to their end

A bio that is not written to the SSD alone needs no metadata update: it is served by the
thread in `eio_map`, by its HDD I/O and by the SSD I/Os of its ebios. As long as the
devices take what is submitted, it always has an act to take until it has been completed,
and it takes only so many, unless `eio_inval_range` goes round without taking anything off
its range. Nothing is ended twice, and nothing before the I/O is over.
-/

namespace EnhanceIO

open State Sys

/-- A submission that the label names is accepted. -/
def Act.accepted : Act → Bool
  | .cachedRead _ refused | .uwSubmit _ refused | .cwSubmit _ refused | .diskIo _ refused
  | .readfillSubmit _ refused | .reread _ _ refused | .mdSubmit _ refused => refused = 0
  | _ => true

/-- `eio_map` serves the bio: it is past the set locks and the peeks. -/
def MapPc.served : MapPc → Bool
  | .absent | .lock _ | .spin | .peek _ => false
  | _ => true

/-- The bio is served as a read or as an uncached write. -/
structure Bio.Served (bc : Bio) : Prop where
  pc : bc.pc.served = true
  dir : bc.bcDir ≠ .cachedWrite

section
variable {g : Geom} {s s' : Sys} {a : Act} {b k : Nat} {P : Sys → Act → Prop} {bc : Bio}

/-! ## The path of the bio -/

theorem Stage.Ok.not_miss_reread {S : Stage} (h : S.Ok .miss .reread) : False := by
  cases S <;> simp [Stage.Ok] at h

theorem PathMove.served {n : Nat} {pc pc' : MapPc} (h : PathMove g n pc pc') :
    pc'.served = true := by
  cases h <;> rfl

theorem BioMove.served (h : (s.bio b).Served) (hm : BioMove g s b a bc) : bc.Served := by
  obtain ⟨hserved, hdir⟩ := h
  cases hm with
  | lock hpc | enter hpc | peek hpc | dispatch hpc =>
    rw [hpc] at hserved
    cases hserved
  | path hp => exact ⟨hp.served, hdir⟩
  | alloc | refuse | disk => exact ⟨rfl, hdir⟩
  | put =>
    refine ⟨by rw [Bio.put_pc]; rfl, ?_⟩
    rw [Bio.put]
    split <;> exact hdir
  | mainEndio | ebEndio =>
    refine ⟨by rw [Bio.put_pc]; exact hserved, ?_⟩
    rw [Bio.put]
    split <;> exact hdir
  | hddDone | main | xfer | mdWrite | enq | same => exact ⟨hserved, hdir⟩

theorem Sys.act_served (hinv : Inv g s) (hbug : s.bug = none) (hs : s.act g a = some s')
    (h : (s.bio b).Served) : (s'.bio b).Served := by
  cases act_fate hinv.blk hs b with
  | same _ hbio =>
    rw [hbio]
    exact h
  | new _ hnew =>
    have hpc := (hinv.live hbug).absent b (by omega)
    have hserved := h.pc
    rw [hpc] at hserved
    cases hserved
  | move _ _ hmove => exact hmove.served h

namespace Bio.Served

section
variable (h : (s.bio b).Served) (hl : Live g s) (hpath : (s.bio b).PathOk g (s.req b))
include h hl hpath

theorem not_cached (hdir : (s.req b).dir = .write) (hforced : (s.req b).forced = false) :
    (s.bio b).uc = true := by
  by_contra huc
  have hpc := (hl.bio b).pc
  refine h.dir (hpath.cached ?_ hforced hdir (by simpa using huc))
  have hserved := h.pc
  cases hp : (s.bio b).pc <;> rw [hp] at hserved hpc <;> first | rfl | cases hserved
  rw [hpc.2] at hforced
  cases hforced

theorem not_caching : ¬ (s.bio b).Caching (s.req b) := by
  intro hc
  obtain ⟨-, hforced, hdir, huc⟩ := hl.caching_path hc
  rw [h.not_cached hl hpath hdir hforced] at huc
  cases huc

theorem not_waiting (k : Nat) : (s.ebio (b, k)).st.waiting = false := by
  by_contra hw
  exact h.not_caching hl hpath (hl.caching (k := k) (by simpa using hw))

/-- No SSD write of the cached path is under way. -/
theorem ne_cw (k : Nat) : (s.ebio (b, k)).st ≠ .cw := by
  intro hst
  exact h.not_caching hl hpath (hl.caching_cw hst)

end

end Bio.Served

/-! ## No write of a dirty block is lost -/

theorem EbWork.not_lost {e : EbId} {eb : Ebio} (hw : EbWork s e a eb) (hacc : a.accepted = true)
    (h : ∀ disk, (s.ebio e).st ≠ .ucLost disk) (disk : Bool) : eb.st ≠ .ucLost disk := by
  cases hw with
  | uwLost _ _ _ hne => exact absurd (of_decide_eq_true hacc) hne
  | flagLost _ hst => exact absurd hst (h false)
  | sector | ended => exact h disk
  | _ => simp [Ebio.endio]

theorem Reachable.not_lost (h : Reachable g (fun _ a => a.accepted = true) s) (hbug : s.bug = none)
    (e : EbId) (disk : Bool) : (s.ebio e).st ≠ .ucLost disk := by
  refine h.ebio_invariant (Q := fun _ eb => ∀ disk, eb.st ≠ .ucLost disk) ?_ ?_ hbug e disk
  · intro _ disk
    simp [Ebio.init]
  · intro s s' a e hinv hbug hacc hact hbug' hheld hfate
    cases hfate with
    | same heq =>
      rw [heq]
      exact hheld
    | work htouch => exact (act_work hinv hbug hact hbug' htouch).not_lost hacc hheld
    | pend _ heq | prog _ heq | post _ _ heq =>
      rw [heq]
      simp [Ebio.endio]

/-! ## There is always something to do -/

/-- What an SSD submission is answered with. -/
def Sys.answer (s : Sys) : Int := if s.degraded then -5 else 0

theorem Sys.ssdAccepts_answer : s.ssdAccepts s.answer := by
  intro h0
  cases hd : s.degraded with
  | false => rfl
  | true => simp [answer, hd] at h0

/-- Nothing of the bio can happen, whatever the devices do. While the SSD is there, they
accept every submission. -/
def Sys.Stuck (g : Geom) (s : Sys) (b : Nat) : Prop :=
  ∀ a, a.bio = some b → (s.degraded = false → a.accepted = true) → s.act g a = none

namespace Sys.Stuck

theorem submit (h : s.Stuck g b) (act : Int → Act) (hbio : ∀ r, (act r).bio = some b)
    (hacc : (act 0).accepted = true) : s.act g (act s.answer) = none := by
  refine h _ (hbio _) fun hd => ?_
  rw [show s.answer = 0 by simp [answer, hd]]
  exact hacc

theorem thread (h : s.Stuck g b) (hserved : (s.bio b).pc.served = true) : (s.bio b).pc = .done := by
  have hacc := s.ssdAccepts_answer
  cases hpc : (s.bio b).pc <;> rw [hpc] at hserved
  case absent | lock | spin | peek => cases hserved
  case inval =>
    have hnone := h (.invalMap b) rfl fun _ => rfl
    simp only [act, stepInvalMap, hpc] at hnone
    split at hnone <;> cases hnone
  case cachedRead =>
    have hnone := h.submit (fun r => .cachedRead b r) (fun _ => rfl) rfl
    simp only [act, stepCachedRead, hpc, hacc, if_true] at hnone
    split at hnone <;> cases hnone
  case uwLock =>
    have hnone := h (.uwLock b) rfl fun _ => rfl
    simp only [act, stepUwLock, hpc] at hnone
    split at hnone <;> cases hnone
  case uwSubmit =>
    have hnone := h.submit (fun r => .uwSubmit b r) (fun _ => rfl) rfl
    simp only [act, stepUwSubmit, hpc, hacc, if_true] at hnone
    cases hnone
  case cwAlloc =>
    have hnone := h (.cwAlloc b 0) rfl fun _ => rfl
    simp only [act, stepCwAlloc, hpc] at hnone
    cases hnone
  case cwLock =>
    have hnone := h (.cwLock b) rfl fun _ => rfl
    simp only [act, stepCwLock, hpc] at hnone
    split at hnone <;> cases hnone
  case cwSubmit =>
    have hnone := h.submit (fun r => .cwSubmit b r) (fun _ => rfl) rfl
    simp only [act, stepCwSubmit, hpc, hacc, if_true] at hnone
    cases hnone
  case cwFail =>
    have hnone := h (.cwFail b) rfl fun _ => rfl
    simp only [act, stepCwFail, hpc] at hnone
    split at hnone <;> cases hnone
  case diskIo =>
    have hnone := h (.diskIo b 0) rfl fun _ => rfl
    simp only [act, stepDiskIo, hpc] at hnone
    cases hnone
  case put =>
    have hnone := h (.put b) rfl fun _ => rfl
    simp only [act, stepPut, hpc] at hnone
    cases hnone

theorem main (h : s.Stuck g b) : (s.bio b).main = .none ∨ (s.bio b).main = .done := by
  have hacc := s.ssdAccepts_answer
  cases hmain : (s.bio b).main
  case none => exact .inl rfl
  case done => exact .inr rfl
  case inflight =>
    have hnone := h (.hddDone b (-5)) rfl fun _ => rfl
    simp only [act, stepHddDone, hmain, true_and] at hnone
    rw [if_pos (fun h0 => absurd h0 (by decide))] at hnone
    split at hnone <;> cases hnone
  case inval =>
    have hnone := h (.invalMain b) rfl fun _ => rfl
    simp only [act, stepInvalMain, hmain] at hnone
    split at hnone <;> cases hnone
  case flag =>
    have hnone := h (.flag b) rfl fun _ => rfl
    simp only [act, stepFlag, hmain] at hnone
    split at hnone <;> cases hnone
  case readDone =>
    have hnone := h (.readDone b) rfl fun _ => rfl
    simp only [act, stepReadDone, hmain] at hnone
    split at hnone <;> cases hnone
  case readfillQ =>
    have hnone := h (.readfillStart b) rfl fun _ => rfl
    simp only [act, stepReadfillStart, hmain] at hnone
    cases hnone
  case readfill =>
    have hnone := h (.readfill b) rfl fun _ => rfl
    simp only [act, stepReadfill, hmain] at hnone
    split at hnone <;> cases hnone
  case readfillIssue =>
    have hnone := h.submit (fun r => .readfillSubmit b r) (fun _ => rfl) rfl
    simp only [act, stepReadfillSubmit, hmain, hacc, if_true] at hnone
    cases hnone
  case endio =>
    have hnone := h (.mainEndio b) rfl fun _ => rfl
    simp only [act, stepMainEndio, hmain] at hnone
    cases hnone

theorem ebio (h : s.Stuck g b) (hl : Live g s) (k : Nat) : (s.ebio (b, k)).st.inFlight = false ∧
    (s.ebio (b, k)).st ≠ .readFail ∧ (s.ebio (b, k)).todo = [] := by
  have hok := (hl.bio b).ebs k
  refine ⟨?_, fun hst => ?_, ?_⟩
  · by_contra hflight
    have hcases : Sys.EbSt.atSsd (s.ebio (b, k)).st = true ∨ (s.ebio (b, k)).st = .reread := by
      revert hflight
      cases (s.ebio (b, k)).st <;> simp [EbSt.inFlight, Sys.EbSt.atSsd]
      rename_i ssd disk
      cases ssd <;> simp
    rcases hcases with hst | hst
    · have hnone := h (.ssdDone b k (-5)) rfl fun _ => rfl
      simp only [act, stepSsdDone, hst, true_and] at hnone
      rw [if_pos (fun h0 => absurd h0 (by decide))] at hnone
      split at hnone
      · cases hnone
      · split at hnone <;> cases hnone
    · have hnone := h (.rereadDone b k (-5)) rfl fun _ => rfl
      simp only [act, stepRereadDone, hst, true_and] at hnone
      rw [if_pos (fun h0 => absurd h0 (by decide))] at hnone
      split at hnone
      · next hi =>
        have hrole := hok.index.mp hi
        have hat := (hl.bio b).at_ k ((hl.bio b).started (k := k) (by simp [hst])).1
        rw [hrole, hst] at hat
        exact hat.not_miss_reread
      · cases hnone
  · have hnone := h (.reread b k 0) rfl fun _ => rfl
    simp only [act, stepReread, hst, if_true] at hnone
    split at hnone <;> cases hnone
  · cases htodo : (s.ebio (b, k)).todo with
    | nil => rfl
    | cons =>
      have hnone := h (.ebEndio b k) rfl fun _ => rfl
      simp only [act, stepEbEndio, htodo] at hnone
      cases hnone

theorem enq (h : s.Stuck g b) : (s.bio b).enq = false := by
  cases henq : (s.bio b).enq with
  | false => rfl
  | true =>
    have hnone := h (.enqMd b) rfl fun _ => rfl
    simp only [act, stepEnqMd, henq, if_true] at hnone
    cases hnone

end Sys.Stuck

/-- A bio that is served and for which nothing can happen has been completed. -/
theorem Bio.Served.completed (h : Reachable g (fun _ a => a.accepted = true) s)
    (hbug : s.bug = none) (hserved : (s.bio b).Served) (hstuck : s.Stuck g b) : s.Completed b := by
  have hl := h.inv.live hbug
  have hwaits := hserved.not_waiting hl (h.pathOk b)
  have hmd : ∀ k set, ¬ ((b, k) ∈ s.pending set ∨ (b, k) ∈ s.inprog set) := by
    rintro k set (hmem | hmem)
    · have hw := hwaits k
      rw [((hl.md.pend set _).mp hmem).1] at hw
      cases hw
    · have hw := hwaits k
      rw [((hl.md.prog set _).mp hmem).1] at hw
      cases hw
  have hq : s.Quiesced g b := ⟨hbug, hstuck.thread hserved.pc, hstuck.main, hstuck.ebio hl,
    hstuck.enq, fun k set r hmem => absurd hmem (hmd k set)⟩
  by_contra hnot
  rcases hq.left_behind h hnot with hmixed | ⟨k, disk, hlost⟩ | ⟨k, set, r, hmem, -⟩
  · exact hserved.dir hmixed.1
  · exact h.not_lost hbug (b, k) disk hlost
  · exact hmd k set hmem

/-! ## No act of it fails an assertion -/

theorem Sys.startIndex_lt (hsize : g.size ≤ 2 ^ 31) {set : Nat} (hset : set < g.numSets) :
    Sys.startIndex g set < 2 ^ 31 := by
  have hle : g.assoc * (set + 1) ≤ g.size := Nat.mul_le_mul_left _ hset
  rw [Nat.mul_add, Nat.mul_one] at hle
  have hpos := g.assoc_pos
  exact Nat.lt_of_le_of_lt (Nat.mod_le _ _) (by omega)

/-- In a cache of up to `2 ^ 31` blocks an invalidation finds its blocks. -/
theorem Sys.invalBlockSetRange_bug_eq (hsize : g.size ≤ 2 ^ 31) (sector lo size : Nat)
    (multiblk : Bool) :
    (s.invalBlockSetRange g (g.hashBlock sector) lo size multiblk).bug = s.bug := by
  have hlt := startIndex_lt hsize (g.hashBlock_lt sector)
  simp only [invalBlockSetRange]
  rw [if_neg (by omega)]
  split
  · rfl
  · exact invalLoop_bug ..

theorem BlkInv.dbn_atSsd {e : EbId} {i : Nat} {S : Stage} (hb : BlkInv g s)
    (hsize : g.size ≤ 2 ^ 32) (hi : (s.ebio e).index = some i)
    (hat : S.Ok (s.ebio e).role (s.ebio e).st) (hst : Sys.EbSt.atSsd (s.ebio e).st = true) :
    s.dbn g i = s.want g e := by
  have howned : ∀ {f}, holds (s.ebio e).role (s.ebio e).st = some f → s.dbn g i = s.want g e :=
    fun hf => (hb.owned ⟨hi, hf⟩).2 hsize
  have hused : (s.ebio e).role = .dirty → s.dbn g i = s.want g e := by
    intro hr
    refine (hb.used ⟨hi, hr, fun hd => ?_⟩).2
    rw [hd] at hst
    cases hst
  rcases hat.atSsd hst with ⟨hst, ⟨-, hr⟩ | hr, -⟩ | ⟨-, hst, hr⟩ | ⟨-, hst, hr | hr⟩ |
    ⟨-, hst, hr | hr⟩ | ⟨-, hst, hr | hr⟩
  all_goals first
    | exact hused hr
    | exact howned (by rw [hr, hst]; rfl)

section
variable (h : Reachable g P s) (hbug : s.bug = none) (hsize : g.size ≤ 2 ^ 31)
include h hbug hsize

theorem Bio.Served.ssdDone_bug (hserved : (s.bio b).Served) {err : Int}
    (hs : s.act g (.ssdDone b k err) = some s') : s'.bug = none := by
  have hl := h.inv.live hbug
  have hblk := h.inv.blk
  have hok := (hl.bio b).ebs k
  simp only [act, stepSsdDone] at hs
  obtain ⟨⟨hst, -⟩, hs⟩ := Option.ite_none_right_eq_some.mp hs
  have hk := ((hl.bio b).started (k := k) (EbSt.atSsd_ne hst).1).1
  have hat := (hl.bio b).at_ k hk
  obtain ⟨i, hi⟩ := hok.atSsd_index hat hst
  have hd := hblk.dbn_atSsd (e := (b, k)) (by omega) hi hat hst
  simp only [hi] at hs
  rcases hat.atSsd hst with ⟨hrc, hr, -⟩ | ⟨-, hrf, hr⟩ | ⟨-, huc, hr⟩ | ⟨-, huc, hr⟩ | ⟨-, hcw, -⟩
  · simp only [hrc] at hs
    cases hs
    rw [(readCacheDone_spec err hblk hok hi hrc (hr.imp And.right id) hd).bug, hbug]
  · simp only [hrf] at hs
    cases hs
    rw [want, hl.aligned (e := (b, k)) hk hr] at hd
    rw [(readFillDone_spec err hblk hok hi hrf hr hd).bug, hbug]
  · simp only [huc] at hs
    cases hs
    rw [(writeCacheDone_open err hblk hok hd hi hr huc).2.bug, hbug]
  · simp only [huc] at hs
    cases hs
    rw [(writeCacheDone_closed err hblk hok hd hi hr huc).2.bug, hbug]
  · exact absurd hcw (hserved.ne_cw hl (h.pathOk b) k)

theorem Sys.main_bug (ha : a = .flag b ∨ a = .readfill b) (hs : s.act g a = some s') :
    s'.bug = none := by
  have hl := h.inv.live hbug
  have hblk := h.inv.blk
  rcases ha with rfl | rfl
  · simp only [act, stepFlag] at hs
    split at hs
    · next k inv err hmain =>
      split at hs <;> cases hs
      · next hk =>
        have hat := (hl.bio b).mainAt (by simp [hmain]) hk
        simp only [hmain, mainStage, Nat.lt_irrefl, if_false] at hat
        show (s.flagAbio g (b, k) inv).bug = none
        cases hdir : (s.req b).dir <;> rw [hdir] at hat
        · have hinv : inv = true := by
            have hok := (hl.bio b).mainOk (by simp [hmain])
            rw [hmain] at hok
            exact hok.2 hdir
          rw [hinv, (flagAbio_read hblk ((hl.bio b).ebs k) hat).bug, hbug]
        · rw [(flagAbio_write hblk ((hl.bio b).ebs k) inv hat).bug]
          split
          · rw [invalBlock, invalBlockSetRange_bug_eq hsize, hbug]
          · exact hbug
      · exact hbug
    · cases hs
  · simp only [act, stepReadfill] at hs
    split at hs
    · next k hmain =>
      split at hs <;> cases hs
      · next hk =>
        have hat := (hl.bio b).mainAt (by simp [hmain]) hk
        simp only [hmain, mainStage, Nat.lt_irrefl, if_false] at hat
        show (s.readfillLock g (b, k)).bug = none
        rcases readfillLock_spec hblk ((hl.bio b).ebs k) hat (hl.aligned (e := (b, k)) hk)
          with hh | ⟨hbig, -⟩
        · rw [hh.bug, hbug]
        · omega
      · exact hbug
    · cases hs

end

/-- The assertions on the state of a block never fail. -/
theorem Inv.act_bug (hinv : Inv g s) (hbug : s.bug = none) (hs : s.act g a = some s')
    (hasserts : ∀ x ∈ a.asserts, x.excluded = true) : s'.bug = none := by
  rcases act_fails hs with hsame | ⟨x, hx, hfail⟩
  · rw [hsame, hbug]
  · have hexcl := (hinv.act hbug hs).bug x hfail
    rw [hasserts x hx] at hexcl
    cases hexcl

/-- A block is at hand for every SSD I/O. -/
theorem Live.submit_bug (hl : Live g s) (hbug : s.bug = none)
    (ha : (∃ refused, a = .cachedRead b refused) ∨ ∃ refused, a = .uwSubmit b refused)
    (hs : s.act g a = some s') : s'.bug = none := by
  have hblock : ∀ {k : Nat} {S : Stage}, S.Ok (s.ebio (b, k)).role (s.ebio (b, k)).st →
      S = .readHit ∨ S = .ucIssue → ∃ i, (s.ebio (b, k)).index = some i := by
    intro k S hat hS
    refine Option.ne_none_iff_exists'.mp fun hi => ?_
    rw [((hl.bio b).ebs k).index.mp hi] at hat
    rcases hS with rfl | rfl <;> simp [Stage.Ok] at hat
  rcases ha with ⟨refused, rfl⟩ | ⟨refused, rfl⟩
  · simp only [act, stepCachedRead] at hs
    split at hs
    · next k hpc =>
      split at hs
      · next hk =>
        have hat := (hl.bio b).at_ k hk
        simp only [hpc, stage, Nat.lt_irrefl, if_false] at hat
        obtain ⟨i, hi⟩ := hblock hat (.inl rfl)
        obtain ⟨-, rfl⟩ := Option.ite_some_none_eq_some.mp hs
        simp only [hi]
        split
        · exact hbug
        · rw [updBio_bug, giveUp_bug, hbug]
      · cases hs
        exact hbug
    · cases hs
  · simp only [act, stepUwSubmit] at hs
    split at hs
    · next k hpc =>
      have hpcOk := (hl.bio b).pc
      rw [hpc] at hpcOk
      have hat := (hl.bio b).at_ k hpcOk.2.2.2
      simp only [hpc, stage, Nat.lt_irrefl, if_false, if_true] at hat
      obtain ⟨i, hi⟩ := hblock hat (.inr rfl)
      obtain ⟨-, rfl⟩ := Option.ite_some_none_eq_some.mp hs
      simp only [hi]
      split
      · exact hbug
      · simp only [uncachedWriteRefuse]
        split <;> simp [hbug]
    · cases hs

section
variable (h : Reachable g P s) (hbug : s.bug = none) (hserved : (s.bio b).Served)
include h hbug hserved

theorem Bio.Served.not_taken (ha : (∃ victim, a = .peek b victim) ∨ a = .cwLock b ∨
      (∃ refused, a = .cwSubmit b refused) ∨ a = .cwFail b ∨ a = .enqMd b) :
    s.act g a = none := by
  have hl := h.inv.live hbug
  have hpath := h.pathOk b
  have hpc' := hserved.pc
  have hpcOk := (hl.bio b).pc
  have hcached : ¬ ((s.req b).dir = .write ∧ (s.req b).forced = false ∧ (s.bio b).uc = false) := by
    rintro ⟨hdir, hforced, huc⟩
    rw [hserved.not_cached hl hpath hdir hforced] at huc
    cases huc
  rcases ha with ⟨victim, rfl⟩ | rfl | ⟨refused, rfl⟩ | rfl | rfl
  · simp only [act, stepPeek]
    split
    · next hpc =>
      rw [hpc] at hpc'
      cases hpc'
    · rfl
  · simp only [act, stepCwLock]
    split
    · next hpc =>
      rw [hpc] at hpcOk
      exact absurd ⟨hpcOk.2.2.2.1, hpcOk.2.1, hpcOk.2.2.1⟩ hcached
    · rfl
  · simp only [act, stepCwSubmit]
    split
    · next hpc =>
      rw [hpc] at hpcOk
      exact absurd ⟨hpcOk.2.2.2.1, hpcOk.2.1, hpcOk.2.2.1⟩ hcached
    · rfl
  · simp only [act, stepCwFail]
    split
    · next hpc =>
      rw [hpc] at hpcOk
      exact absurd ⟨hpcOk.2.2.2.1, hpcOk.2.1, hpcOk.2.2.1⟩ hcached
    · rfl
  · simp only [act, stepEnqMd]
    refine if_neg fun henq => ?_
    obtain ⟨k, hk⟩ := List.exists_mem_of_ne_nil _ ((h.mdQueue.stock hbug b).enq henq).1
    have hwait := hserved.not_waiting hl hpath k
    rw [(hl.md.list b k).mp hk] at hwait
    cases hwait

theorem Bio.Served.act_bug (hsize : g.size ≤ 2 ^ 31) (ha : a.bio = some b)
    (hs : s.act g a = some s') : s'.bug = none := by
  have hround : ∀ snum iosize, (s.invalRound g snum iosize).bug = none := by
    intro snum iosize
    rw [invalRound, invalBlockSetRange_bug_eq hsize, hbug]
  cases a <;> simp only [Act.bio, Option.some.injEq, reduceCtorEq] at ha <;> subst ha
  case invalMap | invalMain =>
    simp only [act, stepInvalMap, stepInvalMain] at hs
    split at hs
    · split at hs <;> cases hs
      · exact hbug
      · exact hround _ _
    · cases hs
  case cachedRead b _ | uwSubmit b _ =>
    exact (h.inv.live hbug).submit_bug (b := b) hbug (by simp) hs
  case flag b | readfill b => exact main_bug (b := b) h hbug hsize (by simp) hs
  case ssdDone => exact hserved.ssdDone_bug h hbug hsize hs
  case peek | cwLock | cwSubmit | cwFail | enqMd =>
    rw [hserved.not_taken h hbug (by simp)] at hs
    cases hs
  all_goals exact h.inv.act_bug hbug hs (by simp [Act.asserts, Bug.excluded, Bug.onState])

end

end

/-! ## The rounds of `eio_inval_range` -/

section
variable {g : Geom} {snum iosize : Nat}

theorem Sys.invalNext_gt (g : Geom) (snum : Nat) : snum < Sys.invalNext g snum :=
  (Nat.lt_div_mul_add g.sectorsPerSet_pos).trans_eq (Nat.succ_mul _ _).symm

theorem Sys.invalNext_le_add (g : Geom) (snum : Nat) :
    Sys.invalNext g snum ≤ snum + g.sectorsPerSet := by
  rw [invalNext, Nat.succ_mul]
  exact Nat.add_le_add_right (Nat.div_mul_le_self _ _) _

theorem Sys.invalInset_eq_zero_iff (hne : iosize ≠ 0) :
    Sys.invalInset g snum iosize = 0 ↔ 2 ^ 23 ∣ Sys.invalNext g snum - snum := by
  rw [invalInset, Nat.min_eq_zero_iff, Nat.dvd_iff_mod_eq_zero]
  omega

/-- A round can only take nothing off if a set has `2 ^ 23` sectors or more. -/
theorem Sys.setShift_of_stalled (hne : iosize ≠ 0) (hzero : Sys.invalInset g snum iosize = 0) :
    23 ≤ g.setShift := by
  have hdvd := (invalInset_eq_zero_iff hne).mp hzero
  have hgt := invalNext_gt g snum
  have hle := invalNext_le_add g snum
  have hlow := Nat.le_of_dvd (by omega) hdvd
  rw [g.sectorsPerSet_eq] at hle
  by_contra hlt
  have := Nat.pow_le_pow_right (n := 2) (by omega) (show g.setShift ≤ 22 by omega)
  omega

/-- Then the next round takes nothing off either. -/
theorem Sys.stalled_next (hne : iosize ≠ 0) (hzero : Sys.invalInset g snum iosize = 0) :
    Sys.invalInset g (Sys.invalNext g snum) iosize = 0 := by
  have hshift := setShift_of_stalled hne hzero
  have hset : invalNext g (invalNext g snum) = invalNext g snum + g.sectorsPerSet := by
    simp only [invalNext]
    rw [Nat.mul_div_cancel _ g.sectorsPerSet_pos, Nat.succ_mul (_ + 1)]
  rw [invalInset_eq_zero_iff hne, hset, Nat.add_sub_cancel_left, g.sectorsPerSet_eq]
  exact Nat.pow_dvd_pow 2 hshift

end

/-! ## Every run -/

/-- `t` comes after `s` in a run in which every submission is accepted, and no assertion
has failed. -/
structure Sys.Later (g : Geom) (s t : Sys) : Prop where
  run : Run.Reach (Sys.step g) (fun _ a => a.accepted = true) s t
  bug : t.bug = none

/-- No ebio has been ended twice, and neither has the bio; and that only when no I/O that
uses its pages is at a device. -/
structure Sys.EndedSafely (s : Sys) (b : Nat) : Prop where
  ebios : ∀ k, (s.ebio (b, k)).ended + (s.ebio (b, k)).todo.length ≤ 1
  bio : (s.bio b).endio.length ≤ 1
  afterIo : (s.bio b).endio ≠ [] → (s.bio b).pc = .done ∧ (s.bio b).main ≠ .inflight ∧
    ∀ k, (s.ebio (b, k)).st.inFlight = false

/-- From state `s` on, bio `b` and each of its ebios is ended exactly once, when its I/O is
over. -/
structure Sys.EndsOnce (g : Geom) (s : Sys) (b : Nat) : Prop where
  safe : ∀ t, s.Later g t → t.EndedSafely b
  /-- none of its acts fails an assertion -/
  sound : ∀ t a t', s.Later g t → a.bio = some b → Sys.step g t a = some t' → t'.bug = none
  /-- until it is completed it has an act to take; while the SSD is there, one with which
  every submission is accepted -/
  active : ∀ t, s.Later g t → ¬ t.Completed b →
    ∃ a t', a.bio = some b ∧ (t.degraded = false → a.accepted = true) ∧ Sys.step g t a = some t'
  /-- it takes only so many, whatever else happens -/
  bounded : ∃ n, ∀ as t, Run.exec (Sys.step g) (fun _ a => a.accepted) s as = some t →
    as.countP (fun a => a.bio = some b) ≤ n

section
variable {g : Geom} {s t t' : Sys} {a : Act} {b : Nat} {P : Sys → Act → Prop}

theorem Sys.step_of_act (hbug : s.bug = none) (hs : s.act g a = some t) :
    s.step g a = some (t.tick (s.now + 1)) := by
  simp [step, hbug, hs]

namespace Sys.Later

theorem refl (hbug : s.bug = none) : s.Later g s := ⟨.init, hbug⟩

theorem step (h : s.Later g t) (ha : a.accepted = true) (hs : t.step g a = some t')
    (hbug : t'.bug = none) : s.Later g t' := ⟨h.run.step a ha hs, hbug⟩

theorem reachable (h : s.Later g t) (hs : Reachable g (fun _ a => a.accepted = true) s) :
    Reachable g (fun _ a => a.accepted = true) t := hs.trans h.run

end Sys.Later

/-- A bio that is served stays so. -/
theorem Bio.Served.step (h : (s.bio b).Served) (hr : Reachable g P s) (hs : s.step g a = some t) :
    (t.bio b).Served := by
  obtain ⟨hbug, t, hact, rfl⟩ := of_step hs
  have hserved := act_served hr.inv hbug hact h
  exact hserved

theorem Bio.Served.later (h : (s.bio b).Served) (hs : Reachable g (fun _ a => a.accepted = true) s)
    (hlater : s.Later g t) : (t.bio b).Served := by
  obtain ⟨hrun, -⟩ := hlater
  induction hrun with
  | init => exact h
  | step a hr _ hstep ih => exact ih.step (hs.trans hr) hstep

/-- What has been ended in a state that is reached. -/
theorem Live.endedSafely (hl : Live g s) (hb : (s.bio b).pc ≠ .absent) : s.EndedSafely b := by
  have hbio := hl.bio b
  refine ⟨fun k => ?_, ?_, fun hne => ?_⟩
  · by_cases hst : (s.ebio (b, k)).st = .done
    · have := (hbio.ebs k).dead hst
      omega
    · obtain ⟨htodo, hended⟩ := (hbio.ebs k).live hst
      simp [htodo, hended]
  · by_cases hhold : (s.bio b).holdcount = 0
    · exact (hbio.isEnded hhold hb).1.le
    · simp [(hbio.notEnded hhold).1]
  · have hhold : (s.bio b).holdcount = 0 := by
      by_contra hhold
      exact hne (hbio.notEnded hhold).1
    rw [hbio.hold] at hhold
    have hmain := mainRef_nonneg (s.bio b).main
    have hmap := mapRef_nonneg (s.bio b).pc
    have hthread : mapRef (s.bio b).pc = 0 := by omega
    have hnone : mainRef (s.bio b).main = 0 := by omega
    have hopen : openEbios (s.req b).segs.length (fun k => s.ebio (b, k)) = 0 := by omega
    refine ⟨?_, fun hflight => ?_, fun k => ?_⟩
    · cases hpc : (s.bio b).pc <;> rw [hpc] at hthread hb <;> first | rfl | cases hthread
      exact absurd rfl hb
    · rw [hflight] at hnone
      cases hnone
    · cases hk : (s.ebio (b, k)).st.inFlight with
      | false => rfl
      | true =>
        have hnew : (s.ebio (b, k)).st ≠ .new := fun h => by rw [h] at hk; cases hk
        have hdone : (s.ebio (b, k)).st ≠ .done := fun h => by rw [h] at hk; cases hk
        have hlt := (hbio.started (k := k) hnew).1
        rw [openEbios, List.countP_eq_zero] at hopen
        have hended := hopen k (List.mem_range.mpr hlt)
        simp [((hbio.ebs k).live hdone).2] at hended

/-- The next round of a bio that is stalled: one more act, and it is stalled as before. -/
theorem Sys.Stalled.round (h : s.Stalled g b) : ∃ a t, a.bio = some b ∧ a.accepted = true ∧
    s.act g a = some t ∧ t.Stalled g b := by
  obtain ⟨snum, iosize, hne, hzero, hpc | ⟨err, hmain⟩⟩ := h
  · refine ⟨.invalMap b, _, rfl, rfl, by simp only [act, stepInvalMap, hpc, if_neg hne]; rfl,
      invalNext g snum, iosize, hne, stalled_next hne hzero, .inl ?_⟩
    simp [hzero]
  · refine ⟨.invalMain b, _, rfl, rfl,
      by simp only [act, stepInvalMain, hmain, if_neg hne]; rfl,
      invalNext g snum, iosize, hne, stalled_next hne hzero, .inr ⟨err, ?_⟩⟩
    simp [hzero]

/-- A bio that is stalled goes round and round. -/
theorem Sys.Stalled.rounds (h : s.Stalled g b) (hbug : s.bug = none)
    (hsound : ∀ t a t', s.Later g t → a.bio = some b → Sys.step g t a = some t' → t'.bug = none)
    (n : Nat) : ∃ as t, Run.exec (Sys.step g) (fun _ a => a.accepted) s as = some t ∧
      as.countP (fun a => a.bio = some b) = n ∧ s.Later g t ∧ t.Stalled g b := by
  induction n with
  | zero => exact ⟨[], s, rfl, rfl, .refl hbug, h⟩
  | succ n ih =>
    obtain ⟨as, t, hexec, hcount, hlater, hst⟩ := ih
    obtain ⟨a, t', ha, hacc, hact, hst'⟩ := hst.round
    have hstep := step_of_act hlater.bug hact
    have hbug' := hsound t a _ hlater ha hstep
    refine ⟨as ++ [a], _, ?_, ?_, hlater.step hacc hstep hbug', hst'⟩
    · rw [Run.exec_append, hexec]
      simp [Run.exec, hacc, hstep]
    · rw [List.countP_append, hcount]
      simp [ha]

theorem Sys.EndsOnce.not_stalled (h : s.EndsOnce g b) (hlater : s.Later g t) :
    ¬ t.Stalled g b := by
  intro hst
  obtain ⟨n, hn⟩ := h.bounded
  obtain ⟨as, has⟩ : ∃ as, Run.exec (step g) (fun _ a => a.accepted) s as = some t :=
    hlater.run.exists_exec fun _ _ ha => ha
  have hsound : ∀ u a u', t.Later g u → a.bio = some b → step g u a = some u' → u'.bug = none :=
    fun u a u' hu => h.sound u a u' ⟨hlater.run.trans hu.run, hu.bug⟩
  obtain ⟨rounds, u, hexec, hcount, -⟩ := hst.rounds hlater.bug hsound (n + 1)
  have hle := hn (as ++ rounds) u (by rw [Run.exec_append, has]; exact hexec)
  rw [List.countP_append, hcount] at hle
  omega

theorem Bio.Served.arrived {bc : Bio} (h : bc.Served) : bc.pc ≠ .absent := by
  intro hpc
  have hserved := h.pc
  rw [hpc] at hserved
  cases hserved

theorem Sys.step_bug (hbug : s.bug ≠ none) (a : Act) : s.step g a = none := by
  rw [step, if_pos (Option.isSome_iff_ne_none.mpr hbug)]

theorem BioMove.arrived {bc : Bio} (h : BioMove g s b a bc) (hb : (s.bio b).pc ≠ .absent) :
    bc.pc ≠ .absent := by
  cases h with
  | enter =>
    simp only [enterPc]
    repeat' split
    all_goals simp
  | dispatch =>
    simp only [dispatchBio]
    repeat' split
    all_goals simp
  | path h =>
    generalize (s.bio b).pc = pc at h
    cases h <;> simp
  | put | mainEndio | ebEndio =>
    rw [Bio.put_pc]
    first | exact hb | simp
  | lock | peek | alloc | refuse | disk => simp
  | _ => exact hb

theorem Reachable.acts_bounded (h : Reachable g P s) {ok : Sys → Act → Bool}
    (hok : ∀ s a, ok s a = true → P s a) (hbug : s.bug = none) (hb : (s.bio b).pc ≠ .absent)
    (hst : ∀ t, Run.Reach (Sys.step g) P s t → t.bug = none → ¬ t.Stalled g b) {as : List Act}
    (has : Run.exec (Sys.step g) ok s as = some t) :
    as.countP (fun a => a.bio = some b) ≤ s.left b + 1 := by
  let I : Sys → Prop := fun t =>
    Run.Reach (step g) P s t ∧ t.bug = none ∧ (t.bio b).pc ≠ .absent
  refine Run.exec_countP_le (I := I) (fun t => t.left b) _ ?_ ⟨.init, hbug, hb⟩ has
  rintro u a v ⟨hu, hbugu, hpc⟩ hacc hs
  have hr : Reachable g P u := h.trans hu
  have hv := hu.step a (hok _ _ hacc) hs
  obtain ⟨-, w, hact, rfl⟩ := of_step hs
  by_cases hbugw : w.bug = none
  · have hstock := fun b => (hr.mdQueue.stock hbugu b).stocked
    have hpcw : (w.bio b).pc ≠ .absent := by
      cases act_fate hr.inv.blk hact b with
      | same _ hbio => rwa [hbio]
      | new _ hb => exact absurd ((hr.inv.live hbugu).absent b (by omega)) hpc
      | move _ _ hm => exact hm.arrived hpc
    refine .inl ⟨⟨hv, hbugw, hpcw⟩, ?_⟩
    show w.left b + _ ≤ _
    by_cases ha : a.bio = some b
    · have hlt := act_left_lt hr.inv hbugu hstock hact hbugw ha (hst u hu hbugu)
      simp only [ha, decide_true, Bool.toNat_true]
      omega
    · have hle := act_left_le hr.inv hbugu hstock hact hbugw hpc ha
      simp only [ha, decide_false, Bool.toNat_false]
      omega
  · exact .inr (step_bug hbugw)

theorem Bio.Served.acts_bounded (hserved : (s.bio b).Served)
    (h : Reachable g (fun _ a => a.accepted = true) s) (hbug : s.bug = none)
    (hst : ∀ t, s.Later g t → ¬ t.Stalled g b) {as : List Act}
    (has : Run.exec (Sys.step g) (fun _ a => a.accepted) s as = some t) :
    as.countP (fun a => a.bio = some b) ≤ s.left b + 1 :=
  h.acts_bounded (fun _ _ ha => ha) hbug hserved.arrived (fun t ht hbug => hst t ⟨ht, hbug⟩) has

/-- A read or an uncached write, from the moment it is served and as long as the devices
accept what is submitted: it and each of its ebios is ended exactly once, and only when its
I/O is over, unless it comes to a round of `eio_inval_range` that takes nothing off. -/
theorem uncached_completes_iff (hsize : g.size ≤ 2 ^ 31)
    (h : Reachable g (fun _ a => a.accepted = true) s) (hbug : s.bug = none)
    (hserved : (s.bio b).Served) :
    s.EndsOnce g b ↔ ∀ t, s.Later g t → ¬ t.Stalled g b := by
  constructor
  · intro hends t hlater
    exact hends.not_stalled hlater
  · intro hst
    refine ⟨fun t ht => ?_, fun t a t' ht ha hs => ?_, fun t ht hopen => ?_, s.left b + 1, ?_⟩
    · have hr := ht.reachable h
      exact (hr.inv.live ht.bug).endedSafely (hserved.later h ht).arrived
    · obtain ⟨hbugt, u, hact, rfl⟩ := of_step hs
      have hbugu := (hserved.later h ht).act_bug (ht.reachable h) hbugt hsize ha hact
      exact hbugu
    · by_contra hnone
      refine hopen ((hserved.later h ht).completed (ht.reachable h) ht.bug fun a ha hacc => ?_)
      cases hact : t.act g a with
      | none => rfl
      | some u => exact absurd ⟨a, _, ha, hacc, step_of_act ht.bug hact⟩ hnone
    · intro as t has
      exact hserved.acts_bounded h hbug hst has

/-- A set of less than 4 GiB is never too large for a round. -/
theorem Sys.not_stalled (hshift : g.setShift < 23) : ¬ s.Stalled g b := by
  rintro ⟨snum, iosize, hne, hzero, -⟩
  have := setShift_of_stalled hne hzero
  omega

theorem Sys.Stalled.open (h : s.Stalled g b) (hl : Live g s) :
    (s.bio b).endio = [] ∧ ¬ s.Completed b := by
  have hbio := hl.bio b
  have hmain := mainRef_nonneg (s.bio b).main
  have hmap := mapRef_nonneg (s.bio b).pc
  have hhold : (s.bio b).holdcount ≠ 0 := by
    obtain ⟨snum, iosize, -, -, hpc | ⟨err, hmain'⟩⟩ := h
    · have hone : mapRef (s.bio b).pc = 1 := by
        rw [hpc]
        rfl
      rw [hbio.hold]
      omega
    · have hone : mainRef (s.bio b).main = 1 := by
        rw [hmain']
        rfl
      rw [hbio.hold]
      omega
  exact ⟨(hbio.notEnded hhold).1, fun hc => hhold hc.holdcount⟩

end

/-! ## Concrete runs -/

/-- A read that misses is served from the HDD, and completes. -/
theorem uncached_completes_miss : smallCache.size ≤ 2 ^ 31 ∧
    ∃ s, Reachable smallCache (fun _ a => a.accepted = true) s ∧ (s.bio 0).Served ∧
      (s.bio 0).bcDir = .uncachedReadAndReadfill ∧ s.EndsOnce smallCache 0 := by
  refine ⟨by decide, ?_⟩
  obtain ⟨s, hs, hbug, hpc, hdir⟩ : ∃ s,
      Reachable smallCache (fun _ a => a.accepted = true) s ∧ s.bug = none ∧
        (s.bio 0).pc.served = true ∧ (s.bio 0).bcDir = .uncachedReadAndReadfill :=
    Run.Reach.of_run (fun (_ : Sys) (a : Act) => a.accepted) (fun _ _ h => h)
      [.map .read 2048 8 false, .lock 0, .lock 0, .peek 0 none, .dispatch 0] (by decide +kernel)
  have hserved : (s.bio 0).Served := ⟨hpc, by simp [hdir]⟩
  exact ⟨s, hs, hserved, hdir, (uncached_completes_iff (by decide) hs hbug hserved).mpr
    fun _ _ => not_stalled (by decide)⟩

/-- A write-through cache of 4 sets of 512 blocks of 8 MiB. -/
def wideSets : Geom := .ofSizes .wt 14 9 4 (2 ^ 26) (by decide)

/-- The HDD fails a read of the first sector: the range of the bio is to be invalidated, and
the driver goes round without end. -/
theorem uncached_read_stalls : ∃ s, Reachable wideSets (fun _ a => a.accepted = true) s ∧
    (s.bio 0).Served ∧ (s.bio 0).bcDir = .uncachedRead ∧ ¬ s.EndsOnce wideSets 0 ∧
    ∀ n, ∃ as t, Run.exec (Sys.step wideSets) (fun _ a => a.accepted) s as = some t ∧
      as.countP (fun a => a.bio = some 0) = n ∧ (t.bio 0).endio = [] ∧ ¬ t.Completed 0 := by
  obtain ⟨s, hs, hbug, hpc, hdir, hmain⟩ : ∃ s,
      Reachable wideSets (fun _ a => a.accepted = true) s ∧ s.bug = none ∧
        (s.bio 0).pc.served = true ∧ (s.bio 0).bcDir = .uncachedRead ∧
        (s.bio 0).main = .inval 0 512 (-5) :=
    Run.Reach.of_run (fun (_ : Sys) (a : Act) => a.accepted) (fun _ _ h => h)
      [.map .read 0 1 false, .peek 0 none, .dispatch 0, .diskIo 0 0, .put 0, .hddDone 0 (-5)]
      (by decide +kernel)
  have hserved : (s.bio 0).Served := ⟨hpc, by simp [hdir]⟩
  have hst : s.Stalled wideSets 0 := ⟨0, 512, by decide, by decide, .inr ⟨-5, hmain⟩⟩
  have hsound : ∀ t a t', s.Later wideSets t → a.bio = some 0 → step wideSets t a = some t' →
      t'.bug = none := by
    intro t a t' ht ha hstep
    obtain ⟨hbugt, u, hact, rfl⟩ := of_step hstep
    have hbugu := (hserved.later hs ht).act_bug (ht.reachable hs) hbugt (by decide) ha hact
    exact hbugu
  refine ⟨s, hs, hserved, hdir, fun hends => hends.not_stalled (.refl hbug) hst, fun n => ?_⟩
  obtain ⟨as, t, hexec, hcount, hlater, hstalled⟩ := hst.rounds hbug hsound n
  exact ⟨as, t, hexec, hcount, hstalled.open ((hlater.reachable hs).inv.live hlater.bug)⟩

end EnhanceIO
