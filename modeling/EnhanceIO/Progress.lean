import EnhanceIO.Completion
import EnhanceIO.HddErrors
import Mathlib.Algebra.Order.BigOperators.Group.Finset

/-!
# What is left to do for a bio

Every act of a bio brings it closer to its end: the thread and the completion of the HDD
I/O go on through their loops, a device transfers one more sector, an ebio goes on to its
next state. `Sys.left` adds up what is left; an act of the bio lowers it, and the acts of
others do not raise it. So a bio takes a bounded number of acts, with one exception:
`eio_inval_range` counts the bytes of a range in a set in an unsigned int, and with sets of
4 GiB or more a round can take no byte off.
-/

namespace EnhanceIO

open State Sys

/-! ## Transfers -/

/-- Sectors from `sector` on that have not been transferred. -/
def unmoved (xfer : Nat → Bool) (sector nsect : Nat) : Nat :=
  (List.range' sector nsect).countP fun x => !xfer x

section
variable {xfer : Nat → Bool} {sector nsect x : Nat}

theorem unmoved_le (xfer : Nat → Bool) (sector nsect : Nat) :
    unmoved xfer sector nsect ≤ nsect := by
  have hle := List.countP_le_length (p := fun x => !xfer x) (l := List.range' sector nsect)
  rwa [List.length_range'] at hle

theorem unmoved_update (hlo : sector ≤ x) (hhi : x < sector + nsect) (hx : xfer x = false) :
    unmoved (Function.update xfer x true) sector nsect < unmoved xfer sector nsect := by
  have hmem : x ∈ List.range' sector nsect := by
    rw [List.mem_range'_1]
    exact ⟨hlo, hhi⟩
  have hchange := Count.countP_change (p := fun y => !xfer y)
    (q := fun y => !Function.update xfer x true y) (a := x) List.nodup_range' hmem
    (fun y hy => by simp [hy])
  simp only [Function.update_self, hx, Bool.not_false, Bool.not_true, Bool.toNat_true,
    Bool.toNat_false] at hchange
  simp only [unmoved]
  omega

end

/-! ## Ebios -/

/-- How far an ebio is from its end. -/
def EbSt.left : EbSt → Nat
  | .new => 9
  | .peeked => 8
  | .fillIssue | .dirtyIssue | .ucIssue | .cwIssue => 7
  | .readCache | .readFill | .uc false false | .cw => 6
  | .readFail => 5
  | .reread | .uc true false | .uc false true | .mdList => 4
  | .ucLost false | .mdPend => 3
  | .ucLost true | .mdProg => 2
  | .uc true true => 1
  | .done => 0

/-- What is left to do for an ebio: the states ahead of it, the sectors of the I/O that is
at a device, and the calls of `eb_endio` to carry out. -/
def Ebio.left (seg : Seg) (eb : Ebio) : Nat :=
  eb.st.left * (seg.nsect + 2) +
    (if eb.st.inFlight then unmoved eb.xfer seg.sector seg.nsect else 0) + eb.todo.length

section
variable {g : Geom} {s s' : Sys} {a : Act} {b k : Nat} {e : EbId} {eb eb' : Ebio} {seg : Seg}

/-- An ebio in a later state has less to do, also if `eb_endio` has just been called. -/
theorem Ebio.left_lt (hst : eb'.st.left < eb.st.left)
    (htodo : eb'.todo.length ≤ eb.todo.length + 1) : eb'.left seg < eb.left seg := by
  have hmoved : (if eb'.st.inFlight then unmoved eb'.xfer seg.sector seg.nsect else 0) ≤
      seg.nsect := by
    split
    · exact unmoved_le _ _ _
    · exact Nat.zero_le _
  have hstates : (eb'.st.left + 1) * (seg.nsect + 2) ≤ eb.st.left * (seg.nsect + 2) :=
    Nat.mul_le_mul_right _ hst
  rw [Nat.add_mul, Nat.one_mul] at hstates
  simp only [Ebio.left]
  omega

theorem EbWork.left_lt (hw : EbWork s e a eb) : eb.left (s.seg e) < (s.ebio e).left (s.seg e) := by
  cases hw with
  | sector hst _ hx hfirst =>
    have hflight : (s.ebio e).st.inFlight = true := by
      rcases hst with hst | hst
      · revert hst
        cases (s.ebio e).st <;> simp [Sys.EbSt.atSsd, EbSt.inFlight]
        rename_i ssd disk
        cases ssd <;> simp
      · rw [hst]
        rfl
    have hlt := unmoved_update hx.1 hx.2 hfirst
    simp only [Ebio.left, hflight, if_true]
    omega
  | ended hst hne =>
    have hlen := List.length_pos_of_ne_nil hne
    simp only [Ebio.left, hst, EbSt.inFlight, List.length_tail]
    simp only [Bool.false_eq_true, if_false]
    omega
  | readRefused _ hst _ | cwFail _ hst | cwRefused _ hst | readOver _ hst | flagLast _ hst
  | rereadRefused hst | rereadDone hst =>
    exact Ebio.left_lt (by simp [hst, Ebio.endio, EbSt.left]) (by simp [Ebio.endio])
  | fillRefused hst | readDone hst =>
    refine Ebio.left_lt ?_ (by simp [Ebio.endio])
    rcases hst with hst | hst <;> simp [hst, Ebio.endio, EbSt.left]
  | writeDone hst =>
    refine Ebio.left_lt ?_ (by simp [Ebio.endio])
    rcases hst with hst | ⟨hst, -⟩ <;> simp [hst, Ebio.endio, EbSt.left]
  | peek _ hst | cachedRead _ hst | uwMiss _ hst | uwDirty _ hst | uwClean _ hst | uwSubmit _ hst
  | uwLost _ hst | uwRefused _ hst | cwLock _ hst | cwSubmit _ hst | flagFirst _ hst
  | flagLost _ hst | fillIssue _ hst | dirtyIssue _ hst =>
    exact Ebio.left_lt (by simp [hst, EbSt.left]) (by simp)
  | fillSubmit hst | dirtySubmit hst | readFailed hst | ucFirst hst | written hst | reread hst =>
    exact Ebio.left_lt (by simp [hst, EbSt.left]) (by simp)

/-- What is left to do for the ebios of a bio. -/
def Sys.ebiosLeft (s : Sys) (b : Nat) : Nat :=
  ∑ k ∈ Finset.range (s.req b).segs.length, (s.ebio (b, k)).left (s.seg (b, k))

end

/-! ## The container -/

/-- How far the completion of the HDD I/O of a bio of `n` ebios and `nsect` sectors is from
its end. -/
def MainPc.left (n nsect : Nat) : MainPc → Nat
  | .none | .done => 0
  | .endio _ => 1
  | .flag k _ _ | .readDone k => n - k + 2
  | .readfillIssue k => 2 * (n - k) + 2
  | .readfill k => 2 * (n - k) + 3
  | .readfillQ => 2 * n + 4
  | .inval _ iosize _ => iosize + n + 3
  | .inflight => nsect * 512 + 2 * n + 5

/-- The same for the thread in `eio_map`. At `eio_disk_io` the HDD I/O is still ahead. -/
def MapPc.left (n nsect : Nat) : MapPc → Nat
  | .absent | .spin | .done => 0
  | .put => 1
  | .cachedRead k | .cwFail k _ => n - k + 2
  | .cwSubmit k => 2 * (n - k) + 2
  | .cwLock k => 2 * (n - k) + 3
  | .cwAlloc => 2 * n + 4
  | .diskIo => nsect * 513 + 2 * n + 7
  | .uwSubmit k => 2 * (n - k) + nsect * 513 + 2 * n + 8
  | .uwLock k => 2 * (n - k) + nsect * 513 + 2 * n + 9
  | .inval _ iosize => iosize + nsect * 513 + 2 * n + 8
  | .peek k => n - k + nsect * 513 + 4 * n + 10
  | .lock rest => rest.length + nsect * 1025 + 5 * n + 11

/-- What is left to do in the container of a bio. -/
def Bio.left (r : Req) (bc : Bio) : Nat :=
  bc.pc.left r.segs.length r.nsect + bc.main.left r.segs.length r.nsect +
    if bc.main = .inflight then unmoved bc.mainXfer r.sector r.nsect else 0

/-- What is left to do for a bio. -/
def Sys.left (s : Sys) (b : Nat) : Nat := (s.bio b).left (s.req b) + s.ebiosLeft b

/-- The bio is at a round of `eio_inval_range` that takes no byte off the range. -/
def Sys.Stalled (g : Geom) (s : Sys) (b : Nat) : Prop :=
  ∃ snum iosize, iosize ≠ 0 ∧ Sys.invalInset g snum iosize = 0 ∧
    ((s.bio b).pc = .inval snum iosize ∨ ∃ err, (s.bio b).main = .inval snum iosize err)

section
variable {g : Geom} {s s' : Sys} {a : Act} {b k n nsect : Nat} {bc bc' : Bio} {r : Req}

theorem PathMove.left_lt {pc pc' : MapPc} (h : PathMove g n pc pc')
    (hk : ∀ k, pc = .uwSubmit k ∨ pc = .cwSubmit k → k < n)
    (hround : ∀ snum iosize, pc = .inval snum iosize → iosize ≠ 0 →
      0 < Sys.invalInset g snum iosize) : pc'.left n nsect < pc.left n nsect := by
  cases h with
  | @inval snum iosize hne =>
    have hpos := hround snum iosize rfl hne
    simp only [MapPc.left]
    omega
  | uwSubmit =>
    have := hk _ (.inl rfl)
    simp only [MapPc.left]
    omega
  | cwSubmit =>
    have := hk _ (.inr rfl)
    simp only [MapPc.left]
    omega
  | _ =>
    simp only [MapPc.left]
    omega

theorem MainMove.left_lt {main main' : MainPc} (h : MainMove g n main main')
    (hk : ∀ k, main = .readfillIssue k → k < n)
    (hround : ∀ snum iosize err, main = .inval snum iosize err → iosize ≠ 0 →
      0 < Sys.invalInset g snum iosize) : main'.left n nsect < main.left n nsect := by
  cases h with
  | @inval snum iosize err hne =>
    have hpos := hround snum iosize err rfl hne
    simp only [MainPc.left]
    omega
  | fillSubmit =>
    have := hk _ rfl
    simp only [MainPc.left]
    omega
  | _ =>
    simp only [MainPc.left]
    omega

theorem enterPc_left (forced : Bool) (sector n nsect : Nat) :
    (Sys.enterPc g forced sector nsect).left n nsect < (MapPc.lock []).left n nsect := by
  simp only [enterPc]
  split
  · simp only [MapPc.left]
    omega
  · split <;> simp only [MapPc.left] <;> omega

theorem dispatchBio_left (dir : Dir) (bc : Bio) :
    (Sys.dispatchBio dir bc).pc.left n nsect < (MapPc.peek n).left n nsect := by
  simp only [dispatchBio]
  split
  · simp only [MapPc.left]
    omega
  · simp only [MapPc.left]
    omega
  · simp only [MapPc.left]
    omega
  · dsimp only
    split <;> simp only [MapPc.left] <;> omega

theorem hddDonePc_left (r : Req) (bc : Bio) (err : Int) :
    (s.hddDonePc r bc err).left r.segs.length r.nsect <
      MainPc.inflight.left r.segs.length r.nsect := by
  simp only [hddDonePc]
  split
  · split <;> simp only [MainPc.left] <;> omega
  · split
    · simp only [MainPc.left]
      omega
    · split
      · simp only [MainPc.left]
        omega
      · split <;> simp only [MainPc.left] <;> omega

namespace Bio

theorem left_congr (hpc : bc'.pc = bc.pc) (hmain : bc'.main = bc.main)
    (hxfer : bc'.mainXfer = bc.mainXfer) : bc'.left r = bc.left r := by
  simp only [Bio.left, hpc, hmain, hxfer]

theorem left_thread (hpc : bc'.pc.left r.segs.length r.nsect < bc.pc.left r.segs.length r.nsect)
    (hmain : bc'.main = bc.main) (hxfer : bc'.mainXfer = bc.mainXfer) : bc'.left r < bc.left r := by
  simp only [Bio.left, hmain, hxfer]
  omega

theorem left_main (hpc : bc'.pc = bc.pc)
    (hmain : bc'.main.left r.segs.length r.nsect < bc.main.left r.segs.length r.nsect)
    (hnot : bc'.main ≠ .inflight) : bc'.left r < bc.left r := by
  simp only [Bio.left, hpc, hnot, if_false]
  omega

theorem put_left (g : Geom) (now : Nat) (bc : Bio) : (Bio.put g now bc).left r = bc.left r := by
  rw [Bio.put]
  split <;> rfl

end Bio

/-- Every move of the container brings the bio closer to its end, but for those that
belong to an ebio. -/
theorem BioMove.left_lt (hl : Live g s) (hst : ¬ s.Stalled g b) (hm : BioMove g s b a bc) :
    bc.left (s.req b) < (s.bio b).left (s.req b) ∨
      bc.left (s.req b) = (s.bio b).left (s.req b) ∧
        (a.part = .ebio ∨ a = .enqMd b ∨ bc = s.bio b ∧ ∃ err, a = .hddDone b err) := by
  have hpcOk := (hl.bio b).pc
  cases hm with
  | lock hpc =>
    refine .inl (Bio.left_thread ?_ rfl rfl)
    rw [hpc]
    simp only [MapPc.left, List.length_cons]
    omega
  | enter hpc =>
    refine .inl (Bio.left_thread ?_ rfl rfl)
    rw [hpc]
    exact enterPc_left ..
  | peek hpc hk =>
    refine .inl (Bio.left_thread ?_ rfl rfl)
    rw [hpc]
    simp only [MapPc.left]
    omega
  | dispatch hpc =>
    refine .inl (Bio.left_thread ?_ (dispatchBio_sameIo _ _).main ?_)
    · rw [hpc]
      exact dispatchBio_left ..
    · simp only [dispatchBio]
      split <;> rfl
  | alloc hpc =>
    refine .inl (Bio.left_thread ?_ rfl rfl)
    rw [hpc]
    simp only [MapPc.left]
    omega
  | path hp =>
    refine .inl (Bio.left_thread (hp.left_lt ?_ ?_) rfl rfl)
    · rintro k (hpc | hpc)
      · rw [hpc] at hpcOk
        exact hpcOk.2.2.2
      · rw [hpc] at hpcOk
        exact hpcOk.2.2.2.2.2
    · intro snum iosize hpc hne
      refine Nat.pos_of_ne_zero fun hzero => hst ⟨snum, iosize, hne, hzero, .inl hpc⟩
  | @refuse k _ _ _ hpc =>
    refine .inl (Bio.left_thread ?_ rfl rfl)
    rw [hpc] at hpcOk ⊢
    have := hpcOk.2.2.2
    simp only [MapPc.left]
    omega
  | @disk refused hpc =>
    -- the HDD I/O is now under way, with all its sectors to transfer
    have hmain : (s.bio b).main = .none := by
      rw [hpc] at hpcOk
      exact hpcOk.1
    have hall := unmoved_le (fun _ => false) (s.req b).sector (s.req b).nsect
    refine .inl ?_
    simp only [Bio.left, hpc, hmain]
    by_cases hr : refused = 0
    · simp only [hr, if_true, MapPc.left, MainPc.left, reduceCtorEq, if_false]
      omega
    · simp only [hr, if_false, MapPc.left, MainPc.left, reduceCtorEq]
      omega
  | put hpc =>
    rw [Bio.put_left]
    refine .inl (Bio.left_thread ?_ rfl rfl)
    rw [hpc]
    exact Nat.zero_lt_one
  | hddDone hmain =>
    refine .inl (Bio.left_main rfl ?_ fun hpc => s.hddDonePc_late _ _ _ (.inr hpc))
    rw [hmain]
    exact hddDonePc_left ..
  | main hm =>
    refine .inl (Bio.left_main rfl (hm.left_lt ?_ ?_) hm.late.2.2)
    · intro k hmain
      have hok := (hl.bio b).mainOk (by simp [hmain])
      rw [hmain] at hok
      exact hok.2.2
    · intro snum iosize err hmain hne
      refine Nat.pos_of_ne_zero fun hzero => hst ⟨snum, iosize, hne, hzero, .inr ⟨err, hmain⟩⟩
  | mainEndio hmain =>
    rw [Bio.put_left]
    refine .inl (Bio.left_main rfl ?_ (by simp))
    rw [hmain]
    exact Nat.zero_lt_one
  | ebEndio =>
    rw [Bio.put_left]
    exact .inr ⟨Bio.left_congr rfl rfl rfl, .inl rfl⟩
  | xfer hx =>
    rcases hx with ⟨rfl, ha⟩ | ⟨⟨x, hx, hfirst, rfl⟩, hmain, -⟩
    · exact .inr ⟨Bio.left_congr rfl rfl rfl, .inl ha⟩
    · have hlt := unmoved_update hx.1 hx.2 hfirst
      refine .inl ?_
      simp only [Bio.left, hmain, if_true]
      omega
  | mdWrite => exact .inr ⟨Bio.left_congr rfl rfl rfl, .inl rfl⟩
  | enq => exact .inr ⟨Bio.left_congr rfl rfl rfl, .inr (.inl rfl)⟩
  | same ha =>
    rcases ha with ha | ⟨err, ha⟩
    · exact .inr ⟨rfl, .inl ha⟩
    · exact .inr ⟨rfl, .inr (.inr ⟨rfl, err, ha⟩)⟩

end

/-! ## Every act -/

section
variable {g : Geom} {s s' : Sys} {a : Act} {b k : Nat} {e : EbId}

/-- An ebio is left as it is or brought closer to its end. -/
theorem EbFate.left (hinv : Inv g s) (hbug : s.bug = none) (hs : s.act g a = some s')
    (hbug' : s'.bug = none) (h : EbFate g s s' e a) :
    s'.ebio e = s.ebio e ∨ (s'.ebio e).left (s.seg e) < (s.ebio e).left (s.seg e) := by
  cases h with
  | same heq => exact .inl heq
  | work htouch => exact .inr (act_work hinv hbug hs hbug' htouch).left_lt
  | pend hst heq | prog hst heq =>
    rw [heq]
    exact .inr (Ebio.left_lt (by simp [hst, EbSt.left]) (by simp))
  | post hst _ heq =>
    rw [heq]
    exact .inr (Ebio.left_lt (by simp [hst, Ebio.endio, EbSt.left]) (by simp [Ebio.endio]))

section
variable (hinv : Inv g s) (hbug : s.bug = none) (hstock : ∀ b, s.Stocked g b)
  (hs : s.act g a = some s') (hbug' : s'.bug = none) (hreq : s'.req b = s.req b)
include hinv hbug hstock hs hbug' hreq

theorem Sys.act_ebiosLeft_le : s'.ebiosLeft b ≤ s.ebiosLeft b := by
  simp only [ebiosLeft, seg, hreq]
  refine Finset.sum_le_sum fun k _ => ?_
  rcases (act_ebFate hinv hbug hstock hs (b, k)).left hinv hbug hs hbug' with heq | hlt
  · rw [heq]
  · exact Nat.le_of_lt hlt

theorem Sys.act_ebiosLeft_lt (hk : k < (s.req b).segs.length)
    (hlt : (s'.ebio (b, k)).left (s.seg (b, k)) < (s.ebio (b, k)).left (s.seg (b, k))) :
    s'.ebiosLeft b < s.ebiosLeft b := by
  simp only [ebiosLeft, seg, hreq]
  refine Finset.sum_lt_sum (fun j _ => ?_) ⟨k, Finset.mem_range.mpr hk, hlt⟩
  rcases (act_ebFate hinv hbug hstock hs (b, j)).left hinv hbug hs hbug' with heq | hlt
  · rw [heq]
  · exact Nat.le_of_lt hlt

end

/-- The acts that belong to an ebio name it. -/
theorem Act.touched_of_ebio (ha : a.bio = some b) (hpart : a.part = .ebio) :
    ∃ k, a.touched s = some (b, k) := by
  cases a <;> simp only [Act.part, reduceCtorEq] at hpart
  all_goals
    cases ha
    exact ⟨_, rfl⟩

/-- An act on an ebio finds it under way. -/
theorem Act.finds.ne_new (h : a.finds .new) (hpart : a.part = .ebio) : False := by
  cases a <;> simp [Act.part, Act.finds, Sys.EbSt.atSsd] at hpart h

/-- An act of a bio brings it closer to its end, unless it is a round of
`eio_inval_range` that takes nothing off. -/
theorem Sys.act_left_lt (hinv : Inv g s) (hbug : s.bug = none) (hstock : ∀ b, s.Stocked g b)
    (hs : s.act g a = some s') (hbug' : s'.bug = none) (ha : a.bio = some b)
    (hst : ¬ s.Stalled g b) : s'.left b < s.left b := by
  have hl := hinv.live hbug
  obtain ⟨hbeside, hmove⟩ := act_move hinv.blk ha hs
  have hreq : s'.req b = s.req b := by rw [hbeside.req]
  have hle := act_ebiosLeft_le (b := b) hinv hbug hstock hs hbug' hreq
  -- what an ebio of the bio has less to do
  have hone : ∀ {k}, (s.ebio (b, k)).st ≠ .new → s'.ebio (b, k) ≠ s.ebio (b, k) →
      s'.ebiosLeft b < s.ebiosLeft b := by
    intro k hnew hne
    have hfate := (act_ebFate hinv hbug hstock hs (b, k)).left hinv hbug hs hbug'
    exact act_ebiosLeft_lt hinv hbug hstock hs hbug' hreq ((hl.bio b).started hnew).1
      (hfate.resolve_left hne)
  simp only [left, hreq]
  rcases hmove.left_lt hl hst with hlt | ⟨heq, hpart | rfl | ⟨hsame, err, rfl⟩⟩
  · omega
  · obtain ⟨k, htouch⟩ := Act.touched_of_ebio (s := s) ha hpart
    have hwork := (act_work hinv hbug hs hbug' htouch).left_lt
    have hlt := hone (k := k) (fun hnew => by
      have hfinds := hl.finds hs htouch
      rw [hnew] at hfinds
      exact hfinds.ne_new hpart) fun hsame => by rw [hsame] at hwork; omega
    omega
  · obtain ⟨set, group, rest, hgroup⟩ := (hstock b).act hs
    obtain ⟨j, hj⟩ := List.exists_mem_of_ne_nil _ hgroup.ne
    have hlist : (s.ebio (b, j)).st = .mdList := by
      rw [← hl.md.list b j, hgroup.list]
      exact List.mem_append_left _ hj
    have heb := hgroup.ebio (b, j)
    rw [if_pos (List.mem_map_of_mem hj)] at heb
    have hlt := hone (k := j) (by simp [hlist]) fun hsame => by
      rw [heb] at hsame
      have hpend := congrArg Ebio.st hsame
      rw [hlist] at hpend
      cases hpend
    omega
  · -- the HDD I/O is over, or an assertion has failed
    exfalso
    simp only [act, stepHddDone] at hs
    obtain ⟨⟨hmain, -⟩, hs⟩ := Option.ite_none_right_eq_some.mp hs
    split at hs <;> cases hs
    · cases hbug'
    · rw [updBio_bio, Function.update_self] at hsame
      have hpc := congrArg Bio.main hsame
      rw [hmain] at hpc
      exact s.hddDonePc_late _ _ _ (.inr hpc)

/-- The acts of others do not add to what is left. -/
theorem Sys.act_left_le (hinv : Inv g s) (hbug : s.bug = none) (hstock : ∀ b, s.Stocked g b)
    (hs : s.act g a = some s') (hbug' : s'.bug = none) (hb : (s.bio b).pc ≠ .absent)
    (hother : a.bio ≠ some b) : s'.left b ≤ s.left b := by
  cases act_fate hinv.blk hs b with
  | same hreq hbio =>
    have hle := act_ebiosLeft_le (b := b) hinv hbug hstock hs hbug' hreq
    simp only [left, hreq, hbio]
    omega
  | new _ hnew => exact absurd ((hinv.live hbug).absent b (by omega)) hb
  | move ha => exact absurd ha hother

end

end EnhanceIO
