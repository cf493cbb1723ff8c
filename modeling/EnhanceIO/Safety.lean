import EnhanceIO.Uncached

/-!
# Safety of whole runs

What the driver keeps to in every state of every run, whatever the devices answer and
whoever else is at work: who refers to a bio, which errors reach it, that data goes before
metadata, and who may touch a block or a set.
-/

namespace EnhanceIO

open State

section
variable {g : Geom} {s s' t : Sys} {a : Act} {b k set : Nat} {r : MdReq}
  {P : Sys → Act → Prop}

/-! ## References of a bio -/

/-- The thread in `eio_map`, the HDD I/O and every ebio that has not been ended hold a
reference; the bio is ended with the last one, and then none of its I/O is at a device. -/
structure Sys.Referenced (s : Sys) (b : Nat) : Prop extends s.EndedSafely b where
  hold : (s.bio b).holdcount = mapRef (s.bio b).pc + mainRef (s.bio b).main +
    openEbios (s.req b).segs.length fun k => s.ebio (b, k)
  last : (s.bio b).endio.length = if (s.bio b).holdcount = 0 then 1 else 0

theorem bio_references (h : Reachable g P s) (hbug : s.bug = none)
    (harrived : (s.bio b).pc ≠ .absent) : s.Referenced b := by
  have hl := h.inv.live hbug
  have hbio := hl.bio b
  refine { hl.endedSafely harrived with hold := hbio.hold, last := ?_ }
  split
  · next hzero => exact (hbio.isEnded hzero harrived).1
  · next hpos => simp [(hbio.notEnded hpos).1]

theorem bio_references_written : ∃ s, Reachable smallCache (fun _ _ => True) s ∧
    (s.bio 0).holdcount = 1 ∧ s.Referenced 0 := by
  obtain ⟨s, hs, hbug, hpc, hhold⟩ :=
    Reachable.run smallCache (dirtyingWrite ++ [.cwLock 0, .put 0])
    (R := fun s => s.bug = none ∧ (s.bio 0).pc = .done ∧ (s.bio 0).holdcount = 1)
    (by decide +kernel)
  exact ⟨s, hs, hhold, bio_references hs hbug (by simp [hpc])⟩

/-- Whatever fails, and whatever others do, a bio takes only so many acts: a cache whose
sets are smaller than 4 GiB has no bio that goes round for ever. -/
theorem bio_acts_bounded (hshift : g.setShift < 23) (h : Reachable g (fun _ _ => True) s)
    (hbug : s.bug = none) (harrived : (s.bio b).pc ≠ .absent) (as : List Act)
    (has : Run.exec (Sys.step g) (fun _ _ => true) s as = some t) :
    as.countP (fun a => a.bio = some b) ≤ s.left b + 1 :=
  h.acts_bounded (fun _ _ _ => trivial) hbug harrived (fun _ _ _ => Sys.not_stalled hshift) has

theorem bio_acts_bounded_new : ∃ s, Reachable smallCache (fun _ _ => True) s ∧ 40 < s.left 0 ∧
    ∀ as t, Run.exec (Sys.step smallCache) (fun _ _ => true) s as = some t →
      as.countP (fun a => a.bio = some 0) ≤ s.left 0 + 1 := by
  obtain ⟨s, hs, hbug, hpc, hleft⟩ := Reachable.run smallCache (dirtyingWrite.take 1)
    (R := fun s => s.bug = none ∧ (s.bio 0).pc ≠ .absent ∧ 40 < s.left 0) (by decide +kernel)
  exact ⟨s, hs, hleft, fun as _ => bio_acts_bounded (by decide) hs hbug hpc as⟩

/-! ## Errors -/

/-- An error of the bio is on its way to its end in an ebio that reports, or has come there. -/
def Sys.Kept (s : Sys) (b : Nat) : Prop :=
  (s.bio b).Failed ∨ ∃ k err, err ≠ 0 ∧ (s.ebio (b, k)).todo = [err] ∧
    (s.ebio (b, k)).iotype = IoType.mainIo

theorem Act.finds.ending (h : a.finds .done) : ∃ b k, a = .ebEndio b k := by
  cases a <;> simp_all [Act.finds, Sys.EbSt.atSsd]

theorem Live.not_ended (hl : Live g s) {err : Int}
    (htodo : (s.ebio (b, k)).todo.head? = some err) : (s.bio b).endio = [] := by
  have hhold := (hl.bio b).hold
  have hopen := (hl.ending_open htodo).2
  have hmap := mapRef_nonneg (s.bio b).pc
  have hmain := mainRef_nonneg (s.bio b).main
  exact ((hl.bio b).notEnded (by omega)).1

theorem Live.failed_ebEndio (hl : Live g s) {err : Int} (hne : err ≠ 0)
    (htodo : (s.ebio (b, k)).todo = [err]) (htype : (s.ebio (b, k)).iotype = IoType.mainIo)
    (hs : s.act g (.ebEndio b k) = some s') : (s'.bio b).Failed := by
  have hend : (s.bio b).endio = [] := hl.not_ended (k := k) (by rw [htodo]; rfl)
  simp only [Sys.act, Sys.stepEbEndio, htodo, Option.some.injEq] at hs
  subst hs
  rw [Sys.ebEndio, Sys.bcPut_eq]
  simp only [Sys.updBio_bio, Sys.updEb_bio, Function.update_self]
  apply Bio.Failed.put
  simp [Bio.Failed, Sys.propagate, htype, hne, hend]

theorem Sys.Kept.act (h : s.Kept b) (hinv : Inv g s) (hbug : s.bug = none)
    (hstock : ∀ b, s.Stocked g b) (hs : s.act g a = some s') : s'.Kept b := by
  have hl := hinv.live hbug
  rcases h with hfailed | ⟨k, err, hne, htodo, htype⟩
  · refine .inl ?_
    cases Sys.act_fate hinv.blk hs b with
    | same _ hbio =>
      rw [hbio]
      exact hfailed
    | new _ hb =>
      have hpc := (hl.bio b).pc
      rw [hl.absent b (Nat.le_of_eq hb.symm)] at hpc
      rw [hpc.1] at hfailed
      exact absurd rfl hfailed.1
    | move _ _ hmove => exact hmove.failed hfailed
  · have hdone : (s.ebio (b, k)).st = .done := by
      by_contra hst
      rw [(((hl.bio b).ebs k).live hst).1] at htodo
      cases htodo
    cases Sys.act_ebFate hinv hbug hstock hs (b, k) with
    | same heq => exact .inr ⟨k, err, hne, by rwa [heq], by rwa [heq]⟩
    | work htouch hfinds =>
      rw [hdone] at hfinds
      obtain ⟨b', k', rfl⟩ := hfinds.ending
      obtain ⟨rfl, rfl⟩ : b' = b ∧ k' = k := by simpa [Act.touched] using htouch
      exact .inl (hl.failed_ebEndio hne htodo htype hs)
    | pend hst | prog hst | post hst =>
      rw [hst] at hdone
      cases hdone

/-- Once `eb_endio` is called with an error for an `EB_MAIN_IO` ebio, the bio is not
ended without an error, in whatever order the rest of its I/O comes in. -/
theorem reported_error_reaches_bio (h : Reachable g P s) {err : Int} (hne : err ≠ 0)
    (htodo : (s.ebio (b, k)).todo = [err]) (htype : (s.ebio (b, k)).iotype = IoType.mainIo)
    (hrun : Run.Reach (Sys.step g) P s t) (hbug : t.bug = none) : ∀ e ∈ (t.bio b).endio, e ≠ 0 := by
  have hkept : t.Kept b := by
    clear hbug
    induction hrun with
    | init => exact .inr ⟨k, err, hne, htodo, htype⟩
    | step a hrun _ hs ih =>
      have hr : Reachable g P _ := h.trans hrun
      obtain ⟨hbug, s', hact, rfl⟩ := Sys.of_step hs
      have hkept := ih.act hr.inv hbug (fun b => (hr.mdQueue.stock hbug b).stocked) hact
      exact hkept
  rcases hkept with hfailed | ⟨k, err, -, htodo, -⟩
  · exact hfailed.2
  · have ht : Reachable g P t := h.trans hrun
    have hl := ht.inv.live hbug
    have hend : (t.bio b).endio = [] := hl.not_ended (k := k) (by rw [htodo]; rfl)
    simp [hend]

/-- The SSD write of a block that is to be dirtied fails. -/
theorem reported_error_write : ∃ s t, Reachable smallCache (fun _ _ => True) s ∧
    (s.ebio (0, 0)).todo = [-5] ∧ Run.Reach (Sys.step smallCache) (fun _ _ => True) s t ∧
    (t.bio 0).endio.length = 1 ∧ ∀ e ∈ (t.bio 0).endio, e ≠ 0 := by
  obtain ⟨s, hs, htodo, htype, hlast⟩ := Reachable.run smallCache
    (dirtyingWrite.take 16 ++ [.ssdDone 0 0 (-5)])
    (R := fun s => (s.ebio (0, 0)).todo = [-5] ∧ (s.ebio (0, 0)).iotype = IoType.mainIo ∧
      ((Run.exec (Sys.step smallCache) (fun _ _ => true) s [.cwLock 0, .put 0, .ebEndio 0 0]).any
        fun t => decide (t.bug = none ∧ (t.bio 0).endio.length = 1)) = true) (by decide +kernel)
  obtain ⟨t, ht, hbug, hend⟩ := Run.Reach.of_run (P := fun _ _ => True) (fun _ _ => true)
    (fun _ _ _ => trivial) _ hlast
  exact ⟨s, t, hs, htodo, ht, hend, reported_error_reaches_bio hs (by decide) htodo htype ht hbug⟩

/-! ## Data before metadata -/

/-- When the metadata update of an ebio is under way the SSD has written the data of every
block that the bio dirties. -/
theorem metadata_after_data (h : Reachable g P s) (hbug : s.bug = none)
    (hst : (s.ebio (b, k)).st = .mdPend ∨ (s.ebio (b, k)).st = .mdProg) (j : Nat)
    (hj : (s.ebio (b, j)).role = .wr) : (s.ebio (b, j)).ssdError = some 0 := by
  have hl := h.inv.live hbug
  have hcw := h.cwOk hbug b
  have hwaits : (s.ebio (b, k)).st.waiting = true := by
    rcases hst with hst | hst <;> rw [hst] <;> rfl
  obtain ⟨-, -, hdir, huc⟩ := hl.caching_path (hl.caching hwaits)
  have hnew : (s.ebio (b, k)).st ≠ .new := fun hn => by rw [hn] at hwaits; cases hwaits
  have hrole := (((hl.bio b).at_ k ((hl.bio b).started hnew).1).waiting hwaits).2
  -- as long as a block is still to be written the others are parked on `bc_mdlist`
  have hnone : ¬ 0 < (s.bio b).mdwait := by
    intro hpos
    have hlist := hcw.parked hdir huc hpos k hrole ((h.ssdOk hbug (b, k)).waiting hwaits)
    simp [hlist] at hst
  have hcount := hcw.count hdir huc
  have hzero : s.toDirty b = 0 := by omega
  have hlt : j < (s.req b).segs.length := by
    by_contra hle
    rw [(hl.bio b).beyond j (by omega)] at hj
    cases hj
  rw [Sys.toDirty, List.countP_eq_zero] at hzero
  have hwritten := hzero j (List.mem_range.mpr hlt)
  simpa [Ebio.ToDirty, hj] using hwritten

theorem metadata_after_data_pending : ∃ s, Reachable smallCache (fun _ _ => True) s ∧
    (s.ebio (0, 0)).st = .mdPend ∧ (s.ebio (0, 0)).ssdError = some 0 := by
  obtain ⟨s, hs, hbug, hst, hrole⟩ := Reachable.run smallCache (dirtyingWrite.take 18)
    (R := fun s => s.bug = none ∧ (s.ebio (0, 0)).st = .mdPend ∧ (s.ebio (0, 0)).role = .wr)
    (by decide +kernel)
  exact ⟨s, hs, hst, metadata_after_data hs hbug (.inl hst) 0 hrole⟩

/-- A metadata update holds a reference for each page that it has submitted and the SSD has not
written, so that neither `eio_post_mdupdate` nor the next `eio_do_mdupdate` comes to its pages
while one of them is at the SSD. -/
theorem mdupdate_references (h : Reachable g P s) (hr : s.mdreq set = some r) :
    r.Counted ∧ (r.phase = .queued ∨ r.phase = .post → ∀ p, r.page p ≠ .inflight) :=
  ⟨h.counted hr, (h.mdQueue.phased set r hr).quiet⟩

theorem mdupdate_references_post : ∃ s r, Reachable smallCache (fun _ _ => True) s ∧
    s.mdreq 1 = some r ∧ r.phase = .post ∧ r.Counted ∧ ∀ p, r.page p ≠ .inflight := by
  obtain ⟨s, hs, hpost⟩ := Reachable.run smallCache (dirtyingWrite.take 23)
    (R := fun s => (s.mdreq 1).any (fun r => r.phase = .post) = true) (by decide +kernel)
  obtain ⟨r, hr, hph⟩ := (Option.any_eq_true _ _).mp hpost
  have hph := of_decide_eq_true hph
  obtain ⟨hcount, hquiet⟩ := mdupdate_references hs hr
  exact ⟨s, r, hs, hr, hph, hcount, hquiet (.inr hph)⟩

/-! ## Blocks and sets -/

/-- A block with flags of a request on it belongs to one ebio, and shows the flags that
the ebio has set. -/
theorem block_has_one_owner (h : Reachable g P s) {i : Nat} (hbusy : ¬ (s.st g i).Resting) :
    ∃! e, ∃ f, (s.ebio e).Owns i f ∧ Shows (s.st g i) f := by
  have hblk := h.inv.blk
  obtain ⟨e, f, howns⟩ := hblk.held hbusy
  refine ⟨e, ⟨f, howns, (hblk.owned howns).1⟩, ?_⟩
  rintro e' ⟨f', howns', -⟩
  exact hblk.excl howns' howns

theorem block_has_one_owner_fill : ∃ s, Reachable smallCache (fun _ _ => True) s ∧
    ∃! e, ∃ f, (s.ebio e).Owns 256 f ∧ Shows (s.st smallCache 256) f := by
  obtain ⟨s, hs, hq⟩ := smallCache_fill
  refine ⟨s, hs, block_has_one_owner hs ?_⟩
  rw [hq.1]
  decide

/-- While a set is cleaned no bio has its lock, no ebio of the set is between its lookup and
its end, no metadata update of the set is under way and no block of it is in use. -/
theorem clean_excludes_io (h : Reachable g P s) (hbug : s.bug = none) (hmode : g.mode = .wb)
    (hclean : s.cleanSet = some set) :
    (∀ b, set ∉ (s.bio b).locks) ∧
      (∀ e, s.setOf g e = set → (s.ebio e).st = .new ∨ (s.ebio e).st = .done) ∧
      s.mdreq set = none ∧ ∀ e i, i / g.assoc = set → ¬ (s.ebio e).Uses i := by
  have hl := h.inv.live hbug
  obtain ⟨c, hc, rfl⟩ := Option.map_eq_some_iff.mp hclean
  have hlocks := hl.cleaning c hc
  have hidle : ∀ e, s.setOf g e = c.set → (s.ebio e).st = .new ∨ (s.ebio e).st = .done := by
    intro e he
    by_contra hst
    rw [not_or] at hst
    exact hlocks e.1 (he ▸ hl.setOf_locked hmode hst.1 hst.2)
  refine ⟨hlocks, hidle, ?_, fun e i hi hu => hlocks e.1 (hi ▸ hl.uses_locked h.inv.blk hmode hu)⟩
  cases hr : s.mdreq c.set with
  | none => rfl
  | some r =>
    -- a request has an ebio that waits for it
    exfalso
    rcases (hl.md.reqs c.set r hr).busy with hne | hne
    · obtain ⟨e, he⟩ := List.exists_mem_of_ne_nil _ hne
      obtain ⟨hst, hset⟩ := (hl.md.pend c.set e).mp (by simpa [Sys.pending, hr] using he)
      simpa [hst] using hidle e hset
    · obtain ⟨e, he⟩ := List.exists_mem_of_ne_nil _ hne
      obtain ⟨hst, hset⟩ := (hl.md.prog c.set e).mp (by simpa [Sys.inprog, hr] using he)
      simpa [hst] using hidle e hset

theorem clean_excludes_io_dirty : ∃ s, Reachable smallCache (fun _ _ => True) s ∧
    s.cleanSet = some 1 ∧ s.mdreq 1 = none := by
  obtain ⟨s, hs, hbug, hclean⟩ := Reachable.run smallCache
    (dirtyingWrite ++ [.cwLock 0, .put 0, .ebEndio 0 0, .cleanStart 1 [256]])
    (R := fun s => s.bug = none ∧ s.cleanSet = some 1) (by decide +kernel)
  exact ⟨s, hs, hclean, (clean_excludes_io hs hbug rfl hclean).2.2.1⟩

end

end EnhanceIO
