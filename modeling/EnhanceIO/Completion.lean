import EnhanceIO.CachedWrites
import EnhanceIO.Sealed

/-!
# When is a bio ended?

A bio is ended by the last `bc_put`, and each of its ebios holds a reference until its
`eb_endio`. `Sys.Quiesced` is a state in which nothing is left to happen to a bio: no
I/O of it is at a device, no thread or worker has it, nothing of it is on a work queue.
There every ebio has been ended, but for three places where one can be left behind:

* `eio_uncached_write` takes a second hold on the ebio of a dirty block and does not
  give it back when the SSD refuses the write;
* `eio_do_mdupdate` takes a reference for a page and does not give it back when the SSD
  refuses the page;
* a cached write whose block was to be dirtied and could not be written is not taken off
  `bc_mdwait`, so the other blocks of the bio that were written wait for ever.
-/

namespace EnhanceIO

open State

/-- An I/O of the ebio is at a device. -/
def EbSt.inFlight : EbSt → Bool
  | .readCache | .readFill | .uc false _ | .cw | .reread => true
  | _ => false

/-- Nothing of bio `b` is left to happen. A driver stopped by a failed assertion has
not come to rest: the thread that ran into it still has its work to do. -/
structure Sys.Quiesced (g : Geom) (s : Sys) (b : Nat) : Prop where
  running : s.bug = none
  /-- `eio_map` has returned -/
  thread : (s.bio b).pc = .done
  /-- the HDD I/O, its completion and the read-fill worker are through -/
  main : (s.bio b).main = .none ∨ (s.bio b).main = .done
  /-- no SSD I/O, no failed read waiting for `eio_ssderror_diskread`, no `eb_endio`
  under way -/
  ebio : ∀ k, (s.ebio (b, k)).st.inFlight = false ∧ (s.ebio (b, k)).st ≠ .readFail ∧
    (s.ebio (b, k)).todo = []
  /-- `eio_enq_mdupdate` is through -/
  enq : (s.bio b).enq = false
  /-- a metadata update with an ebio of the bio is on no work queue, is not being
  submitted, and has no page at the SSD -/
  md : ∀ k set r, (b, k) ∈ s.pending set ∨ (b, k) ∈ s.inprog set → s.mdreq set = some r →
    r.phase = .wait ∧ ∀ p, r.page p ≠ .inflight

/-- Every ebio of the bio has been ended once, and so has the bio. -/
structure Sys.Completed (s : Sys) (b : Nat) : Prop where
  ebios : ∀ k < (s.req b).segs.length, (s.ebio (b, k)).ended = 1 ∧ (s.ebio (b, k)).todo = []
  holdcount : (s.bio b).holdcount = 0
  endio : (s.bio b).endio.length = 1

/-- One block the bio was to dirty has been written to the SSD, another has not. -/
def Sys.Mixed (s : Sys) (b : Nat) : Prop :=
  (s.bio b).bcDir = .cachedWrite ∧
    (∃ k, (s.ebio (b, k)).role = .wr ∧ (s.ebio (b, k)).ssdError = some 0) ∧
    ∃ k err, (s.ebio (b, k)).role = .wr ∧ (s.ebio (b, k)).ssdError = some err ∧ err ≠ 0

section
variable {g : Geom} {s s' : Sys} {a : Act} {b k : Nat} {e : EbId} {P : Sys → Act → Prop}

/-! ## Where an ebio can be left -/

/-- Where an ebio stands when nothing is left to happen. -/
theorem Sys.Quiesced.ebio_cases (hq : s.Quiesced g b) (hl : Live g s)
    (hk : k < (s.req b).segs.length) :
    (s.ebio (b, k)).st = .done ∨ (s.ebio (b, k)).st = .ucLost true ∨
      (s.ebio (b, k)).st.waiting = true := by
  obtain ⟨hflight, hfail, -⟩ := hq.ebio k
  have hat := (hl.bio b).at_ k hk
  rw [hq.thread] at hat
  have hstage : (mainStage (s.req b).dir (s.bio b).main k).Ok (s.ebio (b, k)).role
      (s.ebio (b, k)).st := hat
  rcases hq.main with hm | hm <;> rw [hm] at hstage <;> cases hdir : (s.req b).dir <;>
    rw [hdir] at hstage <;> simp only [mainStage, closedStage, Stage.Ok] at hstage
  · rcases hstage with ⟨-, h | h | h⟩ | ⟨-, h⟩ | h
    · simp [h, EbSt.inFlight] at hflight
    · exact absurd h hfail
    · simp [h, EbSt.inFlight] at hflight
    · simp [h, EbSt.inFlight] at hflight
    · exact .inl h
  · rcases hstage with ⟨h, -⟩ | ⟨-, h | h | h⟩ | h
    · simp [h, EbSt.inFlight] at hflight
    · exact .inr (.inr (by rw [h]; rfl))
    · exact .inr (.inr (by rw [h]; rfl))
    · exact .inr (.inr (by rw [h]; rfl))
    · exact .inl h
  · rcases hstage with ⟨h, -⟩ | ⟨h, -⟩ | h
    · simp [h, EbSt.inFlight] at hflight
    · simp [h, EbSt.inFlight] at hflight
    · exact .inl h
  · rcases hstage with ⟨h, -⟩ | ⟨h, -⟩ | h
    · simp [h, EbSt.inFlight] at hflight
    · exact .inr (.inl h)
    · exact .inl h

/-- A bio all of whose ebios are over has been ended. -/
theorem Sys.Quiesced.completed (hq : s.Quiesced g b) (hl : Live g s)
    (hdone : ∀ k < (s.req b).segs.length, (s.ebio (b, k)).st = .done) : s.Completed b := by
  have hbio := hl.bio b
  have hended : ∀ k < (s.req b).segs.length, (s.ebio (b, k)).ended = 1 := by
    intro k hk
    have hone := (hbio.ebs k).dead (hdone k hk)
    rw [(hq.ebio k).2.2] at hone
    simpa using hone
  have hopen : openEbios (s.req b).segs.length (fun k => s.ebio (b, k)) = 0 := by
    rw [openEbios, List.countP_eq_zero]
    intro k hk
    simp [hended k (List.mem_range.mp hk)]
  have hmain : mainRef (s.bio b).main = 0 := mainRef_eq_zero.mpr hq.main
  have hhold : (s.bio b).holdcount = 0 := by
    rw [hbio.hold, hq.thread, hmain, hopen]
    rfl
  refine ⟨fun k hk => ⟨hended k hk, (hq.ebio k).2.2⟩, hhold, ?_⟩
  exact (hbio.isEnded hhold (by simp [hq.thread])).1

/-- An ebio that is left behind keeps the bio from being ended. -/
theorem Sys.Completed.done (hc : s.Completed b) (hl : Live g s) (hk : k < (s.req b).segs.length) :
    (s.ebio (b, k)).st = .done := by
  by_contra hst
  have := (((hl.bio b).ebs k).live hst).2
  have := (hc.ebios k hk).1
  omega

end

/-! ## References of a metadata update -/

/-- Pages before `n` that have something to write and have not been written. -/
def owedPages (has : Nat → Bool) (page : Nat → PageIo) (n : Nat) : Nat :=
  (List.range n).countP fun p => has p && decide (page p ≠ .done)

/-- A page that was submitted holds a reference until it has been written, also when the
SSD has refused it. -/
structure MdReq.Counted (r : MdReq) : Prop where
  written : ∀ p, r.page p ≠ .idle → r.hasBits p = true
  submit : ∀ n, r.phase = .submit n →
    r.holdcount = 1 + owedPages r.hasBits r.page n ∧ ∀ p, n ≤ p → r.page p = .idle
  wait : r.phase = .wait →
    0 < r.holdcount ∧ ∃ n, r.holdcount = owedPages r.hasBits r.page n ∧
      ∀ p, n ≤ p → r.page p = .idle

/-- The SSD has refused a page: it has something to write, it was submitted, and it is
neither at the SSD nor written. -/
def MdReq.Refused (r : MdReq) : Prop :=
  r.phase = .wait ∧ ∃ p, r.hasBits p = true ∧ r.page p = .idle

section
variable {g : Geom} {s s' : Sys} {a : Act} {P : Sys → Act → Prop} {r r' : MdReq} {n p : Nat}

theorem owedPages_congr {has : Nat → Bool} {page page' : Nat → PageIo}
    (h : ∀ p < n, page' p = .done ↔ page p = .done) :
    owedPages has page' n = owedPages has page n := by
  refine List.countP_congr fun p hp => ?_
  simp only [ne_eq, h p (List.mem_range.mp hp)]

theorem owedPages_succ (has : Nat → Bool) (page : Nat → PageIo) (n : Nat) :
    owedPages has page (n + 1) =
      owedPages has page n + if has n = true ∧ page n ≠ .done then 1 else 0 := by
  simp [owedPages, List.range_succ]

/-- A page that was at the SSD has been written. -/
theorem owedPages_written {has : Nat → Bool} {page : Nat → PageIo} (hp : p < n)
    (hbits : has p = true) (hpage : page p = .inflight) :
    owedPages has (Function.update page p .done) n + 1 = owedPages has page n := by
  have hchange := Count.countP_change (p := fun q => has q && decide (page q ≠ .done))
    (q := fun q => has q && decide (Function.update page p .done q ≠ .done)) (a := p)
    List.nodup_range (List.mem_range.mpr hp) (fun q hq => by simp [hq])
  simpa [owedPages, hpage, hbits] using hchange

namespace MdReq.Counted

theorem init : MdReq.init.Counted := by
  constructor <;> simp [MdReq.init]

theorem issue (h : r.Counted) (hph : r.phase = .submit p) (hbits : r.hasBits p = true)
    (err : Int) {page : Nat → PageIo} (hrest : ∀ q ≠ p, page q = r.page q)
    (hpage : page p ≠ .done) :
    Counted { r with
      phase := .submit (p + 1), holdcount := r.holdcount + 1, error := err, page := page } := by
  obtain ⟨hhold, hlater⟩ := h.submit p hph
  refine ⟨fun q hq => ?_, fun n hn => ?_, by simp⟩
  · by_cases hqp : q = p
    · rw [hqp]
      exact hbits
    · exact h.written q (hrest q hqp ▸ hq)
  · obtain rfl : p + 1 = n := by simpa using hn
    refine ⟨?_, fun q hq => (hrest q (by omega)).trans (hlater q (by omega))⟩
    show r.holdcount + 1 = 1 + (owedPages r.hasBits page (p + 1) : Int)
    have hbefore : owedPages r.hasBits page p = owedPages r.hasBits r.page p :=
      owedPages_congr fun q hq => by rw [hrest q (by omega)]
    rw [owedPages_succ, hbefore, if_pos ⟨hbits, hpage⟩, hhold]
    omega

theorem done (h : r.Counted) (hpage : r.page p = .inflight) (err : Int) :
    Counted { r with
      page := Function.update r.page p .done
      error := err
      holdcount := r.holdcount - 1
      phase := if r.holdcount - 1 = 0 then .post else r.phase } := by
  have hbits := h.written p (by simp [hpage])
  have hlt : ∀ {n}, (∀ q, n ≤ q → r.page q = .idle) → p < n := by
    intro n hlater
    by_contra hp
    rw [hlater p (by omega)] at hpage
    cases hpage
  have hlater : ∀ {n}, (∀ q, n ≤ q → r.page q = .idle) → ∀ q, n ≤ q →
      Function.update r.page p .done q = .idle := by
    intro n hn q hq
    have := hlt hn
    rw [Function.update_of_ne (by omega)]
    exact hn q hq
  refine ⟨fun q hq => ?_, fun n hn => ?_, fun hw => ?_⟩
  · by_cases hqp : q = p
    · rw [hqp]
      exact hbits
    · exact h.written q (Function.update_of_ne hqp .done r.page ▸ hq)
  · by_cases hlast : r.holdcount - 1 = 0
    · simp [hlast] at hn
    · obtain ⟨hhold, hn'⟩ := h.submit n (by simpa [hlast] using hn)
      have howed := owedPages_written (hlt hn') hbits hpage
      refine ⟨?_, hlater hn'⟩
      show r.holdcount - 1 = 1 + (owedPages r.hasBits (Function.update r.page p .done) n : Int)
      omega
  · by_cases hlast : r.holdcount - 1 = 0
    · simp [hlast] at hw
    · obtain ⟨hpos, n, hhold, hn'⟩ := h.wait (by simpa [hlast] using hw)
      have howed := owedPages_written (hlt hn') hbits hpage
      refine ⟨by dsimp only; omega, n, ?_, hlater hn'⟩
      show r.holdcount - 1 = (owedPages r.hasBits (Function.update r.page p .done) n : Int)
      omega

/-- An update that waits and has nothing at the SSD has been refused a page. -/
theorem refused (h : r.Counted) (hph : r.phase = .wait) (hquiet : ∀ p, r.page p ≠ .inflight) :
    r.Refused := by
  obtain ⟨hpos, n, hhold, -⟩ := h.wait hph
  have howed : 0 < owedPages r.hasBits r.page n := by omega
  obtain ⟨p, -, hp⟩ := List.countP_pos_iff.mp howed
  obtain ⟨hbits, hdone⟩ := Bool.and_eq_true_iff.mp hp
  refine ⟨hph, p, hbits, ?_⟩
  cases hpage : r.page p with
  | idle => rfl
  | inflight => exact absurd hpage (hquiet p)
  | done => simp [hpage] at hdone

end MdReq.Counted

theorem MdMove.counted {set : Nat} {o : Option MdReq} (h : MdMove g s set a o (some r'))
    (hok : ∀ r, o = some r → r.Counted) : r'.Counted := by
  generalize hsome : some r' = o' at h
  cases h with
  | same => exact hok r' hsome.symm
  | join =>
    cases hsome
    cases o with
    | none => exact { MdReq.Counted.init with }
    | some r => exact { hok r rfl with }
  | start =>
    cases hsome
    constructor <;> simp [Sys.mdStarted, owedPages]
  | issue hph _ hbits =>
    cases hsome
    refine (hok _ rfl).issue hph hbits _ (fun q hq => ?_) ?_
    · split
      · exact Function.update_of_ne hq _ _
      · rfl
    · split
      · simp
      · simp [((hok _ rfl).submit _ hph).2 _ (Nat.le_refl _)]
  | @skip r p refused hph hbits =>
    cases hsome
    obtain ⟨hhold, hlater⟩ := (hok r rfl).submit p hph
    refine ⟨(hok r rfl).written, fun n hn => ?_, by simp⟩
    obtain rfl : p + 1 = n := by simpa using hn
    refine ⟨?_, fun q hq => hlater q (by omega)⟩
    show r.holdcount = 1 + (owedPages r.hasBits r.page (p + 1) : Int)
    rw [owedPages_succ, if_neg (by simp [hbits])]
    exact hhold
  | @issued r p refused hph =>
    cases hsome
    obtain ⟨hhold, hlater⟩ := (hok r rfl).submit p hph
    refine ⟨(hok r rfl).written, fun n hn => ?_, fun hw => ?_⟩
    · dsimp only at hn
      split at hn <;> cases hn
    · dsimp only at hw ⊢
      split at hw
      · cases hw
      · refine ⟨by omega, p, ?_, hlater⟩
        show r.holdcount - 1 = (owedPages r.hasBits r.page p : Int)
        omega
  | sector =>
    cases hsome
    exact { hok _ rfl with }
  | done hpage =>
    cases hsome
    exact (hok _ rfl).done hpage _
  | post =>
    split at hsome
    · cases hsome
    · cases hsome
      exact ⟨(hok _ rfl).written, by simp, by simp⟩

theorem Reachable.counted (h : Reachable g P s) {set : Nat} (hr : s.mdreq set = some r) :
    r.Counted := by
  let Held : Sys → Prop := fun s => ∀ set r, s.mdreq set = some r → r.Counted
  have hinit : Held (Sys.init g) := fun _ _ hr => by cases hr
  refine Run.Reach.invariant_with (fun hr => And.intro (Reachable.inv hr) (Reachable.mdQueue hr))
    hinit ?_ h set r hr
  intro s t a ⟨hinv, hq⟩ _ hok _ hs set r hr
  obtain ⟨hbug, s', hact, rfl⟩ := Sys.of_step hs
  have hmove := Sys.act_mdMove hinv hbug (fun b => (hq.stock hbug b).stocked) hact set
  rw [show s'.mdreq set = some r from hr] at hmove
  exact hmove.counted fun r hr => hok set r hr

end

/-! ## The path of a bio -/

/-- Which path a bio has been taken on, and that its set locks go with its end. -/
structure Bio.PathOk (g : Geom) (r : Req) (bc : Bio) : Prop where
  write : bc.bcDir = .cachedWrite →
    r.dir = .write ∧ r.forced = false ∧ bc.uc = false ∧ bc.pc.late = true
  uncached : bc.bcDir = .uncachedWrite → r.dir = .write ∧ bc.uc = true
  cached : bc.pc.late = true → r.forced = false → r.dir = .write → bc.uc = false →
    bc.bcDir = .cachedWrite
  unlocked : g.mode = .wb → bc.endio ≠ [] → bc.locks = []

section
variable {g : Geom} {s s' : Sys} {a : Act} {b : Nat} {P : Sys → Act → Prop} {r : Req} {bc bc' : Bio}

namespace Bio.PathOk

theorem same (h : bc.PathOk g r) (hdir : bc'.bcDir = bc.bcDir) (huc : bc'.uc = bc.uc)
    (hpc : bc'.pc.late = bc.pc.late) (hend : bc'.endio = bc.endio) (hlocks : bc'.locks = bc.locks) :
    bc'.PathOk g r := by
  refine ⟨?_, ?_, ?_, ?_⟩
  · rw [hdir, huc, hpc]
    exact h.write
  · rw [hdir, huc]
    exact h.uncached
  · rw [hpc, huc, hdir]
    exact h.cached
  · rw [hend, hlocks]
    exact h.unlocked

/-- `bc_put` releases the set locks as it ends the bio. -/
theorem put (h : bc.PathOk g r) (now : Nat) : (Bio.put g now bc).PathOk g r := by
  rw [Bio.put]
  split
  · exact ⟨h.write, h.uncached, h.cached, fun hwb _ => if_pos hwb⟩
  · exact { h with }

/-- A bio that has not been dispatched. -/
theorem early (hdir : bc.bcDir ≠ .cachedWrite ∧ bc.bcDir ≠ .uncachedWrite)
    (hpc : bc.pc.late = true → r.forced = true) (hopen : bc.endio = []) : bc.PathOk g r where
  write := fun h => absurd h hdir.1
  uncached := fun h => absurd h hdir.2
  cached := fun hlate hf => by rw [hpc hlate] at hf; cases hf
  unlocked := fun _ hne => absurd hopen hne

end Bio.PathOk

theorem enterPc_late (g : Geom) (forced : Bool) (sector nsect : Nat) :
    (Sys.enterPc g forced sector nsect).late = false := by
  rcases Sys.enterPc_cases g forced sector nsect with ⟨_, _, hp, _⟩ | hp | ⟨hp, _⟩
  all_goals
    rw [hp]
    rfl

/-- A thread on its path stays on it. -/
theorem PathMove.late {n : Nat} {pc pc' : MapPc} (h : PathMove g n pc pc') :
    pc'.late = pc.late ∨ ∃ snum iosize, pc = .inval snum iosize := by
  cases h
  case inval | invalidated => exact .inr ⟨_, _, rfl⟩
  all_goals exact .inl rfl

theorem BioMove.pathOk (hl : Live g s) (h : (s.bio b).PathOk g (s.req b))
    (hm : BioMove g s b a bc) :
    bc.PathOk g (s.req b) := by
  have hbio := hl.bio b
  have hpcOk := hbio.pc
  -- a bio whose thread has not come to the dispatch has no path, and has not been ended
  have hearly : (s.bio b).pc.late = false → mapRef (s.bio b).pc = 1 →
      ((s.bio b).bcDir ≠ .cachedWrite) ∧ (s.bio b).endio = [] := by
    intro hlate hmap
    refine ⟨fun hdir => by simp [(h.write hdir).2.2.2] at hlate, (hbio.notEnded ?_).1⟩
    have hhold := hbio.hold
    have hmain := mainRef_nonneg (s.bio b).main
    omega
  cases hm with
  | @lock set rest hpc =>
    obtain ⟨hdir, hopen⟩ := hearly (by rw [hpc]; rfl) (by rw [hpc]; rfl)
    exact ⟨fun hd => absurd hd hdir, h.uncached, fun hlate => (by cases hlate),
      fun _ hne => absurd hopen hne⟩
  | enter hpc =>
    obtain ⟨hdir, hopen⟩ := hearly (by rw [hpc]; rfl) (by rw [hpc]; rfl)
    refine ⟨fun hd => absurd hd hdir, h.uncached, fun hlate => ?_, fun _ hne => absurd hopen hne⟩
    rw [enterPc_late] at hlate
    cases hlate
  | @peek k _ dir _ hit hpc _ hd =>
    obtain ⟨hdir, hopen⟩ := hearly (by rw [hpc]; rfl) (by rw [hpc]; rfl)
    refine ⟨fun hw => ?_, fun hw => ?_, fun hlate => (by cases hlate),
      fun _ hne => absurd hopen hne⟩
    · rcases hd with rfl | rfl
      · exact absurd hw hdir
      · cases hw
    · rcases hd with rfl | rfl
      · obtain ⟨hwrite, huc⟩ := h.uncached hw
        exact ⟨hwrite, by simp [huc]⟩
      · cases hw
  | dispatch hpc =>
    obtain ⟨hdir, hopen⟩ := hearly (by rw [hpc]; rfl) (by rw [hpc]; rfl)
    have hwhere : (s.req b).dir = .read → (s.bio b).bcDir ≠ .uncachedWrite := by
      intro hr hu
      rw [(h.uncached hu).1] at hr
      cases hr
    cases hd : (s.req b).dir <;> cases hu : (s.bio b).uc <;> simp only [Sys.dispatchBio, hu]
    · exact ⟨by simp, by simp, by simp [hd], fun _ hne => absurd hopen hne⟩
    · exact ⟨fun hw => absurd hw hdir, fun hw => absurd hw (hwhere hd), by simp [hd],
        fun _ hne => absurd hopen hne⟩
    · rw [hpc] at hpcOk
      refine ⟨fun _ => ⟨hd, hpcOk.2.1, rfl, ?_⟩, by simp, fun _ _ _ _ => rfl,
        fun _ hne => absurd hopen hne⟩
      dsimp only
      split <;> rfl
    · exact ⟨by simp, fun _ => ⟨hd, rfl⟩, by simp, fun _ hne => absurd hopen hne⟩
  | alloc hpc => exact h.same rfl rfl (by rw [hpc]; rfl) rfl rfl
  | path hp =>
    rcases hp.late with hlate | ⟨snum, iosize, hpc⟩
    · exact h.same rfl rfl hlate rfl rfl
    · obtain ⟨hdir, hopen⟩ := hearly (by rw [hpc]; rfl) (by rw [hpc]; rfl)
      rw [hpc] at hpcOk
      refine ⟨fun hd => absurd hd hdir, h.uncached, fun _ hf => ?_, fun _ hne => absurd hopen hne⟩
      rw [hpcOk.2] at hf
      cases hf
  | refuse _ hpc => exact h.same rfl rfl (by rw [hpc]; rfl) rfl rfl
  | disk hpc => exact h.same rfl rfl (by rw [hpc]; rfl) rfl rfl
  | put hpc =>
    apply Bio.PathOk.put
    exact h.same rfl rfl (by rw [hpc]; rfl) rfl rfl
  | mainEndio | ebEndio =>
    apply Bio.PathOk.put
    exact h.same rfl rfl rfl rfl rfl
  | hddDone | main | xfer | mdWrite | enq => exact h.same rfl rfl rfl rfl rfl
  | same => exact h

theorem Reachable.pathOk (h : Reachable g P s) (b : Nat) : (s.bio b).PathOk g (s.req b) := by
  refine Reachable.bio_invariant (Q := fun r bc => bc.PathOk g r) ?_ ?_ ?_ h b
  · exact .early (by decide) (by simp [Bio.absent, MapPc.late]) rfl
  · intro s dir sector nsect keep
    refine .early ?_ ?_ rfl
    · simp only [Sys.newBio]
      split <;> decide
    · intro hlate
      rcases s.newBio_pc (g := g) (s.newReq g dir sector nsect) keep with ⟨-, hpc⟩ | ⟨-, hpc⟩
      · rw [hpc] at hlate
        cases hlate
      · rw [hpc, enterPc_late] at hlate
        cases hlate
  · intro s b a bc hinv hbug _ hok hmove
    exact hmove.pathOk (hinv.live hbug) hok

end

section
variable {g : Geom} {s : Sys} {b k : Nat}

theorem Stage.Ok.of_cw {S : Stage} {r : Role} (h : S.Ok r .cw) : S = .cwOpen := by
  cases S <;> simp [Stage.Ok] at h ⊢

theorem Live.caching_path (hl : Live g s) (hc : (s.bio b).Caching (s.req b)) :
    (s.bio b).pc.late = true ∧ (s.req b).forced = false ∧ (s.req b).dir = .write ∧
      (s.bio b).uc = false := by
  have hpc := (hl.bio b).pc
  rcases hc with ⟨j, hj⟩ | ⟨j, hj⟩ | ⟨hj, hmain, hdir⟩
  · rw [hj] at hpc ⊢
    exact ⟨rfl, hpc.2.1, hpc.2.2.2.1, hpc.2.2.1⟩
  · rw [hj] at hpc ⊢
    exact ⟨rfl, hpc.2.1, hpc.2.2.2.1, hpc.2.2.1⟩
  · have hm := (pcOk_issued hj).mp hpc
    rw [hmain] at hm
    exact ⟨by rcases hj with hj | hj <;> rw [hj] <;> rfl, hm.1, hdir, hm.2.1⟩

/-- A bio on the cached path, by where one of its ebios is. -/
theorem Live.caching_cw (hl : Live g s) (hst : (s.ebio (b, k)).st = .cw) :
    (s.bio b).Caching (s.req b) := by
  have hb := hl.bio b
  have hat := hb.at_ k (hb.started (k := k) (by simp [hst])).1
  rw [hst] at hat
  exact stage_eq_cwOpen hat.of_cw

end

/-! ## What is left behind -/

/-- The SSD has refused the write of a dirty block of the bio. -/
def Sys.WriteLost (s : Sys) (b : Nat) : Prop := ∃ k disk, (s.ebio (b, k)).st = .ucLost disk

/-- An ebio of the bio waits for a metadata update of which the SSD has refused a page. -/
def Sys.UpdateLost (s : Sys) (b : Nat) : Prop :=
  ∃ k set r, ((b, k) ∈ s.pending set ∨ (b, k) ∈ s.inprog set) ∧ s.mdreq set = some r ∧ r.Refused

section
variable {g : Geom} {s s' : Sys} {a : Act} {b k : Nat} {P : Sys → Act → Prop}

/-- A bio with an ebio that waits for a metadata update is on the cached path. -/
theorem Sys.Quiesced.cached (hq : s.Quiesced g b) (h : Reachable g P s)
    (hk : (s.ebio (b, k)).st.waiting = true) :
    (s.req b).dir = .write ∧ (s.bio b).uc = false ∧ (s.bio b).bcDir = .cachedWrite := by
  have hl := h.inv.live hq.running
  obtain ⟨hlate, hforced, hdir, huc⟩ := hl.caching_path (hl.caching hk)
  exact ⟨hdir, huc, (h.pathOk b).cached hlate hforced hdir huc⟩

/-- An ebio that is still parked: another block of the bio could not be written. -/
theorem Sys.Quiesced.mixed (hq : s.Quiesced g b) (h : Reachable g P s)
    (hk : (s.ebio (b, k)).st = .mdList) : s.Mixed b := by
  have hl := h.inv.live hq.running
  have hok := h.ssdOk hq.running
  have hcw := h.cwOk hq.running b
  have hwaits : (s.ebio (b, k)).st.waiting = true := by
    rw [hk]
    rfl
  obtain ⟨hdir, huc, hpath⟩ := hq.cached h hwaits
  have hpos : 0 < (s.bio b).mdwait := by
    refine (hcw.listed fun hnil => ?_).resolve_left (by simp [hq.enq])
    have hmem := (hl.md.list b k).mpr hk
    rw [hnil] at hmem
    cases hmem
  rw [hcw.count hdir huc] at hpos
  obtain ⟨j, hj, hdirty⟩ := List.countP_pos_iff.mp (Int.natCast_pos.mp hpos)
  obtain ⟨hrole, hssd⟩ := of_decide_eq_true hdirty
  refine ⟨hpath, ⟨k, (hl.waiting hwaits).1, (hok _).waiting hwaits⟩, j, ?_⟩
  -- the write of block `j` is over, and it was no success
  rcases hq.ebio_cases hl (List.mem_range.mp hj) with hdone | hlost | hwait
  · cases herr : (s.ebio (b, j)).ssdError with
    | none => exact absurd herr ((hok _).finished hrole hdone)
    | some err => exact ⟨err, hrole, rfl, fun h0 => hssd (by rw [herr, h0])⟩
  · have hcached := (hl.onCached (k := j) hdir huc (by simp [hlost])).2
    rw [hlost] at hcached
    cases hcached
  · exact absurd ((hok _).waiting hwait) hssd

/-- An ebio that is still on a list of a metadata update: the SSD has refused a page. -/
theorem Sys.Quiesced.updateLost (hq : s.Quiesced g b) (h : Reachable g P s)
    (hk : (s.ebio (b, k)).st = .mdPend ∨ (s.ebio (b, k)).st = .mdProg) : s.UpdateLost b := by
  have hl := h.inv.live hq.running
  let set := s.setOf g (b, k)
  have hmem : (b, k) ∈ s.pending set ∨ (b, k) ∈ s.inprog set :=
    hk.imp (fun hst => (hl.md.pend set _).mpr ⟨hst, rfl⟩) fun hst =>
      (hl.md.prog set _).mpr ⟨hst, rfl⟩
  cases hr : s.mdreq set with
  | none => simp [Sys.pending, Sys.inprog, hr] at hmem
  | some r =>
    obtain ⟨hph, hquiet⟩ := hq.md k set r hmem hr
    exact ⟨k, set, r, hmem, hr, (h.counted hr).refused hph hquiet⟩

/-- A bio that has come to rest without being ended has left an ebio at one of three
places. -/
theorem Sys.Quiesced.left_behind (hq : s.Quiesced g b) (h : Reachable g P s)
    (hnot : ¬ s.Completed b) : s.Mixed b ∨ s.WriteLost b ∨ s.UpdateLost b := by
  have hl := h.inv.live hq.running
  by_contra hnone
  refine hnot (hq.completed hl fun k hk => ?_)
  rcases hq.ebio_cases hl hk with hdone | hlost | hwait
  · exact hdone
  · exact absurd (.inr (.inl ⟨k, true, hlost⟩)) hnone
  · refine absurd ?_ hnone
    cases hst : (s.ebio (b, k)).st <;> rw [hst] at hwait <;> cases hwait
    · exact .inl (hq.mixed h hst)
    · exact .inr (.inr (hq.updateLost h (.inl hst)))
    · exact .inr (.inr (hq.updateLost h (.inr hst)))

/-- Of a completed bio nothing is left behind. -/
theorem Sys.Completed.not_left (hc : s.Completed b) (h : Reachable g P s) (hbug : s.bug = none) :
    ¬ s.Mixed b ∧ ¬ s.WriteLost b ∧ ¬ s.UpdateLost b := by
  have hl := h.inv.live hbug
  have hleft : ∀ k, (s.ebio (b, k)).st ≠ .new → (s.ebio (b, k)).st ≠ .done → False :=
    fun k hnew hne => hne (hc.done hl ((hl.bio b).started (k := k) hnew).1)
  refine ⟨?_, ?_, ?_⟩
  · -- the block that was not written keeps `bc_mdwait` up and the other one parked
    rintro ⟨hpath, ⟨k, hrole, hzero⟩, j, err, hrole', herr, hne⟩
    have hcw := h.cwOk hbug b
    obtain ⟨hdir, -, huc, -⟩ := (h.pathOk b).write hpath
    have hj : j < (s.req b).segs.length := by
      by_contra hj
      rw [(hl.bio b).beyond j (Nat.le_of_not_lt hj)] at hrole'
      cases hrole'
    have hcount : 0 < s.toDirty b := by
      refine List.countP_pos_iff.mpr ⟨j, List.mem_range.mpr hj, decide_eq_true ⟨hrole', ?_⟩⟩
      rw [herr]
      simpa using hne
    have hlist := hcw.parked hdir huc (by rw [hcw.count hdir huc]; exact Int.natCast_pos.mpr hcount)
      k hrole hzero
    exact hleft k (by simp [hlist]) (by simp [hlist])
  · rintro ⟨k, disk, hst⟩
    exact hleft k (by simp [hst]) (by simp [hst])
  · rintro ⟨k, set, r, hmem | hmem, -⟩
    · have hst := ((hl.md.pend set _).mp hmem).1
      exact hleft k (by simp [hst]) (by simp [hst])
    · have hst := ((hl.md.prog set _).mp hmem).1
      exact hleft k (by simp [hst]) (by simp [hst])

/-- A cached write that has come to rest is completed, its set locks released, unless one
of its blocks was written and another was not, or the SSD refused a page of a metadata
update it waits for. -/
theorem cached_write_completes_iff (h : Reachable g P s) (hq : s.Quiesced g b)
    (hpath : (s.bio b).bcDir = .cachedWrite) :
    s.Completed b ∧ (s.bio b).locks = [] ↔ ¬ s.Mixed b ∧ ¬ s.UpdateLost b := by
  have hl := h.inv.live hq.running
  have hok := h.pathOk b
  obtain ⟨hdir, hforced, huc, -⟩ := hok.write hpath
  have hmain := ((hl.bio b).cached_stage (k := 0) hdir huc hforced).1
  have hmode : g.mode = .wb := by
    have hpc := (hl.bio b).pc
    rw [hq.thread, PcOk, hmain] at hpc
    exact hpc.2.2 hdir
  constructor
  · rintro ⟨hc, -⟩
    obtain ⟨hmixed, -, hupdate⟩ := hc.not_left h hq.running
    exact ⟨hmixed, hupdate⟩
  · rintro ⟨hmixed, hupdate⟩
    have hc : s.Completed b := by
      by_contra hnot
      rcases hq.left_behind h hnot with hm | ⟨k, disk, hst⟩ | hu
      · exact hmixed hm
      · have hcached := (hl.onCached (k := k) hdir huc (by simp [hst])).2
        rw [hst] at hcached
        cases hcached
      · exact hupdate hu
    refine ⟨hc, hok.unlocked hmode fun hnil => ?_⟩
    have hone := hc.endio
    rw [hnil] at hone
    cases hone

/-- A bio that has come to rest is completed unless one of its blocks was written and
another was not, the SSD refused to write a dirty block of it in place, or the SSD refused a
page of a metadata update it waits for. -/
theorem refusals_complete_iff (h : Reachable g P s) (hq : s.Quiesced g b) :
    s.Completed b ↔ ¬ s.Mixed b ∧ ¬ s.WriteLost b ∧ ¬ s.UpdateLost b := by
  refine ⟨fun hc => hc.not_left h hq.running, fun ⟨hmixed, hwrite, hupdate⟩ => ?_⟩
  by_contra hnot
  rcases hq.left_behind h hnot with hm | hw | hu
  · exact hmixed hm
  · exact hwrite hw
  · exact hupdate hu

end

/-! ## Concrete runs -/

/-- The update has nothing left to do. -/
def MdReq.atRest (g : Geom) (r : MdReq) : Bool :=
  r.phase = .wait && (List.range (Sys.mdPages g)).all fun p => r.page p ≠ .inflight

/-- The ebio, and the update of its set, have nothing left to do. -/
def Sys.ebioAtRest (g : Geom) (s : Sys) (e : EbId) : Bool :=
  !(s.ebio e).st.inFlight && (s.ebio e).st ≠ .readFail && (s.ebio e).todo.isEmpty &&
    (s.mdreq (s.setOf g e)).all (·.atRest g)

/-- A test for `Sys.Quiesced`. -/
def Sys.atRest (g : Geom) (s : Sys) (b : Nat) : Bool :=
  s.bug.isNone && (s.bio b).pc = .done && ((s.bio b).main = .none || (s.bio b).main = .done) &&
    !(s.bio b).enq && (List.range (s.req b).segs.length).all fun k => s.ebioAtRest g (b, k)

section
variable {g : Geom} {s : Sys} {b : Nat} {P : Sys → Act → Prop}

theorem Reachable.quiesced (h : Reachable g P s) (hrest : s.atRest g b = true) :
    s.Quiesced g b := by
  simp only [Sys.atRest, Sys.ebioAtRest, Bool.and_eq_true, Bool.or_eq_true, decide_eq_true_eq,
    Option.isNone_iff_eq_none, Bool.not_eq_true', List.all_eq_true, List.mem_range, ne_eq,
    List.isEmpty_iff] at hrest
  obtain ⟨⟨⟨⟨hbug, hpc⟩, hmain⟩, henq⟩, hebs⟩ := hrest
  have hl := h.inv.live hbug
  refine ⟨hbug, hpc, hmain, fun k => ?_, henq, fun k set r hmem hr => ?_⟩
  · by_cases hk : k < (s.req b).segs.length
    · obtain ⟨⟨⟨hflight, hfail⟩, htodo⟩, -⟩ := hebs k hk
      exact ⟨hflight, hfail, htodo⟩
    · rw [(hl.bio b).beyond k (Nat.le_of_not_lt hk)]
      exact ⟨rfl, by decide, rfl⟩
  · have hwait : (s.ebio (b, k)).st.waiting = true ∧ s.setOf g (b, k) = set := by
      rcases hmem with hmem | hmem
      · obtain ⟨hst, hset⟩ := (hl.md.pend set _).mp hmem
        exact ⟨by rw [hst]; rfl, hset⟩
      · obtain ⟨hst, hset⟩ := (hl.md.prog set _).mp hmem
        exact ⟨by rw [hst]; rfl, hset⟩
    have hk := ((hl.bio b).started (k := k) fun hn => by rw [hn] at hwait; cases hwait.1).1
    have hreq := (hebs k hk).2
    rw [hwait.2, hr] at hreq
    simp only [Option.all_some, MdReq.atRest, Bool.and_eq_true, decide_eq_true_eq, List.all_eq_true,
      List.mem_range, ne_eq] at hreq
    refine ⟨hreq.1, fun p hp => ?_⟩
    by_cases hpage : p < Sys.mdPages g
    · exact hreq.2 p hpage hp
    · exact (h.mdQueue.phased set r hr).bound p (Nat.le_of_not_lt hpage) hp

/-- Nothing of a bio of one block is left behind once its ebio has ended. -/
theorem Sys.Quiesced.one_block (hq : s.Quiesced g b) (h : Reachable g P s)
    (hlen : (s.req b).segs.length = 1) (hst : (s.ebio (b, 0)).st = .done) :
    ¬ s.Mixed b ∧ ¬ s.WriteLost b ∧ ¬ s.UpdateLost b := by
  have hl := h.inv.live hq.running
  have hbeyond : ∀ k, k ≠ 0 → s.ebio (b, k) = Ebio.init :=
    fun k hk => (hl.bio b).beyond k (by omega)
  have hdone : ∀ k, (s.ebio (b, k)).st = .new ∨ (s.ebio (b, k)).st = .done := by
    intro k
    by_cases hk : k = 0
    · exact .inr (hk ▸ hst)
    · exact .inl (by rw [hbeyond k hk]; rfl)
  have hwritten : ∀ k, (s.ebio (b, k)).role = .wr → k = 0 := by
    intro k hrole
    by_contra hk
    rw [hbeyond k hk] at hrole
    cases hrole
  refine ⟨?_, ?_, ?_⟩
  · rintro ⟨-, ⟨k, hrole, herr⟩, k', err, hrole', herr', hne⟩
    rw [hwritten k hrole] at herr
    rw [hwritten k' hrole', herr] at herr'
    exact hne (Option.some.inj herr').symm
  · rintro ⟨k, disk, hlost⟩
    rcases hdone k with h | h <;> rw [hlost] at h <;> cases h
  · rintro ⟨k, set, r, hmem | hmem, -⟩
    · have hpend := ((hl.md.pend set _).mp hmem).1
      rcases hdone k with h | h <;> rw [hpend] at h <;> cases h
    · have hprog := ((hl.md.prog set _).mp hmem).1
      rcases hdone k with h | h <;> rw [hprog] at h <;> cases h

end

/-- The write of one block, to its end. -/
def wholeWrite : List Act := dirtyingWrite ++ [.cwLock 0, .put 0, .ebEndio 0 0]

/-- The write of one block that the SSD refuses. -/
def refusedWrite : List Act :=
  dirtyingWrite.take 7 ++ [.cwSubmit 0 (-5), .cwLock 0, .put 0, .ebEndio 0 0]

/-- A write of two blocks, of which the SSD writes only the first. -/
def halfWritten : List Act :=
  [.map .write 2048 16 false, .lock 0, .lock 0, .peek 0 none, .peek 0 none, .dispatch 0,
    .cwAlloc 0 0, .cwLock 0, .cwSubmit 0 0, .cwLock 0, .cwSubmit 0 0, .cwLock 0, .put 0] ++
  (List.range' 2048 8).map (Act.ssdSector 0 0) ++
  [.ssdDone 0 0 0, .ssdDone 0 1 (-5), .ebEndio 0 1]

/-- The write of one block whose metadata page the SSD refuses. -/
def pageRefused : List Act :=
  dirtyingWrite.take 18 ++ [.doMd 1, .mdSubmit 1 (-5), .mdSubmit 1 0, .cwLock 0, .put 0]

/-- After the write of one block, an uncached write of it that the SSD refuses. -/
def dirtyRefused : List Act :=
  wholeWrite ++ [.map .write 2048 8 true, .lock 1, .lock 1, .peek 1 none, .dispatch 1, .uwLock 1,
    .uwSubmit 1 (-5), .uwLock 1, .diskIo 1 0, .put 1] ++
  (List.range' 2048 8).map (Act.hddSector 1) ++
  [.hddDone 1 0, .flag 1, .flag 1, .mainEndio 1]

theorem cached_write_completes_whole : ∃ s, Reachable smallCache (fun _ _ => True) s ∧
    s.Quiesced smallCache 0 ∧ (s.bio 0).bcDir = .cachedWrite ∧
    s.Completed 0 ∧ (s.bio 0).locks = [] := by
  obtain ⟨s, hs, hrest, hdir, hlen, hst⟩ := Reachable.run smallCache wholeWrite
    (R := fun s => s.atRest smallCache 0 = true ∧ (s.bio 0).bcDir = .cachedWrite ∧
      (s.req 0).segs.length = 1 ∧ (s.ebio (0, 0)).st = .done) (by decide +kernel)
  have hq := hs.quiesced hrest
  obtain ⟨hmixed, -, hupdate⟩ := hq.one_block hs hlen hst
  exact ⟨s, hs, hq, hdir, (cached_write_completes_iff hs hq hdir).mpr ⟨hmixed, hupdate⟩⟩

/-- The block that was written waits for ever, and with it the bio and its set lock. -/
theorem cached_write_hangs : ∃ s, Reachable smallCache (fun _ _ => True) s ∧
    s.Quiesced smallCache 0 ∧ (s.bio 0).bcDir = .cachedWrite ∧ (s.bio 0).holdcount = 1 ∧
    (s.bio 0).endio = [] ∧ (s.bio 0).locks = [1] ∧ (s.ebio (0, 0)).ended = 0 := by
  obtain ⟨s, hs, hrest, hstate⟩ := Reachable.run smallCache halfWritten
    (R := fun s => s.atRest smallCache 0 = true ∧ (s.bio 0).bcDir = .cachedWrite ∧
      (s.bio 0).holdcount = 1 ∧ (s.bio 0).endio = [] ∧ (s.bio 0).locks = [1] ∧
      (s.ebio (0, 0)).ended = 0) (by decide +kernel)
  exact ⟨s, hs, hs.quiesced hrest, hstate⟩

/-- The SSD refuses the only block of a cached write, and the bio ends all the same. -/
theorem refusals_complete_whole : ∃ s, Reachable smallCache (fun _ _ => True) s ∧
    s.Quiesced smallCache 0 ∧ (s.ebio (0, 0)).ssdError = some (-5) ∧ s.Completed 0 := by
  obtain ⟨s, hs, hrest, hrefused, hlen, hst⟩ := Reachable.run smallCache refusedWrite
    (R := fun s => s.atRest smallCache 0 = true ∧ (s.ebio (0, 0)).ssdError = some (-5) ∧
      (s.req 0).segs.length = 1 ∧ (s.ebio (0, 0)).st = .done) (by decide +kernel)
  have hq := hs.quiesced hrest
  exact ⟨s, hs, hq, hrefused, (refusals_complete_iff hs hq).mpr (hq.one_block hs hlen hst)⟩

/-- A refused metadata page, and a refused write of a dirty block, strand the bio. -/
theorem refusals_strand :
    (∃ s, Reachable smallCache (fun _ _ => True) s ∧ s.Quiesced smallCache 0 ∧
      (s.bio 0).endio = [] ∧ (s.ebio (0, 0)).ended = 0) ∧
    ∃ s, Reachable smallCache (fun _ _ => True) s ∧ s.Quiesced smallCache 1 ∧
      (s.bio 1).endio = [] ∧ (s.ebio (1, 0)).ended = 0 := by
  constructor
  · obtain ⟨s, hs, hrest, hstate⟩ := Reachable.run smallCache pageRefused
      (R := fun s => s.atRest smallCache 0 = true ∧ (s.bio 0).endio = [] ∧
        (s.ebio (0, 0)).ended = 0) (by decide +kernel)
    exact ⟨s, hs, hs.quiesced hrest, hstate⟩
  · obtain ⟨s, hs, hrest, hstate⟩ := Reachable.run smallCache dirtyRefused
      (R := fun s => s.atRest smallCache 1 = true ∧ (s.bio 1).endio = [] ∧
        (s.ebio (1, 0)).ended = 0) (by decide +kernel)
    exact ⟨s, hs, hs.quiesced hrest, hstate⟩

end EnhanceIO
