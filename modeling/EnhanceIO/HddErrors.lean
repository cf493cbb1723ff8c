import EnhanceIO.Acts
import EnhanceIO.States

/-!
# Errors of the source device

The error of the HDD I/O of a bio is handed down from its completion to the last
`eb_endio` of the main ebio, and `eb_endio` keeps it if `eb_iotype` is exactly
`EB_MAIN_IO`. `eio_disk_io` adds `EB_INVAL` to it for a bio that was
`force_uncached`: every write to a read-only cache, and every bio of a degraded
one. Their errors are dropped.
-/

namespace EnhanceIO

/-- The error on its way to the end of the main ebio. -/
def MainPc.error : MainPc → Option Int
  | .inval _ _ err | .flag _ _ err | .endio err => some err
  | _ => Option.none

/-- The bio is ended with an error, or will be. -/
def Bio.Failed (bc : Bio) : Prop := bc.error ≠ 0 ∧ ∀ e ∈ bc.endio, e ≠ 0

/-- The HDD I/O was refused or has failed. -/
def Bio.HddFailed (bc : Bio) : Prop :=
  bc.main ≠ .none ∧ bc.main ≠ .inflight ∧ bc.hddError ≠ some 0

/-- What has become of the result of the HDD I/O. -/
structure Bio.HddOk (r : Req) (bc : Bio) : Prop where
  early : bc.main = .none ∨ bc.main = .inflight → bc.hddError = none
  kept : r.forced = false → bc.HddFailed →
    (∃ err, bc.main.error = some err ∧ err ≠ 0 ∧ bc.endio = []) ∨ bc.Failed
  dropped : r.forced = true → bc.error = 0 ∧ ∀ e ∈ bc.endio, e = 0

section
variable {g : Geom} {s : Sys} {b : Nat} {a : Act} {bc : Bio} {r : Req}

theorem MainMove.error {n : Nat} {main main' : MainPc} (h : MainMove g n main main') {err : Int}
    (he : main.error = some err) : main'.error = some err := by
  cases h <;> first | exact he | cases he

theorem MainMove.late {n : Nat} {main main' : MainPc} (h : MainMove g n main main') :
    (main ≠ .none ∧ main ≠ .inflight) ∧ main' ≠ .none ∧ main' ≠ .inflight := by
  cases h <;> simp

/-! ## Errors that stay -/

theorem Sys.propagate_ne_zero {iotype : IoType} {err error : Int} (h : error ≠ 0) :
    Sys.propagate iotype err error ≠ 0 := by
  rw [Sys.propagate]
  split
  · next hp => exact hp.2
  · exact h

theorem Bio.Failed.put (h : bc.Failed) (now : Nat) : (Bio.put g now bc).Failed := by
  rw [Bio.put]
  split
  · refine ⟨h.1, fun e hmem => ?_⟩
    rcases List.mem_append.mp hmem with hmem | hmem
    · exact h.2 e hmem
    · rw [List.mem_singleton.mp hmem]
      exact h.1
  · exact h

/-- An error that `eb_endio` has noted is not taken back. -/
theorem BioMove.failed (h : (s.bio b).Failed) (hm : BioMove g s b a bc) : bc.Failed := by
  cases hm with
  | refuse hne => exact ⟨hne, h.2⟩
  | dispatch =>
    have hsame := dispatchBio_sameIo (s.req b).dir (s.bio b)
    rw [Bio.Failed, hsame.error, hsame.endio]
    exact h
  | put =>
    apply Bio.Failed.put
    exact h
  | mainEndio | ebEndio =>
    apply Bio.Failed.put
    exact ⟨Sys.propagate_ne_zero h.1, h.2⟩
  | _ => exact h

namespace Bio.HddOk

theorem same {bc' : Bio} (h : bc.HddOk r) (hs : bc.SameIo bc') : bc'.HddOk r where
  early := by
    rw [hs.main, hs.hddError]
    exact h.early
  kept := by
    rw [Bio.HddFailed, Bio.Failed, hs.main, hs.hddError, hs.error, hs.endio]
    exact h.kept
  dropped := by
    rw [hs.error, hs.endio]
    exact h.dropped

theorem fresh (hmain : bc.main = .none) (hhdd : bc.hddError = none) (herr : bc.error = 0)
    (hend : bc.endio = []) : bc.HddOk r where
  early := fun _ => hhdd
  kept := fun _ hf => absurd hmain hf.1
  dropped := fun _ => ⟨herr, by simp [hend]⟩

/-- `bc_put`: as long as the main ebio is on its way it is not the last. -/
theorem put (h : bc.HddOk r) (hlast : bc.main.error.isSome = true → bc.holdcount ≠ 1) (now : Nat) :
    (Bio.put g now bc).HddOk r := by
  by_cases hone : bc.holdcount - 1 = 0
  · have hput : Bio.put g now bc =
        { bc with
          holdcount := 0
          locks := if g.mode = .wb then [] else bc.locks
          mdreqs := if g.mode = .wb then 0 else bc.mdreqs
          endio := bc.endio ++ [bc.error]
          ended := some now } := if_pos hone
    refine { early := ?_, kept := fun hf hfail => .inr ?_, dropped := fun hf => ?_ }
    · rw [hput]
      exact h.early
    · rw [hput] at hfail
      refine Bio.Failed.put ?_ now
      rcases h.kept hf hfail with ⟨err, hmain, -⟩ | hfailed
      · exact absurd (by omega) (hlast (by simp [hmain]))
      · exact hfailed
    · rw [hput]
      obtain ⟨herr, hend⟩ := h.dropped hf
      refine ⟨herr, fun e hmem => ?_⟩
      rcases List.mem_append.mp hmem with hmem | hmem
      · exact hend e hmem
      · rw [List.mem_singleton.mp hmem, herr]
  · rw [Bio.put, if_neg hone]
    exact { h with }

end Bio.HddOk

/-- The main ebio has a reference of its own. -/
theorem mainRef_of_error {main : MainPc} (h : main.error.isSome = true) : mainRef main = 1 := by
  cases main <;> first | rfl | cases h

/-- A bio that was `force_uncached` has no ebios. -/
theorem Live.forced_segs (hl : Live g s) (hf : (s.req b).forced = true) : (s.req b).segs = [] :=
  (hl.req b).segs_forced hf

theorem Sys.hddDonePc_late (s : Sys) (r : Req) (bc : Bio) (err : Int) :
    ¬ (s.hddDonePc r bc err = .none ∨ s.hddDonePc r bc err = .inflight) := by
  simp only [Sys.hddDonePc]
  split
  · split <;> simp
  · split
    · simp
    · split
      · simp
      · split <;> simp

theorem Sys.hddDonePc_error (s : Sys) (r : Req) (bc : Bio) {err : Int} (hne : err ≠ 0) :
    (s.hddDonePc r bc err).error = some err := by
  cases hd : r.dir <;> simp [Sys.hddDonePc, hd, hne, MainPc.error]

/-- An ebio that is being ended holds a reference. -/
theorem Live.ending_open (hl : Live g s) {k : Nat} {err : Int}
    (htodo : (s.ebio (b, k)).todo.head? = some err) :
    k < (s.req b).segs.length ∧
      (1 : Int) ≤ openEbios (s.req b).segs.length fun k => s.ebio (b, k) := by
  have hbio := hl.bio b
  have hk : k < (s.req b).segs.length := by
    by_contra hk
    rw [hbio.beyond k (by omega)] at htodo
    cases htodo
  refine ⟨hk, ?_⟩
  have hended : (s.ebio (b, k)).ended = 0 := by
    by_cases hst : (s.ebio (b, k)).st = .done
    · have hdead := (hbio.ebs k).dead hst
      have hpos : 0 < (s.ebio (b, k)).todo.length := by
        cases htd : (s.ebio (b, k)).todo with
        | nil => rw [htd] at htodo; cases htodo
        | cons => simp
      omega
    · exact ((hbio.ebs k).live hst).2
  have hpos : 0 < openEbios (s.req b).segs.length fun k => s.ebio (b, k) :=
    List.countP_pos_iff.mpr ⟨k, List.mem_range.mpr hk, by simp [hended]⟩
  omega

/-- A bio whose HDD I/O is issued or on its way has not been ended. -/
theorem BioOk.not_ended {ebs : Nat → Ebio} (h : BioOk g r bc ebs)
    (hbusy : 0 < mapRef bc.pc + mainRef bc.main) : bc.endio = [] := by
  have hhold := h.hold
  exact (h.notEnded (by omega)).1

theorem BioMove.hddOk (hl : Live g s) (h : (s.bio b).HddOk (s.req b)) (hm : BioMove g s b a bc) :
    bc.HddOk (s.req b) := by
  have hbio := hl.bio b
  have hhold := hbio.hold
  have hmap := mapRef_nonneg (s.bio b).pc
  have hpcOk := hbio.pc
  cases hm with
  | lock | enter | peek | alloc | path | xfer | mdWrite | enq =>
    exact h.same ⟨rfl, rfl, rfl, rfl, rfl, rfl⟩
  | dispatch => exact h.same (dispatchBio_sameIo _ _)
  | same => exact h
  | @refuse k _ _ hne hpc =>
    rw [hpc] at hpcOk
    refine { early := h.early, kept := fun _ hf => absurd hpcOk.1 hf.1, dropped := fun hf => ?_ }
    have hk := hpcOk.2.2.2
    rw [hl.forced_segs hf] at hk
    exact absurd hk (Nat.not_lt_zero k)
  | @disk refused hpc =>
    rw [hpc] at hpcOk
    refine ⟨fun _ => h.early (.inl hpcOk.1), fun _ hf => .inl ?_, h.dropped⟩
    have hne : refused ≠ 0 := fun h0 => hf.2.1 (if_pos h0)
    refine ⟨refused, ?_, hne, hbio.not_ended (by rw [hpc, hpcOk.1]; decide)⟩
    show MainPc.error (if refused = 0 then _ else _) = _
    rw [if_neg hne]
    rfl
  | put hpc =>
    apply Bio.HddOk.put
    · exact { h with }
    · intro herr
      rw [hpc, mainRef_of_error herr] at hhold
      simp only [mapRef] at hhold
      show (s.bio b).holdcount ≠ 1
      omega
  | @hddDone err hmain =>
    refine {
      early := fun he => absurd he (s.hddDonePc_late (s.req b) (s.bio b) err)
      kept := fun _ hf => .inl ?_
      dropped := h.dropped }
    have hne : err ≠ 0 := fun h0 => hf.2.2 (congrArg some h0)
    refine ⟨err, s.hddDonePc_error (s.req b) (s.bio b) hne, hne, hbio.not_ended ?_⟩
    rw [hmain]
    exact Int.lt_add_one_of_le hmap
  | main hmove =>
    obtain ⟨hlate, hlate'⟩ := hmove.late
    refine { early := fun he => by tauto, kept := fun hf hfail => ?_, dropped := h.dropped }
    rcases h.kept hf ⟨hlate.1, hlate.2, hfail.2.2⟩ with ⟨err, herr, hne, hend⟩ | hfailed
    · exact .inl ⟨err, hmove.error herr, hne, hend⟩
    · exact .inr hfailed
  | @mainEndio err hmain =>
    have hiot := hbio.iotype (by simp [hmain])
    refine Bio.HddOk.put
      { early := by simp, kept := fun hf hfail => .inr ?_, dropped := fun hf => ?_ }
      (fun herr => by cases herr) _
    · rcases h.kept hf ⟨by simp [hmain], by simp [hmain], hfail.2.2⟩ with
        ⟨err', herr, hne, hend⟩ | hfailed
      · rw [hmain] at herr
        cases herr
        rw [hf, if_neg (by simp)] at hiot
        simp [Bio.Failed, Sys.propagate, hiot, hne, hend]
      · exact ⟨Sys.propagate_ne_zero hfailed.1, hfailed.2⟩
    · rw [hf, if_pos rfl] at hiot
      have hno : ¬ (IoType.mainIo ||| IoType.inval = IoType.mainIo) := by decide
      obtain ⟨herr, hend⟩ := h.dropped hf
      exact ⟨by simp [Sys.propagate, hiot, hno, herr], hend⟩
  | @ebEndio k err htodo =>
    obtain ⟨hk, hopen⟩ := hl.ending_open htodo
    apply Bio.HddOk.put
    · refine { early := h.early, kept := fun hf hfail => ?_, dropped := fun hf => ?_ }
      · exact (h.kept hf hfail).imp_right fun hfailed =>
          ⟨Sys.propagate_ne_zero hfailed.1, hfailed.2⟩
      · rw [hl.forced_segs hf] at hk
        exact absurd hk (Nat.not_lt_zero k)
    · intro herr
      rw [mainRef_of_error herr] at hhold
      show (s.bio b).holdcount ≠ 1
      omega

theorem Reachable.hddOk {P : Sys → Act → Prop} (h : Reachable g P s) (b : Nat) :
    (s.bio b).HddOk (s.req b) := by
  refine Reachable.bio_invariant (Q := fun r bc => bc.HddOk r) ?_ ?_ ?_ h b
  · exact .fresh rfl rfl rfl rfl
  · intro s dir sector nsect keep
    exact .fresh rfl rfl rfl rfl
  · intro s b a bc hinv hbug _ hok hmove
    exact hmove.hddOk (hinv.live hbug) hok

/-- When the HDD I/O of a bio has failed and the bio has been ended, it has been ended
with an error exactly if it was not `force_uncached`. -/
theorem hdd_error_reported_iff {P : Sys → Act → Prop} {err : Int} (h : Reachable g P s)
    (herr : (s.bio b).hddError = some err) (hne : err ≠ 0) (hend : (s.bio b).endio ≠ []) :
    (∀ e ∈ (s.bio b).endio, e ≠ 0) ↔ (s.req b).forced = false := by
  have hok := h.hddOk b
  constructor
  · intro hall
    by_contra hf
    obtain ⟨e, he⟩ := List.exists_mem_of_ne_nil _ hend
    exact hall e he ((hok.dropped (by simpa using hf)).2 e he)
  · intro hf
    have hfailed : (s.bio b).HddFailed := by
      refine ⟨fun hm => ?_, fun hm => ?_, by simpa [herr] using hne⟩
      · rw [hok.early (.inl hm)] at herr
        cases herr
      · rw [hok.early (.inr hm)] at herr
        cases herr
    rcases hok.kept hf hfailed with ⟨_, -, -, hnil⟩ | ⟨-, hall⟩
    · exact absurd hnil hend
    · exact hall

end

/-! ## Concrete runs -/

/-- A read-only cache of 8 blocks. -/
def tinyReadOnly : Geom :=
  .ofSizes .ro 3 1 4 1024 (by decide)

/-- A bio of 4 sectors that misses, and whose HDD I/O fails. -/
def failedRead : List Act :=
  [.map .read 16 4 false, .peek 0 none, .dispatch 0, .diskIo 0 0, .put 0, .hddDone 0 (-5),
    .invalMain 0, .invalMain 0, .flag 0, .flag 0, .mainEndio 0, .ebEndio 0 0]

/-- A bio that goes to the HDD at once, and whose I/O fails. -/
def failedForced (dir : Dir) : List Act :=
  [.map dir 16 8 false, .invalMap 0, .invalMap 0, .diskIo 0 0, .put 0, .hddDone 0 (-5),
    .invalMain 0, .invalMain 0, .flag 0, .mainEndio 0]

theorem hdd_error_reported_read : ∃ s, Reachable tinyReadOnly (fun _ _ => True) s ∧
    (s.bio 0).hddError = some (-5) ∧ (s.bio 0).endio = [-5] ∧ (s.req 0).forced = false ∧
    ((∀ e ∈ (s.bio 0).endio, e ≠ 0) ↔ (s.req 0).forced = false) := by
  obtain ⟨s, hs, herr, hend, hf⟩ := Reachable.run tinyReadOnly failedRead
    (R := fun s => (s.bio 0).hddError = some (-5) ∧ (s.bio 0).endio = [-5] ∧
      (s.req 0).forced = false) (by decide +kernel)
  exact ⟨s, hs, herr, hend, hf, hdd_error_reported_iff hs herr (by decide) (by simp [hend])⟩

/-- A failed write to a read-only cache, and a failed read of a degraded cache, are
reported as done. -/
theorem hdd_error_dropped :
    (∃ s, Reachable tinyReadOnly (fun _ _ => True) s ∧ s.degraded = false ∧
      (s.req 0).dir = .write ∧ (s.bio 0).hddError = some (-5) ∧ (s.bio 0).endio = [0]) ∧
    ∃ s, Reachable tinyReadOnly (fun _ _ => True) s ∧ s.degraded = true ∧
      (s.req 0).dir = .read ∧ (s.bio 0).hddError = some (-5) ∧ (s.bio 0).endio = [0] := by
  constructor
  · exact Reachable.run _ (failedForced .write) (by decide +kernel)
  · exact Reachable.run _ (.suspend :: failedForced .read) (by decide +kernel)

end EnhanceIO
