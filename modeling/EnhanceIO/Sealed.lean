import EnhanceIO.Shutdown

/-!
# A cache at rest

When every bio has been ended and no clean runs, no block has a request on it. A
cache that is then made read-only stays as it is: reads that hit a block mark it
for as long as they last, all others pass it by, and as long as no I/O fails
nothing is dropped. `Sealed g s₀ s` says that `s` has come from `s₀` in this way.
-/

namespace EnhanceIO

open State

/-! ## Every bio has been ended -/

section
variable {g : Geom} {s : Sys} {b : Nat} {e : EbId}

/-- The bio has not arrived, or its last reference is gone. -/
structure Bio.Finished (bc : Bio) : Prop where
  pc : bc.pc = .absent ∨ bc.pc = .done
  main : bc.main = .none ∨ bc.main = .done

theorem mapRef_eq_zero {pc : MapPc} : mapRef pc = 0 ↔ pc = .absent ∨ pc = .done := by
  cases pc <;> simp [mapRef]

theorem mainRef_eq_zero {main : MainPc} : mainRef main = 0 ↔ main = .none ∨ main = .done := by
  cases main <;> simp [mainRef]

/-- A container without references: its ebios are ended too. -/
theorem BioOk.finished {r : Req} {bc : Bio} {eb : Nat → Ebio} (h : BioOk g r bc eb)
    (h0 : bc.holdcount = 0) : bc.Finished ∧ ∀ k, (eb k).st = .new ∨ (eb k).st = .done := by
  have hsum := h.hold
  have hmap := mapRef_nonneg bc.pc
  have hmain := mainRef_nonneg bc.main
  rw [h0] at hsum
  refine ⟨⟨mapRef_eq_zero.mp (by omega), mainRef_eq_zero.mp (by omega)⟩, fun k => ?_⟩
  by_cases hk : k < r.segs.length
  · right
    by_contra hst
    have hopen : openEbios r.segs.length eb = 0 := by omega
    rw [openEbios, List.countP_eq_zero] at hopen
    exact hopen k (List.mem_range.mpr hk) (by simp [((h.ebs k).live hst).2])
  · left
    rw [h.beyond k (by omega)]
    rfl

theorem BioOk.holdcount_eq_zero {r : Req} {bc : Bio} {eb : Nat → Ebio} (h : BioOk g r bc eb)
    (hend : bc.pc = .absent ∨ bc.endio ≠ []) : bc.holdcount = 0 := by
  rcases hend with hpc | hend
  · have hp := h.pc
    rw [hpc] at hp
    rw [hp.1]
    rfl
  · by_contra hne
    exact hend (h.notEnded hne).1

theorem Live.finished (h : Live g s) (hend : s.allEnded) (b : Nat) :
    (s.bio b).Finished ∧ ∀ k, (s.ebio (b, k)).st = .new ∨ (s.ebio (b, k)).st = .done := by
  refine (h.bio b).finished ((h.bio b).holdcount_eq_zero ?_)
  by_cases hb : b < s.nbio
  · exact hend b hb
  · exact .inl (h.absent b (by omega))

/-- Under the lock that keeps new bios out, `nr_ios` counts every bio in flight. -/
theorem Sys.allEnded_of_drained (hmaps : s.noMaps) (hios : s.nrIos = 0) : s.allEnded := by
  intro b hb
  rcases hmaps b hb with hpc | hpc
  · exact .inl hpc
  · right
    intro hend
    rw [Sys.nrIos, List.countP_eq_zero] at hios
    exact hios b (List.mem_range.mpr hb) (by simp [Bio.counted, hpc, hend])

/-- No metadata update is left when no ebio waits for one. -/
theorem MdOk.no_request (h : MdOk g s)
    (hst : ∀ e, (s.ebio e).st.waiting = false) (set : Nat) : s.mdreq set = none := by
  cases hr : s.mdreq set with
  | none => rfl
  | some r =>
    have hpend : ∀ e, e ∉ s.pending set := by
      intro e he
      have := hst e
      rw [((h.pend set e).mp he).1] at this
      cases this
    have hprog : ∀ e, e ∉ s.inprog set := by
      intro e he
      have := hst e
      rw [((h.prog set e).mp he).1] at this
      cases this
    simp only [Sys.pending, Sys.inprog, hr, Option.elim_some] at hpend hprog
    rcases (h.reqs set r hr).busy with hb | hb
    · exact absurd (List.eq_nil_iff_forall_not_mem.mpr hpend) hb
    · exact absurd (List.eq_nil_iff_forall_not_mem.mpr hprog) hb

/-- No request works on a block. -/
theorem BlkInv.resting (h : BlkInv g s) (hst : ∀ e, (s.ebio e).st = .new ∨ (s.ebio e).st = .done)
    (i : Nat) : (s.st g i).Resting := by
  by_contra hne
  obtain ⟨e, f, ho⟩ := h.held hne
  have hh := ho.2
  rcases hst e with hs | hs <;> rw [hs] at hh <;> cases hr : (s.ebio e).role <;>
    simp [hr, holds] at hh

end

/-! ## Calm -/

/-- Positions of an ebio that neither writes to the cache nor drops a block. -/
def EbSt.calm : EbSt → Bool
  | .new | .peeked | .readCache | .dirtyIssue | .done => true
  | _ => false

/-- The HDD I/O invalidates nothing. -/
def MainPc.calm : MainPc → Bool
  | .inval _ _ _ | .flag _ _ _ => false
  | _ => true

/-- The states of a block while only reads that hit, and cleans, are under way. -/
def State.calm (c : State) : Prop := c.Resting ∨ c = valid ||| cacheReadInprog

instance (c : State) : Decidable c.calm := inferInstanceAs (Decidable (_ ∨ _))

/-- A bio that is over, or a read of a read-only cache. -/
inductive Bio.Calm (rdonly : Bool) (r : Req) (bc : Bio) : Prop
  | finished : bc.Finished → Bio.Calm rdonly r bc
  | reading : rdonly = true → r.dir = .read → r.forced = false → bc.main.calm = true →
      Bio.Calm rdonly r bc

/-- Only calm bios are under way, and since `s₀` no block, neither device and no
clean has changed. -/
structure Sealed (g : Geom) (s₀ s : Sys) : Prop where
  up : s.degraded = false
  mdreq : ∀ set, s.mdreq set = none
  bio : ∀ b, (s.bio b).Calm s.rdonly (s.req b)
  ebio : ∀ e, (s.ebio e).st.calm = true
  blk : ∀ i, (s.st g i).calm
  entry : ∀ i, s.entry g i = s₀.entry g i
  ssd : s.ssd = s₀.ssd
  hdd : s.hdd = s₀.hdd
  mdDisk : s.mdDisk = s₀.mdDisk
  clean : s.clean = s₀.clean

namespace Sealed

variable {g : Geom} {s s₀ s' : Sys} {b i : Nat} {e : EbId} {c : State}

theorem rebase (h : Sealed g s₀ s) : Sealed g s s :=
  { h with
    entry := fun _ => rfl
    ssd := rfl
    hdd := rfl
    mdDisk := rfl
    clean := rfl }

/-- A cache whose bios have all been ended. -/
theorem of_ended (h : Inv g s) (hbug : s.bug = none) (hup : s.degraded = false)
    (hend : s.allEnded) : Sealed g s s := by
  have hl := h.live hbug
  have hst : ∀ e : EbId, (s.ebio e).st = .new ∨ (s.ebio e).st = .done := fun e =>
    (hl.finished hend e.1).2 e.2
  refine ⟨hup, ?_, ?_, ?_, ?_, fun _ => rfl, rfl, rfl, rfl, rfl⟩
  · refine hl.md.no_request fun e => ?_
    rcases hst e with he | he <;> rw [he] <;> rfl
  · exact fun b => .finished (hl.finished hend b).1
  · intro e
    rcases hst e with he | he <;> rw [he] <;> rfl
  · exact fun i => .inl (h.blk.resting hst i)

/-! ## Small changes -/

section
variable (h : Sealed g s₀ s)
include h

theorem updBio {f : Bio → Bio}
    (hb : (f (s.bio b)).Calm s.rdonly (s.req b)) : Sealed g s₀ (s.updBio b f) :=
  { h with
    bio := fun b' => by
      by_cases hne : b' = b
      · subst hne
        simpa using hb
      · simpa [hne] using h.bio b' }

theorem updEb {f : Ebio → Ebio} (he : (f (s.ebio e)).st.calm = true) : Sealed g s₀ (s.updEb e f) :=
  { h with
    ebio := fun e' => by
      by_cases hne : e' = e
      · subst hne
        simpa using he
      · simpa [hne] using h.ebio e' }

theorem endEb (err : Int) : Sealed g s₀ (s.endEb e err) := h.updEb rfl

theorem fail (x : Bug) : Sealed g s₀ (s.fail x) := { h with }

theorem tick (n : Nat) : Sealed g s₀ (s.tick n) := { h with }

/-- A block takes or loses the mark of a read. -/
theorem setSt (hc : c.calm)
    (hsame : c &&& (invalid ||| valid ||| dirty) = s.st g i &&& (invalid ||| valid ||| dirty))
    (hne : c ≠ invalid ∧ s.st g i ≠ invalid) : Sealed g s₀ (s.setSt g i c) :=
  { h with
    blk := fun j => by
      rw [Sys.setSt_st]
      split
      · exact hc
      · exact h.blk j
    entry := fun j => by
      rw [← h.entry j]
      simp only [Sys.entry, Sys.setSt_dbn (.inr hne), Sys.setSt_st]
      split
      · next hj => rw [hsame, hj]
      · rfl }

/-! ## Steps of a calm bio -/

/-- A bio at work is a read. -/
theorem reading (hpc : (s.bio b).pc ≠ .absent ∧ (s.bio b).pc ≠ .done) :
    s.rdonly = true ∧ (s.req b).dir = .read ∧ (s.req b).forced = false ∧
      (s.bio b).main.calm = true := by
  cases h.bio b with
  | finished hf => exact absurd hf.pc (fun h => h.elim hpc.1 hpc.2)
  | reading hr hd hf hm => exact ⟨hr, hd, hf, hm⟩

theorem reading_main (hmain : (s.bio b).main ≠ .none ∧ (s.bio b).main ≠ .done) :
    s.rdonly = true ∧ (s.req b).dir = .read ∧ (s.req b).forced = false ∧
      (s.bio b).main.calm = true := by
  cases h.bio b with
  | finished hf => exact absurd hf.main (fun h => h.elim hmain.1 hmain.2)
  | reading hr hd hf hm => exact ⟨hr, hd, hf, hm⟩

theorem advance {f : Bio → Bio} (hpc : (s.bio b).pc ≠ .absent ∧ (s.bio b).pc ≠ .done)
    (hm : (f (s.bio b)).main.calm = true) : Sealed g s₀ (s.updBio b f) := by
  obtain ⟨hr, hd, hf, -⟩ := h.reading hpc
  exact h.updBio (.reading hr hd hf hm)

theorem advance_main {f : Bio → Bio} (hmain : (s.bio b).main ≠ .none ∧ (s.bio b).main ≠ .done)
    (hm : (f (s.bio b)).main.calm = true) : Sealed g s₀ (s.updBio b f) := by
  obtain ⟨hr, hd, hf, -⟩ := h.reading_main hmain
  exact h.updBio (.reading hr hd hf hm)

/-- What is written about the container does not matter. -/
theorem aside {f : Bio → Bio} (hpc : (f (s.bio b)).pc = (s.bio b).pc)
    (hm : (f (s.bio b)).main = (s.bio b).main) : Sealed g s₀ (s.updBio b f) := by
  refine h.updBio ?_
  cases h.bio b with
  | finished hf => exact .finished ⟨hpc ▸ hf.pc, hm ▸ hf.main⟩
  | reading hr hd hf hc => exact .reading hr hd hf (hm ▸ hc)

theorem bcPut : Sealed g s₀ (s.bcPut g b) := by
  refine h.aside ?_ ?_ <;> split <;> rfl

theorem ebEndio (err : Int) : Sealed g s₀ (s.ebEndio g e err) :=
  ((h.updEb (h.ebio e)).aside rfl rfl).bcPut

theorem unmark (hc : s.st g i = valid ||| cacheReadInprog) :
    Sealed g s₀ (s.setSt g i ((s.st g i).off blockIoInprog)) := by
  refine h.setSt ?_ ?_ ?_ <;> rw [hc] <;> decide

theorem has_queued (i : Nat) : (s.st g i).has queued = false := by
  rcases h.blk i with (hc | hc | hc | hc) | hc <;> rw [hc] <;> decide

theorem marked (hc : (s.st g i).has cacheReadInprog = true) :
    s.st g i = valid ||| cacheReadInprog := by
  rcases h.blk i with (hs | hs | hs | hs) | hs
  case inr => exact hs
  all_goals rw [hs] at hc; exact absurd hc (by decide)

theorem peekMiss {iotype : IoType} : Sealed g s₀ (s.peekMiss e iotype) :=
  h.updEb rfl

theorem peekTake {role : Role} : Sealed g s₀ (s.peekTake e i role) :=
  h.updEb rfl

/-- `eio_read_peek` of a read-only cache reserves nothing. -/
theorem readPeek (hb : BlkInv g s) {victim : Option Nat} (hv : s.VictimOk g (s.seg e).sector victim)
    (hpc : (s.bio e.1).pc ≠ .absent ∧ (s.bio e.1).pc ≠ .done) {f : Bio → Bio}
    (hf : ∀ bc, (f bc).main = bc.main) : Sealed g s₀ ((s.readPeek g e victim).1.updBio e.1 f) := by
  obtain ⟨hr, -, -, hm⟩ := h.reading hpc
  have hp := Sys.readPeek_spec hb hv
  generalize s.readPeek g e victim = r at hp
  cases hp with
  | nofit => exact (h.fail _).advance hpc ((hf _).symm ▸ hm)
  | miss => exact h.peekMiss.advance hpc ((hf _).symm ▸ hm)
  | dirty =>
    dsimp only
    rw [Sys.updBio_updBio]
    refine advance (h.peekTake.updEb ?_) hpc ?_
    · simp [Sys.peekTake, EbSt.calm]
    · rw [hf]
      exact hm
  | hit hc _ =>
    refine advance (peekTake (h.setSt (.inr rfl) ?_ ?_)) hpc ((hf _).symm ▸ hm) <;> rw [hc] <;>
      decide
  | fill _ _ _ _ hw => rw [hr] at hw; cases hw

theorem readDoneAbio : Sealed g s₀ (s.readDoneAbio g e) := by
  simp only [Sys.readDoneAbio]
  split
  · exact h.endEb 0
  · next i _ =>
    simp only [h.has_queued i, Bool.false_eq_true, if_false]
    split
    · next hc => exact (h.unmark (h.marked hc)).endEb 0
    · exact h.fail _

theorem readfillLock : Sealed g s₀ (s.readfillLock g e) := by
  simp only [Sys.readfillLock]
  split
  · exact h.endEb 0
  · next i _ =>
    have hfill : s.st g i &&& (valid ||| diskReadInprog) ≠ valid ||| diskReadInprog := by
      rcases h.blk i with (hc | hc | hc | hc) | hc <;> rw [hc] <;> decide
    simp only [h.has_queued i, Bool.false_eq_true, if_false, if_neg hfill]
    split
    · exact h.updEb rfl
    · split
      · next hc =>
        refine (h.unmark ?_).endEb 0
        rcases h.blk i with (hs | hs | hs | hs) | hs
        case inr => exact hs
        all_goals rw [hs] at hc; exact absurd hc (by decide)
      · exact h.fail _

theorem readfillAccept : Sealed g s₀ (s.readfillAccept e) := by
  refine h.updEb ?_
  have hst := h.ebio e
  dsimp only
  split
  · next hf => rw [hf] at hst; cases hst
  · rfl

/-- A read from the cache has come to its end. -/
theorem readCacheDone : Sealed g s₀ (s.readCacheDone g e i 0) := by
  have h' : Sealed g s₀ (s.updEb e fun eb => { eb with ssdError := some 0 }) := h.updEb (h.ebio e)
  have hq := h.has_queued i
  simp only [Sys.readCacheDone, Sys.postRead, Sys.setPostState, Sys.updEb_st, hq, ne_eq,
    not_true_eq_false, false_and, and_false, or_self, Bool.false_eq_true, if_false]
  split
  · exact h.fail _
  split
  · exact h.fail _
  split
  · exact h'.fail _
  split
  · exact h'.fail _
  next hinv hclean =>
    have hpost : (Sys.postState (s.st g i) 0).calm ∧ Sys.postState (s.st g i) 0 ≠ invalid ∧
        s.st g i ≠ invalid ∧ Sys.postState (s.st g i) 0 &&& (invalid ||| valid ||| dirty) =
          s.st g i &&& (invalid ||| valid ||| dirty) := by
      rcases h.blk i with (hc | hc | hc | hc) | hc <;> rw [hc] at hinv hclean ⊢
      case inl.inl => exact absurd (by decide) hinv
      case inl.inr.inr.inr => exact absurd (by decide) hclean
      all_goals decide
    exact (h'.setSt hpost.1 hpost.2.2.2 ⟨hpost.2.1, hpost.2.2.1⟩).endEb 0

/-! ## One step -/

theorem stepMap {dir : Dir} {sector nsect : Nat} {keep : Bool}
    (hr : s.rdonly = true) (hs : s.stepMap g dir sector nsect keep = some s') : Sealed g s₀ s' := by
  obtain ⟨hdir, hs⟩ := Option.ite_none_left_eq_some.mp hs
  obtain ⟨-, rfl⟩ : _ ∧ _ = s' := by simpa [Option.ite_none_right_eq_some] using hs
  have hread : dir = .read := by
    cases dir
    · rfl
    · exact absurd ⟨hr, rfl⟩ hdir
  refine { h with bio := fun b => ?_ }
  by_cases hb : b = s.nbio
  · subst hb
    refine .reading hr ?_ ?_ ?_ <;>
      simp [Sys.newReq, Sys.newBio, Bio.absent, MainPc.calm, hread, h.up]
  · simpa [hb] using h.bio b

theorem stepLock (hs : s.stepLock g b = some s') : Sealed g s₀ s' := by
  simp only [Sys.stepLock] at hs
  split at hs
  · next hpc =>
    cases hs
    exact h.advance (by simp [hpc]) (h.reading (by simp [hpc])).2.2.2
  · next hpc =>
    split at hs
    · cases hs
    · cases hs
      exact h.advance (by simp [hpc]) (h.reading (by simp [hpc])).2.2.2
  · cases hs

theorem stepPeek {victim : Option Nat} (hb : BlkInv g s)
    (hs : s.stepPeek g b victim = some s') : Sealed g s₀ s' := by
  simp only [Sys.stepPeek] at hs
  split at hs
  · next k hpc =>
    obtain ⟨-, hd, -⟩ := h.reading (b := b) (by simp [hpc])
    split at hs
    · next hk =>
      cases hs
      simp only [hd, Sys.peekDir]
      exact h.readPeek (e := (b, k)) hb hk.2 (by simp [hpc]) fun _ => rfl
    · cases hs
  · cases hs

theorem stepDispatch (hs : s.stepDispatch b = some s') : Sealed g s₀ s' := by
  obtain ⟨hpc, rfl⟩ := Option.ite_some_none_eq_some.mp hs
  obtain ⟨-, hd, -, hm⟩ := h.reading (b := b) (by simp [hpc])
  refine h.advance (by simp [hpc]) ?_
  rw [hd]
  simp only [Sys.dispatchBio]
  split <;> exact hm

theorem cachedReadAccept : Sealed g s₀ (s.cachedReadAccept e) := h.updEb rfl

theorem stepCachedRead (hs : s.stepCachedRead g b 0 = some s') : Sealed g s₀ s' := by
  simp only [Sys.stepCachedRead] at hs
  split at hs
  · next k hpc =>
    have hm := (h.reading (b := b) (by simp [hpc])).2.2.2
    split at hs
    · split at hs
      · cases hs
        split
        · exact (h.fail _).advance (by simp [hpc]) hm
        · exact h.cachedReadAccept.advance (by simp [Sys.cachedReadAccept, hpc]) hm
      · cases hs
    · cases hs
      exact h.advance (by simp [hpc]) hm
  · cases hs

/-- The write paths are not taken. -/
theorem not_write (hl : Live g s) (hpc : (s.bio b).pc ≠ .absent ∧ (s.bio b).pc ≠ .done) :
    (∀ snum iosize, (s.bio b).pc ≠ .inval snum iosize) ∧ (∀ k, (s.bio b).pc ≠ .uwLock k) ∧
      (∀ k, (s.bio b).pc ≠ .uwSubmit k) ∧ (s.bio b).pc ≠ .cwAlloc ∧
      (∀ k, (s.bio b).pc ≠ .cwLock k) ∧ (∀ k, (s.bio b).pc ≠ .cwSubmit k) ∧
      ∀ k err, (s.bio b).pc ≠ .cwFail k err := by
  obtain ⟨-, hd, hf, -⟩ := h.reading hpc
  have hp := (hl.bio b).pc
  refine ⟨?_, ?_, ?_, ?_, ?_, ?_, ?_⟩ <;> intros <;> intro hcon <;> rw [hcon] at hp <;>
    simp [PcOk, hd, hf] at hp

theorem stepDiskIo (hs : s.stepDiskIo b 0 = some s') : Sealed g s₀ s' := by
  simp only [Sys.stepDiskIo] at hs
  split at hs
  · next hpc =>
    cases hs
    exact h.advance (by simp [hpc]) rfl
  · cases hs

theorem stepPut (hs : s.stepPut g b = some s') : Sealed g s₀ s' := by
  simp only [Sys.stepPut] at hs
  split at hs
  · next hpc =>
    cases hs
    exact (h.advance (by simp [hpc]) (h.reading (by simp [hpc])).2.2.2).bcPut
  · cases hs

theorem stepHddSector {x : Nat} (hs : s.stepHddSector b x = some s') : Sealed g s₀ s' := by
  obtain ⟨⟨hmain, -⟩, hs⟩ := Option.ite_none_right_eq_some.mp hs
  obtain ⟨-, hd, -⟩ := h.reading_main (b := b) (by simp [hmain])
  rw [hd] at hs
  cases hs
  exact Sealed.aside (h.aside rfl rfl) rfl rfl

theorem stepHddDone (hl : Live g s) (hs : s.stepHddDone b 0 = some s') : Sealed g s₀ s' := by
  obtain ⟨⟨hmain, -⟩, hs⟩ := Option.ite_none_right_eq_some.mp hs
  obtain ⟨-, hd, hf, -⟩ := h.reading_main (b := b) (by simp [hmain])
  dsimp only at hs
  split at hs
  · cases hs
    exact h.fail _
  · cases hs
    refine h.advance_main (by simp [hmain]) ?_
    have hiot := (hl.bio b).iotype (by simp [hmain])
    rw [hf] at hiot
    have hno : (s.bio b).mainIotype.hasInval = false := by
      rw [hiot]
      rfl
    simp only [Sys.hddDonePc, hd, hno, h.up, ne_eq, not_true_eq_false, Bool.false_eq_true, or_self,
      if_false]
    split
    · rfl
    · split <;> rfl

theorem stepReadDone (hs : s.stepReadDone g b = some s') : Sealed g s₀ s' := by
  simp only [Sys.stepReadDone] at hs
  split at hs
  · next k hmain =>
    split at hs <;> cases hs
    · refine h.readDoneAbio.advance_main ?_ rfl
      rw [Sys.readDoneAbio_frame.bio]
      simp [hmain]
    · exact h.advance_main (by simp [hmain]) rfl
  · cases hs

theorem stepReadfillStart (hs : s.stepReadfillStart b = some s') : Sealed g s₀ s' := by
  simp only [Sys.stepReadfillStart] at hs
  split at hs
  · next hmain =>
    cases hs
    exact h.advance_main (by simp [hmain]) rfl
  · cases hs

theorem stepReadfill (hs : s.stepReadfill g b = some s') : Sealed g s₀ s' := by
  simp only [Sys.stepReadfill] at hs
  split at hs
  · next k hmain =>
    split at hs <;> cases hs
    · refine h.readfillLock.advance_main ?_ ?_
      · rw [Sys.readfillLock_frame.bio]
        simp [hmain]
      · dsimp only
        split <;> rfl
    · exact h.advance_main (by simp [hmain]) rfl
  · cases hs

theorem stepReadfillSubmit (hs : s.stepReadfillSubmit g b 0 = some s') : Sealed g s₀ s' := by
  simp only [Sys.stepReadfillSubmit] at hs
  split at hs
  · next k hmain =>
    split at hs <;> cases hs
    refine h.readfillAccept.advance_main ?_ rfl
    rw [Sys.readfillAccept_frame.bio]
    simp [hmain]
  · cases hs

theorem stepMainEndio (hs : s.stepMainEndio g b = some s') : Sealed g s₀ s' := by
  simp only [Sys.stepMainEndio] at hs
  split at hs
  · next hmain =>
    cases hs
    exact (h.advance_main (by simp [hmain]) rfl).bcPut
  · cases hs

theorem readCache_of_atSsd (hat : Sys.EbSt.atSsd (s.ebio e).st = true) :
    (s.ebio e).st = .readCache := by
  have hst := h.ebio e
  cases hc : (s.ebio e).st <;> rw [hc] at hst hat <;>
    first | rfl | exact Bool.noConfusion hst | exact Bool.noConfusion hat

theorem stepSsdSector {k x : Nat} (hs : s.stepSsdSector g b k x = some s') : Sealed g s₀ s' := by
  simp only [Sys.stepSsdSector] at hs
  split at hs
  · cases hs
  · split at hs
    · next hat =>
      rw [if_pos (h.readCache_of_atSsd hat.1)] at hs
      cases hs
      exact Sealed.aside (h.updEb (h.ebio (b, k))) rfl rfl
    · cases hs

theorem stepSsdDone {k : Nat} (hs : s.stepSsdDone g b k 0 = some s') : Sealed g s₀ s' := by
  simp only [Sys.stepSsdDone] at hs
  obtain ⟨hat, hs⟩ := Option.ite_none_right_eq_some.mp hs
  have hst := h.readCache_of_atSsd hat.1
  split at hs
  · cases hs
    exact h.fail _
  · rw [hst] at hs
    cases hs
    exact h.readCacheDone

theorem stepEnqMd (hl : Live g s) (hs : s.stepEnqMd g b = some s') : Sealed g s₀ s' := by
  obtain ⟨-, rfl⟩ := Option.ite_some_none_eq_some.mp hs
  have hnil : (s.bio b).mdlist = [] := by
    refine List.eq_nil_iff_forall_not_mem.mpr fun k hk => ?_
    have hst := h.ebio (b, k)
    rw [(hl.md.list b k).mp hk] at hst
    cases hst
  simp only [Sys.enqMdupdate, hnil]
  exact h.aside rfl rfl

/-- As long as no I/O fails and only reads of a read-only cache arrive, a sealed
cache stays sealed. Cleans are handled apart. -/
theorem act {a : Act} (hinv : Inv g s) (hbug : s.bug = none)
    (hio : a.isIo = true) (hclean : a.isClean = false) (hok : a.ok = true)
    (hmap : a.isMap = true → s.rdonly = true) (hs : s.act g a = some s') : Sealed g s₀ s' := by
  have hl := hinv.live hbug
  have hwr := fun b => h.not_write (b := b) hl
  cases a with
  | cleanStart | inval | suspend => cases hio
  | cleanReadSector | cleanReadDone | cleanWriteSector | cleanWriteDone | cleanMdSector
  | cleanMdDone | cleanFinish => cases hclean
  | map => exact h.stepMap (hmap rfl) hs
  | lock => exact h.stepLock hs
  | peek => exact h.stepPeek hinv.blk hs
  | dispatch => exact h.stepDispatch hs
  | cachedRead =>
    obtain rfl := of_decide_eq_true hok
    exact h.stepCachedRead hs
  | diskIo =>
    obtain rfl := of_decide_eq_true hok
    exact h.stepDiskIo hs
  | put => exact h.stepPut hs
  | hddSector => exact h.stepHddSector hs
  | hddDone =>
    obtain rfl := of_decide_eq_true hok
    exact h.stepHddDone hl hs
  | readDone => exact h.stepReadDone hs
  | readfillStart => exact h.stepReadfillStart hs
  | readfill => exact h.stepReadfill hs
  | readfillSubmit =>
    obtain rfl := of_decide_eq_true hok
    exact h.stepReadfillSubmit hs
  | mainEndio => exact h.stepMainEndio hs
  | ssdSector => exact h.stepSsdSector hs
  | ssdDone =>
    obtain rfl := of_decide_eq_true hok
    exact h.stepSsdDone hs
  | ebEndio b k =>
    simp only [Sys.act, Sys.stepEbEndio] at hs
    split at hs
    · cases hs
    · cases hs
      exact h.ebEndio _
  | enqMd => exact h.stepEnqMd hl hs
  | invalMap b | uwLock b | uwSubmit b | cwAlloc b | cwLock b | cwSubmit b | cwFail b =>
    simp only [Sys.act, Sys.stepInvalMap, Sys.stepUwLock, Sys.stepUwSubmit, Sys.stepCwAlloc,
      Sys.stepCwLock, Sys.stepCwSubmit, Sys.stepCwFail] at hs
    split at hs
    · next hpc =>
      have := hwr b (by simp [hpc])
      simp [hpc] at this
    · cases hs
  | invalMain b | flag b =>
    simp only [Sys.act, Sys.stepInvalMain, Sys.stepFlag] at hs
    split at hs
    · next hmain =>
      have := (h.reading_main (b := b) (by simp [hmain])).2.2.2
      rw [hmain] at this
      cases this
    · cases hs
  | reread b k | rereadSector b k | rereadDone b k =>
    have hst := h.ebio (b, k)
    simp only [Sys.act, Sys.stepReread, Sys.stepRereadSector, Sys.stepRereadDone] at hs
    split at hs
    · next hcon =>
      simp [hcon, EbSt.calm] at hst
    · cases hs
  | doMd set | mdSubmit set | mdSector set | mdDone set | postMd set =>
    simp [Sys.act, Sys.stepDoMd, Sys.stepMdSubmit, Sys.stepMdSector, Sys.stepMdDone,
      Sys.stepPostMd, h.mdreq set] at hs

end

/-! ## Cleans

A clean changes blocks and devices, so the starting point moves with it. -/

theorem recolour (h : Sealed g s s) (hc : c.calm) : Sealed g (s.setSt g i c) (s.setSt g i c) :=
  { h with
    blk := fun j => by
      rw [Sys.setSt_st]
      split
      · exact hc
      · exact h.blk j
    entry := fun _ => rfl
    ssd := rfl
    hdd := rfl
    mdDisk := rfl
    clean := rfl }

/-- The devices, the clean and the counters of dirty blocks may change. -/
theorem devices (h : Sealed g s s)
    (hf : s' = { s with
      setNrDirty := s'.setNrDirty
      nrDirty := s'.nrDirty
      clean := s'.clean
      hdd := s'.hdd
      mdDisk := s'.mdDisk }) : Sealed g s' s' := by
  have hfield : s'.degraded = s.degraded ∧ s'.rdonly = s.rdonly ∧ s'.mdreq = s.mdreq ∧
      s'.bio = s.bio ∧ s'.req = s.req ∧ s'.ebio = s.ebio ∧ s'.st g = s.st g := by
    rw [hf]
    exact ⟨rfl, rfl, rfl, rfl, rfl, rfl, rfl⟩
  obtain ⟨hdeg, hro, hmd, hbio, hreq, heb, hst⟩ := hfield
  refine ⟨hdeg ▸ h.up, hmd ▸ h.mdreq, ?_, heb ▸ h.ebio, hst ▸ h.blk, fun _ => rfl, rfl, rfl,
    rfl, rfl⟩
  rw [hro, hbio, hreq]
  exact h.bio

theorem stepCleanStart {set : Nat} {sel : List Nat} (h : Sealed g s s)
    (hs : s.stepCleanStart g set sel = some s') : Sealed g s' s' := by
  obtain ⟨-, rfl⟩ := Option.ite_some_none_eq_some.mp hs
  simp only [Sys.cleanStart]
  split
  · exact (h.fail _).rebase
  · refine Sealed.devices (s := sel.foldl (fun s i => s.setSt g i cleanInprog) s) ?_ rfl
    refine Run.foldl_rest (fun _ t => Sealed g t t) (fun i _ t ht => ?_) (l := sel) h
    exact ht.recolour (.inl (by decide))

theorem cleanFinish {set : Nat} {err : Int} (h : Sealed g s s) :
    Sealed g (s.cleanFinish g set err) (s.cleanFinish g set err) := by
  refine Sealed.devices (s := (s.cleanBlocks g set).foldl (Sys.cleanOne g set err) s) ?_ rfl
  refine Run.foldl_rest (fun _ t => Sealed g t t) (fun i _ t ht => ?_) h
  simp only [Sys.cleanOne]
  split
  · exact ht.recolour (.inl (by decide))
  · split
    · exact (ht.fail _).rebase
    · exact Sealed.devices (s := t.setSt g i valid) (ht.recolour (.inl (by decide))) rfl

theorem act_clean {a : Act} (h : Sealed g s s) (hclean : a.isClean = true)
    (hs : s.act g a = some s') : Sealed g s' s' := by
  cases a
  case cleanReadSector | cleanReadDone | cleanWriteSector | cleanMdSector | cleanMdDone =>
    simp only [Sys.act, Sys.stepCleanReadSector, Sys.stepCleanReadDone, Sys.stepCleanWriteSector,
      Sys.stepCleanMdSector, Sys.stepCleanMdDone] at hs
    split at hs
    · split at hs <;> cases hs
      exact h.devices rfl
    · cases hs
  case cleanWriteDone =>
    simp only [Sys.act, Sys.stepCleanWriteDone] at hs
    split at hs
    · split at hs <;> cases hs
      simp only [Sys.cleanWriteDone]
      split
      · exact h.devices rfl
      · split
        · exact (h.fail _).rebase
        · exact h.devices rfl
    · cases hs
  case cleanFinish =>
    simp only [Sys.act, Sys.stepCleanFinish] at hs
    split at hs
    · split at hs <;> cases hs
      exact h.cleanFinish
    · cases hs
  all_goals cases hclean

end Sealed

/-- Nothing is cleaned unless a clean has begun. -/
theorem Sys.act_clean_none {g : Geom} {s : Sys} {a : Act} (h : s.clean = none)
    (hclean : a.isClean = true) : s.act g a = none := by
  cases a
  case cleanReadSector | cleanReadDone | cleanWriteSector | cleanWriteDone | cleanMdSector
     | cleanMdDone | cleanFinish =>
    simp only [Sys.act, Sys.stepCleanReadSector, Sys.stepCleanReadDone, Sys.stepCleanWriteSector,
      Sys.stepCleanWriteDone, Sys.stepCleanMdSector, Sys.stepCleanMdDone, Sys.stepCleanFinish, h]
  all_goals cases hclean

end EnhanceIO
