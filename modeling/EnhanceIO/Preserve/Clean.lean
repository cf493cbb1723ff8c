import EnhanceIO.Preserve.Update
import EnhanceIO.SetLocks

/-!
# Cleaning keeps the invariant, and the invariant holds in every run

`eio_clean_set` works on dirty blocks under the exclusive lock of their set: no
bio that uses a dirty block in place can be on its way there. With this the
invariant survives every act of the driver.
-/

namespace EnhanceIO

open State

section
variable {g : Geom} {s s' : Sys} {e : EbId} {b i set : Nat}

/-! ## The set lock of a bio -/

theorem BioOk.unended {r : Req} {bc : Bio} {eb : Nat → Ebio} {k : Nat} (h : BioOk g r bc eb)
    (hk : k < r.segs.length) (hst : (eb k).st ≠ .done) : bc.endio = [] := by
  refine (h.notEnded fun h0 => ?_).1
  have hhold := h.hold
  have h1 := mapRef_nonneg bc.pc
  have h2 := mainRef_nonneg bc.main
  have hpos : 0 < openEbios r.segs.length eb := by
    rw [openEbios, List.countP_pos_iff]
    exact ⟨k, List.mem_range.mpr hk, by simpa using ((h.ebs k).live hst).2⟩
  omega

/-- A bio holds the lock of the set of each ebio that is under way. -/
theorem Live.setOf_locked (h : Live g s) (hmode : g.mode = .wb) (hnew : (s.ebio e).st ≠ .new)
    (hdone : (s.ebio e).st ≠ .done) : s.setOf g e ∈ (s.bio e.1).locks := by
  have hb := h.bio e.1
  obtain ⟨hk, hpc, hlock⟩ := hb.started (k := e.2) hnew
  have hseg := Sys.seg_getElem? e hk
  have hmem : s.seg e ∈ (s.req e.1).segs := List.mem_of_getElem? hseg
  obtain ⟨⟨hpos, -⟩, hlo, hhi⟩ :=
    g.splitLoop_within ((h.req e.1).segs_split (List.ne_nil_of_mem hmem)) _ hmem
  rcases hb.locked hmode hpc (hb.unended hk hdone) _
    (g.hashBlock_mem_lockSets hlo (by omega)) with hl | ⟨rest, hrest, _⟩
  · exact hl
  · exact absurd hrest (hlock rest)

/-- A bio that works on a dirty block in place holds the lock of the set. -/
theorem Live.uses_locked (h : Live g s) (hblk : BlkInv g s) (hmode : g.mode = .wb)
    (hu : (s.ebio e).Uses i) : i / g.assoc ∈ (s.bio e.1).locks := by
  have hb := h.bio e.1
  have hnew : (s.ebio e).st ≠ .new := by
    intro hn
    have hk : e.2 < (s.req e.1).segs.length := by
      by_contra hk
      have := hb.beyond e.2 (Nat.le_of_not_lt hk)
      exact Ebio.not_uses_init i (this ▸ hu)
    have hat := hb.at_ e.2 hk
    have hn' : (s.ebio (e.1, e.2)).st = .new := hn
    have hr : (s.ebio (e.1, e.2)).role = .dirty := hu.2.1
    rw [hn', hr] at hat
    cases hσ : stage (s.req e.1).dir (s.bio e.1).uc (s.bio e.1).pc (s.bio e.1).main e.2 <;>
      simp [hσ, Stage.Ok] at hat
  have hset : s.setOf g e = i / g.assoc := by
    obtain ⟨hc, hd⟩ := hblk.used hu
    have hp := (hblk.placed (i := i) (by rw [hc]; decide)).inSet
    rwa [hd, Sys.want, g.hashBlock_roundSector] at hp
  exact hset ▸ h.setOf_locked hmode hnew hu.2.2

/-! ## Flags of blocks that nobody uses -/

theorem BlkInv.restate {c : State} (h : BlkInv g s)
    (hold : s.st g i = alreadyDirty ∨ s.st g i = cleanInprog)
    (hc : c = valid ∨ c = alreadyDirty ∨ c = cleanInprog) (hnu : ∀ e, ¬ (s.ebio e).Uses i)
    (hclean : c = cleanInprog → s.cleanSet = some (i / g.assoc)) (hcount : Recount g s s' i)
    (hmd : s'.md = (s.setSt g i c).md) (heb : s'.ebio = s.ebio) (hreq : s'.req = s.req) :
    BlkInv g s' := by
  have hno := h.not_owns_of_idle (i := i) (.inr (.inr hold))
  have hflags : c ∈ State.allowed ∧ c ≠ invalid := by
    rcases hc with rfl | rfl | rfl <;> decide
  have hv : (s.st g i).has valid = true := by
    rcases hold with h | h <;> rw [h] <;> decide
  have hst : s'.st g i = c := by
    simp only [Sys.st, hmd]
    exact Sys.setSt_st.trans (if_pos rfl)
  refine h.block (.flags (e := (0, 0)) hcount hmd hreq (fun _ _ => by rw [heb]) hv) (by rw [heb])
    (hst ▸ hflags.1) (fun ho => absurd ho (hno _ _)) (fun hu => absurd hu (hnu _))
    (fun _ => ⟨hv, ?_⟩) (fun _ => hst ▸ .inr hc) (fun hcl => hclean (hst ▸ hcl))
  simp only [Sys.dbn, hmd]
  refine Sys.setSt_dbn (.inr ⟨hflags.2, ?_⟩)
  rcases hold with h | h <;> rw [h] <;> decide

theorem BlkInv.redirty {c : State} (h : BlkInv g s)
    (hold : s.st g i = alreadyDirty ∨ s.st g i = cleanInprog)
    (hc : c = alreadyDirty ∨ c = cleanInprog) (hnu : ∀ e, ¬ (s.ebio e).Uses i)
    (hclean : s.cleanSet = some (i / g.assoc)) : BlkInv g (s.setSt g i c) := by
  refine h.restate hold (.inr hc) hnu (fun _ => hclean) (.setSt ?_ ?_ ?_) rfl rfl rfl
  · rcases hold with h | h <;> rw [h] <;> decide
  · rcases hc with rfl | rfl <;> decide
  · rcases hold with h | h <;> rcases hc with rfl | rfl <;> rw [h] <;> decide

/-- A block is clean, and not counted any more. -/
def Sys.cleaned (g : Geom) (set : Nat) (s : Sys) (i : Nat) : Sys :=
  { s.setSt g i valid with
    setNrDirty := Function.update s.setNrDirty set (s.setNrDirty set - 1)
    nrDirty := s.nrDirty - 1 }

theorem Recount.cleaned (hc : s.st g i = cleanInprog) (hset : i / g.assoc = set) :
    Recount g s (s.cleaned g set i) i := by
  have hst : (s.cleaned g set i).st g i = valid := Sys.setSt_st.trans (if_pos rfl)
  have hd : State.valid.counted = false ∧ cleanInprog.counted = true := by decide
  refine ⟨rfl, rfl, ?_, fun set' => ?_, ?_⟩
  · rw [hst, hc, show cleanInprog.has valid = valid.has valid by decide, Nat.add_sub_cancel]
    rfl
  · rw [hst, hc, hd.1, hd.2, hset]
    by_cases hs : set = set'
    · subst hs
      simp [Sys.cleaned]
    · simp [Sys.cleaned, hs, Ne.symm hs]
  · rw [hst, hc, hd.1, hd.2]
    simp [Sys.cleaned]

theorem MdOk.congr (h : MdOk g s) (hreq : s'.req = s.req) (hbio : s'.bio = s.bio)
    (heb : s'.ebio = s.ebio) (hmd : s'.mdreq = s.mdreq) : MdOk g s' := by
  have hset : ∀ e, s'.setOf g e = s.setOf g e := fun e => by simp only [Sys.setOf, Sys.seg, hreq]
  refine ⟨⟨?_, ?_, ?_, ?_, ?_, ?_, ?_⟩, ?_⟩
  · rw [hbio, heb]
    exact h.list
  · rw [hbio]
    exact h.listNodup
  · simp only [Sys.pending, hmd, heb, hset]
    exact h.pend
  · simp only [Sys.pending, hmd]
    exact h.pendNodup
  · simp only [Sys.inprog, hmd, heb, hset]
    exact h.prog
  · simp only [Sys.inprog, hmd]
    exact h.progNodup
  · simp only [heb, hset]
    exact h.inSet
  · rw [hmd]
    exact h.reqs

/-! ## The steps of `eio_clean_set` -/

/-- A clean begins or ends while no block is being cleaned. -/
theorem BlkInv.setClean (h : BlkInv g s) (hno : ∀ i, s.st g i ≠ cleanInprog) (c : Option Clean) :
    BlkInv g { s with clean := c } :=
  ⟨h.allowed, h.owned, h.excl, h.used, h.placed, h.uniq, h.held, fun hcl => absurd hcl (hno _),
    h.zero, h.onDisk, ⟨h.tally.cached, h.tally.dirty, h.tally.total⟩⟩

/-- The blocks chosen for a clean are marked. -/
theorem BlkInv.cleanStart (h : BlkInv g s) {sel : List Nat} (hnodup : sel.Nodup)
    (hsel : ∀ i ∈ sel, s.st g i = alreadyDirty ∧ (∀ e, ¬ (s.ebio e).Uses i) ∧
      s.cleanSet = some (i / g.assoc)) :
    BlkInv g (sel.foldl (fun s i => s.setSt g i cleanInprog) s) ∧
      ∃ md, sel.foldl (fun s i => s.setSt g i cleanInprog) s = { s with md := md } := by
  have hloop := Run.foldl_rest (f := fun s i => Sys.setSt g s i cleanInprog)
    (fun l s' => (BlkInv g s' ∧ ∃ md, s' = { s with md := md }) ∧ l.Nodup ∧
      ∀ i ∈ l, s'.st g i = alreadyDirty ∧ (∀ e, ¬ (s'.ebio e).Uses i) ∧
        s'.cleanSet = some (i / g.assoc)) ?_
    (l := sel) (b := s) ⟨⟨h, s.md, rfl⟩, hnodup, hsel⟩
  · exact hloop.1
  · rintro i l s' ⟨⟨hb, md, hmd⟩, hnd, hl⟩
    have hi := hl i (by simp)
    have hnd := List.nodup_cons.mp hnd
    refine ⟨⟨hb.redirty (.inl hi.1) (.inr rfl) hi.2.1 hi.2.2,
      s'.md.stateSet g i cleanInprog, ?_⟩, hnd.2, fun j hj => ?_⟩
    · rw [hmd]
      rfl
    · have hne : j ≠ i := fun hcon => hnd.1 (hcon ▸ hj)
      simpa [hne] using hl j (List.mem_cons_of_mem _ hj)

theorem Sys.foldl_setSt_clean (sel : List Nat) (s : Sys) (c : Option Clean) :
    { sel.foldl (fun s i => s.setSt g i cleanInprog) s with clean := c } =
      sel.foldl (fun s i => s.setSt g i cleanInprog) { s with clean := c } := by
  induction sel generalizing s with
  | nil => rfl
  | cons i sel ih => exact ih (s.setSt g i cleanInprog)

theorem Inv.stepCleanStart {sel : List Nat} (h : Inv g s) (hbug : s.bug = none)
    (hs : s.stepCleanStart g set sel = some s') : Inv g s' := by
  have hl := h.live hbug
  simp only [Sys.stepCleanStart] at hs
  split at hs
  · next hc =>
    obtain ⟨hmode, hnone, _, hno, _, hsel⟩ := hc
    cases hs
    have hfree : ∀ b, set ∉ (s.bio b).locks := by
      intro b hmem
      by_cases hb : b < s.nbio
      · exact hno b hb hmem
      · have hp := (hl.bio b).pc
        rw [hl.absent b (Nat.le_of_not_lt hb)] at hp
        rw [hp.1] at hmem
        simp [Bio.absent] at hmem
    have hrest : ∀ i, s.st g i ≠ cleanInprog := fun i hcl => by
      have hset := h.blk.cleaned hcl
      rw [Sys.cleanSet, Option.isNone_iff_eq_none.mp hnone] at hset
      cases hset
    simp only [Sys.cleanStart]
    split
    · exact .of_fail h.blk rfl
    · rw [Sys.foldl_setSt_clean]
      generalize hcl : Clean.mk set .read (fun _ _ => none) (fun _ => ⟨0, 0⟩)
        (fun _ _ => false) = cl
      obtain ⟨hblk, md, hmd⟩ := (h.blk.setClean hrest (some cl)).cleanStart hsel.2.1 fun i hi =>
        ⟨(hsel.2.2 i hi).2, fun e hu =>
          hfree e.1 ((hsel.2.2 i hi).1 ▸ hl.uses_locked h.blk hmode hu),
          by rw [(hsel.2.2 i hi).1, ← hcl]; rfl⟩
      rw [hmd] at hblk ⊢
      refine .of_live hblk hbug ⟨⟨hl.req, hl.bio, hl.absent, ?_, hl.degraded⟩,
        hl.md.congr rfl rfl rfl rfl⟩
      rintro c hc b
      obtain rfl : cl = c := by simpa using hc
      rw [← hcl]
      exact hfree b
  · cases hs

theorem Inv.updClean {f : Clean → Clean} (h : Inv g s) (hbug : s.bug = none)
    (hf : ∀ c, (f c).set = c.set) : Inv g (s.updClean f) := by
  have hl := h.live hbug
  have hcounts : (s.updClean f).counts = s.counts := by
    have hset : (s.clean.map f).map Clean.set = s.clean.map Clean.set := by
      rw [Option.map_map, show Clean.set ∘ f = Clean.set from funext hf]
    simp only [Sys.counts, Sys.cleanSet, Sys.updClean, hset]
  refine .of_live (h.blk.congr hcounts rfl rfl) hbug ⟨⟨hl.req, hl.bio, hl.absent, ?_, hl.degraded⟩,
    hl.md.congr rfl rfl rfl rfl⟩
  intro c hc b
  rw [Sys.updClean_clean, Option.map_eq_some_iff] at hc
  obtain ⟨c', hc', rfl⟩ := hc
  rw [hf]
  exact hl.cleaning c' hc' b

section
variable (h : Inv g s) (hbug : s.bug = none)
include h hbug

theorem Inv.stepCleanReadSector {o : Nat}
    (hs : s.stepCleanReadSector g i o = some s') : Inv g s' := by
  simp only [Sys.stepCleanReadSector] at hs
  split at hs
  · split at hs <;> cases hs
    exact h.updClean hbug fun _ => rfl
  · cases hs

theorem Inv.stepCleanReadDone {err : Int}
    (hs : s.stepCleanReadDone g err = some s') : Inv g s' := by
  simp only [Sys.stepCleanReadDone] at hs
  split at hs
  · split at hs <;> cases hs
    exact h.updClean hbug fun _ => rfl
  · cases hs

theorem Inv.stepCleanWriteSector {o : Nat}
    (hs : s.stepCleanWriteSector g i o = some s') : Inv g s' := by
  simp only [Sys.stepCleanWriteSector] at hs
  split at hs
  · split at hs <;> cases hs
    refine Inv.devices (s := s.updClean fun c =>
      { c with xfer := Function.update c.xfer i (Function.update (c.xfer i) o true) }) ?_ rfl
    exact h.updClean hbug fun _ => rfl
  · cases hs

theorem Inv.stepCleanWriteDone {err : Int}
    (hs : s.stepCleanWriteDone g err = some s') : Inv g s' := by
  simp only [Sys.stepCleanWriteDone] at hs
  split at hs
  · split at hs <;> cases hs
    simp only [Sys.cleanWriteDone]
    split
    · exact h.updClean hbug fun _ => rfl
    · split
      · exact .of_fail h.blk rfl
      · exact h.updClean hbug fun _ => rfl
  · cases hs

theorem Inv.stepCleanMdSector {q : Nat} (hs : s.stepCleanMdSector g q = some s') : Inv g s' := by
  simp only [Sys.stepCleanMdSector] at hs
  split at hs
  · split at hs <;> cases hs
    exact Inv.updClean (h.devices rfl) hbug fun _ => rfl
  · cases hs

theorem Inv.stepCleanMdDone {err : Int} (hs : s.stepCleanMdDone g err = some s') : Inv g s' := by
  simp only [Sys.stepCleanMdDone] at hs
  split at hs
  · split at hs <;> cases hs
    exact h.updClean hbug fun _ => rfl
  · cases hs

end

/-- In the last loop of `eio_clean_set`: `l` are the blocks still to be released. -/
structure FinishLoop (g : Geom) (s₀ : Sys) (set : Nat) (l : List Nat) (s : Sys) : Prop where
  frame : s = { s₀ with md := s.md, setNrDirty := s.setNrDirty, nrDirty := s.nrDirty }
  blk : BlkInv g s
  nodup : l.Nodup
  todo : ∀ i ∈ l, s.st g i = cleanInprog ∧ i / g.assoc = set
  all : ∀ i, s.st g i = cleanInprog → i ∈ l

theorem FinishLoop.step {s₀ : Sys} {l : List Nat} {err : Int}
    (h : FinishLoop g s₀ set (i :: l) s) : FinishLoop g s₀ set l (Sys.cleanOne g set err s i) := by
  obtain ⟨hi, hset⟩ := h.todo i (by simp)
  have hnu := h.blk.not_uses_of_ne (i := i) (by rw [hi]; decide)
  have hnd := List.nodup_cons.mp h.nodup
  have htodo : ∀ c, ∀ j ∈ l, (s.setSt g i c).st g j = cleanInprog ∧ j / g.assoc = set := by
    intro c j hj
    have hne : j ≠ i := fun hcon => hnd.1 (hcon ▸ hj)
    simpa [hne] using h.todo j (List.mem_cons_of_mem _ hj)
  have hall : ∀ c, c ≠ cleanInprog → ∀ j, (s.setSt g i c).st g j = cleanInprog → j ∈ l := by
    intro c hc j hj
    by_cases hji : j = i
    · rw [Sys.setSt_st, if_pos hji] at hj
      exact absurd hj hc
    · rw [Sys.setSt_st, if_neg hji] at hj
      exact (List.mem_cons.mp (h.all j hj)).resolve_left hji
  simp only [Sys.cleanOne]
  split
  · refine ⟨?_, h.blk.redirty (.inr hi) (.inl rfl) hnu (h.blk.cleaned hi), hnd.2, htodo _,
      hall _ (by decide)⟩
    rw [h.frame]
    rfl
  · split
    · -- the block is one of those counted
      next hzero =>
        have hpos := h.blk.tally.dirty_pos (i := i) (by rw [hi]; decide)
        rw [hset, hzero] at hpos
        exact absurd hpos (Nat.lt_irrefl 0)
    · have hblk : BlkInv g (s.cleaned g set i) :=
        h.blk.restate (.inr hi) (.inl rfl) hnu (fun _ => h.blk.cleaned hi) (.cleaned hi hset)
          rfl rfl
          rfl
      refine ⟨?_, hblk, hnd.2, htodo _, hall _ (by decide)⟩
      rw [h.frame]
      rfl

theorem Inv.stepCleanFinish (h : Inv g s) (hbug : s.bug = none)
    (hs : s.stepCleanFinish g = some s') : Inv g s' := by
  have hl := h.live hbug
  simp only [Sys.stepCleanFinish] at hs
  split at hs
  · next c hclean =>
    split at hs
    · next err hph =>
      cases hs
      have hloop : FinishLoop g s c.set []
          ((s.cleanBlocks g c.set).foldl (Sys.cleanOne g c.set err) s) := by
        refine Run.foldl_rest (fun l s' => FinishLoop g s c.set l s')
          (fun i l s' hloop => hloop.step) ⟨rfl, h.blk, ?_, ?_, ?_⟩
        · exact (List.nodup_range' 1).filter _
        · intro i hi
          obtain ⟨hmem, hst⟩ := List.mem_filter.mp hi
          exact ⟨by simpa using hst, g.mem_set_range.mp hmem⟩
        · intro i hi
          have hset := h.blk.cleaned hi
          rw [Sys.cleanSet, hclean, Option.map_some, Option.some.injEq] at hset
          exact List.mem_filter.mpr ⟨g.mem_set_range.mpr hset.symm, by simpa using hi⟩
      simp only [Sys.cleanFinish]
      generalize (s.cleanBlocks g c.set).foldl (Sys.cleanOne g c.set err) s = t at hloop
      have hf := hloop.frame
      have hrest : ∀ i, t.st g i ≠ cleanInprog := fun i hi => by simpa using hloop.all i hi
      refine .of_live (hloop.blk.setClean hrest none) (by rw [hf]; exact hbug)
        ⟨⟨?_, ?_, ?_, by simp, ?_⟩, ?_⟩
      · rw [hf]
        exact hl.req
      · rw [hf]
        exact hl.bio
      · rw [hf]
        exact hl.absent
      · rw [hf]
        exact hl.degraded
      · rw [hf]
        exact hl.md.congr rfl rfl rfl rfl
    · cases hs
  · cases hs

/-! ## Other steps -/

theorem Inv.stepInval {snum iosize : Nat} (h : Inv g s) (hbug : s.bug = none) :
    Inv g (s.invalRound g snum iosize) := by
  have hl := h.live hbug
  have hi := Sys.invalBlockSetRange_invals g s (g.hashBlock snum) snum
    (Sys.invalInset g snum iosize) true
  refine .of_sound (hi.blk h.blk) hbug hi.bug
    ⟨hl.toBios.congr ?_ ?_ ?_ ?_ ?_ ?_, hl.md.congr ?_ ?_ ?_ ?_⟩ <;>
    rw [Sys.invalRound, hi.frame]

/-- Suspending gives up the count of cached blocks and nothing else. -/
theorem BlkInv.suspend (h : BlkInv g s) :
    BlkInv g { s with degraded := true, cachedBlocks := 0 } where
  allowed := h.allowed
  owned := h.owned
  excl := h.excl
  used := h.used
  placed := h.placed
  uniq := h.uniq
  held := h.held
  cleaned := h.cleaned
  zero := h.zero
  onDisk := h.onDisk
  tally := ⟨fun hd => absurd hd (by simp), h.tally.dirty, h.tally.total⟩

theorem Inv.stepSuspend (h : Inv g s) (hbug : s.bug = none) (hmode : g.mode ≠ .wb) :
    Inv g { s with degraded := true, cachedBlocks := 0 } := by
  have hl := h.live hbug
  exact .of_live h.blk.suspend hbug
    ⟨⟨hl.req, hl.bio, hl.absent, hl.cleaning, fun hm => absurd hm hmode⟩,
      hl.md.congr rfl rfl rfl rfl⟩

/-! ## All together -/

/-- The invariant survives every act, in a cache of any geometry. -/
theorem Inv.act {a : Act} (h : Inv g s) (hbug : s.bug = none) (hs : s.act g a = some s') :
    Inv g s' := by
  cases a with
  | map => exact h.stepMap hbug hs
  | lock => exact h.stepLock hbug hs
  | invalMap => exact h.stepInvalMap hbug hs
  | peek => exact h.stepPeek hbug hs
  | dispatch => exact h.stepDispatch hbug hs
  | cachedRead => exact h.stepCachedRead hbug hs
  | uwLock => exact h.stepUwLock hbug hs
  | uwSubmit => exact h.stepUwSubmit hbug hs
  | cwAlloc => exact h.stepCwAlloc hbug hs
  | cwLock => exact h.stepCwLock hbug hs
  | cwSubmit => exact h.stepCwSubmit hbug hs
  | cwFail => exact h.stepCwFail hbug hs
  | diskIo => exact h.stepDiskIo hbug hs
  | put => exact h.stepPut hbug hs
  | hddSector => exact h.stepHddSector hbug hs
  | hddDone => exact h.stepHddDone hbug hs
  | invalMain => exact h.stepInvalMain hbug hs
  | flag => exact h.stepFlag hbug hs
  | readDone => exact h.stepReadDone hbug hs
  | readfillStart => exact h.stepReadfillStart hbug hs
  | readfill => exact h.stepReadfill hbug hs
  | readfillSubmit => exact h.stepReadfillSubmit hbug hs
  | mainEndio => exact h.stepMainEndio hbug hs
  | ssdSector => exact h.stepSsdSector hbug hs
  | ssdDone => exact h.stepSsdDone hbug hs
  | ebEndio => exact h.stepEbEndio hbug hs
  | reread => exact h.stepReread hbug hs
  | rereadSector => exact h.stepRereadSector hbug hs
  | rereadDone => exact h.stepRereadDone hbug hs
  | enqMd => exact h.stepEnqMd hbug hs
  | doMd => exact h.stepDoMd hbug hs
  | mdSubmit => exact h.stepMdSubmit hbug hs
  | mdSector => exact h.stepMdSector hbug hs
  | mdDone => exact h.stepMdDone hbug hs
  | postMd => exact h.stepPostMd hbug hs
  | cleanStart => exact h.stepCleanStart hbug hs
  | cleanReadSector => exact h.stepCleanReadSector hbug hs
  | cleanReadDone => exact h.stepCleanReadDone hbug hs
  | cleanWriteSector => exact h.stepCleanWriteSector hbug hs
  | cleanWriteDone => exact h.stepCleanWriteDone hbug hs
  | cleanMdSector => exact h.stepCleanMdSector hbug hs
  | cleanMdDone => exact h.stepCleanMdDone hbug hs
  | cleanFinish => exact h.stepCleanFinish hbug hs
  | inval snum iosize =>
    cases hs
    exact h.stepInval hbug
  | suspend =>
    simp only [Sys.act] at hs
    split at hs <;> cases hs
    exact h.stepSuspend hbug ‹_›

/-- A step is an act of a driver that runs, and a tick of the clock. -/
theorem Sys.of_step {a : Act} (hs : s.step g a = some s') :
    s.bug = none ∧ ∃ t, s.act g a = some t ∧ t.tick (s.now + 1) = s' := by
  simp only [Sys.step] at hs
  split at hs
  · cases hs
  · next hbug => exact ⟨by simpa using hbug, Option.map_eq_some_iff.mp hs⟩

theorem Inv.step {a : Act} (h : Inv g s) (hs : s.step g a = some s') : Inv g s' := by
  obtain ⟨hbug, t, ht, rfl⟩ := Sys.of_step hs
  exact (h.act hbug ht).devices rfl

/-- The states of a driver that starts with an empty cache. -/
abbrev Reachable (g : Geom) (P : Sys → Act → Prop) : Sys → Prop :=
  Run.Reach (Sys.step g) P (Sys.init g)

theorem Reachable.inv {P : Sys → Act → Prop} (h : Reachable g P s) : Inv g s :=
  h.invariant (Inv.init g) fun hi _ hs => hi.step hs

end
end EnhanceIO
