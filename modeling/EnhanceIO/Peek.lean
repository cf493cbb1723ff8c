import EnhanceIO.Issue

/-!
# What the peeks find

`eio_lookup` scans the set of a sector. As long as the block indices fit 32
bits the scan covers exactly the set, so it finds the one block that caches the
sector if there is one. From that follow the possible outcomes of the two
peeks: a miss, a dirty block used in place, a block already cached, and a block
given to a new sector.
-/

namespace EnhanceIO

open State Sys

/-- What `eio_map` guarantees of the segment of an ebio. -/
structure SegOk (g : Geom) (seg : Seg) : Prop where
  pos : 0 < seg.nsect
  fits : seg.nsect ≤ g.blockSize - seg.sector % g.blockSize
  onDisk : seg.sector + seg.nsect ≤ g.diskSize

theorem SegOk.aligned {g : Geom} {seg : Seg} (h : SegOk g seg) (hn : seg.nsect = g.blockSize) :
    g.roundSector seg.sector = seg.sector := by
  have hfits := h.fits
  have hpos := g.blockSize_pos
  have hmod : seg.sector % g.blockSize = 0 := by omega
  exact Nat.div_mul_cancel (Nat.dvd_of_mod_eq_zero hmod)

theorem SegOk.round_lt {g : Geom} {seg : Seg} (h : SegOk g seg) :
    g.roundSector seg.sector < g.diskSize := by
  have := g.roundSector_le seg.sector
  have := h.pos
  have := h.onDisk
  omega

namespace Sys

variable {g : Geom} {s : Sys} {e : EbId} {i : Nat}

/-! ## The scan of a set -/

theorem startIndex_eq (hsize : g.size ≤ 2 ^ 32) (x : Nat) :
    startIndex g (g.hashBlock x) = g.assoc * g.hashBlock x := by
  have hlt : g.assoc * g.hashBlock x < g.size :=
    Nat.mul_lt_mul_of_pos_left (g.hashBlock_lt x) g.assoc_pos
  exact Nat.mod_eq_of_lt (by omega)

theorem mem_set_iff (set j : Nat) :
    (g.assoc * set ≤ j ∧ j < g.assoc * set + g.assoc) ↔ j / g.assoc = set := by
  have hpos := g.assoc_pos
  rw [Nat.div_eq_iff hpos, Nat.mul_comm g.assoc set]
  omega

/-- The scan covers one set, which comes no later than the set of the sector. -/
theorem scanned_div {set j : Nat} (hlo : startIndex g set ≤ j)
    (hhi : j < startIndex g set + g.assoc) : j / g.assoc ≤ set := by
  have hdvd : g.assoc ∣ 2 ^ 32 := pow_dvd_pow 2 (by have := g.assoc_le; omega)
  have hstart : g.assoc ∣ startIndex g set := (Nat.dvd_mod_iff hdvd).mpr (Nat.dvd_mul_right _ _)
  obtain ⟨n, hn⟩ := hstart
  have hle : g.assoc * n ≤ g.assoc * set := hn ▸ Nat.mod_le _ _
  rw [hn] at hlo hhi
  rw [(mem_set_iff n j).mp ⟨hlo, hhi⟩]
  exact Nat.le_of_mul_le_mul_left hle g.assoc_pos

/-- No block caches sector `d`. -/
def NoCopy (g : Geom) (s : Sys) (d : Nat) : Prop :=
  ∀ j, (s.st g j).has valid = true → s.dbn g j ≠ d

theorem findValidDbn_some {d start : Nat} (h : s.findValidDbn g d start = some i) :
    (s.st g i).has valid = true ∧ s.dbn g i = d := by
  have := List.find?_some h
  simpa using this

theorem findValidDbn_none {d start j : Nat} (h : s.findValidDbn g d start = none)
    (hlo : start ≤ j) (hhi : j < start + g.assoc) (hv : (s.st g j).has valid = true) :
    s.dbn g j ≠ d := by
  intro hd
  have := List.find?_eq_none.mp h j (List.mem_range'_1.mpr ⟨hlo, hhi⟩)
  simp [hv, hd] at this

theorem noCopy_of_find (hb : BlkInv g s) {d : Nat}
    (h : s.findValidDbn g d (startIndex g (g.hashBlock d)) = none) (hsize : g.size ≤ 2 ^ 32) :
    s.NoCopy g d := by
  intro j hv hd
  have hin : j / g.assoc = g.hashBlock d := by
    rw [← (hb.placed hv).inSet, hd]
  obtain ⟨hlo, hhi⟩ := (mem_set_iff _ _).mpr hin
  rw [← startIndex_eq hsize] at hlo hhi
  exact findValidDbn_none h hlo hhi hv hd

/-- What a block returned by `eio_lookup` is good for: it does not cache the
sector, and may be given to it. Only where the indices fit 32 bits is it in the
set of the sector. -/
structure Idle (g : Geom) (s : Sys) (d i : Nat) (c : State) : Prop where
  st : s.st g i = c
  inSet : i / g.assoc ≤ g.hashBlock d
  inOwn : g.size ≤ 2 ^ 32 → i / g.assoc = g.hashBlock d
  other : (s.st g i).has valid = true → s.dbn g i ≠ d
  noCopy : g.size ≤ 2 ^ 32 → s.NoCopy g d

theorem idle_of_scanned (hb : BlkInv g s) {d : Nat} {c : State}
    (h : s.findValidDbn g d (startIndex g (g.hashBlock d)) = none)
    (hlo : startIndex g (g.hashBlock d) ≤ i) (hhi : i < startIndex g (g.hashBlock d) + g.assoc)
    (hst : s.st g i = c) : s.Idle g d i c where
  st := hst
  inSet := scanned_div hlo hhi
  inOwn hsize := by
    rw [startIndex_eq hsize] at hlo hhi
    exact (mem_set_iff _ _).mp ⟨hlo, hhi⟩
  other := findValidDbn_none h hlo hhi
  noCopy := noCopy_of_find hb h

theorem lookup_valid (hb : BlkInv g s) {x : Nat} {victim : Option Nat}
    (hv : s.VictimOk g x victim) (h : s.lookup g x victim = .valid i) :
    ((s.st g i).has valid = true ∧ s.dbn g i = g.roundSector x) ∨
      s.Idle g (g.roundSector x) i valid := by
  simp only [lookup] at h
  split at h
  · next j hj =>
    cases h
    exact .inl (findValidDbn_some hj)
  · next hnone =>
    split at h
    · cases h
    · next j _ =>
      cases h
      obtain ⟨hlo, hhi, hst⟩ := hv i rfl
      exact .inr (idle_of_scanned hb hnone hlo hhi hst)
    · cases h

theorem lookup_invalid (hb : BlkInv g s) {x : Nat} {victim : Option Nat}
    (h : s.lookup g x victim = .invalid i) : s.Idle g (g.roundSector x) i invalid := by
  simp only [lookup] at h
  split at h
  · cases h
  · next hnone =>
    split at h
    · next j hj =>
      cases h
      obtain ⟨hlo, hhi⟩ := List.mem_range'_1.mp (List.mem_of_find?_eq_some hj)
      exact idle_of_scanned hb hnone hlo hhi (by simpa using List.find?_some hj)
    · cases h
    · cases h

theorem lookup_none (hb : BlkInv g s) {x : Nat} {victim : Option Nat}
    (h : s.lookup g x victim = .none) (hsize : g.size ≤ 2 ^ 32) :
    s.NoCopy g (g.roundSector x) := by
  simp only [lookup] at h
  split at h
  · cases h
  · next hnone => exact noCopy_of_find hb hnone hsize

/-! ## Outcomes -/

/-- No block of the sector can be used now: there is none, or another request
is at it. -/
def Away (g : Geom) (s : Sys) (d : Nat) : Prop :=
  ∀ j, (s.st g j).has valid = true → s.dbn g j = d →
    (s.st g j).has (blockIoInprog ||| queued) = true

theorem NoCopy.away {d : Nat} (h : s.NoCopy g d) : s.Away g d :=
  fun j hv hd => absurd hd (h j hv)

theorem away_of_busy (hb : BlkInv g s) {d : Nat} (hv : (s.st g i).has valid = true)
    (hd : s.dbn g i = d) (hbusy : (s.st g i).has (blockIoInprog ||| queued) = true)
    (hsize : g.size ≤ 2 ^ 32) : s.Away g d := by
  intro j hvj hdj
  rw [hb.uniq hsize hvj hv (hdj.trans hd.symm)]
  exact hbusy

end Sys

/-- The outcomes of `eio_read_peek`. -/
inductive ReadPeeked (g : Geom) (s : Sys) (e : EbId) : Sys × Bool → Prop
  | nofit : (s.seg e).nsect = g.blockSize → g.dbnFits (s.seg e).sector = false →
      ReadPeeked g s e (s.fail .dbnSet, false)
  | miss : (g.size ≤ 2 ^ 32 → s.Away g (s.want g e)) → ReadPeeked g s e (s.peekMiss e 0, false)
  | dirty {i : Nat} : s.st g i = alreadyDirty → s.dbn g i = s.want g e →
      ReadPeeked g s e
        (((s.peekTake e i .dirty).updEb e fun eb => { eb with iotype := IoType.mainIo }).updBio
          e.1 fun bc => { bc with bcDir := .uncachedReadAndReadfill }, true)
  | hit {i : Nat} : s.st g i = valid → s.dbn g i = s.want g e →
      ReadPeeked g s e ((s.setSt g i (valid ||| cacheReadInprog)).peekTake e i .hit, true)
  | fill {i : Nat} {c : State} (fresh : Bool) : c = (if fresh then invalid else valid) →
      s.Idle g (s.want g e) i c → (s.seg e).nsect = g.blockSize → s.rdonly = false →
      ReadPeeked g s e
        (((s.recycle g i (valid ||| diskReadInprog) (s.seg e).sector fresh).peekTake e i
          .fill).updBio e.1 fun bc => { bc with bcDir := .uncachedReadAndReadfill }, false)

/-- The outcomes of `eio_write_peek`. -/
inductive WritePeeked (g : Geom) (s : Sys) (e : EbId) : Sys × Bool → Prop
  | nofit : (s.seg e).nsect = g.blockSize → g.dbnFits (s.seg e).sector = false →
      WritePeeked g s e (s.fail .dbnSet, false)
  | miss : (g.size ≤ 2 ^ 32 → s.Away g (s.want g e)) →
      WritePeeked g s e (s.peekMiss e IoType.inval, false)
  | dirty {i : Nat} : s.st g i = alreadyDirty → s.dbn g i = s.want g e →
      WritePeeked g s e (s.peekTake e i .dirty, true)
  | partly {i : Nat} : s.st g i = valid → s.dbn g i = s.want g e → (s.seg e).nsect ≠ g.blockSize →
      WritePeeked g s e ((s.setSt g i (valid ||| cacheWriteInprog)).peekTake e i .wr, false)
  | whole {i : Nat} : s.st g i = valid → s.dbn g i = s.want g e → (s.seg e).nsect = g.blockSize →
      WritePeeked g s e
        (((s.setSt g i (valid ||| cacheWriteInprog)).peekTake e i .wr).countMdwait g e false, true)
  | recycled {i : Nat} {c : State} (fresh : Bool) : c = (if fresh then invalid else valid) →
      s.Idle g (s.want g e) i c → (s.seg e).nsect = g.blockSize →
      WritePeeked g s e
        (((s.recycle g i (valid ||| cacheWriteInprog) (s.seg e).sector fresh).peekTake e i
          .wr).countMdwait g e false, true)

section
variable {g : Geom} {s : Sys} {e : EbId} {i : Nat}

theorem Sys.readPeekFill_spec {c : State} (fresh : Bool)
    (hc : c = if fresh then invalid else valid)
    (hidle : s.Idle g (s.want g e) i c) (hw : s.rdonly = false) :
    ReadPeeked g s e (s.readPeekFill g e i fresh) := by
  simp only [readPeekFill]
  split
  · exact .miss fun hsize => (hidle.noCopy hsize).away
  · next hn =>
    have hn : (s.seg e).nsect = g.blockSize := by simpa using hn
    split
    · next hfit => exact .nofit hn (by simpa using hfit)
    · exact .fill fresh hc hidle hn hw

theorem Sys.readPeek_spec (hb : BlkInv g s) {victim : Option Nat}
    (hv : s.VictimOk g (s.seg e).sector victim) : ReadPeeked g s e (s.readPeek g e victim) := by
  simp only [readPeek]
  cases hlook : s.lookup g (s.seg e).sector victim with
  | none => exact .miss fun hsize => (lookup_none hb hlook hsize).away
  | invalid i =>
    have hidle := lookup_invalid hb hlook
    have hst := hidle.st
    simp +decide only [hst, and_false, if_false]
    split
    · exact .miss fun hsize => (hidle.noCopy hsize).away
    · next hw => exact readPeekFill_spec true rfl hidle (by simpa using hw)
  | valid i =>
    rcases lookup_valid hb hv hlook with ⟨hval, hd⟩ | hidle
    · by_cases hbusy : (s.st g i).has (blockIoInprog ||| queued) = true
      · simp only [hbusy, if_true]
        exact .miss (away_of_busy hb hval hd hbusy)
      · simp only [hbusy, hval, hd, if_true, if_false, not_true_eq_false, Bool.false_eq_true]
        rcases State.allowed_free _ (hb.allowed i) hval (by simpa using hbusy) with hc | hc
        · simp +decide only [hc, if_false]
          exact .hit hc hd
        · simp only [hc, if_true]
          exact .dirty hc hd
    · have hst := hidle.st
      have hd : s.dbn g i ≠ g.roundSector (s.seg e).sector :=
        hidle.other (by rw [hst]; decide)
      simp +decide only [hst, hd, if_false]
      split
      · exact .miss fun hsize => (hidle.noCopy hsize).away
      · next hw => exact readPeekFill_spec false rfl hidle (by simpa using hw)

theorem Sys.writePeekRecycle_spec {c : State} (fresh : Bool)
    (hc : c = if fresh then invalid else valid)
    (hidle : s.Idle g (s.want g e) i c) :
    WritePeeked g s e (s.writePeekRecycle g e i fresh) := by
  have hclean : (s.st g i).has dirty = false := by
    rw [hidle.st, hc]
    cases fresh <;> decide
  simp only [writePeekRecycle, hclean, Bool.false_eq_true, if_false]
  split
  · exact .miss fun hsize => (hidle.noCopy hsize).away
  · next hn =>
    have hn : (s.seg e).nsect = g.blockSize := by simpa using hn
    split
    · next hfit => exact .nofit hn (by simpa using hfit)
    · exact .recycled fresh hc hidle hn

theorem Sys.writePeek_spec (hb : BlkInv g s) {victim : Option Nat}
    (hv : s.VictimOk g (s.seg e).sector victim) :
    WritePeeked g s e (s.writePeek g e victim) := by
  simp only [writePeek]
  cases hlook : s.lookup g (s.seg e).sector victim with
  | none => exact .miss fun hsize => (lookup_none hb hlook hsize).away
  | invalid i =>
    have hidle := lookup_invalid hb hlook
    have hst := hidle.st
    simp +decide only [hst, if_false]
    exact writePeekRecycle_spec true rfl hidle
  | valid i =>
    rcases lookup_valid hb hv hlook with ⟨hval, hd⟩ | hidle
    · by_cases hbusy : (s.st g i).has (blockIoInprog ||| queued) = true
      · simp only [hbusy, if_true]
        exact .miss (away_of_busy hb hval hd hbusy)
      · simp only [hbusy, hd, if_true, if_false, Bool.false_eq_true]
        rcases State.allowed_free _ (hb.allowed i) hval (by simpa using hbusy) with hc | hc
        · simp +decide only [hc, if_false]
          split
          · next hn => exact .whole hc hd hn
          · next hn => exact .partly hc hd hn
        · simp only [hc, if_true]
          exact .dirty hc hd
    · have hst := hidle.st
      have hd : s.dbn g i ≠ g.roundSector (s.seg e).sector :=
        hidle.other (by rw [hst]; decide)
      simp +decide only [hst, hd, if_false]
      exact writePeekRecycle_spec false rfl hidle

/-! ## The invariant after a peek -/

@[simp] theorem Sys.recycle_ebio (c : State) (d : Nat) (fresh : Bool) :
    (s.recycle g i c d fresh).ebio = s.ebio := by
  cases fresh <;> rfl

theorem Sys.recycle_st (c : State) (d : Nat) (fresh : Bool) :
    (s.recycle g i c d fresh).st g i = c := by
  have h : ((s.setSt g i c).setDbn g i d).st g i = c := by simp
  cases fresh
  · exact h
  · exact h

/-- The sector read back from a recycled block: a block of the set `EIO_DBN_SET`
does not expect answers with the sector at the same place of its own set. -/
theorem Sys.recycle_dbn (hz : Meta.ZeroOk g s.md) {c : State} {d : Nat}
    (hd : d < g.diskSize) (hset : i / g.assoc ≤ g.hashBlock d)
    (hown : g.size ≤ 2 ^ 32 → i / g.assoc = g.hashBlock d) (hc : c ≠ invalid) (fresh : Bool) :
    (s.recycle g i c d fresh).dbn g i = g.moved (i / g.assoc) d := by
  have h : ((s.setSt g i c).setDbn g i d).dbn g i = g.moved (i / g.assoc) d :=
    Meta.dbnGet_dbnSet_self hz.stateSet hd hset (fun hmd => hown (g.size_le_of_md8 hmd))
      (by simpa using hc)
  cases fresh
  · exact h
  · exact h

/-- The counters when an idle block is given to a new sector. -/
theorem Recount.recycle {c : State} {d : Nat} {fresh : Bool}
    (hold : s.st g i = if fresh then invalid else valid) (hv : c.has valid = true)
    (hd : c.counted = false) : Recount g s (s.recycle g i c d fresh) i := by
  have hst := s.recycle_st (g := g) (i := i) c d fresh
  have hold' : ((s.st g i).has valid).toNat + fresh.toNat = 1 ∧ (s.st g i).counted = false := by
    rw [hold]
    cases fresh <;> decide
  refine ⟨by cases fresh <;> rfl, by cases fresh <;> rfl, ?_, fun set => ?_, ?_⟩
  · rw [hst, hv]
    cases fresh <;> simp at hold' <;> simp [Sys.recycle, hold']
  · rw [hst, hd, hold'.2, Nat.add_sub_cancel]
    cases fresh <;> rfl
  · rw [hst, hd, hold'.2, add_sub_cancel_right]
    cases fresh <;> rfl

/-- A block given to a new sector is held with flags `f`. -/
theorem Handover.recycled (hb : BlkInv g s) (hseg : SegOk g (s.seg e)) {s' : Sys}
    {c f : State} (fresh : Bool) (hc : c = if fresh then invalid else valid)
    (hidle : s.Idle g (s.want g e) i c) (hn : (s.seg e).nsect = g.blockSize)
    (hcounts : s'.counts = (s.recycle g i f (s.seg e).sector fresh).counts) (hreq : s'.req = s.req)
    (heb : ∀ e' ≠ e, s'.ebio e' = s.ebio e') (hnone : ∀ j f', ¬ (s.ebio e).Owns j f')
    (ho : (s'.ebio e).Owns i f) : Handover g s s' e := by
  have hal : s.want g e = (s.seg e).sector := hseg.aligned hn
  rw [hal] at hidle
  have hmd : s'.md = (s.recycle g i f (s.seg e).sector fresh).md := congrArg Prod.fst hcounts
  have hlt : (s.seg e).sector < g.diskSize := hal ▸ hseg.round_lt
  have hmem := mem_held_of_holds ho.2
  have hf := ((Shows.self f).ne_idle hmem).1
  have hheld := (Shows.self f).held_flags hmem
  have hmd' : s'.md = ((s.setSt g i f).setDbn g i (s.seg e).sector).md := by
    rw [hmd]
    cases fresh <;> rfl
  have hd : s'.dbn g i = g.moved (i / g.assoc) (s.seg e).sector := by
    simp only [dbn, hmd]
    exact recycle_dbn hb.zero hlt hidle.inSet hidle.inOwn hf fresh
  have hon : s'.dbn g i < g.diskSize := hd ▸ (g.moved_le _ _).trans_lt hlt
  have hcount : Recount g s s' i :=
    (Recount.recycle (hidle.st.trans hc) hheld.1 hheld.2).congr hcounts
  refine .take ⟨hreq, heb, ?_, ?_, fun h => hmd' ▸ h.stateSet.dbnSet, .inr (.inr hon), hcount⟩
    ?_ hnone ho ?_ ?_ ?_
  · intro j hj
    simp only [st, hmd']
    simp [hj]
  · intro j hj
    simp only [dbn, hmd']
    exact (Meta.dbnGet_dbnSet_ne hb.zero.stateSet hj).trans (setSt_dbn (.inl hj))
  · rw [hidle.st, hc]
    cases fresh <;> simp
  · simp only [st, hmd']
    simp
  · rw [hd]
    exact ⟨g.roundSector_moved hal, g.hashBlock_moved hidle.inSet,
      (g.moved_le _ _).trans_lt hlt⟩
  · intro hsize
    refine ⟨?_, fun j _ => hal ▸ hidle.noCopy hsize j⟩
    rw [hd, hidle.inOwn hsize, g.moved_self, hal]

/-- A block that caches the sector already is held with flags `f`. -/
theorem Handover.taken (hb : BlkInv g s) {s' : Sys} {f : State} (hst : s.st g i = valid)
    (hd : s.dbn g i = s.want g e) (hcounts : s'.counts = (s.setSt g i f).counts)
    (hreq : s'.req = s.req)
    (heb : ∀ e' ≠ e, s'.ebio e' = s.ebio e') (hnone : ∀ j f', ¬ (s.ebio e).Owns j f')
    (ho : (s'.ebio e).Owns i f) : Handover g s s' e := by
  have hmem := mem_held_of_holds ho.2
  have hf := ((Shows.self f).ne_idle hmem).1
  have hheld := (Shows.self f).held_flags hmem
  have hval : (s.st g i).has valid = true := by rw [hst]; decide
  have hmd : s'.md = (s.setSt g i f).md := congrArg Prod.fst hcounts
  have hcount : Recount g s s' i :=
    (Recount.setSt hval hheld.1 (by rw [hst, hheld.2]; decide)).congr hcounts
  have hsame : s'.dbn g i = s.dbn g i := by
    simp only [dbn, hmd]
    exact setSt_dbn (.inr ⟨hf, by rw [hst]; decide⟩)
  refine .take (.flags hcount hmd hreq heb hval) (.inl hst) hnone ho ?_ (hsame ▸ hb.placed hval) ?_
  · simp only [st, hmd]
    simp
  · intro hsize
    refine ⟨hsame.trans hd, ?_⟩
    intro j hj hvj hdj
    exact hj (hb.uniq hsize hvj hval (hdj.trans hd.symm))

theorem EbOk.peeked {eb eb' : Ebio} (h : EbOk eb) (hnew : eb.st = .new) (hr : eb.role = .miss)
    (hst : eb'.st = .peeked) (hidx : eb'.index = none ↔ eb'.role = .miss)
    (hinv : eb'.iotype.hasInval = true → eb'.role = .miss)
    (hhold : eb'.holdcount = eb.holdcount) (htodo : eb'.todo = eb.todo)
    (hended : eb'.ended = eb.ended) : EbOk eb' where
  index := hidx
  inval := hinv
  missInval := by simp [hst]
  hold := fun _ => by
    rw [hhold, h.hold (by simp [hnew]), hr, hnew, hst]
    cases eb'.role <;> rfl
  live := fun _ => by rw [htodo, hended]; exact h.live (by simp [hnew])
  dead := by simp [hst]
  new := by simp [hst]

theorem Handled.found {s' : Sys} {role : Role} {t : IoType} {P : Role → EbSt → Prop}
    (hok : EbOk (s.ebio e)) (hat : Stage.fresh.Ok (s.ebio e).role (s.ebio e).st)
    (heb : s'.ebio e = { s.ebio e with index := some i, role := role, st := .peeked, iotype := t })
    (ht : t.hasInval = false) (hr : role ≠ .miss) (how : Handover g s s' e)
    (hbug : s'.bug = s.bug) (hp : P role .peeked) : Handled g s s' e P where
  how := how
  ok := heb ▸ hok.peeked hat.2 hat.1 rfl (by simp [hr]) (by simp [ht]) rfl rfl rfl
  at_ := by simpa [heb] using hp
  bug := hbug
  ended := by simp [heb]
  role := .inr (.inr hat.2)

theorem Handled.missed {t : IoType} {P : Role → EbSt → Prop} (hok : EbOk (s.ebio e))
    (hat : Stage.fresh.Ok (s.ebio e).role (s.ebio e).st) (hp : P .miss .peeked) :
    Handled g s (s.peekMiss e t) e P :=
  .plain (Ebio.not_owns_miss hat.1) (by simp [Ebio.Owns]) (by simp [Ebio.Uses])
    ⟨hok.peeked hat.2 hat.1 rfl (by simp) (by simp) rfl rfl rfl, hp, (hok.index.mpr hat.1).symm,
      hat.1.symm, rfl⟩

theorem Handover.found_dirty {s' : Sys} (hn : Near g s s' e i) (hmd : s'.md = s.md)
    (hat : Stage.fresh.Ok (s.ebio e).role (s.ebio e).st) (hr : (s'.ebio e).role = .dirty)
    (hi : (s'.ebio e).index = some i) (hst : s.st g i = alreadyDirty)
    (hd : s.dbn g i = s.want g e) : Handover g s s' e := by
  refine .use hn (by rw [st, hmd]; rfl) (by rw [dbn, hmd]; rfl) (Ebio.not_owns_miss hat.1)
    (Ebio.not_owns_dirty hr) ?_
  intro j hu
  obtain rfl : i = j := Option.some_inj.mp (hi.symm.trans hu.1)
  exact ⟨hst, hd⟩

theorem ReadPeeked.handled {r : Sys × Bool} (h : ReadPeeked g s e r)
    (hfit : r ≠ (s.fail .dbnSet, false)) (hb : BlkInv g s) (hseg : SegOk g (s.seg e))
    (hok : EbOk (s.ebio e)) (hat : Stage.fresh.Ok (s.ebio e).role (s.ebio e).st) :
    Handled g s r.1 e fun role st => Stage.read.Ok role st ∧
      (r.2 = true → Stage.readHit.Ok role st) ∧ (role = .fill → (s.seg e).nsect = g.blockSize) := by
  have hinv := hok.new hat.2
  have hnone := Ebio.not_owns_miss hat.1
  have hmain : (IoType.mainIo).hasInval = false := by decide
  cases h with
  | nofit => exact absurd rfl hfit
  | miss haway => exact .missed hok hat (by simp [Stage.Ok])
  | @dirty i hst hd =>
    refine .found (i := i) hok hat (by simp [peekTake]; rfl) hmain (by simp) ?_ rfl
      (by simp [Stage.Ok])
    have hn : Near g s (s.peekTake e i .dirty) e i := (Near.refl g s e i).updEb _
    refine .found_dirty (i := i) ?_ rfl hat (by simp [peekTake]) (by simp [peekTake]) hst hd
    dsimp only
    exact (hn.updEb _).updBio _ _
  | @hit i hst hd =>
    refine .found (i := i) hok hat (by simp [peekTake]; rfl) hinv (by simp) ?_ rfl
      (by simp [Stage.Ok])
    exact .taken hb hst hd rfl rfl (fun e' he => by simp [peekTake, he]) hnone
      (by simp [peekTake, Ebio.Owns, holds])
  | @fill i c fresh hc hidle hn =>
    refine .found (i := i) hok hat (by simp [peekTake]; rfl) hinv (by simp) ?_
      (by cases fresh <;> rfl) (by simp [Stage.Ok, hn])
    exact .recycled (f := valid ||| diskReadInprog) hb hseg fresh hc hidle hn rfl
      (by cases fresh <;> rfl) (fun e' he => by simp [peekTake, he]) hnone
      (by simp [peekTake, Ebio.Owns, holds])

@[simp] theorem Sys.countMdwait_ebio (b : Bool) : (s.countMdwait g e b).ebio = s.ebio := by
  simp only [countMdwait]
  split <;> rfl

@[simp] theorem Sys.countMdwait_counts (b : Bool) : (s.countMdwait g e b).counts = s.counts := by
  simp only [countMdwait]
  split <;> rfl

@[simp] theorem Sys.countMdwait_req (b : Bool) : (s.countMdwait g e b).req = s.req := by
  simp only [countMdwait]
  split <;> rfl

@[simp] theorem Sys.countMdwait_bug (b : Bool) : (s.countMdwait g e b).bug = s.bug := by
  simp only [countMdwait]
  split <;> rfl

theorem WritePeeked.handled {r : Sys × Bool} (h : WritePeeked g s e r)
    (hfit : r ≠ (s.fail .dbnSet, false)) (hb : BlkInv g s) (hseg : SegOk g (s.seg e))
    (hok : EbOk (s.ebio e)) (hat : Stage.fresh.Ok (s.ebio e).role (s.ebio e).st) :
    Handled g s r.1 e fun role st => Stage.write.Ok role st ∧
      (r.2 = true → Stage.writeHit.Ok role st) ∧
      (role = .wr → r.2 = true → (s.seg e).nsect = g.blockSize) := by
  have hinv := hok.new hat.2
  have hnone := Ebio.not_owns_miss hat.1
  cases h with
  | nofit => exact absurd rfl hfit
  | miss haway => exact .missed hok hat (by simp [Stage.Ok])
  | @dirty i hst hd =>
    refine .found (i := i) hok hat (by simp [peekTake]; rfl) hinv (by simp) ?_ rfl
      (by simp [Stage.Ok])
    have hn : Near g s (s.peekTake e i .dirty) e i := (Near.refl g s e i).updEb _
    exact .found_dirty hn rfl hat (by simp [peekTake]) (by simp [peekTake]) hst hd
  | @partly i hst hd hn =>
    refine .found (i := i) hok hat (by simp [peekTake]; rfl) hinv (by simp) ?_ rfl
      (by simp [Stage.Ok])
    exact .taken hb hst hd rfl rfl (fun e' he => by simp [peekTake, he]) hnone
      (by simp [peekTake, Ebio.Owns, holds])
  | @whole i hst hd hn =>
    refine .found (i := i) hok hat (by simp [peekTake]; rfl) hinv (by simp) ?_
      (by simp [peekTake]) (by simp [Stage.Ok, hn])
    exact .taken (f := valid ||| cacheWriteInprog) hb hst hd (countMdwait_counts _)
      (countMdwait_req _) (fun e' he => by simp [peekTake, he]) hnone
      (by simp [peekTake, Ebio.Owns, holds])
  | @recycled i c fresh hc hidle hn =>
    refine .found (i := i) hok hat (by simp [peekTake]; rfl) hinv (by simp) ?_
      (by cases fresh <;> simp [peekTake, recycle]) (by simp [Stage.Ok, hn])
    exact .recycled (f := valid ||| cacheWriteInprog) hb hseg fresh hc hidle hn
      (countMdwait_counts _) (by cases fresh <;> exact countMdwait_req _)
      (fun e' he => by simp [peekTake, he]) hnone (by simp [peekTake, Ebio.Owns, holds])

end
end EnhanceIO
