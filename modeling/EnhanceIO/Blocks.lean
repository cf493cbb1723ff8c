import EnhanceIO.Control

/-!
# The functions of the driver, one ebio at a time

For each function that works on one ebio: that it stays within that ebio and
the block descriptors (`EbFrame`), and what it does when the ebio is where the
invariant says it can be. No assertion on the flags of a block fails, and the
block changes hands in one of the ways of `BlkInv`.
-/

namespace EnhanceIO

open State Sys

/-- `s'` differs from `s` at most in the block descriptors and their counters, the
ebio `e` and a failed assertion. -/
def EbFrame (s s' : Sys) (e : EbId) : Prop :=
  s' = { s with
    md := s'.md
    cachedBlocks := s'.cachedBlocks
    ebio := Function.update s.ebio e (s'.ebio e)
    bug := s'.bug }

namespace EbFrame

variable {s s' : Sys} {e : EbId}

@[grind ←] theorem refl (s : Sys) (e : EbId) : EbFrame s s e := by
  simp [EbFrame]

@[grind ←] theorem updEb (h : EbFrame s s' e) (fe : Ebio → Ebio) : EbFrame s (s'.updEb e fe) e := by
  rw [EbFrame] at h ⊢
  rw [h]
  simp [Sys.updEb]

@[grind ←] theorem setSt (h : EbFrame s s' e) {g : Geom} (i : Nat) (c : State) :
    EbFrame s (s'.setSt g i c) e := by
  rw [EbFrame] at h ⊢
  rw [h]
  simp [Sys.setSt]

@[grind ←] theorem invalidate (h : EbFrame s s' e) {g : Geom} (i : Nat) :
    EbFrame s (s'.invalidate g i) e := by
  rw [EbFrame] at h ⊢
  rw [h]
  simp [Sys.invalidate, Sys.setSt]

@[grind ←] theorem fail (h : EbFrame s s' e) (x : Bug) : EbFrame s (s'.fail x) e := by
  rw [EbFrame] at h ⊢
  rw [h]
  simp [Sys.fail]

@[grind ←] theorem endEb (h : EbFrame s s' e) (err : Int) : EbFrame s (s'.endEb e err) e :=
  h.updEb _

theorem bio (h : EbFrame s s' e) : s'.bio = s.bio := by rw [h]
theorem req (h : EbFrame s s' e) : s'.req = s.req := by rw [h]
theorem mdreq (h : EbFrame s s' e) : s'.mdreq = s.mdreq := by rw [h]
theorem clean (h : EbFrame s s' e) : s'.clean = s.clean := by rw [h]
theorem nbio (h : EbFrame s s' e) : s'.nbio = s.nbio := by rw [h]

theorem ebio_ne (h : EbFrame s s' e) {e' : EbId} (he : e' ≠ e) : s'.ebio e' = s.ebio e' := by
  rw [h]
  simp [he]

end EbFrame

/-! ## Ending an ebio -/

theorem Ebio.not_owns_done {eb : Ebio} (h : eb.st = .done) (i : Nat) (f : State) :
    ¬ eb.Owns i f := by
  simp only [Ebio.Owns, h, holds, not_and]
  intro _
  cases eb.role <;> simp

theorem Ebio.not_uses_done {eb : Ebio} (h : eb.st = .done) (i : Nat) : ¬ eb.Uses i := by
  simp [Ebio.Uses, h]

@[simp] theorem Ebio.endio_st (eb : Ebio) (err : Int) : (eb.endio err).st = .done := rfl
@[simp] theorem Ebio.endio_role (eb : Ebio) (err : Int) : (eb.endio err).role = eb.role := rfl
@[simp] theorem Ebio.endio_index (eb : Ebio) (err : Int) : (eb.endio err).index = eb.index := rfl
@[simp] theorem Ebio.endio_iotype (eb : Ebio) (err : Int) :
    (eb.endio err).iotype = eb.iotype := rfl
@[simp] theorem Ebio.endio_todo (eb : Ebio) (err : Int) :
    (eb.endio err).todo = eb.todo ++ [err] := rfl
@[simp] theorem Ebio.endio_ended (eb : Ebio) (err : Int) : (eb.endio err).ended = eb.ended := rfl

/-- What has become of an ebio: `eb'` is well-formed and at `P`, it has the block and
the role of `eb`, and the bio has heard as little of it. -/
structure Ebio.Goes (eb eb' : Ebio) (P : Role → EbSt → Prop) : Prop where
  ok : EbOk eb'
  at_ : P eb'.role eb'.st
  index : eb'.index = eb.index
  role : eb'.role = eb.role
  ended : eb'.ended = eb.ended

/-- The ebio has ended. -/
abbrev Ended (_ : Role) (st : EbSt) : Prop := st = .done

/-- An ebio that was not ended and is ended now, whatever else has changed. -/
theorem EbOk.end_ {eb eb' : Ebio} (h : EbOk eb) (hst : eb.st ≠ .done)
    (hst' : eb'.st = .done) (hidx : eb'.index = eb.index) (hrole : eb'.role = eb.role)
    (hiot : eb'.iotype.hasInval = true → eb.iotype.hasInval = true)
    (htodo : eb'.todo.length = eb.todo.length + 1) (hended : eb'.ended = eb.ended) :
    eb.Goes eb' Ended := by
  refine ⟨?_, hst', hidx, hrole, hended⟩
  constructor
  · rw [hidx, hrole]
    exact h.index
  · exact fun hi => hrole ▸ h.inval (hiot hi)
  · simp [hst']
  · exact fun hne => absurd hst' hne
  · exact fun hne => absurd hst' hne
  · intro _
    obtain ⟨h1, h2⟩ := h.live hst
    simp [htodo, hended, h1, h2]
  · simp [hst']

/-- An ebio that goes on, with the same block. -/
theorem EbOk.go {eb eb' : Ebio} {P : Role → EbSt → Prop} (h : EbOk eb) (hst : eb.st ≠ .done)
    (hp : P eb'.role eb'.st) (hst' : eb'.st ≠ .done ∧ eb'.st ≠ .new)
    (hidx : eb'.index = eb.index) (hrole : eb'.role = eb.role)
    (hiot : eb'.iotype.hasInval = true → eb.role = .miss)
    (hmiss : eb'.st = .uc true false → eb.role = .miss → eb'.iotype.hasInval = true)
    (hhold : eb'.holdcount = holdsExpected eb.role eb'.st)
    (htodo : eb'.todo = eb.todo) (hended : eb'.ended = eb.ended) : eb.Goes eb' P := by
  refine ⟨?_, hp, hidx, hrole, hended⟩
  constructor
  · rw [hidx, hrole]
    exact h.index
  · rw [hrole]
    exact hiot
  · rw [hrole]
    exact hmiss
  · rw [hrole]
    exact fun _ => hhold
  · rw [htodo, hended]
    exact fun _ => h.live hst
  · exact fun hd => absurd hd hst'.1
  · exact fun hn => absurd hn hst'.2

theorem EbOk.endio {eb : Ebio} (h : EbOk eb) (hst : eb.st ≠ .done) (err : Int) :
    eb.Goes (eb.endio err) Ended :=
  h.end_ hst rfl rfl rfl id (by simp) rfl

theorem EbOk.index_of_ne_miss {eb : Ebio} (h : EbOk eb) (hr : eb.role ≠ .miss) :
    ∃ i, eb.index = some i ∧ eb.iotype.hasInval = false := by
  cases hi : eb.index with
  | none => exact absurd (h.index.mp hi) hr
  | some i =>
    refine ⟨i, rfl, ?_⟩
    by_contra hinv
    exact hr (h.inval (by simpa using hinv))

/-- No assertion on the flags of a block has failed between `s` and `s'`. -/
def Sound (s s' : Sys) : Prop := s'.bug = s.bug ∨ ∃ x, s'.bug = some x ∧ x.excluded = false

/-- What becomes of the block of ebio `e` between `s` and `s'`: the ebio has no
block of its own, starts to use a dirty one, takes an idle one, keeps its own,
drops it, releases it, releases it dirty, or holds it with other flags. -/
inductive Handover (g : Geom) (s s' : Sys) (e : EbId) : Prop
  | plain {i : Nat} : Near g s s' e i → s'.st g i = s.st g i → s'.dbn g i = s.dbn g i →
      (∀ j f, ¬ (s.ebio e).Owns j f) → (∀ j f, ¬ (s'.ebio e).Owns j f) →
      (∀ j, (s'.ebio e).Uses j → (s.ebio e).Uses j) → Handover g s s' e
  | use {i : Nat} : Near g s s' e i → s'.st g i = s.st g i → s'.dbn g i = s.dbn g i →
      (∀ j f, ¬ (s.ebio e).Owns j f) → (∀ j f, ¬ (s'.ebio e).Owns j f) →
      (∀ j, (s'.ebio e).Uses j → s.st g j = alreadyDirty ∧ s.dbn g j = s.want g e) →
      Handover g s s' e
  | take {i : Nat} {f : State} : Near g s s' e i → (s.st g i = valid ∨ s.st g i = invalid) →
      (∀ j f', ¬ (s.ebio e).Owns j f') → (s'.ebio e).Owns i f → s'.st g i = f →
        Placed g i (s'.dbn g i) →
      (g.size ≤ 2 ^ 32 → s'.dbn g i = s.want g e ∧
        ∀ j ≠ i, (s.st g j).has valid = true → s.dbn g j ≠ s.want g e) → Handover g s s' e
  | keep {i : Nat} {f : State} : Near g s s' e i → s'.st g i = s.st g i → s'.dbn g i = s.dbn g i →
      (s.ebio e).Owns i f → (s'.ebio e).Owns i f → Handover g s s' e
  | drop {i : Nat} {f : State} : Near g s s' e i → (s.ebio e).Owns i f → s'.st g i = invalid →
      (∀ j f', ¬ (s'.ebio e).Owns j f') → (∀ j, ¬ (s'.ebio e).Uses j) → Handover g s s' e
  | free {i : Nat} {f : State} : Near g s s' e i → (s.ebio e).Owns i f → s.st g i = f →
      s'.st g i = valid → s'.dbn g i = s.dbn g i → (s'.ebio e).st = .done → Handover g s s' e
  | settle {i : Nat} : Near g s s' e i → (s.ebio e).Owns i dirtyInprog →
      s'.st g i = alreadyDirty → s'.dbn g i = s.dbn g i → (s'.ebio e).st = .done →
      Handover g s s' e
  | hold {i : Nat} {f f' : State} : Near g s s' e i → (s.ebio e).Owns i f →
      (s'.ebio e).Owns i f' → Shows (s'.st g i) f' →
      (f'.has dirty = false → s'.st g i = f' → s.st g i = f) → s'.dbn g i = s.dbn g i →
      Handover g s s' e

theorem Handover.blk {g : Geom} {s s' : Sys} {e : EbId} (h : Handover g s s' e)
    (hb : BlkInv g s) : BlkInv g s' := by
  cases h with
  | plain n hst hd hnone hno hu =>
    exact hb.ebio n hst hd hnone hno fun j hu' => hb.used (hu j hu')
  | use n hst hd hnone hno hu => exact hb.ebio n hst hd hnone hno hu
  | take n hidle hnone ho' hst hp hd => exact hb.reserve n hidle hnone ho' hst hp hd
  | keep n hst hd ho ho' => exact hb.advance n ho ho' (hst ▸ (hb.owned ho).1) hd
  | drop n ho hst hno hnu => exact hb.release n ho hno hnu (.inl hst)
  | free n ho _ hst hd hdone =>
    exact hb.release n ho (Ebio.not_owns_done hdone) (Ebio.not_uses_done hdone)
      (.inr ⟨.inl hst, hd⟩)
  | settle n ho hst hd hdone =>
    exact hb.release n ho (Ebio.not_owns_done hdone) (Ebio.not_uses_done hdone)
      (.inr ⟨.inr hst, hd⟩)
  | hold n ho ho' hs _ hd => exact hb.advance n ho ho' hs hd

/-- The state after a function has handled ebio `e`: its block has changed hands
properly, the ebio is well-formed and has come to `P`. -/
structure Handled (g : Geom) (s s' : Sys) (e : EbId) (P : Role → EbSt → Prop) : Prop where
  how : Handover g s s' e
  ok : EbOk (s'.ebio e)
  at_ : P (s'.ebio e).role (s'.ebio e).st
  bug : s'.bug = s.bug
  ended : (s'.ebio e).ended = (s.ebio e).ended
  role : (s'.ebio e).role = (s.ebio e).role ∨ (s'.ebio e).role = .miss ∨ (s.ebio e).st = .new

namespace Handled

variable {g : Geom} {s s' : Sys} {e : EbId} {i : Nat} {f : State} {fe : Ebio → Ebio}
  {P Q : Role → EbSt → Prop}

theorem mono (h : Handled g s s' e P) (hpq : ∀ r st, P r st → Q r st) : Handled g s s' e Q :=
  ⟨h.how, h.ok, hpq _ _ h.at_, h.bug, h.ended, h.role⟩

/-- What becomes of the block and what becomes of the ebio, together. -/
theorem of_goes {t : Sys} (how : Handover g s (t.updEb e fe) e) (ht : t.ebio = s.ebio)
    (hbug : t.bug = s.bug) (hgo : (s.ebio e).Goes (fe (s.ebio e)) P) :
    Handled g s (t.updEb e fe) e P where
  how := how
  ok := by simpa [ht] using hgo.ok
  at_ := by simpa [ht] using hgo.at_
  bug := hbug
  ended := by simpa [ht] using hgo.ended
  role := .inl (by simpa [ht] using hgo.role)

theorem to_invalid (hb : BlkInv g s) (ho : (s.ebio e).Owns i f)
    (hgo : (s.ebio e).Goes (fe (s.ebio e)) Ended) :
    Handled g s ((s.invalidate g i).updEb e fe) e Ended := by
  refine of_goes (.drop ((hb.near_invalidate ho).updEb _) ho (by simp) ?_ ?_) rfl rfl hgo
  · simpa using Ebio.not_owns_done hgo.at_
  · simpa using Ebio.not_uses_done hgo.at_

theorem to_idle (ho : (s.ebio e).Owns i f) (hc : s.st g i = f)
    (hgo : (s.ebio e).Goes (fe (s.ebio e)) Ended) :
    Handled g s ((s.setSt g i valid).updEb e fe) e Ended := by
  have hheld := (Shows.self f).held_flags (mem_held_of_holds ho.2)
  refine of_goes (.free ((Near.setSt e (hc ▸ hheld.1) (by decide) ?_).updEb _) ho hc (by simp) ?_
    (by simpa using hgo.at_)) rfl rfl hgo
  · rw [hc, hheld.2]
    decide
  · refine setSt_dbn (.inr ⟨by decide, ?_⟩)
    exact ((Shows.self f).ne_idle (mem_held_of_holds ho.2)).1 |> (hc ▸ ·)

theorem hold_on (hb : BlkInv g s) (ho : (s.ebio e).Owns i f) {c f' : State}
    (ho' : (fe (s.ebio e)).Owns i f')
    (hc : Shows c f' ∧ (f'.has dirty = false → c = f' → s.st g i = f))
    (hgo : (s.ebio e).Goes (fe (s.ebio e)) P) :
    Handled g s ((s.setSt g i c).updEb e fe) e P := by
  have hne := ((hb.owned ho).1.ne_idle (mem_held_of_holds ho.2)).1
  have hne' := (hc.1.ne_idle (mem_held_of_holds ho'.2)).1
  have hheld := (hb.owned ho).1.held_flags (mem_held_of_holds ho.2)
  have hheld' := hc.1.held_flags (mem_held_of_holds ho'.2)
  exact of_goes (.hold ((Near.setSt e hheld.1 hheld'.1 (hheld'.2.trans hheld.2.symm)).updEb _) ho
    (by simpa using ho') (by simpa using hc.1) (by simpa using hc.2)
    (setSt_dbn (.inr ⟨hne', hne⟩))) rfl rfl hgo

theorem keep (ho : (s.ebio e).Owns i f) (ho' : (fe (s.ebio e)).Owns i f)
    (hgo : (s.ebio e).Goes (fe (s.ebio e)) P) : Handled g s (s.updEb e fe) e P :=
  of_goes (.keep ((Near.refl g s e i).updEb _) rfl rfl ho (by simpa using ho')) rfl rfl hgo

/-- An ebio that holds no block goes on, still using its dirty block or none. -/
theorem plain (hnone : ∀ j f, ¬ (s.ebio e).Owns j f) (hno : ∀ j f, ¬ (fe (s.ebio e)).Owns j f)
    (hu : ∀ j, (fe (s.ebio e)).Uses j → (s.ebio e).Uses j)
    (hgo : (s.ebio e).Goes (fe (s.ebio e)) P) : Handled g s (s.updEb e fe) e P :=
  of_goes (.plain ((Near.refl g s e 0).updEb _) rfl rfl hnone (by simpa using hno)
    fun j hu' => hu j (by simpa using hu')) rfl rfl hgo

/-- The same, when the flags of a dirty block are stored back unchanged. -/
theorem plain_dirty (hc : s.st g i = alreadyDirty) (hnone : ∀ j f, ¬ (s.ebio e).Owns j f)
    (hno : ∀ j f, ¬ (fe (s.ebio e)).Owns j f)
    (hu : ∀ j, (fe (s.ebio e)).Uses j → (s.ebio e).Uses j)
    (hgo : (s.ebio e).Goes (fe (s.ebio e)) P) :
    Handled g s ((s.setSt g i alreadyDirty).updEb e fe) e P :=
  of_goes (.plain ((Near.setSt e (by rw [hc]; decide) (by decide) (by rw [hc])).updEb _)
    (by simp [hc]) (setSt_dbn (.inr ⟨by decide, by rw [hc]; decide⟩)) hnone
    (by simpa using hno) fun j hu' => hu j (by simpa using hu')) rfl rfl hgo

/-- An ebio on a dirty block goes on with it. -/
theorem on_dirty (hr : (s.ebio e).role = .dirty) (hne : (s.ebio e).st ≠ .done)
    (hgo : (s.ebio e).Goes (fe (s.ebio e)) P) : Handled g s (s.updEb e fe) e P :=
  plain (Ebio.not_owns_dirty hr) (Ebio.not_owns_dirty (hgo.role.trans hr))
    (fun _ hu => ⟨hgo.index.symm.trans hu.1, hr, hne⟩) hgo

theorem end_dirty (hc : s.st g i = alreadyDirty) (hnone : ∀ j f, ¬ (s.ebio e).Owns j f)
    (hgo : (s.ebio e).Goes (fe (s.ebio e)) Ended) :
    Handled g s ((s.setSt g i alreadyDirty).updEb e fe) e Ended :=
  plain_dirty hc hnone (Ebio.not_owns_done hgo.at_)
    (fun j hu => absurd hu (Ebio.not_uses_done hgo.at_ j)) hgo

theorem end_plain (hnone : ∀ j f, ¬ (s.ebio e).Owns j f)
    (hgo : (s.ebio e).Goes (fe (s.ebio e)) Ended) : Handled g s (s.updEb e fe) e Ended :=
  plain hnone (Ebio.not_owns_done hgo.at_)
    (fun j hu => absurd hu (Ebio.not_uses_done hgo.at_ j)) hgo

/-- An ebio is handed to a device: it goes on to `st'`, with the hold on its block. -/
theorem issued (hok : EbOk (s.ebio e)) {r : Role} {st st' : EbSt} (hr : (s.ebio e).role = r)
    (hst : (s.ebio e).st = st) {t : IoType} {x : Nat → Bool} {err : Option Int}
    (heb : fe (s.ebio e) = { s.ebio e with iotype := t, st := st', xfer := x, ssdError := err })
    (ht : t.hasInval = true → (s.ebio e).role = .miss)
    (hgoes : (st ≠ .done ∧ st' ≠ .done ∧ st' ≠ .new ∧ st' ≠ .uc true false) ∧
      holdsExpected r st = holdsExpected r st' ∧
      (r = .dirty ∨ r ≠ .miss ∧ holds r st' = holds r st ∧ (holds r st).isSome = true))
    (hp : P r st') : Handled g s (s.updEb e fe) e P := by
  obtain ⟨⟨hdone, hdone', hnew, huc⟩, hhold, hkeeps⟩ := hgoes
  have hgo : (s.ebio e).Goes (fe (s.ebio e)) P := by
    rw [heb]
    exact hok.go (hst ▸ hdone) (hr ▸ hp) ⟨hdone', hnew⟩ rfl rfl ht (fun h => absurd h huc)
      (by rw [hok.hold (hst ▸ hdone), hst, hr, hhold]) rfl rfl
  rcases hkeeps with rfl | ⟨hm, hsame, hsome⟩
  · exact .on_dirty hr (hst ▸ hdone) hgo
  · obtain ⟨i, hi, -⟩ := hok.index_of_ne_miss (hr ▸ hm)
    obtain ⟨f, hf⟩ := Option.isSome_iff_exists.mp hsome
    refine .keep (i := i) (f := f) ⟨hi, by rw [hr, hst, hf]⟩ ?_ hgo
    rw [heb]
    exact ⟨hi, by rw [hr, hsame, hf]⟩

end Handled

/-! ## Range invalidation -/

/-- `s'` differs from `s` at most in the block descriptors and a failed assertion. -/
def MdFrame (s s' : Sys) : Prop :=
  s' = { s with md := s'.md, cachedBlocks := s'.cachedBlocks, bug := s'.bug }

namespace MdFrame

variable {s s' s'' : Sys}

theorem refl (s : Sys) : MdFrame s s := rfl

theorem trans (h : MdFrame s s') (h' : MdFrame s' s'') : MdFrame s s'' := by
  rw [MdFrame] at h h' ⊢
  rw [h', h]

theorem ebio (h : MdFrame s s') : s'.ebio = s.ebio := by rw [h]
theorem bio (h : MdFrame s s') : s'.bio = s.bio := by rw [h]
theorem req (h : MdFrame s s') : s'.req = s.req := by rw [h]

theorem ebFrame (h : MdFrame s s') (e : EbId) : EbFrame s s' e := by
  have heb := h.ebio
  rw [MdFrame] at h
  rw [EbFrame, heb, Function.update_eq_self]
  exact h

end MdFrame

/-- What an invalidation keeps. -/
structure Invals (g : Geom) (s s' : Sys) : Prop where
  frame : MdFrame s s'
  blk : BlkInv g s → BlkInv g s'
  bug : Sound s s'

namespace Invals

variable {g : Geom} {s s' s'' : Sys}

theorem refl (g : Geom) (s : Sys) : Invals g s s := ⟨.refl s, id, .inl rfl⟩

theorem trans (h : Invals g s s') (h' : Invals g s' s'') : Invals g s s'' where
  frame := h.frame.trans h'.frame
  blk := fun hb => h'.blk (h.blk hb)
  bug := by
    rcases h'.bug with hb | hb
    · rw [Sound, hb]
      exact h.bug
    · exact .inr hb

end Invals

theorem Sys.invalBlockAt_invals (g : Geom) (s : Sys) (lo hi i : Nat) :
    Invals g s (s.invalBlockAt g lo hi i).1 := by
  simp only [invalBlockAt]
  split
  · exact .refl g s
  · next hinv =>
    split
    · exact .refl g s
    · split
      · next hbusy =>
        -- an idle block is dropped
        refine ⟨rfl, fun hb => ?_, .inl rfl⟩
        have hc : s.st g i = valid := State.allowed_idle _ (hb.allowed i) (by simpa using hinv)
          (by simpa using hbusy)
        have hno := hb.not_owns_of_idle (i := i) (.inr (.inl hc))
        refine hb.block (.invalidate (0, 0) (by rw [hc]; decide) (by rw [hc]; decide)) rfl
          ?_ ?_ ?_ ?_ (fun _ => by simp [State.Resting])
          (fun hcl => absurd (by simpa using hcl) (by decide : invalid ≠ cleanInprog))
        · simp only [invalidate_st, if_true]
          decide
        · intro e f ho
          exact absurd ho (hno e f)
        · intro e hu
          exact absurd hu (hb.not_uses_of_ne (by rw [hc]; decide) e)
        · intro hv
          simp [State.has, State.invalid, State.valid] at hv
      · next hbusy =>
        split
        · next hq =>
          -- a busy block is left to its owner, with `QUEUED` on it
          refine ⟨rfl, fun hb => ?_, .inl rfl⟩
          obtain ⟨hallow, hnq, hne, hnd, hne', hndirty, hval⟩ :=
            State.allowed_queue _ (hb.allowed i) (by simpa using hbusy) (by simpa using hq)
          have hflags := State.allowed_on_queued _ (hb.allowed i) hval hndirty
          refine hb.block (.setSt (0, 0) hval hflags.1 hflags.2) rfl ?_ ?_ ?_ ?_
            (fun hr => absurd hr (State.allowed_busy _ (hb.allowed i) (by simpa using hbusy)
              (by simpa using hq))) ?_
          · simpa using hallow
          · intro e f ho
            rcases (hb.owned ho).1 with hcf | ⟨hcf, _⟩
            · right
              rw [setSt_st, if_pos rfl, hcf]
              exact ⟨rfl, hcf ▸ hndirty⟩
            · rw [hcf] at hnq
              exact absurd hnq (by simp [State.has, State.on, State.queued,
                BitVec.and_or_distrib_right])
          · intro e hu
            exact absurd (hb.used hu).1 hnd
          · intro _
            exact ⟨hval, setSt_dbn (.inr ⟨hne', hne⟩)⟩
          · intro hcl
            rw [setSt_st, if_pos rfl] at hcl
            exact absurd (hcl ▸ State.has_queued_on _) (by decide)
        · exact .refl g s

theorem Sys.invalLoop_invals (g : Geom) (lo hi : Nat) (multiblk : Bool) :
    ∀ (l : List Nat) (s : Sys), Invals g s (Sys.invalLoop g lo hi multiblk s l) := by
  intro l
  induction l with
  | nil => intro s; exact .refl g s
  | cons i rest ih =>
    intro s
    have h := s.invalBlockAt_invals g lo hi i
    simp only [invalLoop]
    split
    exact h
    exact h.trans (ih _)

theorem Sys.invalBlockAt_bug (g : Geom) (s : Sys) (lo hi i : Nat) :
    (s.invalBlockAt g lo hi i).1.bug = s.bug := by
  simp only [invalBlockAt]
  split
  · rfl
  split
  · rfl
  split
  · rfl
  split <;> rfl

theorem Sys.invalLoop_bug (g : Geom) (lo hi : Nat) (multiblk : Bool) :
    ∀ (l : List Nat) (s : Sys), (Sys.invalLoop g lo hi multiblk s l).bug = s.bug := by
  intro l
  induction l with
  | nil =>
    intro s
    rfl
  | cons i rest ih =>
    intro s
    have hone := s.invalBlockAt_bug g lo hi i
    simp only [invalLoop]
    split
    · exact hone
    · rw [ih, hone]

theorem Sys.invalBlockSetRange_invals (g : Geom) (s : Sys) (set lo iosize : Nat)
    (multiblk : Bool) : Invals g s (s.invalBlockSetRange g set lo iosize multiblk) := by
  simp only [invalBlockSetRange]
  split
  · exact ⟨rfl, fun hb => hb.congr rfl rfl rfl, .inr ⟨_, rfl, rfl⟩⟩
  · split
    · exact .refl g s
    · exact invalLoop_invals g _ _ _ _ _

/-! ## What each function leaves alone -/

section
variable {g : Geom} {s : Sys} {e : EbId} {i : Nat} (err : Int)

theorem Sys.flagBlock_frame (inv : Bool) : EbFrame s (s.flagBlock g e i inv) e := by
  simp only [flagBlock]
  repeat' split
  all_goals grind

theorem Sys.flagAbio_frame (inv : Bool) : EbFrame s (s.flagAbio g e inv) e := by
  have hinval : EbFrame s (s.invalBlock g (s.seg e).sector) e :=
    (invalBlockSetRange_invals g s _ _ _ _).frame.ebFrame e
  simp only [flagAbio]
  repeat' split
  all_goals grind [flagBlock_frame]

theorem Sys.readDoneAbio_frame : EbFrame s (s.readDoneAbio g e) e := by
  simp only [readDoneAbio]
  repeat' split
  all_goals grind

theorem Sys.readfillLock_frame : EbFrame s (s.readfillLock g e) e := by
  simp only [readfillLock]
  repeat' split
  all_goals grind

theorem Sys.readfillAccept_frame : EbFrame s (s.readfillAccept e) e := (EbFrame.refl s e).updEb _

theorem Sys.readfillRefuse_frame : EbFrame s (s.readfillRefuse g e err) e := by
  simp only [readfillRefuse]
  repeat' split
  all_goals grind

theorem Sys.postRead_frame : EbFrame s (s.postRead g e i err) e := by
  simp only [postRead, setPostState]
  repeat' split
  all_goals grind

theorem Sys.readCacheDone_frame : EbFrame s (s.readCacheDone g e i err) e := by
  have h := postRead_frame (g := g) (s := s) (e := e) (i := i) err
  simp only [readCacheDone]
  repeat' split
  all_goals grind

theorem Sys.readFillDone_frame : EbFrame s (s.readFillDone g e i err) e := by
  simp only [readFillDone]
  split
  · exact (EbFrame.refl s e).fail _
  · exact postRead_frame _

theorem Sys.postWrite_frame : EbFrame s (s.postWrite g e i err) e := by
  simp only [postWrite, setPostState]
  repeat' split
  all_goals grind

theorem Sys.writeCacheDone_frame (hmd : ¬ (err = 0 ∧ s.st g i = dirtyInprog)) :
    EbFrame s (s.writeCacheDone g e i err) e := by
  simp only [writeCacheDone, if_neg hmd]
  split
  · exact (EbFrame.refl s e).fail _
  · split
    · exact (EbFrame.refl s e).fail _
    · exact postWrite_frame err

theorem Sys.rereadAccept_frame : EbFrame s (s.rereadAccept g e i) e := by
  simp only [rereadAccept]
  repeat' split
  all_goals grind

/-! ## The flags of the block -/

@[simp] theorem Sys.updEb_setPostState (fe : Ebio → Ebio) :
    (s.updEb e fe).setPostState g i err = (s.setPostState g i err).updEb e fe := by
  by_cases h : (s.st g i).has State.diskWriteInprog = false ∧
      (err ≠ 0 ∨ (s.st g i).has State.queued) ∧ s.st g i ≠ State.alreadyDirty
  · have hs : s.setPostState g i err = s.invalidate g i := if_pos h
    rw [hs]
    exact if_pos h
  · have hs : s.setPostState g i err = s.setSt g i (postState (s.st g i) err) := if_neg h
    rw [hs]
    exact if_neg h

theorem Sys.setPostState_dirty (hc : s.st g i = alreadyDirty) :
    s.setPostState g i err = s.setSt g i alreadyDirty := by
  have h0 : postState alreadyDirty 0 = alreadyDirty := by decide
  by_cases herr : err = 0
  · simp +decide [setPostState, hc, herr, h0]
  · simp +decide [setPostState, postState, hc, herr]

theorem Sys.readCacheDone_mismatch (hd : s.dbn g i ≠ s.want g e) :
    s.readCacheDone g e i err = s.fail .blockDbn := if_pos hd

theorem Sys.readFillDone_mismatch (hd : s.dbn g i ≠ (s.seg e).sector) :
    s.readFillDone g e i err = s.fail .blockDbn := if_pos hd

theorem Sys.writeCacheDone_mismatch (hd : s.dbn g i ≠ s.want g e) :
    s.writeCacheDone g e i err = s.fail .blockDbn := if_pos hd

/-- `WRITECACHE` is over and the ebio is not to be queued for a metadata update. -/
theorem Sys.writeCacheDone_eq (hd : s.dbn g i = s.want g e)
    (hc : (s.st g i).has (cacheWriteInprog ||| dirty) = true)
    (hmd : ¬ (err = 0 ∧ s.st g i = dirtyInprog)) :
    s.writeCacheDone g e i err = s.postWrite g e i err := by
  simp only [writeCacheDone]
  rw [if_neg (by simp [hd, want]), if_neg (by simp [hc]), if_neg hmd]

variable (hb : BlkInv g s)
include hb

/-- A clean block whose only I/O is over becomes idle, or invalid after an
error or a `QUEUED` invalidation. -/
theorem Sys.setPostState_clean {f : State} (ho : (s.ebio e).Owns i f)
    (hf : f = valid ||| cacheReadInprog ∨ f = valid ||| cacheWriteInprog) :
    s.setPostState g i err = s.invalidate g i ∨
      (s.setPostState g i err = s.setSt g i valid ∧ s.st g i = f) := by
  have hread : postState (valid ||| cacheReadInprog) 0 = valid := by decide
  have hwrite : postState (valid ||| cacheWriteInprog) 0 = valid := by decide
  by_cases herr : err = 0
  · subst herr
    rcases hf with rfl | rfl <;> rcases (hb.owned ho).1 with hc | ⟨hc, _⟩ <;>
      simp +decide [setPostState, hc, hread, hwrite]
  · rcases hf with rfl | rfl <;> rcases (hb.owned ho).1 with hc | ⟨hc, _⟩ <;>
      simp +decide [setPostState, hc, herr]

/-- A block being dirtied is held by the cached write with exactly `DIRTY_INPROG`. -/
theorem BlkInv.dirtying (ho : (s.ebio e).Owns i dirtyInprog) :
    s.st g i = dirtyInprog := by
  rcases (hb.owned ho).1 with hc | ⟨_, hd⟩
  · exact hc
  · exact absurd hd (by decide)

theorem BlkInv.rereading {f : State} (ho : (s.ebio e).Owns i f)
    (hf : f = valid ||| diskReadInprog) : (s.st g i).has diskReadInprog = true := by
  subst hf
  rcases (hb.owned ho).1 with hc | ⟨hc, _⟩ <;> rw [hc] <;> decide

/-- `WRITECACHE` of a block that is dirty already or not to be dirtied is over. -/
theorem Sys.writeCacheDone_plain (hd : s.dbn g i = s.want g e)
    (h : (s.ebio e).Uses i ∨ (s.ebio e).Owns i (valid ||| cacheWriteInprog) ∨
      (s.ebio e).Owns i (valid ||| cacheWriteInprog ||| diskWriteInprog)) :
    s.st g i ≠ dirtyInprog ∧ s.writeCacheDone g e i err = s.postWrite g e i err := by
  have hc : (s.st g i).has (cacheWriteInprog ||| dirty) = true ∧ s.st g i ≠ dirtyInprog := by
    rcases h with hu | ho | ho
    · rw [(hb.used hu).1]
      decide
    · rcases (hb.owned ho).1 with hc | ⟨hc, _⟩ <;> rw [hc] <;> decide
    · rcases (hb.owned ho).1 with hc | ⟨hc, _⟩ <;> rw [hc] <;> decide
  exact ⟨hc.2, writeCacheDone_eq err hd hc.1 fun h => hc.2 h.2⟩

/-- Cached `WRITECACHE` of a block to be dirtied has succeeded. -/
theorem Sys.writeCacheDone_ok (hd : s.dbn g i = s.want g e)
    (hi : (s.ebio e).index = some i) (hr : (s.ebio e).role = .wr) (hst : (s.ebio e).st = .cw) :
    s.writeCacheDone g e i 0 = s.mdWrite g e := by
  have hc := hb.dirtying (e := e) (i := i) ⟨hi, by rw [hr, hst]; rfl⟩
  simp only [writeCacheDone]
  rw [if_neg (by simp [hd, want]), if_neg (by rw [hc]; decide), if_pos ⟨trivial, hc⟩]

variable (hok : EbOk (s.ebio e))
include hok

/-! ## Completion of the HDD I/O -/

/-- A dirty block is left alone; the ebio ends with its last hold. -/
theorem Sys.flagBlock_dirty (hi : (s.ebio e).index = some i) (hr : (s.ebio e).role = .dirty)
    (hst : (s.ebio e).st ≠ .done) (hlast : (s.ebio e).holdcount = 1) :
    Handled g s (s.flagBlock g e i false) e Ended := by
  have hc := (hb.used ⟨hi, hr, hst⟩).1
  simp +decide only [flagBlock, hc, updEb_ebio, Function.update_self, hlast,
    endEb_eq, updEb_updEb, if_true, if_false]
  exact .end_plain (Ebio.not_owns_dirty hr) (hok.end_ hst rfl rfl rfl (by simp) (by simp) rfl)

/-- A dirty block is left alone; the ebio keeps its other hold. -/
theorem Sys.flagBlock_dirty_shared (hi : (s.ebio e).index = some i) (hr : (s.ebio e).role = .dirty)
    (hst : (s.ebio e).st = .uc false false ∨ (s.ebio e).st = .ucLost false) :
    Handled g s (s.flagBlock g e i false) e Stage.ucClosed.Ok := by
  have hne : (s.ebio e).st ≠ .done := by rcases hst with h | h <;> simp [h]
  have hc := (hb.used ⟨hi, hr, hne⟩).1
  have hhold : (s.ebio e).holdcount = 2 := by
    rw [hok.hold hne, hr]
    rcases hst with h | h <;> simp [h, holdsExpected]
  simp +decide only [flagBlock, hc, updEb_ebio, Function.update_self, hhold, if_true,
    if_false]
  refine Handled.on_dirty hr hne ?_
  rcases hst with h | h <;>
    exact hok.go hne (by simp [h, hr, EbSt.flagDisk, Stage.Ok]) (by simp [h, EbSt.flagDisk]) rfl
      rfl hok.inval (by simp [h, EbSt.flagDisk])
      (by simp [h, hhold, hr, EbSt.flagDisk, holdsExpected]) rfl rfl

/-- A clean block that is not being written ends with its ebio. -/
theorem Sys.flagBlock_clean {f : State} (ho : (s.ebio e).Owns i f) (hst : (s.ebio e).st ≠ .done)
    (hf : f.has (dirty ||| cacheWriteInprog) = false) :
    Handled g s (s.flagBlock g e i false) e Ended := by
  have hend := hok.endio hst 0
  have hflags : (s.st g i).has dirty = false ∧ (s.st g i).has cacheWriteInprog = false := by
    have := State.held_clean f (mem_held_of_holds ho.2) hf
    rcases (hb.owned ho).1 with hc | ⟨hc, _⟩ <;> rw [hc]
    · exact this.1
    · exact this.2
  simp only [flagBlock, hflags, Bool.false_eq_true, if_false, false_or, endEb_eq]
  split
  · exact .to_invalid hb ho hend
  · next hq => exact .to_idle ho ((hb.owned ho).1.eq_of_unqueued (by simpa using hq)) hend

/-- A clean block still being written keeps that flag only. -/
theorem Sys.flagBlock_writing (hi : (s.ebio e).index = some i) (hr : (s.ebio e).role = .wr)
    (hst : (s.ebio e).st = .uc false false) :
    Handled g s (s.flagBlock g e i false) e Stage.ucClosed.Ok := by
  have ho : (s.ebio e).Owns i (valid ||| cacheWriteInprog ||| diskWriteInprog) :=
    ⟨hi, by rw [hr, hst]; rfl⟩
  have hflags : (s.st g i).has dirty = false ∧ (s.st g i).has cacheWriteInprog = true ∧
      Shows ((s.st g i).off diskWriteInprog) (valid ||| cacheWriteInprog) ∧
      ((valid ||| cacheWriteInprog).has dirty = false →
        (s.st g i).off diskWriteInprog = valid ||| cacheWriteInprog →
        s.st g i = valid ||| cacheWriteInprog ||| diskWriteInprog) := by
    rcases (hb.owned ho).1 with hc | ⟨hc, _⟩ <;> rw [hc] <;> decide
  simp only [flagBlock, hflags, Bool.false_eq_true, if_false, if_true]
  have hne : (s.ebio e).st ≠ .done := by simp [hst]
  exact Handled.hold_on hb ho ⟨hi, by simp [hst, hr, EbSt.flagDisk, holds]⟩ hflags.2.2
    (hok.go hne (by simp [hst, hr, EbSt.flagDisk, Stage.Ok]) (by simp [hst, EbSt.flagDisk]) rfl
      rfl hok.inval (by simp [hst, EbSt.flagDisk]) (by simp [hok.hold hne, hr, holdsExpected])
      rfl rfl)

theorem Sys.flagAbio_read (hat : Stage.read.Ok (s.ebio e).role (s.ebio e).st) :
    Handled g s (s.flagAbio g e true) e Ended := by
  obtain ⟨hst, hr⟩ := hat
  have hne : (s.ebio e).st ≠ .done := by simp [hst]
  by_cases hm : (s.ebio e).role = .miss
  · simp only [flagAbio, hok.index.mpr hm, endEb_eq, Bool.not_true, Bool.false_and,
      Bool.false_eq_true, not_true_eq_false, false_and, if_false]
    exact .end_plain (Ebio.not_owns_miss hm) (hok.endio hne 0)
  · obtain ⟨i, hi, hinv⟩ := hok.index_of_ne_miss hm
    simp only [flagAbio, hi, hinv, Bool.not_true, Bool.false_and, Bool.false_eq_true, if_false]
    cases hrole : (s.ebio e).role with
    | miss => exact absurd hrole hm
    | wr => exact absurd hrole hr
    | dirty =>
      exact flagBlock_dirty hb hok hi hrole hne
        (by rw [hok.hold hne, hrole, hst]; rfl)
    | hit => exact flagBlock_clean hb hok ⟨hi, by rw [hrole, hst]; rfl⟩ hne (by decide)
    | fill => exact flagBlock_clean hb hok ⟨hi, by rw [hrole, hst]; rfl⟩ hne (by decide)

/-- `eio_flag_abios` on an uncached write: the HDD half is over. If no block was
reserved and the range has not been invalidated yet, its blocks are first. -/
theorem Sys.flagAbio_write (inv : Bool)
    (hat : Stage.ucOpen.Ok (s.ebio e).role (s.ebio e).st) :
    Handled g (if (s.ebio e).role = .miss ∧ inv = false then s.invalBlock g (s.seg e).sector else s)
      (s.flagAbio g e inv) e Stage.ucClosed.Ok := by
  have hdone : ∀ r st, st = .done → Stage.ucClosed.Ok r st := by simp [Stage.Ok]
  have hne : (s.ebio e).st ≠ .done := by
    rcases hat with h | h | h <;> simp [h.1]
  by_cases hm : (s.ebio e).role = .miss
  · have hst : (s.ebio e).st = .uc true false := by
      rcases hat with h | h | h
      · exact h.1
      · simp [hm] at h
      · simp [hm] at h
    have hend := hok.endio hne 0
    simp only [flagAbio, hok.index.mpr hm, hok.missInval hst hm, Bool.and_true, endEb_eq]
    cases inv with
    | true =>
      have hh : Handled g s (s.updEb e (·.endio 0)) e _ :=
        .end_plain (Ebio.not_owns_miss hm) hend
      simpa [hm] using hh.mono hdone
    | false =>
      have heb : (s.invalBlock g (s.seg e).sector).ebio = s.ebio :=
        (invalBlockSetRange_invals g s _ _ _ _).frame.ebio
      have hh : Handled g (s.invalBlock g (s.seg e).sector)
          ((s.invalBlock g (s.seg e).sector).updEb e (·.endio 0)) e _ :=
        .end_plain (by rw [heb]; exact Ebio.not_owns_miss hm) (by rw [heb]; exact hend)
      simpa [hm] using hh.mono hdone
  · obtain ⟨i, hi, hinv⟩ := hok.index_of_ne_miss hm
    simp only [flagAbio, hi, hinv, hm, Bool.and_false, Bool.false_eq_true, false_and, if_false]
    rcases hat with ⟨hst, hr | hr | hr⟩ | ⟨hst, hr | hr⟩ | ⟨hst, hr⟩
    · exact absurd hr hm
    · exact (flagBlock_dirty hb hok hi hr hne
        (by rw [hok.hold hne, hr, hst]; rfl)).mono hdone
    · exact (flagBlock_clean hb hok (f := valid ||| diskWriteInprog)
        ⟨hi, by rw [hr, hst]; rfl⟩ hne (by decide)).mono hdone
    · exact flagBlock_dirty_shared hb hok hi hr (.inl hst)
    · exact flagBlock_writing hb hok hi hr hst
    · exact flagBlock_dirty_shared hb hok hi hr (.inr hst)

theorem Sys.readDoneAbio_spec (hat : Stage.readPlain.Ok (s.ebio e).role (s.ebio e).st) :
    Handled g s (s.readDoneAbio g e) e Ended := by
  obtain ⟨hst, hr⟩ := hat
  have hne : (s.ebio e).st ≠ .done := by simp [hst]
  have hend := hok.endio hne 0
  rcases hr with hr | hr
  · simp only [readDoneAbio, hok.index.mpr hr, endEb_eq]
    exact .end_plain (Ebio.not_owns_miss hr) hend
  · obtain ⟨i, hi, _⟩ := hok.index_of_ne_miss (by simp [hr])
    have ho : (s.ebio e).Owns i (valid ||| cacheReadInprog) := ⟨hi, by rw [hr, hst]; rfl⟩
    rcases (hb.owned ho).1 with hc | ⟨hc, _⟩
    · simp +decide only [readDoneAbio, hi, hc, endEb_eq, if_true, if_false]
      exact .to_idle ho hc hend
    · simp +decide only [readDoneAbio, hi, hc, endEb_eq, if_true]
      exact .to_invalid hb ho hend

/-! ## Read-fill -/

/-- `eio_do_readfill` up to the submission: a job is prepared for a block to fill
and for a dirty block, everything else ends. The panic is not reached. In a
cache of more than `2 ^ 32` blocks the sector of the block may be wrong. -/
theorem Sys.readfillLock_spec (hat : Stage.read.Ok (s.ebio e).role (s.ebio e).st)
    (hfull : (s.ebio e).role = .fill → g.roundSector (s.seg e).sector = (s.seg e).sector) :
    Handled g s (s.readfillLock g e) e (fun r st => Stage.fillIssue.Ok r st ∨ st = .done) ∨
      2 ^ 32 < g.size ∧ ∃ s₁, s.readfillLock g e = s₁.fail .blockDbn ∧ BlkInv g s₁ := by
  obtain ⟨hst, hr⟩ := hat
  have hne : (s.ebio e).st ≠ .done := by simp [hst]
  have hend := hok.endio hne 0
  have hdone : ∀ r st, st = .done → Stage.fillIssue.Ok r st ∨ st = .done :=
    fun _ _ h => .inr h
  by_cases hm : (s.ebio e).role = .miss
  · simp only [readfillLock, hok.index.mpr hm, endEb_eq]
    have hh : Handled g s (s.updEb e (·.endio 0)) e _ :=
      .end_plain (Ebio.not_owns_miss hm) hend
    exact .inl (hh.mono hdone)
  obtain ⟨i, hi, hinv⟩ := hok.index_of_ne_miss hm
  cases hrole : (s.ebio e).role with
  | miss => exact absurd hrole hm
  | wr => exact absurd hrole hr
  | hit =>
    have ho : (s.ebio e).Owns i (valid ||| cacheReadInprog) := ⟨hi, by rw [hrole, hst]; rfl⟩
    rcases (hb.owned ho).1 with hc | ⟨hc, _⟩
    · simp +decide only [readfillLock, hi, hc, endEb_eq, if_true, if_false]
      exact .inl ((Handled.to_idle ho hc hend).mono hdone)
    · simp +decide only [readfillLock, hi, hc, endEb_eq, if_true]
      exact .inl ((Handled.to_invalid hb ho hend).mono hdone)
  | fill =>
    have ho : (s.ebio e).Owns i (valid ||| diskReadInprog) := ⟨hi, by rw [hrole, hst]; rfl⟩
    rcases (hb.owned ho).1 with hc | ⟨hc, _⟩
    · have hh : Handled g s ((s.setSt g i (valid ||| cacheWriteInprog)).updEb e fun eb =>
          { eb with st := .fillIssue }) e fun r st => Stage.fillIssue.Ok r st ∨ st = .done := by
        refine .hold_on hb ho ⟨hi, by simp [hrole, holds]⟩ ⟨Shows.self _, fun _ _ => hc⟩ ?_
        exact hok.go hne (.inl (.inl ⟨rfl, hrole⟩)) (by simp) rfl rfl hok.inval (by simp)
          (by simp [hok.hold hne, hrole, holdsExpected]) rfl rfl
      have hdbn : (s.setSt g i (valid ||| cacheWriteInprog)).dbn g i = s.dbn g i :=
        setSt_dbn (.inr ⟨by decide, by rw [hc]; decide⟩)
      simp +decide only [readfillLock, hi, hc, updEb_dbn, updEb_seg, setSt_seg,
        hdbn, ne_eq, if_true, if_false]
      split
      · next hwrong =>
        refine .inr ⟨?_, _, rfl, hh.how.blk hb⟩
        by_contra hsize
        exact hwrong (((hb.owned ho).2 (Nat.le_of_not_lt hsize)).trans (hfull hrole))
      · exact .inl hh
    · simp +decide only [readfillLock, hi, hc, endEb_eq, if_true]
      exact .inl ((Handled.to_invalid hb ho hend).mono hdone)
  | dirty =>
    have hu : (s.ebio e).Uses i := ⟨hi, hrole, hne⟩
    simp +decide only [readfillLock, hi, (hb.used hu).1, if_true, if_false]
    exact .inl (.issued hok hrole hst rfl hok.inval (by decide) (.inl (.inr ⟨rfl, rfl⟩)))

omit hb in
theorem Sys.readfillAccept_spec (hat : Stage.fillIssue.Ok (s.ebio e).role (s.ebio e).st) :
    Handled g s (s.readfillAccept e) e Stage.filled.Ok := by
  rcases hat with ⟨hst, hr⟩ | ⟨hst, hr⟩ <;>
    exact .issued hok hr hst (by rw [hst]) hok.inval (by decide) (by simp [Stage.Ok])

theorem Sys.readfillRefuse_spec (hat : Stage.fillIssue.Ok (s.ebio e).role (s.ebio e).st) :
    Handled g s (s.readfillRefuse g e err) e Ended := by
  rcases hat with ⟨hst, hr⟩ | ⟨hst, hr⟩
  · obtain ⟨i, hi, _⟩ := hok.index_of_ne_miss (by simp [hr])
    simp only [readfillRefuse, hi, hst, if_true, endEb_eq]
    exact .to_invalid hb (f := valid ||| cacheWriteInprog) ⟨hi, by rw [hr, hst]; rfl⟩
      (hok.endio (by simp [hst]) err)
  · obtain ⟨i, hi, _⟩ := hok.index_of_ne_miss (by simp [hr])
    simp only [readfillRefuse, hi, hst, reduceCtorEq, if_false, endEb_eq]
    exact .end_plain (Ebio.not_owns_dirty hr) (hok.endio (by simp [hst]) err)

/-! ## Completion of the SSD I/O -/

theorem Sys.postRead_clean {f : State} (ho : (s.ebio e).Owns i f) (hst : (s.ebio e).st ≠ .done)
    (hf : f = valid ||| cacheReadInprog ∨ f = valid ||| cacheWriteInprog) :
    Handled g s (s.postRead g e i err) e Ended := by
  have hflags : (s.st g i).has State.invalid = false ∧
      (s.st g i).has State.diskWriteInprog = false := by
    rcases hf with rfl | rfl <;> rcases (hb.owned ho).1 with hc | ⟨hc, _⟩ <;> rw [hc] <;> decide
  simp only [postRead, hflags, Bool.false_eq_true, false_and, if_false, endEb_eq,
    updEb_setPostState, updEb_updEb]
  rcases setPostState_clean err hb ho hf with h | ⟨h, hc⟩ <;> rw [h]
  · exact .to_invalid hb ho (hok.end_ hst rfl rfl rfl id (by simp) rfl)
  · exact .to_idle ho hc (hok.end_ hst rfl rfl rfl id (by simp) rfl)

theorem Sys.postRead_dirty (hu : (s.ebio e).Uses i) :
    Handled g s (s.postRead g e i err) e Ended := by
  have hc := (hb.used hu).1
  simp +decide only [postRead, hc, if_false, endEb_eq, updEb_setPostState,
    updEb_updEb, setPostState_dirty err hc]
  exact .end_dirty hc (Ebio.not_owns_dirty hu.2.1)
    (hok.end_ hu.2.2 rfl rfl rfl id (by simp) rfl)

/-- `READCACHE` is over: the ebio ends, or goes to the HDD after an error. -/
theorem Sys.readCacheDone_spec (hi : (s.ebio e).index = some i) (hst : (s.ebio e).st = .readCache)
    (hr : (s.ebio e).role = .hit ∨ (s.ebio e).role = .dirty) (hd : s.dbn g i = s.want g e) :
    Handled g s (s.readCacheDone g e i err) e fun r st =>
      (r = .hit ∧ st = .readFail) ∨ st = .done := by
  have hne : (s.ebio e).st ≠ .done := by simp [hst]
  have hdbn : s.dbn g i = g.roundSector (s.seg e).sector := hd
  rcases hr with hr | hr
  · have ho : (s.ebio e).Owns i (valid ||| cacheReadInprog) := ⟨hi, by rw [hr, hst]; rfl⟩
    have hflags : s.st g i ≠ dirtyInprog ∧ s.st g i ≠ alreadyDirty ∧
        Shows (((s.st g i).off cacheReadInprog).on diskReadInprog) (valid ||| diskReadInprog) ∧
        ((valid ||| diskReadInprog).has dirty = false →
          ((s.st g i).off cacheReadInprog).on diskReadInprog = valid ||| diskReadInprog →
          s.st g i = valid ||| cacheReadInprog) := by
      rcases (hb.owned ho).1 with hc | ⟨hc, _⟩ <;> rw [hc] <;> decide
    simp only [readCacheDone, hdbn, ne_eq, not_true_eq_false, hflags.1, if_false,
      hflags.2.1, not_false_eq_true, and_true]
    split
    · refine Handled.hold_on hb ho ⟨hi, by simp [hr, holds]⟩ hflags.2.2 ?_
      exact hok.go hne (.inl ⟨hr, rfl⟩) (by simp) rfl rfl hok.inval (by simp)
        (by simp [hok.hold hne, hr, hst, holdsExpected]) rfl rfl
    · exact (postRead_clean err hb hok ho hne (.inl rfl)).mono fun _ _ => .inr
  · have hu : (s.ebio e).Uses i := ⟨hi, hr, hne⟩
    simp +decide only [readCacheDone, hdbn, (hb.used hu).1, if_false, and_false, ne_eq,
      not_true_eq_false]
    exact (postRead_dirty err hb hok hu).mono fun _ _ => .inr

theorem Sys.readFillDone_spec (hi : (s.ebio e).index = some i) (hst : (s.ebio e).st = .readFill)
    (hr : (s.ebio e).role = .fill) (hdbn : s.dbn g i = (s.seg e).sector) :
    Handled g s (s.readFillDone g e i err) e Ended := by
  have ho : (s.ebio e).Owns i (valid ||| cacheWriteInprog) := ⟨hi, by rw [hr, hst]; rfl⟩
  simp only [readFillDone, hdbn, ne_eq, not_true_eq_false, if_false]
  exact postRead_clean err hb hok ho (by simp [hst]) (.inr rfl)

/-- The SSD half of an uncached write of a clean block is over first. -/
theorem Sys.postWrite_first (hi : (s.ebio e).index = some i) (hr : (s.ebio e).role = .wr)
    (hst : (s.ebio e).st = .uc false false) :
    Handled g s (s.postWrite g e i err) e Stage.ucOpen.Ok := by
  have hne : (s.ebio e).st ≠ .done := by simp [hst]
  have ho : (s.ebio e).Owns i (valid ||| cacheWriteInprog ||| diskWriteInprog) :=
    ⟨hi, by rw [hr, hst]; rfl⟩
  have hpost : s.setPostState g i err = s.setSt g i (postState (s.st g i) err) ∧
      Shows (postState (s.st g i) err) (valid ||| diskWriteInprog) ∧
      ((valid ||| diskWriteInprog).has dirty = false →
        postState (s.st g i) err = valid ||| diskWriteInprog →
        s.st g i = valid ||| cacheWriteInprog ||| diskWriteInprog) := by
    rcases (hb.owned ho).1 with hc | ⟨hc, _⟩ <;> by_cases herr : err = 0 <;>
      simp +decide [setPostState, postState, hc, herr]
  have hflags : (s.st g i).has State.invalid = false ∧
      (s.st g i).has State.diskWriteInprog = true ∧ (s.st g i).has State.dirty = false := by
    rcases (hb.owned ho).1 with hc | ⟨hc, _⟩ <;> rw [hc] <;> decide
  obtain ⟨hset, hc⟩ := hpost
  simp only [postWrite, hflags, Bool.false_eq_true, if_false, if_true, updEb_setPostState,
    updEb_updEb, hset]
  exact Handled.hold_on hb ho ⟨hi, by simp [hst, hr, EbSt.flagSsd, holds]⟩ hc
    (hok.go hne (by simp [hst, hr, EbSt.flagSsd, Stage.Ok]) (by simp [hst, EbSt.flagSsd]) rfl rfl
      hok.inval (by simp [hr]) (by simp [hok.hold hne, hr, holdsExpected]) rfl rfl)

/-- The last I/O of a clean block is over: the ebio ends. -/
theorem Sys.postWrite_clean (hi : (s.ebio e).index = some i) (hr : (s.ebio e).role = .wr)
    (hst : (s.ebio e).st = .uc false true) : Handled g s (s.postWrite g e i err) e Ended := by
  have hne : (s.ebio e).st ≠ .done := by simp [hst]
  have ho : (s.ebio e).Owns i (valid ||| cacheWriteInprog) := ⟨hi, by rw [hr, hst]; rfl⟩
  have hflags : (s.st g i).has State.invalid = false ∧
      (s.st g i).has State.diskWriteInprog = false ∧ (s.st g i).has State.dirty = false ∧
      s.st g i ≠ dirtyInprog := by
    rcases (hb.owned ho).1 with hc | ⟨hc, _⟩ <;> rw [hc] <;> decide
  simp only [postWrite, hflags, Bool.false_eq_true, false_and, if_false, endEb_eq,
    updEb_setPostState, updEb_updEb]
  rcases setPostState_clean err hb ho (.inr rfl) with h | ⟨h, hc⟩ <;> rw [h]
  · exact .to_invalid hb ho (hok.end_ hne rfl rfl rfl id (by simp) rfl)
  · exact .to_idle ho hc (hok.end_ hne rfl rfl rfl id (by simp) rfl)

/-- A write that was to dirty its block fails: block and ebio go. -/
theorem Sys.postWrite_dirtying (herr : err ≠ 0) (hi : (s.ebio e).index = some i)
    (hr : (s.ebio e).role = .wr) (hst : (s.ebio e).st = .cw) :
    Handled g s (s.postWrite g e i err) e Ended := by
  have hne : (s.ebio e).st ≠ .done := by simp [hst]
  have ho : (s.ebio e).Owns i dirtyInprog := ⟨hi, by rw [hr, hst]; rfl⟩
  have hc := hb.dirtying ho
  have hhold : (s.ebio e).holdcount - 1 = 0 := by
    rw [hok.hold hne, hr, hst]; rfl
  have hset : s.setPostState g i err = s.invalidate g i := by
    simp +decide [setPostState, hc, herr]
  simp +decide only [postWrite, hc, herr, if_false, if_true, and_false, updEb_ebio,
    Function.update_self, hhold, endEb_eq, updEb_setPostState, updEb_updEb, hset]
  exact .to_invalid hb ho (hok.end_ hne rfl rfl rfl id (by simp) rfl)

/-- A write of a dirty block: the flags stay, the ebio ends with its last hold. -/
theorem Sys.postWrite_dirty (hu : (s.ebio e).Uses i) (hlast : (s.ebio e).holdcount = 1) :
    Handled g s (s.postWrite g e i err) e Ended := by
  have hc := (hb.used hu).1
  have hhold : (s.ebio e).holdcount - 1 = 0 := by omega
  simp +decide only [postWrite, hc, if_false, if_true, false_and, updEb_ebio,
    Function.update_self, hhold, endEb_eq, updEb_setPostState, updEb_updEb,
    setPostState_dirty err hc]
  exact .end_dirty hc (Ebio.not_owns_dirty hu.2.1)
    (hok.end_ hu.2.2 rfl rfl rfl id (by simp) rfl)

/-- A write of a dirty block whose HDD half is still out. -/
theorem Sys.postWrite_dirty_first (hi : (s.ebio e).index = some i) (hr : (s.ebio e).role = .dirty)
    (hst : (s.ebio e).st = .uc false false) :
    Handled g s (s.postWrite g e i err) e Stage.ucOpen.Ok := by
  have hne : (s.ebio e).st ≠ .done := by simp [hst]
  have hu : (s.ebio e).Uses i := ⟨hi, hr, hne⟩
  have hc := (hb.used hu).1
  have hhold : (s.ebio e).holdcount - 1 = 1 := by
    rw [hok.hold hne, hr, hst]; rfl
  simp +decide only [postWrite, hc, if_false, if_true, false_and, updEb_ebio,
    Function.update_self, hhold, endEb_eq, updEb_setPostState, updEb_updEb,
    setPostState_dirty err hc]
  refine Handled.plain_dirty hc (Ebio.not_owns_dirty hr) (Ebio.not_owns_dirty hr)
    (fun j hu' => ⟨hu'.1, hr, hne⟩) ?_
  exact hok.go hne (by simp [hst, hr, EbSt.flagSsd, Stage.Ok]) (by simp [hst, EbSt.flagSsd]) rfl
    rfl hok.inval (by simp [hr]) (by rw [hr, hst]; exact hhold) rfl rfl

/-- `WRITECACHE` of an uncached write is over before the HDD write. -/
theorem Sys.writeCacheDone_open (hd : s.dbn g i = s.want g e) (hi : (s.ebio e).index = some i)
    (hr : (s.ebio e).role = .dirty ∨ (s.ebio e).role = .wr)
    (hst : (s.ebio e).st = .uc false false) :
    s.st g i ≠ dirtyInprog ∧ Handled g s (s.writeCacheDone g e i err) e Stage.ucOpen.Ok := by
  rcases hr with hr | hr
  · obtain ⟨hc, heq⟩ := writeCacheDone_plain err hb hd (.inl ⟨hi, hr, by simp [hst]⟩)
    exact ⟨hc, heq ▸ postWrite_dirty_first err hb hok hi hr hst⟩
  · obtain ⟨hc, heq⟩ :=
      writeCacheDone_plain err hb hd (.inr (.inr ⟨hi, by rw [hr, hst]; rfl⟩))
    exact ⟨hc, heq ▸ postWrite_first err hb hok hi hr hst⟩

/-- `WRITECACHE` of a dirty block is over after the other I/Os: the ebio ends. -/
theorem Sys.writeCacheDone_dirty (hd : s.dbn g i = s.want g e) (hu : (s.ebio e).Uses i)
    (hlast : (s.ebio e).holdcount = 1) :
    s.st g i ≠ dirtyInprog ∧ Handled g s (s.writeCacheDone g e i err) e Ended := by
  obtain ⟨hc, heq⟩ := writeCacheDone_plain err hb hd (.inl hu)
  exact ⟨hc, heq ▸ postWrite_dirty err hb hok hu hlast⟩

/-- `WRITECACHE` of an uncached write is over after the HDD write: the ebio ends. -/
theorem Sys.writeCacheDone_closed (hd : s.dbn g i = s.want g e) (hi : (s.ebio e).index = some i)
    (hr : (s.ebio e).role = .dirty ∨ (s.ebio e).role = .wr) (hst : (s.ebio e).st = .uc false true) :
    s.st g i ≠ dirtyInprog ∧ Handled g s (s.writeCacheDone g e i err) e Ended := by
  have hne : (s.ebio e).st ≠ .done := by simp [hst]
  rcases hr with hr | hr
  · exact writeCacheDone_dirty err hb hok hd ⟨hi, hr, hne⟩ (by rw [hok.hold hne, hr, hst]; rfl)
  · obtain ⟨hc, heq⟩ :=
      writeCacheDone_plain err hb hd (.inr (.inl ⟨hi, by rw [hr, hst]; rfl⟩))
    exact ⟨hc, heq ▸ postWrite_clean err hb hok hi hr hst⟩

/-- Cached `WRITECACHE` of a block to be dirtied has failed: the ebio ends. -/
theorem Sys.writeCacheDone_failed (herr : err ≠ 0) (hd : s.dbn g i = s.want g e)
    (hi : (s.ebio e).index = some i) (hr : (s.ebio e).role = .wr) (hst : (s.ebio e).st = .cw) :
    Handled g s (s.writeCacheDone g e i err) e Ended := by
  have hc := hb.dirtying (e := e) (i := i) ⟨hi, by rw [hr, hst]; rfl⟩
  rw [writeCacheDone_eq err hd (by rw [hc]; decide) (fun h => herr h.1)]
  exact postWrite_dirtying err hb hok herr hi hr hst

/-! ## Reading again from the HDD -/

theorem Sys.rereadAccept_spec (hi : (s.ebio e).index = some i) (hr : (s.ebio e).role = .hit)
    (hst : (s.ebio e).st = .readFail) :
    Handled g s (s.rereadAccept g e i) e fun r st => r = .hit ∧ st = .reread := by
  have ho : (s.ebio e).Owns i (valid ||| diskReadInprog) := ⟨hi, by rw [hr, hst]; rfl⟩
  simp only [rereadAccept, hb.rereading ho rfl, not_true_eq_false, if_false]
  exact .issued hok hr hst rfl hok.inval (by decide) ⟨rfl, rfl⟩

theorem Sys.rereadEnd_spec (hi : (s.ebio e).index = some i) (hr : (s.ebio e).role = .hit)
    (hst : (s.ebio e).st = .readFail ∨ (s.ebio e).st = .reread) :
    Handled g s (s.rereadEnd g e i err) e Ended := by
  have hne : (s.ebio e).st ≠ .done := by rcases hst with h | h <;> simp [h]
  have ho : (s.ebio e).Owns i (valid ||| diskReadInprog) :=
    ⟨hi, by rw [hr]; rcases hst with h | h <;> rw [h] <;> rfl⟩
  rw [rereadEnd, endEb_eq]
  exact .to_invalid hb ho (hok.endio hne err)

end
end EnhanceIO
