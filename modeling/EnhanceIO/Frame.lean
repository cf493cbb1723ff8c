import EnhanceIO.Step

/-!
# What the primitive updates leave alone

The flags, the sector and the segment seen through each update of the state.
The plain fields are covered by the projections generated with the updates.
-/

namespace EnhanceIO.Sys

variable {g : Geom} {s : Sys} {i j b : Nat} {e : EbId} {c : State} {d : Nat}

section
variable {fb : Bio → Bio} {fe : Ebio → Ebio}

@[simp] theorem updBio_st : (s.updBio b fb).st g j = s.st g j := rfl
@[simp] theorem updEb_st : (s.updEb e fe).st g j = s.st g j := rfl
@[simp] theorem updEb_dbn : (s.updEb e fe).dbn g j = s.dbn g j := rfl
@[simp] theorem updEb_seg {e'} : (s.updEb e fe).seg e' = s.seg e' := rfl

end

/-! Updates of an ebio are moved outwards, and two of them are merged. -/

section
variable {fe fe' : Ebio → Ebio}

@[simp] theorem updEb_updEb :
    (s.updEb e fe).updEb e fe' = s.updEb e fun eb => fe' (fe eb) := by
  simp [updEb]

@[simp] theorem updEb_setSt : (s.updEb e fe).setSt g i c = (s.setSt g i c).updEb e fe := rfl

@[simp] theorem updEb_invalidate :
    (s.updEb e fe).invalidate g i = (s.invalidate g i).updEb e fe := rfl

theorem updBio_updBio {fb fb' : Bio → Bio} :
    (s.updBio b fb).updBio b fb' = s.updBio b fun bc => fb' (fb bc) := by
  simp [updBio]

theorem updEb_updBio {fb : Bio → Bio} :
    (s.updEb e fe).updBio b fb = (s.updBio b fb).updEb e fe := rfl

@[simp] theorem endEb_eq {err : Int} : s.endEb e err = s.updEb e (·.endio err) := rfl

end

@[simp] theorem setSt_seg : (s.setSt g i c).seg e = s.seg e := rfl

@[simp] theorem setSt_st : (s.setSt g i c).st g j = if j = i then c else s.st g j :=
  Meta.stateGet_stateSet

@[simp] theorem setDbn_st : (s.setDbn g i d).st g j = s.st g j := Meta.stateGet_dbnSet

@[simp] theorem invalidate_st :
    (s.invalidate g i).st g j = if j = i then State.invalid else s.st g j :=
  Meta.stateGet_stateSet

theorem setSt_dbn (h : j ≠ i ∨ (c ≠ State.invalid ∧ s.st g i ≠ State.invalid)) :
    (s.setSt g i c).dbn g j = s.dbn g j :=
  Meta.dbnGet_stateSet h

theorem invalidate_dbn (h : j ≠ i) : (s.invalidate g i).dbn g j = s.dbn g j :=
  Meta.dbnGet_stateSet (.inl h)

end EnhanceIO.Sys
