import Mathlib.Logic.Basic

/-!
# Runs of a labelled transition function

A system is a partial function `step : σ → α → Option σ`: the label says what
happens, `none` that it cannot happen now. `Reach` are the states of the runs
from `init` all of whose steps satisfy `P`; `P` may look at the state the step
starts from as well as at its label.
-/

namespace Run

variable {σ α : Type*} {step : σ → α → Option σ} {P Q : σ → α → Prop} {init s t : σ}

/-- The states reached from `init` by steps that satisfy `P`. -/
inductive Reach (step : σ → α → Option σ) (P : σ → α → Prop) (init : σ) : σ → Prop
  | init : Reach step P init init
  | step {s t : σ} (a : α) : Reach step P init s → P s a → step s a = some t →
      Reach step P init t

/-- A property that holds at the start and survives every admissible step holds
in every state reached. -/
theorem Reach.invariant {Inv : σ → Prop} (h0 : Inv init)
    (hstep : ∀ {s t : σ} {a : α}, Inv s → P s a → step s a = some t → Inv t)
    (h : Reach step P init s) : Inv s := by
  induction h with
  | init => exact h0
  | step a _ hp hs ih => exact hstep ih hp hs

/-- The same, when the step may also use a property already known. -/
theorem Reach.invariant_with {Known Inv : σ → Prop}
    (hk : ∀ {s : σ}, Reach step P init s → Known s) (h0 : Inv init)
    (hstep : ∀ {s t : σ} {a : α}, Known s → Known t → Inv s → P s a → step s a = some t → Inv t)
    (h : Reach step P init s) : Inv s := by
  induction h with
  | init => exact h0
  | step a hr hp hs ih => exact hstep (hk hr) (hk (hr.step a hp hs)) ih hp hs

theorem Reach.trans (h : Reach step P init s) (h' : Reach step P s t) :
    Reach step P init t := by
  induction h' with
  | init => exact h
  | step a _ hp hs ih => exact .step a ih hp hs

/-! ## Concrete runs -/

/-- Perform a list of labels, each under the condition `ok`. -/
def exec (step : σ → α → Option σ) (ok : σ → α → Bool) : σ → List α → Option σ
  | s, [] => some s
  | s, a :: as => if ok s a then (step s a).bind fun s' => exec step ok s' as else none

theorem Reach.of_exec {ok : σ → α → Bool} (hok : ∀ s a, ok s a = true → P s a) :
    ∀ {as : List α} {s t : σ}, Reach step P init s → exec step ok s as = some t →
      Reach step P init t := by
  intro as
  induction as with
  | nil =>
    intro s t h he
    obtain rfl : s = t := by simpa [exec] using he
    exact h
  | cons a as ih =>
    intro s t h he
    simp only [exec] at he
    split at he
    · next hp =>
      obtain ⟨s', hs', hrest⟩ := Option.bind_eq_some_iff.mp he
      exact ih (h.step a (hok _ _ hp) hs') hrest
    · simp at he

/-- A run that can be performed under the condition reaches a state, of which what
can be computed can be said. -/
theorem Reach.of_run (ok : σ → α → Bool) (hok : ∀ s a, ok s a = true → P s a) (as : List α)
    {R : σ → Prop} [DecidablePred R]
    (h : (exec step ok init as).any (fun s => decide (R s)) = true) :
    ∃ s, Reach step P init s ∧ R s := by
  obtain ⟨s, hs, hr⟩ := (Option.any_eq_true _ _).mp h
  exact ⟨s, .of_exec hok .init hs, of_decide_eq_true hr⟩

/-- A run whose steps all lower `left` is no longer than `left`. -/
theorem exec_left {ok : σ → α → Bool} (left : σ → Nat)
    (hleft : ∀ s a t, ok s a = true → step s a = some t → left t < left s) :
    ∀ {as : List α} {s t : σ}, exec step ok s as = some t → as.length + left t ≤ left s := by
  intro as
  induction as with
  | nil =>
    intro s t he
    obtain rfl : s = t := by simpa [exec] using he
    simp
  | cons a as ih =>
    intro s t he
    simp only [exec] at he
    split at he
    · next hp =>
      obtain ⟨s', hs', hrest⟩ := Option.bind_eq_some_iff.mp he
      have hlt := hleft s a s' hp hs'
      have hle := ih hrest
      rw [List.length_cons]
      omega
    · simp at he

theorem exec_append {ok : σ → α → Bool} (as bs : List α) (s : σ) :
    exec step ok s (as ++ bs) = (exec step ok s as).bind fun t => exec step ok t bs := by
  induction as generalizing s with
  | nil => rfl
  | cons a as ih =>
    simp only [List.cons_append, exec]
    split
    · cases step s a with
      | none => rfl
      | some s' => exact ih s'
    · rfl

/-- A state that is reached is reached by performing some list of labels. -/
theorem Reach.exists_exec {ok : σ → α → Bool} (hok : ∀ s a, P s a → ok s a = true)
    (h : Reach step P init s) : ∃ as, exec step ok init as = some s := by
  induction h with
  | init => exact ⟨[], rfl⟩
  | @step s t a _ hp hs ih =>
    obtain ⟨as, has⟩ := ih
    refine ⟨as ++ [a], ?_⟩
    rw [exec_append, has]
    simp [exec, hok s a hp, hs]

/-- If the steps of interest lower `left` and the others do not raise it, a run takes only
so many of them. The last step of a run may lead to a state from which there is none. -/
theorem exec_countP_le {ok : σ → α → Bool} {I : σ → Prop} (left : σ → Nat) (own : α → Bool)
    (hstep : ∀ s a t, I s → ok s a = true → step s a = some t →
      I t ∧ left t + (own a).toNat ≤ left s ∨ ∀ a, step t a = none) :
    ∀ {as : List α} {s t : σ}, I s → exec step ok s as = some t → as.countP own ≤ left s + 1 := by
  intro as
  induction as with
  | nil => simp
  | cons a as ih =>
    intro s t hi he
    simp only [exec] at he
    split at he
    · next hp =>
      obtain ⟨s', hs', hrest⟩ := Option.bind_eq_some_iff.mp he
      rw [List.countP_cons]
      rcases hstep s a s' hi hp hs' with ⟨hi', hle⟩ | hend
      · have := ih hi' hrest
        cases hown : own a <;> simp [hown] at hle ⊢ <;> omega
      · cases as with
        | nil =>
          cases own a <;> simp
        | cons a' as =>
          simp only [exec, hend, Option.bind_none, ite_self] at hrest
          cases hrest
    · cases he

/-- The invariant rule of a loop over a list, which may speak about the elements
still to come. -/
theorem foldl_rest {β γ : Type*} {f : β → γ → β} (I : List γ → β → Prop)
    (hstep : ∀ a l b, I (a :: l) b → I l (f b a)) {l : List γ} {b : β} (h : I l b) :
    I [] (l.foldl f b) := by
  induction l generalizing b with
  | nil => exact h
  | cons a l ih => exact ih (hstep a l b h)

end Run
