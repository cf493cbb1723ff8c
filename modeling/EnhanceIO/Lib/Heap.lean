import Mathlib.Logic.Function.Basic

/-!
# Allocated memory

Objects of a type at addresses. An allocation takes an address that was never used;
`free` takes a pointer that may be null.
-/

/-- Memory with objects of type `α`. -/
structure Heap (α : Type*) where
  obj : Nat → Option α
  /-- no address from here on has been used -/
  next : Nat

namespace Heap

variable {α : Type*} (m : Heap α)

/-- Memory after the allocation of an object, which is at the address `m.next`. -/
def alloc (a : α) : Heap α := ⟨Function.update m.obj m.next (some a), m.next + 1⟩

/-- Memory after the release of what the pointer points to. -/
def free : Option Nat → Heap α
  | none => m
  | some p => ⟨Function.update m.obj p none, m.next⟩

/-- Memory after a write to an object. -/
def write (p : Nat) (a : α) : Heap α := ⟨Function.update m.obj p (some a), m.next⟩

theorem obj_alloc {p : Nat} (a : α) (h : p ≠ m.next) : (m.alloc a).obj p = m.obj p :=
  Function.update_of_ne h _ _

@[simp] theorem next_free (q : Option Nat) : (m.free q).next = m.next := by
  cases q <;> rfl

theorem obj_free {p : Nat} {q : Option Nat} (h : q ≠ some p) : (m.free q).obj p = m.obj p := by
  cases q with
  | none => rfl
  | some q => exact Function.update_of_ne (fun hp => h (congrArg some hp.symm)) _ _

end Heap
