import Mathlib.Data.List.Infix

/-!
# C strings

The bytes of a string before its terminator. A read at the end gives the terminator, so
`strncmp` is the loop of the C library on what is left of the two strings.
-/

/-- A string without its terminator. -/
structure CStr where
  bytes : List UInt8
  no_nul : 0 ∉ bytes
  deriving DecidableEq

namespace CStr

@[ext] theorem ext_bytes {s t : CStr} (h : s.bytes = t.bytes) : s = t := by
  cases s
  cases t
  subst h
  rfl

/-- The empty string. -/
def nil : CStr := ⟨[], List.not_mem_nil⟩

/-- The byte a pointer to the rest of a string points to. -/
def get (s : List UInt8) : UInt8 := s.headD 0

/-- What `strncpy` of at most `count` bytes leaves in a longer, zeroed array. -/
def strncpy (s : CStr) (count : Nat) : CStr :=
  ⟨s.bytes.take count, fun h => s.no_nul (List.mem_of_mem_take h)⟩

def strlen (s : CStr) : Nat := s.bytes.length

/-- The loop of `strncmp`. -/
def strncmpLoop : List UInt8 → List UInt8 → Nat → Int
  | _, _, 0 => 0
  | s, t, count + 1 =>
    if get s ≠ get t then if get s < get t then -1 else 1
    else if get s = 0 then 0
    else strncmpLoop s.tail t.tail count

def strncmp (s t : CStr) (count : Nat) : Int := strncmpLoop s.bytes t.bytes count

theorem strncmpLoop_length_eq_zero {s t : List UInt8} (hs : 0 ∉ s) (ht : 0 ∉ t) :
    strncmpLoop s t s.length = 0 ↔ s <+: t := by
  induction s generalizing t with
  | nil => simp [strncmpLoop]
  | cons b s ih =>
    have hb : b ≠ 0 := fun hb => hs (hb ▸ List.mem_cons_self)
    cases t with
    | nil =>
      -- the terminator of the second string is the first difference
      have hdiff : get (b :: s) ≠ get [] := hb
      simp only [List.length_cons, strncmpLoop, hdiff, ne_eq, not_false_eq_true, if_true,
        List.prefix_nil, reduceCtorEq, iff_false]
      split <;> decide
    | cons c t =>
      rw [List.cons_prefix_cons]
      by_cases hbc : b = c
      · subst hbc
        have hrest := ih (fun h => hs (List.mem_cons_of_mem _ h))
          (fun h => ht (List.mem_cons_of_mem _ h))
        simpa [strncmpLoop, get, hb] using hrest
      · have hdiff : get (b :: s) ≠ get (c :: t) := hbc
        simp only [List.length_cons, strncmpLoop, hdiff, ne_eq, not_false_eq_true, if_true, hbc,
          false_and, iff_false]
        split <;> decide

/-- A comparison limited by the length of the first string finds out whether it is a prefix. -/
theorem strncmp_strlen_eq_zero (s t : CStr) : strncmp s t s.strlen = 0 ↔ s.bytes <+: t.bytes :=
  strncmpLoop_length_eq_zero s.no_nul t.no_nul

theorem get_ne_zero (s : CStr) : get s.bytes ≠ 0 ↔ s.bytes ≠ [] := by
  obtain ⟨bytes, hno⟩ := s
  cases bytes with
  | nil => simp [get]
  | cons b bytes =>
    have hb : b ≠ 0 := fun hb => hno (hb ▸ List.mem_cons_self)
    simp [get, hb]

/-- `t` is longer than `s` and begins with it. -/
def Extends (t s : CStr) : Prop := s.bytes <+: t.bytes ∧ t ≠ s

instance (t s : CStr) : Decidable (t.Extends s) := inferInstanceAs (Decidable (_ ∧ _))

theorem isPrefix_iff (s t : CStr) : s.bytes <+: t.bytes ↔ t = s ∨ t.Extends s := by
  constructor
  · intro h
    by_cases heq : t = s
    · exact .inl heq
    · exact .inr ⟨h, heq⟩
  · rintro (rfl | h)
    · exact List.prefix_rfl
    · exact h.1

end CStr
