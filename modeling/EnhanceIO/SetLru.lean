import EnhanceIO.Lib.Linked
import Mathlib.Data.List.Induction

/-!
# The list of dirty sets (`eio_setlru.c`)

`dirty_set_lru` is a doubly linked list threaded through one array element per
set. `DirtySetLru` is such a list together with the sequence of sets it spells,
head first; its operations are the ones of the source, and the sequence says
what they do.
-/

namespace EnhanceIO

/-- `struct lru_ls`. An index is below `ll_max`, so the range checks of the
source never fire; `LRU_NULL` is `none`. -/
structure LruLs (max : Nat) where
  links : Linked (Fin max)
  key : Fin max → Nat
  size : Nat

namespace LruLs

variable {max : Nat} {l : LruLs max} {xs : List (Fin max)} {x : Fin max} {key : Nat}

/-- `lru_init`. -/
def init (max : Nat) : LruLs max where
  links := Linked.empty
  key _ := 0
  size := 0

/-- `lru_add`. -/
def add (l : LruLs max) (index : Fin max) (key : Nat) : LruLs max where
  links := l.links.pushBack index
  key := fun i => if i = index then key else l.key i
  size := l.size + 1

/-- `lru_rem`. -/
def rem (l : LruLs max) (index : Fin max) : LruLs max :=
  if l.links.head = none ∧ l.links.tail = none then l
  else if l.links.prev index = none ∧ l.links.next index = none ∧
      l.links.head ≠ some index ∧ l.links.tail ≠ some index then l
  else { l with links := l.links.unlink index, size := l.size - 1 }

/-- `lru_touch`. -/
def touch (l : LruLs max) (index : Fin max) (key : Nat) : LruLs max :=
  if l.links.tail = some index then
    { l with key := fun i => if i = index then key else l.key i }
  else (l.rem index).add index key

/-- `lru_read_head`. -/
def readHead (l : LruLs max) : Option (Fin max × Nat) :=
  l.links.head.map fun index => (index, l.key index)

/-- `lru_rem_head`. -/
def remHead (l : LruLs max) : Option (Fin max × Nat) × LruLs max :=
  match l.links.head with
  | none => (none, l)
  | some index => (some (index, l.key index), l.rem index)

/-- The pointers spell `xs`, and `ll_size` is its length. -/
structure Spells (l : LruLs max) (xs : List (Fin max)) : Prop where
  links : l.links.Is xs
  size : l.size = xs.length

theorem init_spells : (init max).Spells [] := ⟨Linked.empty_is, rfl⟩

theorem Spells.add (h : l.Spells xs) (hx : x ∉ xs) : (l.add x key).Spells (xs ++ [x]) :=
  ⟨h.links.pushBack hx, by simp [LruLs.add, h.size]⟩

theorem Spells.rem (h : l.Spells xs) : (l.rem x).Spells (xs.erase x) := by
  by_cases hx : x ∈ xs
  · have hne : ¬ (l.links.head = none ∧ l.links.tail = none) := fun hnone =>
      List.ne_nil_of_mem hx (h.links.head_eq_none.mp hnone.1)
    rw [LruLs.rem, if_neg hne, if_neg (h.links.mem_iff.mp hx)]
    exact ⟨h.links.unlink_erase hx, by simp [List.length_erase_of_mem hx, h.size]⟩
  · have hout := not_not.mp (fun hn => hx (h.links.mem_iff.mpr hn))
    rw [LruLs.rem, if_pos hout, ite_self, List.erase_of_not_mem hx]
    exact h

theorem Spells.touch (h : l.Spells xs) : (l.touch x key).Spells (xs.erase x ++ [x]) := by
  rw [LruLs.touch]
  split
  · next htail =>
    -- the set is the last one already
    obtain ⟨ys, rfl⟩ : ∃ ys, xs = ys ++ [x] :=
      List.getLast?_eq_some_iff.mp (h.links.tail.symm.trans htail)
    rw [List.erase_append_right _ h.links.not_mem_before, List.erase_cons_head, List.append_nil]
    exact ⟨h.links, h.size⟩
  · exact h.rem.add fun hm => (List.Nodup.mem_erase_iff h.links.nodup).mp hm |>.1 rfl

theorem Spells.remHead (h : l.Spells xs) : l.remHead.2.Spells xs.tail := by
  cases xs with
  | nil =>
    have hd : l.links.head = none := h.links.head
    simpa only [LruLs.remHead, hd, List.tail_nil] using h
  | cons x xs =>
    have hd : l.links.head = some x := h.links.head
    simpa only [LruLs.remHead, hd, List.erase_cons_head, List.tail_cons] using h.rem (x := x)

theorem Spells.remHead_fst (h : l.Spells xs) : l.remHead.1.map Prod.fst = xs.head? := by
  rw [← h.links.head]
  simp only [LruLs.remHead]
  cases l.links.head <;> rfl

end LruLs

/-! ## Runs

Every sequence of calls, with the assertions of the source: `lru_add` asserts that a list
without a tail has no head, `lru_rem` that a list it removes from is not empty. -/

/-- The calls on the list. -/
inductive LruOp (max : Nat) where
  | touch (index : Fin max) (key : Nat)
  | rem (index : Fin max)
  | remHead
  | readHead
  deriving DecidableEq, Repr

namespace LruLs

variable {max : Nat} {l : LruLs max} {xs : List (Fin max)} {x : Fin max} {key : Nat}

/-- The assertion of `lru_init`. -/
def create (max : Nat) : Option (LruLs max) := if 0 < max then some (init max) else none

/-- The assertion of `lru_add`. -/
def addAsserts (l : LruLs max) : Prop := l.links.tail = none → l.links.head = none

/-- The assertion of `lru_rem`, reached when neither test has sent it home. -/
def remAsserts (l : LruLs max) (index : Fin max) : Prop :=
  ¬ (l.links.head = none ∧ l.links.tail = none) →
    ¬ (l.links.prev index = none ∧ l.links.next index = none ∧
      l.links.head ≠ some index ∧ l.links.tail ≠ some index) → l.size ≠ 0

instance (l : LruLs max) : Decidable l.addAsserts := inferInstanceAs (Decidable (_ → _))

instance (l : LruLs max) (index : Fin max) : Decidable (l.remAsserts index) :=
  inferInstanceAs (Decidable (_ → _))

/-- The assertions on the way of a call. -/
def asserts (l : LruLs max) : LruOp max → Prop
  | .touch index _ =>
    l.links.tail ≠ some index → l.remAsserts index ∧ (l.rem index).addAsserts
  | .rem index => l.remAsserts index
  | .remHead => ∀ index, l.links.head = some index → l.remAsserts index
  | .readHead => True

instance (l : LruLs max) : (op : LruOp max) → Decidable (l.asserts op)
  | .touch _ _ => inferInstanceAs (Decidable (_ → _))
  | .rem index => inferInstanceAs (Decidable (l.remAsserts index))
  | .remHead =>
    inferInstanceAs (Decidable (∀ index, l.links.head = some index → l.remAsserts index))
  | .readHead => inferInstanceAs (Decidable True)

/-- The list after a call. -/
def call (l : LruLs max) : LruOp max → LruLs max
  | .touch index key => l.touch index key
  | .rem index => l.rem index
  | .remHead => l.remHead.2
  | .readHead => l

/-- A sequence of calls; `none` when an assertion fails. -/
def run : LruLs max → List (LruOp max) → Option (LruLs max)
  | l, [] => some l
  | l, op :: ops => if l.asserts op then (l.call op).run ops else none

end LruLs

/-- A set on the list: its last touch, with the key given and the time, which is the
number of calls before. -/
structure Touched (max : Nat) where
  index : Fin max
  key : Nat
  time : Nat
  deriving DecidableEq, Repr

namespace Touched

variable {max : Nat}

/-- What call number `time` does to the sets present. -/
def call (time : Nat) (xs : List (Touched max)) : LruOp max → List (Touched max)
  | .touch index key => xs.filter (·.index ≠ index) ++ [⟨index, key, time⟩]
  | .rem index => xs.filter (·.index ≠ index)
  | .remHead => xs.tail
  | .readHead => xs

/-- The sets present after a sequence of calls, `time` calls into the run. -/
def runFrom (time : Nat) (xs : List (Touched max)) : List (LruOp max) → List (Touched max)
  | [] => xs
  | op :: ops => runFrom (time + 1) (call time xs op) ops

/-- The sets present after a sequence of calls. -/
def run (ops : List (LruOp max)) : List (Touched max) := runFrom 0 [] ops

theorem runFrom_concat (ops : List (LruOp max)) (op : LruOp max) :
    ∀ (time : Nat) (xs : List (Touched max)), runFrom time xs (ops ++ [op]) =
      call (time + ops.length) (runFrom time xs ops) op := by
  induction ops with
  | nil =>
    intro time xs
    rfl
  | cons first ops ih =>
    intro time xs
    show runFrom (time + 1) (call time xs first) (ops ++ [op]) = _
    rw [ih, List.length_cons, Nat.add_assoc, Nat.add_comm 1]
    rfl

theorem run_concat (ops : List (LruOp max)) (op : LruOp max) :
    run (ops ++ [op]) = call ops.length (run ops) op := by
  rw [run, runFrom_concat, Nat.zero_add, run]

/-- The sets present stand in the order of their last touch. -/
structure InOrder (ops : List (LruOp max)) (xs : List (Touched max)) : Prop where
  sorted : xs.Pairwise fun x y => x.time < y.time
  touched : ∀ x ∈ xs, ops[x.time]? = some (.touch x.index x.key)
  last : ∀ x ∈ xs, ∀ time key, x.time < time → ops[time]? ≠ some (.touch x.index key)

/-- Some of the sets remain, and the call touches none of them. -/
theorem InOrder.sublist {ops : List (LruOp max)} {op : LruOp max} {xs ys : List (Touched max)}
    (h : InOrder ops xs) (hsub : ys.Sublist xs)
    (hop : ∀ y ∈ ys, ∀ key, op ≠ .touch y.index key) : InOrder (ops ++ [op]) ys where
  sorted := h.sorted.sublist hsub
  touched y hy := by
    have hold := h.touched y (hsub.subset hy)
    rw [List.getElem?_append_left (List.getElem?_eq_some_iff.mp hold).1]
    exact hold
  last y hy time key hlt hnew := by
    by_cases hold : time < ops.length
    · rw [List.getElem?_append_left hold] at hnew
      exact h.last y (hsub.subset hy) time key hlt hnew
    · rw [List.getElem?_append_right (Nat.le_of_not_lt hold)] at hnew
      have hmem := List.mem_of_getElem? hnew
      exact hop y hy key (List.mem_singleton.mp hmem).symm

theorem InOrder.call {ops : List (LruOp max)} {xs : List (Touched max)} (h : InOrder ops xs)
    (op : LruOp max) : InOrder (ops ++ [op]) (call ops.length xs op) := by
  cases op with
  | rem index => exact h.sublist List.filter_sublist fun _ _ _ => by simp
  | remHead => exact h.sublist (List.tail_sublist xs) fun _ _ _ => by simp
  | readHead => exact h.sublist (List.Sublist.refl xs) fun _ _ _ => by simp
  | touch index key =>
    have hrest : InOrder (ops ++ [.touch index key]) (xs.filter (·.index ≠ index)) := by
      refine h.sublist List.filter_sublist fun y hy key' heq => ?_
      have hne : y.index ≠ index := by simpa using (List.mem_filter.mp hy).2
      cases heq
      exact hne rfl
    -- the touched set comes last: all others were touched earlier in the run
    have hearlier : ∀ y ∈ xs.filter (·.index ≠ index), y.time < ops.length := by
      intro y hy
      have htouched := h.touched y (List.mem_filter.mp hy).1
      exact (List.getElem?_eq_some_iff.mp htouched).1
    refine ⟨?_, ?_, ?_⟩
    · refine List.pairwise_append.mpr ⟨hrest.sorted, List.pairwise_singleton _ _, ?_⟩
      intro y hy z hz
      rw [List.mem_singleton.mp hz]
      exact hearlier y hy
    · intro x hx
      rcases List.mem_append.mp hx with hx | hx
      · exact hrest.touched x hx
      · rw [List.mem_singleton.mp hx]
        simp
    · intro x hx
      rcases List.mem_append.mp hx with hx | hx
      · exact hrest.last x hx
      · rw [List.mem_singleton.mp hx]
        intro time key' hlt
        have hover : (ops ++ [LruOp.touch index key]).length ≤ time := by
          rw [List.length_append]
          exact hlt
        rw [List.getElem?_eq_none hover]
        simp

end Touched

namespace LruLs

variable {max : Nat} {l : LruLs max} {xs : List (Touched max)}

/-- The list is the one of the sets present, each with the key of its last touch. -/
structure Represents (l : LruLs max) (xs : List (Touched max)) : Prop where
  spells : l.Spells (xs.map (·.index))
  key : ∀ x ∈ xs, l.key x.index = x.key

theorem Represents.erase_index (h : l.Represents xs) (index : Fin max) :
    (xs.map (·.index)).erase index = (xs.filter (·.index ≠ index)).map (·.index) := by
  rw [h.spells.links.nodup.erase_eq_filter, List.filter_map]
  congr 1
  apply List.filter_congr
  intro x _
  by_cases hx : x.index = index <;> simp [hx]

theorem Represents.rem (h : l.Represents xs) (index : Fin max) :
    (l.rem index).Represents (xs.filter (·.index ≠ index)) := by
  refine ⟨h.erase_index index ▸ h.spells.rem, fun x hx => ?_⟩
  have hkey : (l.rem index).key = l.key := by
    simp only [LruLs.rem]
    split
    · rfl
    split <;> rfl
  rw [hkey]
  exact h.key x (List.mem_filter.mp hx).1

theorem Represents.touch (h : l.Represents xs) (index : Fin max) (key time : Nat) :
    (l.touch index key).Represents (xs.filter (·.index ≠ index) ++ [⟨index, key, time⟩]) := by
  have hkey : (l.touch index key).key = fun i => if i = index then key else l.key i := by
    simp only [LruLs.touch, LruLs.add, LruLs.rem]
    split
    · rfl
    · split
      · rfl
      split <;> rfl
  refine ⟨?_, fun x hx => ?_⟩
  · rw [List.map_append, ← h.erase_index index]
    exact h.spells.touch
  · rw [hkey]
    rcases List.mem_append.mp hx with hx | hx
    · have hne : x.index ≠ index := by simpa using (List.mem_filter.mp hx).2
      simp only [hne, if_false]
      exact h.key x (List.mem_filter.mp hx).1
    · rw [List.mem_singleton.mp hx]
      simp

theorem Represents.remHead (h : l.Represents xs) : l.remHead.2.Represents xs.tail := by
  refine ⟨?_, fun x hx => ?_⟩
  · rw [List.map_tail]
    exact h.spells.remHead
  · have hkey : l.remHead.2.key = l.key := by
      simp only [LruLs.remHead, LruLs.rem]
      split
      · rfl
      · split
        · rfl
        split <;> rfl
    rw [hkey]
    exact h.key x (List.mem_of_mem_tail hx)

/-- The head, with the key of its last touch. -/
theorem Represents.readHead (h : l.Represents xs) :
    l.readHead = xs.head?.map fun x => (x.index, x.key) := by
  rw [LruLs.readHead, h.spells.links.head, List.head?_map]
  cases xs with
  | nil => rfl
  | cons x xs => simp [h.key x List.mem_cons_self]

theorem remHead_fst (l : LruLs max) : l.remHead.1 = l.readHead := by
  simp only [LruLs.remHead, LruLs.readHead]
  cases l.links.head <;> rfl

theorem Represents.remAsserts (h : l.Represents xs) (index : Fin max) : l.remAsserts index := by
  intro hne _ hsize
  rw [h.spells.size, List.length_eq_zero_iff] at hsize
  have hlinks := h.spells.links
  rw [hsize] at hlinks
  exact hne ⟨hlinks.head, hlinks.tail⟩

theorem Represents.addAsserts (h : l.Represents xs) : l.addAsserts := by
  intro htail
  rw [h.spells.links.tail, List.getLast?_eq_none_iff] at htail
  rw [h.spells.links.head, htail]
  rfl

/-- No assertion fails, and the call does what it should. -/
theorem Represents.call (h : l.Represents xs) (op : LruOp max) (time : Nat) :
    l.asserts op ∧ (l.call op).Represents (Touched.call time xs op) := by
  cases op with
  | touch index key =>
    exact ⟨fun _ => ⟨h.remAsserts index, (h.rem index).addAsserts⟩, h.touch index key time⟩
  | rem index => exact ⟨h.remAsserts index, h.rem index⟩
  | remHead => exact ⟨fun index _ => h.remAsserts index, h.remHead⟩
  | readHead => exact ⟨trivial, h⟩

theorem run_concat (ops : List (LruOp max)) (op : LruOp max) : ∀ l : LruLs max,
    l.run (ops ++ [op]) = (l.run ops).bind fun l => l.run [op] := by
  induction ops with
  | nil =>
    intro l
    rfl
  | cons first ops ih =>
    intro l
    simp only [List.cons_append, run]
    split
    · exact ih _
    · rfl

/-- What the structure is after the calls `ops`: the sequence of the sets present, in
the order of their last touch. -/
structure Refines (l : LruLs max) (ops : List (LruOp max)) : Prop where
  nodup : ((Touched.run ops).map (·.index)).Nodup
  order : Touched.InOrder ops (Touched.run ops)
  head : l.links.head = (Touched.run ops).head?.map (·.index)
  tail : l.links.tail = (Touched.run ops).getLast?.map (·.index)
  neighbours : ∀ xs x y ys, Touched.run ops = xs ++ x :: y :: ys →
    l.links.next x.index = some y.index
  inverse : ∀ i j, l.links.next i = some j ↔ l.links.prev j = some i
  size : l.size = (Touched.run ops).length
  readHead : l.readHead = (Touched.run ops).head?.map fun x => (x.index, x.key)
  remHead : l.remHead.1 = (Touched.run ops).head?.map fun x => (x.index, x.key)

theorem Represents.refines {ops : List (LruOp max)} (h : l.Represents (Touched.run ops))
    (horder : Touched.InOrder ops (Touched.run ops)) : l.Refines ops where
  nodup := h.spells.links.nodup
  order := horder
  head := by rw [h.spells.links.head, List.head?_map]
  tail := by rw [h.spells.links.tail, List.getLast?_map]
  neighbours xs x y ys hrun := by
    have hsplit := congrArg (List.map (·.index)) hrun
    rw [List.map_append] at hsplit
    exact (h.spells.links.links _ _ _ hsplit).2
  inverse i j := h.spells.links.next_eq_iff
  size := by rw [h.spells.size, List.length_map]
  readHead := h.readHead
  remHead := l.remHead_fst.trans h.readHead

/-- Whatever the calls, no assertion fails and the list represents the sets present in
the order of their last touch. -/
theorem set_lru_refines (hmax : 0 < max) (ops : List (LruOp max)) :
    ∃ l, ((create max).bind fun l => l.run ops) = some l ∧ l.Refines ops := by
  rw [create, if_pos hmax]
  show ∃ l, (init max).run ops = some l ∧ l.Refines ops
  -- the run grows at its end, so that the abstract one is known at each call
  suffices hrun : ∃ l, (init max).run ops = some l ∧ l.Represents (Touched.run ops) ∧
      Touched.InOrder ops (Touched.run ops) by
    obtain ⟨l, hl, hrep, horder⟩ := hrun
    exact ⟨l, hl, hrep.refines horder⟩
  induction ops using List.reverseRecOn with
  | nil => exact ⟨init max, rfl, ⟨init_spells, by simp [Touched.run, Touched.runFrom]⟩,
      ⟨List.Pairwise.nil, by simp [Touched.run, Touched.runFrom],
        by simp [Touched.run, Touched.runFrom]⟩⟩
  | append_singleton ops op ih =>
    obtain ⟨l, hl, hrep, horder⟩ := ih
    obtain ⟨hassert, hcall⟩ := hrep.call op ops.length
    refine ⟨l.call op, ?_, ?_, ?_⟩
    · rw [run_concat, hl]
      show l.run [op] = _
      rw [run, if_pos hassert]
      rfl
    · rw [Touched.run_concat]
      exact hcall
    · rw [Touched.run_concat]
      exact horder.call op

theorem set_lru_refines_three : ∃ l, ((create 3).bind fun l => l.run
    [.touch 0 7, .touch 2 8, .touch 0 9, .rem 1, .remHead]) = some l ∧
    l.Refines [.touch 0 7, .touch 2 8, .touch 0 9, .rem 1, .remHead] :=
  set_lru_refines (by decide) _

end LruLs

/-- A list of sets in good order. -/
structure DirtySetLru (n : Nat) where
  ls : LruLs n
  order : List (Fin n)
  spells : ls.Spells order

namespace DirtySetLru

variable {n : Nat}

def init (n : Nat) : DirtySetLru n := ⟨LruLs.init n, [], LruLs.init_spells⟩

def touch (l : DirtySetLru n) (set : Fin n) (systime : Nat) : DirtySetLru n :=
  ⟨l.ls.touch set systime, l.order.erase set ++ [set], l.spells.touch⟩

def rem (l : DirtySetLru n) (set : Fin n) : DirtySetLru n :=
  ⟨l.ls.rem set, l.order.erase set, l.spells.rem⟩

def readHead (l : DirtySetLru n) : Option (Fin n × Nat) := l.ls.readHead

/-- `lru_rem_head`: the set at the head, if any, and the list without it. -/
def remHead (l : DirtySetLru n) : Option (Fin n × DirtySetLru n) :=
  l.ls.remHead.1.map fun (set, _) => (set, ⟨l.ls.remHead.2, l.order.tail, l.spells.remHead⟩)

theorem order_of_remHead {l l' : DirtySetLru n} {set : Fin n}
    (h : l.remHead = some (set, l')) : l.order = set :: l'.order := by
  simp only [remHead, Option.map_eq_some_iff, Prod.mk.injEq] at h
  obtain ⟨⟨index, key⟩, hhead, rfl, rfl⟩ := h
  have hfst := l.spells.remHead_fst
  rw [hhead] at hfst
  exact List.eq_cons_of_mem_head? hfst.symm

@[simp] theorem mem_touch {l : DirtySetLru n} {set x : Fin n} {systime : Nat} :
    x ∈ (l.touch set systime).order ↔ x = set ∨ x ∈ l.order := by
  simp only [touch, List.mem_append, List.mem_singleton]
  by_cases hx : x = set
  · simp [hx]
  · simp [hx, List.mem_erase_of_ne hx]

@[simp] theorem mem_rem {l : DirtySetLru n} {set x : Fin n} :
    x ∈ (l.rem set).order ↔ x ≠ set ∧ x ∈ l.order :=
  List.Nodup.mem_erase_iff l.spells.links.nodup

end DirtySetLru

end EnhanceIO
