import EnhanceIO.States
import EnhanceIO.DirtySets

/-!
# No dirty set is forgotten

The books of `DirtySets`: what every step of every thread keeps, and what they say
when all threads are at rest.
-/

namespace EnhanceIO

/-! ## Who holds a flagged set, who owes a set its place

A flagged set is on the queue, on the private list, or held by the one thread
that is between setting its flag and queueing it, or between taking it from the
private list and clearing its flag. A thread owes a set its place when it has
made the set dirty, taken it from the LRU list or cleared its flag, and has not
yet decided where the set goes. -/

namespace CleanPc

variable {g : Geom} {n : Nat}

def holding : CleanPc n → Option (Fin n)
  | enqueue set _ => some set
  | cleanSet set force => if force then none else some set
  | postpone set => some set
  | cleanBody set force => if force then none else some set
  | cleanOut set force => if force then none else some set
  | putBack set => some set
  | _ => none

def owing : CleanPc n → Option (Fin n)
  | mdBlocks set _ => some set
  | mdTouch set => some set
  | agedTest set _ => some set
  | addto set _ => some set
  | cleanTest set => some set
  | cleanTouch set => some set
  | putBackTouch set => some set
  | _ => none

@[simp] theorem holding_back (back : CleanBack) : (back.pc : CleanPc n).holding = none := by
  cases back <;> rfl

def holds (pc : CleanPc n) (x : Fin n) : Bool := pc.holding = some x

theorem holds_of_none {pc : CleanPc n} (h : pc.holding = none) (x : Fin n) :
    pc.holds x = false := by
  simp [holds, h]

theorem holds_of_some {pc : CleanPc n} {set : Fin n} (h : pc.holding = some set) (x : Fin n) :
    pc.holds x = decide (set = x) := by
  simp [holds, h]

/-- What a step of a thread keeps: flags against holders, the counter against the
queue, and a place for every dirty set, whatever else (`R`) vouches for it. -/
structure Keeps (s : CleanShared g) (pc : CleanPc g.numSets) (s' : CleanShared g)
    (pc' : CleanPc g.numSets) : Prop where
  flags : ∀ x, s'.cleanq.count x + (pc'.holds x).toNat + (s.cleanInprog x).toNat =
    s.cleanq.count x + (pc.holds x).toNat + (s'.cleanInprog x).toNat
  pendings : s'.cleanPendings + s.cleanq.length = s.cleanPendings + s'.cleanq.length
  covered : ∀ (x : Fin g.numSets) (R : Prop),
    (0 < s.setDirty x →
      x ∈ s.dirtySetLru.order ∨ s.cleanInprog x = true ∨ pc.owing = some x ∨ R) →
    0 < s'.setDirty x →
      x ∈ s'.dirtySetLru.order ∨ s'.cleanInprog x = true ∨ pc'.owing = some x ∨ R

variable {s s' : CleanShared g} {pc pc' : CleanPc g.numSets} {set : Fin g.numSets}

/-- A step that only looks, and may drop a debt that it finds settled. -/
theorem Keeps.look {b : Bool} (hh : pc'.holding = pc.holding)
    (ho : ∀ x, pc.owing = some x → 0 < s.setDirty x →
      s.cleanInprog x = true ∨ pc'.owing = some x) :
    Keeps s pc { s with cleanExcessDirty := b } pc' where
  flags x := by simp only [holds, hh]
  pendings := rfl
  covered x R hcov hdirty := by
    rcases hcov hdirty with h | h | h | h
    · exact .inl h
    · exact .inr (.inl h)
    · rcases ho x h hdirty with h | h
      · exact .inr (.inl h)
      · exact .inr (.inr (.inl h))
    · exact .inr (.inr (.inr h))

/-- A step that puts a set on the LRU list. -/
theorem Keeps.touch (hh : pc'.holding = pc.holding)
    (ho : ∀ x, pc.owing = some x → x = set) : Keeps s pc (s.touchSetLru set) pc' where
  flags x := by simp only [holds, hh, CleanShared.touchSetLru]
  pendings := rfl
  covered x R hcov hdirty := by
    simp only [CleanShared.touchSetLru, DirtySetLru.mem_touch]
    rcases hcov hdirty with h | h | h | h
    · exact .inl (.inr h)
    · exact .inr (.inl h)
    · exact .inl (.inl (ho x h))
    · exact .inr (.inr (.inr h))

/-- A step that takes a set from the LRU list. -/
theorem Keeps.take {lru : DirtySetLru g.numSets} (hh : pc.holding = none)
    (hh' : pc'.holding = none) (ho : pc.owing = none) (ho' : pc'.owing = some set)
    (hlru : ∀ x ∈ s.dirtySetLru.order, x = set ∨ x ∈ lru.order) :
    Keeps s pc { s with dirtySetLru := lru } pc' where
  flags x := by simp only [holds, hh, hh']
  pendings := rfl
  covered x R hcov hdirty := by
    rcases hcov hdirty with h | h | h | h
    · rcases hlru x h with rfl | h
      · exact .inr (.inr (.inl ho'))
      · exact .inl h
    · exact .inr (.inl h)
    · simp [ho] at h
    · exact .inr (.inr (.inr h))

/-- A step that sets the flag of the set whose place it owes, and holds the set from then on,
or clears it and owes the set its place again. -/
theorem Keeps.flag {b : Bool} (hflag : s.cleanInprog set = !b)
    (hh : pc.holding = if b then none else some set)
    (hh' : pc'.holding = if b then some set else none)
    (ho : pc.owing = if b then some set else none) (ho' : b = false → pc'.owing = some set) :
    Keeps s pc (s.setInprog set b) pc' where
  flags x := by
    simp only [holds, hh, hh', CleanShared.setInprog]
    by_cases hx : x = set
    · subst hx
      cases b <;> simp [hflag]
    · cases b <;> simp [hx, Ne.symm hx]
  pendings := rfl
  covered x R hcov hdirty := by
    simp only [CleanShared.setInprog]
    by_cases hx : x = set
    · cases b
      · exact .inr (.inr (.inl (hx ▸ ho' rfl)))
      · exact .inr (.inl (if_pos hx))
    · rw [if_neg hx]
      rcases hcov hdirty with h | h | h | h
      · exact .inl h
      · exact .inr (.inl h)
      · cases b <;> simp [ho, Ne.symm hx] at h
      · exact .inr (.inr (.inr h))

/-- A step that queues the set it holds. -/
theorem Keeps.queue (hh : pc.holding = some set) (hh' : pc'.holding = none)
    (ho : pc.owing = none) : Keeps s pc
      { s with cleanq := s.cleanq ++ [set], cleanPendings := s.cleanPendings + 1 } pc' where
  flags x := by
    simp only [holds, hh, hh', List.count_append, List.count_singleton, beq_iff_eq,
      Option.some.injEq]
    by_cases hx : set = x <;> simp [hx]
  pendings := by
    simp only [List.length_append, List.length_singleton]
    omega
  covered x R hcov hdirty := by
    rcases hcov hdirty with h | h | h | h
    · exact .inl h
    · exact .inr (.inl h)
    · simp [ho] at h
    · exact .inr (.inr (.inr h))

/-- A step that makes a block of the set dirty whose place it owes. -/
theorem Keeps.inc (hh : pc'.holding = pc.holding) (ho : pc.owing = some set)
    (ho' : pc'.owing = some set) : Keeps s pc (s.incDirty set) pc' where
  flags x := by simp only [holds, hh, CleanShared.incDirty]
  pendings := rfl
  covered x R hcov hdirty := by
    by_cases hx : x = set
    · exact .inr (.inr (.inl (hx ▸ ho')))
    · simp only [CleanShared.incDirty, if_neg hx] at hdirty ⊢
      simpa only [ho, ho'] using hcov hdirty

/-- A step that cleans a block. -/
theorem Keeps.dec (hh : pc'.holding = pc.holding) (ho : pc'.owing = pc.owing) :
    Keeps s pc (s.decDirty set) pc' where
  flags x := by simp only [holds, hh, CleanShared.decDirty]
  pendings := rfl
  covered x R hcov hdirty := by
    have hpos : 0 < s.setDirty x := by
      by_cases hx : x = set
      · simp only [CleanShared.decDirty, if_pos hx] at hdirty
        omega
      · simpa only [CleanShared.decDirty, if_neg hx] using hdirty
    simpa only [ho, CleanShared.decDirty] using hcov hpos

/-- Every step of a thread keeps the books, if the sets it holds are flagged. -/
theorem step_keeps {cleaned : Bool} (hflag : ∀ x, pc.holding = some x → s.cleanInprog x = true)
    (h : pc.step cleaned s = some (s', pc')) : Keeps s pc s' pc' := by
  cases pc with
  | done => simp [step] at h
  | mdBlocks set left =>
    cases left <;> cases h
    · exact .look rfl fun x hx _ => .inr hx
    · exact .inc rfl rfl rfl
  | mdTouch | cleanTouch | putBackTouch =>
    cases h
    exact .touch rfl fun x hx => (Option.some.inj hx).symm
  | comply set =>
    simp only [step] at h
    split at h
    · cases h
      exact .look rfl nofun
    · cases set <;> cases h <;> exact .look rfl nofun
  | setCheck | cacheCheck | more =>
    cases h
    exact .look (by split <;> rfl) nofun
  | excess =>
    simp only [step] at h
    split at h <;> cases h <;> exact .look rfl nofun
  | require | excessEnd =>
    cases h
    exact .look rfl nofun
  | remHead enqueued required =>
    simp only [step] at h
    split at h <;> cases h
    · exact .look rfl nofun
    · next set lru hhead =>
      refine .take rfl rfl rfl rfl fun x hx => ?_
      rw [DirtySetLru.order_of_remHead hhead] at hx
      exact List.mem_cons.mp hx
  | aged cur =>
    simp only [step] at h
    split at h
    · cases h
      exact .look rfl nofun
    · next set time _ =>
      split at h <;> cases h
      · exact .look rfl nofun
      · refine .take rfl rfl rfl rfl fun x hx => ?_
        by_cases hxs : x = set
        · exact .inl hxs
        · exact .inr (DirtySetLru.mem_rem.mpr ⟨hxs, hx⟩)
  | agedTest set cur =>
    cases h
    refine .look (by split <;> rfl) fun x hx hdirty => .inr ?_
    obtain rfl : set = x := Option.some.inj hx
    rw [if_pos hdirty]
    rfl
  | addto set back =>
    simp only [step] at h
    split at h <;> cases h
    · next hset =>
      -- refused: whoever has set the flag looks after the set
      refine .look (holding_back back) fun x hx _ => .inl ?_
      obtain rfl : set = x := Option.some.inj hx
      exact hset
    · next hset => exact .flag (Bool.not_eq_true _ ▸ hset) rfl rfl rfl (by simp)
  | enqueue set back =>
    cases h
    exact .queue rfl (holding_back back) rfl
  | cleanSet set force =>
    simp only [step] at h
    split at h
    · cases h
      exact .look rfl nofun
    · split at h <;> cases h
      · next hpost =>
        have hforce : force = false := by simp_all
        subst hforce
        exact .look rfl nofun
      · exact .look rfl nofun
  | postpone set =>
    cases h
    exact .touch rfl nofun
  | cleanBody set force =>
    simp only [step] at h
    split at h <;> cases h
    · exact .dec rfl rfl
    · exact .look rfl nofun
  | cleanOut set force =>
    cases h
    cases force with
    | false => exact .flag (hflag set rfl) rfl rfl rfl fun _ => rfl
    | true => exact .look rfl nofun
  | cleanTest set =>
    cases h
    refine .look (by split <;> rfl) fun x hx hdirty => .inr ?_
    obtain rfl : set = x := Option.some.inj hx
    rw [if_pos (Nat.ne_of_gt hdirty)]
    rfl
  | putBack set =>
    cases h
    exact .flag (hflag set rfl) rfl rfl rfl fun _ => rfl

end CleanPc

/-- The common code the clean thread is in. -/
def CleanThread.pc {n : Nat} : CleanThread n → CleanPc n
  | complying pc => pc
  | cleaningAll pc => pc
  | cleaning pc => pc
  | _ => .done

/-- The clean thread has a set in hand that `clean_pendings` still counts. -/
def CleanThread.busy {n : Nat} : CleanThread n → Nat
  | cleaning _ => 1
  | _ => 0

/-- The clean thread is in the inner loop. -/
def CleanThread.sweeping {n : Nat} : CleanThread n → Bool
  | next => true
  | cleaning _ => true
  | _ => false

namespace DirtySets

variable {g : Geom} {s s' : DirtySets g}

def pcs (s : DirtySets g) : List (CleanPc g.numSets) := s.cleanThread.pc :: s.threads

/-- The books of the whole cache. Where the sets on the LRU list are is only known as
long as the list has been kept. -/
structure Accounted (kept : Prop) (s : DirtySets g) : Prop where
  flags : ∀ x, s.shared.cleanq.count x + s.setlist.count x + s.pcs.countP (·.holds x) =
    (s.shared.cleanInprog x).toNat
  pendings : s.shared.cleanPendings =
    s.shared.cleanq.length + s.setlist.length + s.cleanThread.busy
  covered : kept → ∀ x, 0 < s.shared.setDirty x → x ∈ s.shared.dirtySetLru.order ∨
    s.shared.cleanInprog x = true ∨ ∃ pc ∈ s.pcs, pc.owing = some x
  sweep : s.cleanThread.sweeping = false → s.setlist = []

variable {kept : Prop}

section
variable (h : Accounted kept s)
include h

/-- A set that some thread holds is flagged. -/
theorem Accounted.flagged {pc : CleanPc g.numSets} {x : Fin g.numSets}
    (hpc : pc ∈ s.pcs) (hx : pc.holding = some x) : s.shared.cleanInprog x = true := by
  have hpos : 0 < s.pcs.countP (·.holds x) :=
    List.countP_pos_iff.mpr ⟨pc, hpc, by simp [CleanPc.holds, hx]⟩
  have hflags := h.flags x
  cases hb : s.shared.cleanInprog x with
  | true => rfl
  | false =>
    rw [hb, Bool.toNat_false] at hflags
    omega

theorem Accounted.run_at (before behind : List (CleanPc g.numSets))
    {pc pc' : CleanPc g.numSets} {cleaned : Bool} (hpcs : s.pcs = before ++ pc :: behind)
    (hstep : pc.step cleaned s.shared = some (s'.shared, pc'))
    (hpcs' : s'.pcs = before ++ pc' :: behind) (hlist : s'.setlist = s.setlist)
    (hbusy : s'.cleanThread.busy = s.cleanThread.busy)
    (hsweep : s'.cleanThread.sweeping = s.cleanThread.sweeping) : Accounted kept s' := by
  have hmem : pc ∈ s.pcs := by simp [hpcs]
  have hk := CleanPc.step_keeps (fun x hx => h.flagged hmem hx) hstep
  constructor
  · intro x
    have hold := h.flags x
    have hnew := hk.flags x
    simp only [hpcs, hpcs', hlist, List.countP_append, List.countP_cons] at hold ⊢
    cases hp : pc.holds x <;> cases hp' : pc'.holds x <;>
      simp only [hp, hp', Bool.toNat_true, Bool.toNat_false, if_true, Bool.false_eq_true,
        if_false] at hold hnew ⊢ <;> omega
  · have hold := h.pendings
    have hnew := hk.pendings
    rw [hlist, hbusy]
    omega
  · intro hkept x hdirty
    have hothers := hk.covered x (∃ q ∈ before ++ behind, q.owing = some x) (fun hd => by
      rcases h.covered hkept x hd with hx | hx | ⟨q, hq, hx⟩
      · exact .inl hx
      · exact .inr (.inl hx)
      · rw [hpcs] at hq
        rcases List.mem_append.mp hq with hq | hq
        · exact .inr (.inr (.inr ⟨q, List.mem_append_left _ hq, hx⟩))
        · rcases List.mem_cons.mp hq with rfl | hq
          · exact .inr (.inr (.inl hx))
          · exact .inr (.inr (.inr ⟨q, List.mem_append_right _ hq, hx⟩))) hdirty
    rcases hothers with hx | hx | hx | ⟨q, hq, hx⟩
    · exact .inl hx
    · exact .inr (.inl hx)
    · exact .inr (.inr ⟨pc', by simp [hpcs'], hx⟩)
    · refine .inr (.inr ⟨q, ?_, hx⟩)
      rw [hpcs']
      rcases List.mem_append.mp hq with hq | hq <;> simp [hq]
  · rw [hsweep, hlist]
    exact h.sweep

theorem Accounted.spawn {pc : CleanPc g.numSets} (hh : pc.holding = none) :
    Accounted kept (s.spawn pc) where
  flags x := by
    have hflags := h.flags x
    simpa [DirtySets.spawn, pcs, List.countP_cons, CleanPc.holds_of_none hh] using hflags
  pendings := h.pendings
  covered hkept x hdirty := by
    rcases h.covered hkept x hdirty with hx | hx | ⟨q, hq, hx⟩
    · exact .inl hx
    · exact .inr (.inl hx)
    · refine .inr (.inr ⟨q, ?_, hx⟩)
      rcases List.mem_cons.mp hq with rfl | hq
      · exact List.mem_cons_self
      · exact List.mem_cons_of_mem _ (List.mem_append_left _ hq)
  sweep := h.sweep

/-- The clean thread goes from one place between calls to another. -/
theorem Accounted.goto {ct : CleanThread g.numSets}
    (hdone : s.cleanThread.pc = .done) (hh : ct.pc.holding = none)
    (hbusy : ct.busy = s.cleanThread.busy) (hsweep : ct.sweeping = false → s.setlist = []) :
    Accounted kept { s with cleanThread := ct } where
  flags x := by
    have hflags := h.flags x
    have hnone : (CleanPc.done : CleanPc g.numSets).holding = none := rfl
    simpa [pcs, hdone, List.countP_cons, CleanPc.holds_of_none hnone, CleanPc.holds_of_none hh]
      using hflags
  pendings := by
    rw [hbusy]
    exact h.pendings
  covered hkept x hdirty := by
    rcases h.covered hkept x hdirty with hx | hx | ⟨q, hq, hx⟩
    · exact .inl hx
    · exact .inr (.inl hx)
    · refine .inr (.inr ⟨q, ?_, hx⟩)
      rcases List.mem_cons.mp hq with rfl | hq
      · rw [hdone] at hx
        simp [CleanPc.owing] at hx
      · exact List.mem_cons_of_mem _ hq
  sweep := hsweep

/-- The clean thread inside common code. -/
theorem Accounted.runCommon {cleaned : Bool} {pc : CleanPc g.numSets}
    {wrap : CleanPc g.numSets → CleanThread g.numSets} (hwrap : s.cleanThread = wrap pc)
    (hpc : ∀ q, (wrap q).pc = q) (hbusy : ∀ q, (wrap q).busy = (wrap pc).busy)
    (hsweep : ∀ q, (wrap q).sweeping = (wrap pc).sweeping)
    (hstep : s.runCommon cleaned pc wrap = some s') : Accounted kept s' := by
  obtain ⟨⟨shared, pc'⟩, hpcstep, rfl⟩ := Option.map_eq_some_iff.mp hstep
  apply h.run_at [] s.threads (by simp [pcs, hwrap, hpc]) hpcstep
  · simp [pcs, hpc]
  · rfl
  · rw [hwrap]
    exact hbusy pc'
  · rw [hwrap]
    exact hsweep pc'

/-- The clean thread moves the queue to its private list. -/
theorem Accounted.move (hct : s.cleanThread = .wait) : Accounted kept { s with
      shared := { s.shared with cleanq := [] }
      setlist := s.shared.cleanq
      cleanThread := .next } where
  flags x := by
    have hflags := h.flags x
    have hempty : s.setlist = [] := h.sweep (by rw [hct]; rfl)
    simpa [pcs, hct, CleanThread.pc, hempty] using hflags
  pendings := by
    have hpend := h.pendings
    have hempty : s.setlist = [] := h.sweep (by rw [hct]; rfl)
    simpa [hct, CleanThread.busy, hempty] using hpend
  covered := by
    have hcov := h.covered
    simpa only [pcs, hct, CleanThread.pc] using hcov
  sweep := nofun

/-- The clean thread takes a set from its private list. -/
theorem Accounted.take {set : Fin g.numSets} {rest : List (Fin g.numSets)}
    {pc : CleanPc g.numSets} (hct : s.cleanThread = .next) (hlist : s.setlist = set :: rest)
    (hh : pc.holding = some set) :
    Accounted kept { s with setlist := rest, cleanThread := .cleaning pc } where
  flags x := by
    have hflags := h.flags x
    have hnone : (CleanPc.done : CleanPc g.numSets).holding = none := rfl
    simp only [pcs, hct, CleanThread.pc, hlist, List.count_cons, List.countP_cons,
      CleanPc.holds_of_none hnone, CleanPc.holds_of_some hh, decide_eq_true_eq, beq_iff_eq,
      Bool.false_eq_true, if_false] at hflags ⊢
    omega
  pendings := by
    have hpend := h.pendings
    simp only [hct, hlist, CleanThread.busy, List.length_cons] at hpend ⊢
    omega
  covered hkept x hdirty := by
    rcases h.covered hkept x hdirty with hx | hx | ⟨q, hq, hx⟩
    · exact .inl hx
    · exact .inr (.inl hx)
    · refine .inr (.inr ⟨q, ?_, hx⟩)
      rcases List.mem_cons.mp hq with rfl | hq
      · rw [hct] at hx
        simp [CleanThread.pc, CleanPc.owing] at hx
      · exact List.mem_cons_of_mem _ hq
  sweep := nofun

/-- The clean thread is done with a set. -/
theorem Accounted.finish (hct : s.cleanThread = .cleaning .done) : Accounted kept { s with
      shared := { s.shared with cleanPendings := s.shared.cleanPendings - 1 }
      cleanThread := .next } where
  flags := by
    have hflags := h.flags
    simpa only [pcs, hct, CleanThread.pc] using hflags
  pendings := by
    have hpend := h.pendings
    simp only [hct, CleanThread.busy] at hpend ⊢
    omega
  covered := by
    have hcov := h.covered
    simpa only [pcs, hct, CleanThread.pc] using hcov
  sweep := nofun

theorem Accounted.cleanThreadStep {cleaned : Bool}
    {target : Option (Fin g.numSets)} (hstep : s.cleanThreadStep cleaned target = some s') :
    Accounted kept s' := by
  unfold DirtySets.cleanThreadStep at hstep
  split at hstep
  · simp at hstep
  · next hct =>
    cases hstep
    refine h.goto (by rw [hct]; rfl) (by split <;> rfl) (by rw [hct]; split <;> rfl) fun _ =>
      h.sweep (by rw [hct]; rfl)
  · next hct =>
    cases hstep
    refine h.goto (by rw [hct]; rfl) (by split <;> rfl) (by rw [hct]; split <;> rfl) fun _ =>
      h.sweep (by rw [hct]; rfl)
  · next pc _ hct => exact h.runCommon hct (fun _ => rfl) (fun _ => rfl) (fun _ => rfl) hstep
  · next hct =>
    cases hstep
    refine h.goto (by rw [hct]; rfl) (by cases target <;> rfl)
      (by rw [hct]; cases target <;> rfl) fun _ => h.sweep (by rw [hct]; rfl)
  · next pc _ hct => exact h.runCommon hct (fun _ => rfl) (fun _ => rfl) (fun _ => rfl) hstep
  · next hct =>
    cases hstep
    refine h.goto (by rw [hct]; rfl) (by split <;> rfl) (by rw [hct]; split <;> rfl) fun _ =>
      h.sweep (by rw [hct]; rfl)
  · next hct =>
    obtain ⟨-, hmove⟩ := Option.ite_none_left_eq_some.mp hstep
    cases hmove
    exact h.move hct
  · next hct =>
    split at hstep
    · next hlist =>
      cases hstep
      exact h.goto (by rw [hct]; rfl) rfl (by rw [hct]; rfl) fun _ => hlist
    · next set rest hlist =>
      cases hstep
      exact h.take hct hlist (by split <;> rfl)
  · next hct =>
    cases hstep
    exact h.finish hct
  · next pc _ hct => exact h.runCommon hct (fun _ => rfl) (fun _ => rfl) (fun _ => rfl) hstep

theorem Accounted.step {a : DirtyAct g} (hstep : s.step a = some s') : Accounted kept s' := by
  cases a with
  | env env =>
    cases hstep
    exact ⟨h.flags, h.pendings, h.covered, h.sweep⟩
  | mdupdate set blocks error =>
    cases hstep
    exact h.spawn (by cases error <;> rfl)
  | comply set =>
    cases hstep
    exact h.spawn rfl
  | aged =>
    cases hstep
    exact h.spawn (by split <;> rfl)
  | force set =>
    cases hstep
    exact h.spawn rfl
  | run i cleaned =>
    obtain ⟨pc, hget, hrest⟩ := Option.bind_eq_some_iff.mp hstep
    obtain ⟨⟨shared, pc'⟩, hpcstep, rfl⟩ := Option.map_eq_some_iff.mp hrest
    obtain ⟨hi, rfl⟩ := List.getElem?_eq_some_iff.mp hget
    obtain ⟨l₁, l₂, hl, -, hset⟩ : ∃ l₁ l₂, s.threads = l₁ ++ s.threads[i] :: l₂ ∧
        l₁.length = i ∧ s.threads.set i pc' = l₁ ++ pc' :: l₂ := List.exists_of_set hi
    exact h.run_at (s.cleanThread.pc :: l₁) l₂
      (by rw [pcs, List.cons_append, ← hl]) hpcstep (by rw [pcs, List.cons_append, ← hset])
      rfl rfl rfl
  | cleanThread cleaned target => exact h.cleanThreadStep hstep
  | start =>
    simp only [DirtySets.step] at hstep
    split at hstep
    · next hct =>
      cases hstep
      exact h.goto (by rw [hct]; rfl) rfl (by rw [hct]; rfl) fun _ =>
        h.sweep (by rw [hct]; rfl)
    · simp at hstep

end

theorem mem_touchAll (systime : Nat) (sets : List (Fin g.numSets)) (lru : DirtySetLru g.numSets)
    (x : Fin g.numSets) :
    x ∈ (sets.foldl (fun lru set => lru.touch set systime) lru).order ↔
      x ∈ sets ∨ x ∈ lru.order := by
  induction sets generalizing lru with
  | nil => simp
  | cons set sets ih =>
    rw [List.foldl_cons, ih, DirtySetLru.mem_touch, List.mem_cons]
    tauto

theorem accounted_init (env : CleanEnv) (dirty : Fin g.numSets → Nat) :
    Accounted True (init g env dirty) where
  flags x := by simp [init, pcs, CleanThread.pc, CleanPc.holds, CleanPc.holding]
  pendings := rfl
  covered _ x hdirty := by
    change 0 < dirty x at hdirty
    refine .inl ((mem_touchAll env.jiffies _ _ x).mpr (.inl ?_))
    simpa [List.mem_filter] using hdirty
  sweep _ := rfl

theorem Reachable.accounted {env : CleanEnv} {dirty : Fin g.numSets → Nat}
    (h : Reachable g env dirty s) : Accounted True s :=
  h.invariant (accounted_init env dirty) fun hs _ hstep => hs.step hstep

/-! ## At rest -/

/-- Nothing is in the middle of its body: every thread is through, and the clean
thread waits or is between two sets. -/
def Quiet (s : DirtySets g) : Prop :=
  (∀ pc ∈ s.threads, pc = .done) ∧ s.cleanThread.pc = .done ∧ s.cleanThread.busy = 0

instance (s : DirtySets g) : Decidable s.Quiet := inferInstanceAs (Decidable (_ ∧ _))

/-- The clean queue: the shared list, and what the clean thread has moved to its
private list and not yet taken up. -/
def queue (s : DirtySets g) : List (Fin g.numSets) := s.shared.cleanq ++ s.setlist

/-- No dirty set is forgotten: it is on the LRU list, or on the clean queue with its
flag. A flagged set is on the queue once, and `clean_pendings` counts the queue. -/
theorem dirty_sets_placed {env : CleanEnv} {dirty : Fin g.numSets → Nat}
    (h : Reachable g env dirty s) (hq : s.Quiet) :
    (∀ x, 0 < s.shared.setDirty x → x ∈ s.shared.dirtySetLru.order ∨
      (x ∈ s.queue ∧ s.shared.cleanInprog x = true)) ∧
    (∀ x, s.shared.cleanInprog x = true → s.queue.count x = 1) ∧
    s.shared.cleanPendings = s.queue.length ∧
    (s.cleanThread.sweeping = false → s.queue = s.shared.cleanq) := by
  have ha := h.accounted
  obtain ⟨hthreads, hpc, hbusy⟩ := hq
  have hdone : ∀ pc ∈ s.pcs, pc = .done := by
    intro pc hmem
    rcases List.mem_cons.mp hmem with rfl | hmem
    · exact hpc
    · exact hthreads pc hmem
  have hcount : ∀ x, s.queue.count x = (s.shared.cleanInprog x).toNat := by
    intro x
    have hzero : s.pcs.countP (·.holds x) = 0 := by
      rw [List.countP_eq_zero]
      intro pc hmem
      rw [hdone pc hmem]
      simp [CleanPc.holds, CleanPc.holding]
    have hflags := ha.flags x
    rw [hzero, ← List.count_append] at hflags
    exact hflags
  have honce : ∀ x, s.shared.cleanInprog x = true → s.queue.count x = 1 := fun x hx => by
    rw [hcount x, hx, Bool.toNat_true]
  refine ⟨fun x hdirty => ?_, honce, ?_, fun hsweep => ?_⟩
  · rcases ha.covered trivial x hdirty with hx | hx | ⟨pc, hmem, hx⟩
    · exact .inl hx
    · exact .inr ⟨List.count_pos_iff.mp (by rw [honce x hx]; exact Nat.one_pos), hx⟩
    · rw [hdone pc hmem] at hx
      simp [CleanPc.owing] at hx
  · have hpend := ha.pendings
    rw [hbusy] at hpend
    rw [queue, List.length_append]
    omega
  · rw [queue, ha.sweep hsweep, List.append_nil]

/-- The set whose blocks become dirty in the runs of `smallCache`. -/
abbrev secondSet : Fin smallCache.numSets := (1 : Fin 4)

/-- A set is dirtied beyond its threshold and queued; a scan takes it from the LRU
list and finds it queued already. -/
def queuedRun : List (DirtyAct smallCache) :=
  .mdupdate secondSet 3 false :: List.replicate 10 (.run 0 false) ++
    .aged :: List.replicate 4 (.run 1 false)

def idleEnv : CleanEnv where
  dirtyHighThreshold := 30
  dirtyLowThreshold := 10
  dirtySetHighThreshold := 1
  dirtySetLowThreshold := 0
  timeBasedCleanInterval := 0
  hz := 250
  jiffies := 5
  fastRemove := false
  doClean := false
  failed := false
  autoclean := false

theorem dirty_sets_placed_queued : ∃ s, Reachable smallCache idleEnv (fun _ => 0) s ∧ s.Quiet ∧
    s.shared.setDirty (1 : Fin 4) = 3 ∧ s.shared.dirtySetLru.order = [] ∧
    (1 : Fin 4) ∈ s.queue ∧ s.queue.count (1 : Fin 4) = 1 ∧ s.shared.cleanPendings = 1 := by
  have hrun : ((Run.exec DirtySets.step (fun _ _ => true) (init smallCache idleEnv fun _ => 0)
      queuedRun).any fun s => decide (s.Quiet ∧ s.shared.setDirty (1 : Fin 4) = 3 ∧
        s.shared.dirtySetLru.order = [] ∧ s.queue.length = 1)) = true := by decide +kernel
  obtain ⟨s, hs, hdec⟩ := (Option.any_eq_true _ _).mp hrun
  obtain ⟨hquiet, hdirty, hlru, hlen⟩ := of_decide_eq_true hdec
  have hreach : Reachable smallCache idleEnv (fun _ => 0) s :=
    .of_exec (fun _ _ _ => trivial) .init hs
  obtain ⟨hplaced, honce, hpend, -⟩ := dirty_sets_placed hreach hquiet
  have hmem := (hplaced (1 : Fin 4) (by rw [hdirty]; decide)).resolve_left
    (by rw [hlru]; exact List.not_mem_nil)
  exact ⟨s, hreach, hquiet, hdirty, hlru, hmem.1, honce _ hmem.2, by rw [hpend, hlen]; rfl⟩

end DirtySets

end EnhanceIO
