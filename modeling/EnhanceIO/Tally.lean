import EnhanceIO.Frame
import EnhanceIO.Lib.Count

/-!
# The counters of cached and dirty blocks

`eio_stats.cached_blocks`, `nr_dirty` of each set and `nr_dirty` of the cache
against what they count. A function of the driver changes the flags of one block
at a time, and the counters with them: `Recount` says how, and `Tally.recount`
that the counters stay right.
-/

namespace EnhanceIO

open State

/-- The states that `nr_dirty` counts: `ALREADY_DIRTY` and `CLEAN_INPROG`. -/
def State.counted (c : State) : Bool := c = alreadyDirty || c = cleanInprog

theorem State.valid_of_counted {c : State} (h : c.counted = true) : c.has valid = true := by
  simp only [State.counted, Bool.or_eq_true, decide_eq_true_eq] at h
  rcases h with rfl | rfl <;> decide

/-- A held block is valid and not counted as dirty. -/
theorem State.Shows.held_flags {c f : State} (h : Shows c f) (hf : f ∈ held) :
    c.has valid = true ∧ c.counted = false :=
  ⟨h.has_valid hf, by simp [State.counted, (h.ne_idle hf).2.2]⟩

theorem State.allowed_on_queued : ∀ c ∈ allowed, c.has valid = true → c.has dirty = false →
    (c.on queued).has valid = true ∧ (c.on queued).counted = c.counted := by
  decide +kernel

theorem Geom.mem_set_range (g : Geom) {set i : Nat} :
    i ∈ List.range' (set * g.assoc) g.assoc ↔ i / g.assoc = set := by
  rw [List.mem_range'_1, Nat.div_eq_iff g.assoc_pos, Nat.mul_comm]
  have hpos := g.assoc_pos
  omega

namespace Sys

variable (g : Geom) (s : Sys)

/-- Blocks with the `VALID` bit. -/
def nrValid : Nat := (List.range g.size).countP fun i => (s.st g i).has valid

/-- Blocks of a set that are `ALREADY_DIRTY` or `CLEAN_INPROG`. -/
def nrDirtyIn (set : Nat) : Nat :=
  (List.range' (set * g.assoc) g.assoc).countP fun i => (s.st g i).counted

/-- All such blocks of the cache. -/
def nrDirtyAll : Nat := (List.range g.size).countP fun i => (s.st g i).counted

/-- The set that is being cleaned. -/
def cleanSet : Option Nat := s.clean.map (·.set)

@[simp] theorem setSt_cleanSet (i : Nat) (c : State) : (s.setSt g i c).cleanSet = s.cleanSet := rfl

/-- All that the counters and the flags of the blocks depend on, but for the ebios. -/
def counts : Meta × Nat × (Nat → Nat) × Int × Bool × Option Nat :=
  (s.md, s.cachedBlocks, s.setNrDirty, s.nrDirty, s.degraded, s.cleanSet)

theorem nrDirtyAll_eq : s.nrDirtyAll g = ∑ set ∈ Finset.range g.numSets, s.nrDirtyIn g set :=
  Count.countP_stretches _ _ _

end Sys

/-- The counters are right. A suspended cache has given up counting its blocks. -/
structure Tally (g : Geom) (s : Sys) : Prop where
  cached : s.degraded = false → s.cachedBlocks = s.nrValid g
  dirty : ∀ set, s.setNrDirty set = s.nrDirtyIn g set
  total : s.nrDirty = s.nrDirtyAll g

/-! ## The counters of a new cache -/

theorem Meta.countBlocks_upto (g : Geom) (md : Meta) (n : Nat) :
    (List.range n).foldl (BlockCount.count g md) ⟨0, fun _ => 0, 0⟩ =
      { cachedBlocks := (List.range n).countP fun i => (md.stateGet g i).has valid
        setNrDirty := fun set => (List.range n).countP fun i =>
          (md.stateGet g i).has dirty && i / g.assoc = set
        nrDirty := ((List.range n).countP fun i => (md.stateGet g i).has dirty : Nat) } := by
  induction n with
  | zero => rfl
  | succ n ih =>
    rw [List.range_succ, List.foldl_append, ih]
    simp only [List.foldl_cons, List.foldl_nil, BlockCount.count, List.countP_append,
      List.countP_singleton]
    have hset : ∀ f : Nat → Nat, Function.update f (n / g.assoc) (f (n / g.assoc) + 1) =
        fun set => f set + if n / g.assoc = set then 1 else 0 := by
      intro f
      funext set
      by_cases h : set = n / g.assoc
      · subst h
        simp
      · simp [Function.update_of_ne h, Ne.symm h]
    split <;> split <;> simp_all

/-- The dirty blocks of a set, among all blocks. -/
theorem Geom.countP_set (g : Geom) (p : Nat → Bool) (hp : ∀ i, p i = true → i < g.size)
    (set : Nat) : (List.range g.size).countP (fun i => p i && i / g.assoc = set) =
      (List.range' (set * g.assoc) g.assoc).countP p := by
  have hsame : ((List.range g.size).filter fun i => p i && i / g.assoc = set).Perm
      ((List.range' (set * g.assoc) g.assoc).filter p) := by
    refine (List.perm_ext_iff_of_nodup (List.nodup_range.filter _)
      ((List.nodup_range' 1).filter _)).mpr fun i => ?_
    simp only [List.mem_filter, List.mem_range, Bool.and_eq_true, decide_eq_true_eq,
      g.mem_set_range]
    exact ⟨fun h => ⟨h.2.2, h.2.1⟩, fun h => ⟨hp i h.2, h.2, h.1⟩⟩
  simp only [List.countP_eq_length_filter, hsame.length_eq]

theorem Tally.created {g : Geom} {md : Meta} {hdd : Nat → Tag} {ssd : Nat → Nat → Tag}
    {mdDisk : Nat → MdEntry}
    (hdirty : ∀ i, (md.stateGet g i).has State.dirty = (md.stateGet g i).counted)
    (hin : ∀ i, (md.stateGet g i).has valid = true → i < g.size) :
    Tally g (Sys.created g md hdd ssd mdDisk) := by
  have hcount := Meta.countBlocks_upto g md g.size
  simp only [hdirty] at hcount
  refine ⟨fun _ => ?_, fun set => ?_, ?_⟩
  · exact congrArg BlockCount.cachedBlocks hcount
  · refine (congrFun (congrArg BlockCount.setNrDirty hcount) set).trans ?_
    exact g.countP_set _ (fun i hi => hin i (valid_of_counted hi)) set
  · exact congrArg BlockCount.nrDirty hcount

/-- The counters follow the flags of block `i` from `s` to `s'`. -/
structure Recount (g : Geom) (s s' : Sys) (i : Nat) : Prop where
  degraded : s'.degraded = s.degraded
  clean : s'.cleanSet = s.cleanSet
  cached : s'.cachedBlocks =
    s.cachedBlocks + ((s'.st g i).has valid).toNat - ((s.st g i).has valid).toNat
  dirty : ∀ set, s'.setNrDirty set = s.setNrDirty set +
    (if i / g.assoc = set then (s'.st g i).counted.toNat else 0) -
    (if i / g.assoc = set then (s.st g i).counted.toNat else 0)
  total : s'.nrDirty = s.nrDirty + (s'.st g i).counted.toNat - (s.st g i).counted.toNat

section
variable {g : Geom} {s s' s'' : Sys} {i : Nat} {c : State}

theorem Sys.st_of_counts (h : s'.counts = s.counts) (i : Nat) : s'.st g i = s.st g i := by
  simp only [Sys.st, show s'.md = s.md from congrArg Prod.fst h]

namespace Tally

theorem congr (h : Tally g s) (hc : s'.counts = s.counts) : Tally g s' := by
  have hst := Sys.st_of_counts (g := g) hc
  simp only [Sys.counts, Prod.mk.injEq] at hc
  obtain ⟨-, hcached, hset, htotal, hdeg, -⟩ := hc
  refine ⟨fun hd => ?_, fun set => ?_, ?_⟩
  · rw [hcached, h.cached (hdeg ▸ hd)]
    simp only [Sys.nrValid, hst]
  · rw [hset, h.dirty]
    simp only [Sys.nrDirtyIn, hst]
  · rw [htotal, h.total]
    simp only [Sys.nrDirtyAll, hst]

/-- One block changes, and the counters with it. -/
theorem recount (h : Tally g s) (n : Recount g s s' i) (hst : ∀ j ≠ i, s'.st g j = s.st g j)
    (hi : (s.st g i).has valid = true ∨ (s'.st g i).has valid = true → i < g.size) :
    Tally g s' := by
  -- over all blocks, for `VALID` and for the dirty states
  have hall : ∀ p : State → Bool, (∀ c, p c = true → c.has valid = true) →
      (List.range g.size).countP (fun j => p (s'.st g j)) + (p (s.st g i)).toNat =
        (List.range g.size).countP (fun j => p (s.st g j)) + (p (s'.st g i)).toNat := by
    intro p hp
    have hne : ∀ j ≠ i, p (s'.st g j) = p (s.st g j) := fun j hj => by rw [hst j hj]
    by_cases hlt : i < g.size
    · exact Count.countP_change List.nodup_range (List.mem_range.mpr hlt) hne
    · rw [Count.countP_same (fun hm => hlt (List.mem_range.mp hm)) hne]
      have h1 : p (s.st g i) = false := by
        by_contra hcon
        exact hlt (hi (.inl (hp _ (by simpa using hcon))))
      have h2 : p (s'.st g i) = false := by
        by_contra hcon
        exact hlt (hi (.inr (hp _ (by simpa using hcon))))
      rw [h1, h2]
  refine ⟨fun hd => ?_, fun set => ?_, ?_⟩
  · have hv := hall (fun c => c.has valid) fun c hc => hc
    have hcached := h.cached (n.degraded ▸ hd)
    rw [n.cached, hcached]
    simp only [Sys.nrValid] at hv ⊢
    omega
  · have hdirty := h.dirty set
    rw [n.dirty, hdirty]
    have hne : ∀ j ≠ i, (s'.st g j).counted = (s.st g j).counted := fun j hj => by rw [hst j hj]
    simp only [Sys.nrDirtyIn]
    split
    · next hset =>
      have hmem := g.mem_set_range.mpr hset
      have hchange := Count.countP_change (p := fun j => (s.st g j).counted)
        (q := fun j => (s'.st g j).counted) (List.nodup_range' 1) hmem hne
      omega
    · next hset =>
      have hmem := fun hm => hset (g.mem_set_range.mp hm)
      have hsame := Count.countP_same (p := fun j => (s.st g j).counted)
        (q := fun j => (s'.st g j).counted) hmem hne
      omega
  · have hd := hall counted fun c hc => valid_of_counted hc
    rw [n.total, h.total]
    simp only [Sys.nrDirtyAll] at hd ⊢
    omega

/-- A set with a dirty block has a positive `nr_dirty`. -/
theorem dirty_pos (h : Tally g s) (hc : (s.st g i).counted = true) :
    0 < s.setNrDirty (i / g.assoc) := by
  rw [h.dirty, Sys.nrDirtyIn, List.countP_pos_iff]
  exact ⟨i, g.mem_set_range.mpr rfl, hc⟩

end Tally

namespace Recount

theorem same (hc : s'.counts = s.counts) : Recount g s s' i := by
  have hst := Sys.st_of_counts (g := g) hc i
  simp only [Sys.counts, Prod.mk.injEq] at hc
  obtain ⟨-, hcached, hset, htotal, hdeg, hclean⟩ := hc
  refine ⟨hdeg, hclean, ?_, fun set => ?_, ?_⟩
  · rw [hcached, hst, Nat.add_sub_cancel]
  · rw [hset, hst, Nat.add_sub_cancel]
  · rw [htotal, hst, add_sub_cancel_right]

theorem congr (n : Recount g s s' i) (hc : s''.counts = s'.counts) : Recount g s s'' i := by
  have hst := Sys.st_of_counts (g := g) hc i
  simp only [Sys.counts, Prod.mk.injEq] at hc
  obtain ⟨-, hcached, hset, htotal, hdeg, hclean⟩ := hc
  refine ⟨hdeg.trans n.degraded, hclean.trans n.clean, ?_, fun set => ?_, ?_⟩
  · rw [hcached, hst, n.cached]
  · rw [hset, hst, n.dirty]
  · rw [htotal, hst, n.total]

theorem setSt (hv : (s.st g i).has valid = true) (hc : c.has valid = true)
    (hd : c.counted = (s.st g i).counted) : Recount g s (s.setSt g i c) i := by
  have hst : (s.setSt g i c).st g i = c := by simp
  refine ⟨rfl, rfl, ?_, fun set => ?_, ?_⟩
  · rw [hst, hc, hv, Nat.add_sub_cancel]
    rfl
  · rw [hst, hd, Nat.add_sub_cancel]
    rfl
  · rw [hst, hd, add_sub_cancel_right]
    rfl

theorem invalidate (hv : (s.st g i).has valid = true) (hd : (s.st g i).counted = false) :
    Recount g s (s.invalidate g i) i := by
  have hst : (s.invalidate g i).st g i = invalid := by simp
  have hinv : invalid.has valid = false ∧ invalid.counted = false := by decide
  refine ⟨rfl, rfl, ?_, fun set => ?_, ?_⟩
  · rw [hst, hinv.1, hv]
    rfl
  · rw [hst, hinv.2, hd, Nat.add_sub_cancel]
    rfl
  · rw [hst, hinv.2, hd, add_sub_cancel_right]
    rfl

end Recount
end
end EnhanceIO
