import EnhanceIO.Tally

/-!
# Who may touch a block

The protection of a cache block is its flag byte: a request that works on a
block leaves `..INPROG` flags in it, and every other request keeps away. This
module says what those flags mean. An ebio that holds a block *owns* it with a
definite combination of flags (`holds`), given by what the peek found and how
far the ebio has come; an ebio that works on an `ALREADY_DIRTY` block only
*uses* it. `BlkInv` relates the flag bytes to owners and users, and keeps the
directory sound: one block per source sector, in its own set.

The lemmas at the end are the ways a block changes hands. Every function of the
driver is one of them.
-/

namespace EnhanceIO

open State

/-- The flags with which an ebio holds its block. -/
def holds : Role → EbSt → Option State
  | .hit, .peeked | .hit, .readCache => some (valid ||| cacheReadInprog)
  | .hit, .readFail | .hit, .reread => some (valid ||| diskReadInprog)
  | .fill, .peeked => some (valid ||| diskReadInprog)
  | .fill, .fillIssue | .fill, .readFill => some (valid ||| cacheWriteInprog)
  | .wr, .peeked => some (valid ||| cacheWriteInprog)
  | .wr, .ucIssue | .wr, .uc false false =>
    some (valid ||| cacheWriteInprog ||| diskWriteInprog)
  | .wr, .uc true false => some (valid ||| diskWriteInprog)
  | .wr, .uc false true => some (valid ||| cacheWriteInprog)
  | .wr, .cwIssue | .wr, .cw | .wr, .mdList | .wr, .mdPend | .wr, .mdProg => some dirtyInprog
  | _, _ => none

/-- The ebio holds block `i` with flags `f`. -/
def Ebio.Owns (eb : Ebio) (i : Nat) (f : State) : Prop :=
  eb.index = some i ∧ holds eb.role eb.st = some f

theorem Ebio.Owns.only {eb : Ebio} {i j : Nat} {f f' : State} (h : eb.Owns i f) (hj : j ≠ i) :
    ¬ eb.Owns j f' := fun ho => hj (by simpa using ho.1.symm.trans h.1)

theorem Ebio.not_owns_miss {eb : Ebio} (h : eb.role = .miss) (i : Nat) (f : State) :
    ¬ eb.Owns i f := by
  simp [Ebio.Owns, h, holds]

theorem Ebio.not_owns_dirty {eb : Ebio} (h : eb.role = .dirty) (i : Nat) (f : State) :
    ¬ eb.Owns i f := by
  simp [Ebio.Owns, h, holds]

/-- The ebio reads or writes the dirty block `i` in place. -/
def Ebio.Uses (eb : Ebio) (i : Nat) : Prop :=
  eb.index = some i ∧ eb.role = .dirty ∧ eb.st ≠ .done

/-! ## Flags of owned blocks -/

namespace State

theorem mem_held_of_holds {r : Role} {st : EbSt} {f : State} (h : holds r st = some f) :
    f ∈ held := by
  revert h
  fun_cases holds r st <;> intro h <;> simp at h <;> subst h <;> decide

end State

/-! ## The invariant of the directory -/

/-- A block-aligned sector of the source device, held at an index of its set. -/
structure Placed (g : Geom) (i d : Nat) : Prop where
  aligned : g.roundSector d = d
  inSet : g.hashBlock d = i / g.assoc
  onDisk : d < g.diskSize

theorem Placed.lt_size {g : Geom} {i d : Nat} (h : Placed g i d) : i < g.size := by
  have hlt := g.hashBlock_lt d
  rw [h.inSet, Nat.div_lt_iff_lt_mul g.assoc_pos, Nat.mul_comm] at hlt
  exact hlt

namespace Sys

/-- The sector under which the block of an ebio is cached. -/
def want (g : Geom) (s : Sys) (e : EbId) : Nat := g.roundSector (s.seg e).sector

end Sys

/-- With more than `2 ^ 32` blocks `eio_lookup` scans the wrong blocks for some
sectors; what depends on the right ones is said of smaller caches only. -/
structure BlkInv (g : Geom) (s : Sys) : Prop where
  allowed : ∀ i, s.st g i ∈ State.allowed
  owned : ∀ {e i f}, (s.ebio e).Owns i f →
    Shows (s.st g i) f ∧ (g.size ≤ 2 ^ 32 → s.dbn g i = s.want g e)
  excl : ∀ {e e' i f f'}, (s.ebio e).Owns i f → (s.ebio e').Owns i f' → e = e'
  used : ∀ {e i}, (s.ebio e).Uses i → s.st g i = alreadyDirty ∧ s.dbn g i = s.want g e
  placed : ∀ {i}, (s.st g i).has valid = true → Placed g i (s.dbn g i)
  uniq : g.size ≤ 2 ^ 32 → ∀ {i j}, (s.st g i).has valid = true →
    (s.st g j).has valid = true → s.dbn g i = s.dbn g j → i = j
  /-- a block with flags of a request on it has an owner -/
  held : ∀ {i}, ¬ (s.st g i).Resting → ∃ e f, (s.ebio e).Owns i f
  cleaned : ∀ {i}, s.st g i = cleanInprog → s.cleanSet = some (i / g.assoc)
  zero : Meta.ZeroOk g s.md
  /-- what is left in the descriptor of a dropped block is still on the device -/
  onDisk : ∀ i, s.dbn g i = 0 ∨ s.dbn g i < g.diskSize
  tally : Tally g s

theorem Ebio.not_owns_init (i : Nat) (f : State) : ¬ Ebio.init.Owns i f := by
  simp [Ebio.Owns, Ebio.init]

theorem Ebio.not_uses_init (i : Nat) : ¬ Ebio.init.Uses i := by
  simp [Ebio.Uses, Ebio.init]

/-- The blocks that `eio_cache_create` starts from: none is in use, and the valid ones are
where `eio_lookup` looks for them. -/
structure Sys.Loaded (g : Geom) (s : Sys) : Prop where
  resting : ∀ i, s.st g i = invalid ∨ s.st g i = valid ∨ s.st g i = alreadyDirty
  placed : ∀ {i}, (s.st g i).has valid = true → Placed g i (s.dbn g i)
  uniq : g.size ≤ 2 ^ 32 → ∀ {i j}, (s.st g i).has valid = true →
    (s.st g j).has valid = true → s.dbn g i = s.dbn g j → i = j
  onDisk : ∀ i, s.dbn g i = 0 ∨ s.dbn g i < g.diskSize

section
variable {g : Geom} {md : Meta} {hdd : Nat → Tag} {ssd : Nat → Nat → Tag} {mdDisk : Nat → MdEntry}

theorem Sys.Loaded.tally (h : (Sys.created g md hdd ssd mdDisk).Loaded g) :
    Tally g (Sys.created g md hdd ssd mdDisk) := by
  refine .created (fun i => ?_) fun i hv => (h.placed hv).lt_size
  rcases h.resting i with hc | hc | hc
  all_goals
    rw [show md.stateGet g i = _ from hc]
    decide

theorem BlkInv.created (h : (Sys.created g md hdd ssd mdDisk).Loaded g) :
    BlkInv g (Sys.created g md hdd ssd mdDisk) where
  allowed := fun i => by
    rcases h.resting i with hc | hc | hc <;> rw [hc] <;> decide
  owned := fun h => absurd h (Ebio.not_owns_init _ _)
  excl := fun h => absurd h (Ebio.not_owns_init _ _)
  used := fun h => absurd h (Ebio.not_uses_init _)
  placed := h.placed
  uniq := h.uniq
  held := fun {i} hno => by
    rcases h.resting i with hc | hc | hc <;> rw [hc] at hno <;> exact absurd hno (by decide)
  cleaned := fun {i} hclean => by
    rcases h.resting i with hc | hc | hc <;> rw [hc] at hclean <;> exact absurd hclean (by decide)
  zero := fun _ hlt => absurd hlt (Nat.lt_irrefl _)
  onDisk := h.onDisk
  tally := h.tally

end

/-- A new cache has no blocks to count. -/
theorem Sys.created_create (g : Geom) :
    Sys.created g (Meta.create g) (Sys.init g).hdd (Sys.init g).ssd (Sys.init g).mdDisk =
      Sys.init g := by
  have hcount := Meta.countBlocks_upto g (Meta.create g) g.size
  have hno : ∀ f, f = valid ∨ f = dirty → invalid.has f = false := by decide
  simp only [Meta.stateGet_create, hno _ (.inl rfl), hno _ (.inr rfl), Bool.false_and,
    List.countP_false] at hcount
  simp only [Sys.created, Meta.countBlocks, hcount]
  rfl

theorem Sys.Loaded.init (g : Geom) : (Sys.init g).Loaded g := by
  have hst : ∀ i, (Sys.init g).st g i = invalid := fun _ => Meta.stateGet_create
  have hno : ∀ i, ¬ ((Sys.init g).st g i).has valid = true := fun i => by rw [hst i]; decide
  refine ⟨fun i => .inl (hst i), fun h => absurd h (hno _), fun _ _ _ h => absurd h (hno _),
    fun i => .inl ?_⟩
  simp [Sys.dbn, Sys.init, Meta.dbnGet, Meta.create, Meta.expandDbn]

namespace BlkInv

variable {g : Geom} {s s' : Sys} {e : EbId} {i : Nat} {f f' c : State}

/-- A held block is neither idle nor used in place by another. -/
theorem not_uses_of_owns (h : BlkInv g s) (ho : (s.ebio e).Owns i f) (e' : EbId) :
    ¬ (s.ebio e').Uses i := by
  intro hu
  exact ((h.owned ho).1.ne_idle (mem_held_of_holds ho.2)).2.2.1 (h.used hu).1

theorem not_owns_of_idle (h : BlkInv g s)
    (hc : s.st g i = invalid ∨ s.st g i = valid ∨ s.st g i = alreadyDirty ∨
      s.st g i = cleanInprog) (e : EbId) (f : State) : ¬ (s.ebio e).Owns i f := by
  intro ho
  obtain ⟨hinv, hval, hdirty, hclean⟩ := (h.owned ho).1.ne_idle (mem_held_of_holds ho.2)
  rcases hc with hc | hc | hc | hc
  · exact hinv hc
  · exact hval hc
  · exact hdirty hc
  · exact hclean hc

theorem not_uses_of_ne (h : BlkInv g s) (hc : s.st g i ≠ alreadyDirty) (e : EbId) :
    ¬ (s.ebio e).Uses i :=
  fun hu => hc (h.used hu).1

end BlkInv

/-! ## How a block changes hands -/

/-- As far as blocks go, `s'` differs from `s` at most in block `i` and ebio `e`. -/
structure Near (g : Geom) (s s' : Sys) (e : EbId) (i : Nat) : Prop where
  req : s'.req = s.req
  eb : ∀ e' ≠ e, s'.ebio e' = s.ebio e'
  st : ∀ j ≠ i, s'.st g j = s.st g j
  dbn : ∀ j ≠ i, s'.dbn g j = s.dbn g j
  zero : Meta.ZeroOk g s.md → Meta.ZeroOk g s'.md
  stale : s'.dbn g i = s.dbn g i ∨ s'.dbn g i = 0 ∨ s'.dbn g i < g.diskSize
  count : Recount g s s' i

namespace Near

variable {g : Geom} {s s' : Sys} {e : EbId} {i : Nat} {c : State}

theorem refl (g : Geom) (s : Sys) (e : EbId) (i : Nat) : Near g s s e i :=
  ⟨rfl, fun _ _ => rfl, fun _ _ => rfl, fun _ _ => rfl, id, .inl rfl, .same rfl⟩

theorem want_eq (n : Near g s s' e i) (e' : EbId) : s'.want g e' = s.want g e' := by
  simp only [Sys.want, Sys.seg, n.req]

theorem updEb (n : Near g s s' e i) (fe : Ebio → Ebio) : Near g s (s'.updEb e fe) e i :=
  ⟨n.req, fun e' h => by simpa [h] using n.eb e' h, n.st, n.dbn, n.zero, n.stale,
    n.count.congr rfl⟩

theorem updBio (n : Near g s s' e i) (b : Nat) (fb : Bio → Bio) :
    Near g s (s'.updBio b fb) e i :=
  ⟨n.req, n.eb, n.st, n.dbn, n.zero, n.stale, n.count.congr rfl⟩

/-- The flags of a block change; the sector stays or, if the block becomes
invalid, may read as 0. -/
theorem flags (hcount : Recount g s s' i) (hmd : s'.md = (s.setSt g i c).md)
    (hreq : s'.req = s.req) (heb : ∀ e' ≠ e, s'.ebio e' = s.ebio e')
    (hv : (s.st g i).has valid = true) : Near g s s' e i where
  req := hreq
  eb := heb
  st := fun j h => by
    simp only [Sys.st, hmd]
    exact (Sys.setSt_st).trans (if_neg h)
  dbn := fun j h => by
    simp only [Sys.dbn, hmd]
    exact Sys.setSt_dbn (.inl h)
  zero := fun h => hmd ▸ h.stateSet
  stale := by
    have hne : s.st g i ≠ invalid := fun h => by
      rw [h] at hv
      exact absurd hv (by decide)
    have hcase : (s.setSt g i c).dbn g i = s.dbn g i ∨ (s.setSt g i c).dbn g i = 0 :=
      Meta.dbnGet_stateSet_self hne
    simp only [Sys.dbn, hmd] at hcase ⊢
    tauto
  count := hcount

/-- A valid block stays valid and is counted as before. -/
theorem setSt (e : EbId) (hv : (s.st g i).has valid = true) (hc : c.has valid = true)
    (hd : c.counted = (s.st g i).counted) : Near g s (s.setSt g i c) e i :=
  .flags (.setSt hv hc hd) rfl rfl (fun _ _ => rfl) hv

theorem invalidate (e : EbId) (hv : (s.st g i).has valid = true)
    (hd : (s.st g i).counted = false) : Near g s (s.invalidate g i) e i :=
  .flags (.invalidate hv hd) rfl rfl (fun _ _ => rfl) hv

end Near

namespace BlkInv

variable {g : Geom} {s s' : Sys} {e : EbId} {i : Nat} {f f' c : State}

theorem near_invalidate (h : BlkInv g s) (ho : (s.ebio e).Owns i f) :
    Near g s (s.invalidate g i) e i :=
  have hheld := (h.owned ho).1.held_flags (mem_held_of_holds ho.2)
  .invalidate e hheld.1 hheld.2

/-- The general change of hands: what the rest sees of block `i`, what `e` has
of it afterwards, and that the directory stays sound. -/
theorem change (h : BlkInv g s) (n : Near g s s' e i)
    (hallow : s'.st g i ∈ State.allowed)
    (hown : ∀ {e' f}, e' ≠ e → (s.ebio e').Owns i f →
      Shows (s'.st g i) f ∧ s'.dbn g i = s.dbn g i)
    (huse : ∀ {e'}, e' ≠ e → (s.ebio e').Uses i →
      s'.st g i = alreadyDirty ∧ s'.dbn g i = s.dbn g i)
    (heown : ∀ {j f}, (s'.ebio e).Owns j f →
      Shows (s'.st g j) f ∧ (g.size ≤ 2 ^ 32 → s'.dbn g j = s.want g e) ∧
        ∀ {e' f'}, e' ≠ e → ¬ (s.ebio e').Owns j f')
    (heuse : ∀ {j}, (s'.ebio e).Uses j → s'.st g j = alreadyDirty ∧ s'.dbn g j = s.want g e)
    (hplace : (s'.st g i).has valid = true → Placed g i (s'.dbn g i) ∧ (g.size ≤ 2 ^ 32 →
      ∀ j ≠ i, (s.st g j).has valid = true → s.dbn g j ≠ s'.dbn g i))
    (hheld : ¬ (s'.st g i).Resting → ∃ e' f, (s'.ebio e').Owns i f)
    (hkeep : ∀ {j f}, j ≠ i → (s.ebio e).Owns j f → (s'.ebio e).Owns j f)
    (hclean : s'.st g i = cleanInprog → s.cleanSet = some (i / g.assoc)) : BlkInv g s' where
  allowed := fun j => by
    by_cases hj : j = i
    · exact hj ▸ hallow
    · exact n.st j hj ▸ h.allowed j
  owned := fun {e' j f} ho => by
    rw [n.want_eq]
    by_cases he : e' = e
    · subst he
      exact ⟨(heown ho).1, (heown ho).2.1⟩
    · rw [n.eb e' he] at ho
      by_cases hj : j = i
      · subst hj
        have := hown he ho
        exact ⟨this.1, fun hsize => this.2.trans ((h.owned ho).2 hsize)⟩
      · rw [n.st j hj, n.dbn j hj]
        exact h.owned ho
  excl := fun {e₁ e₂ j f₁ f₂} ho₁ ho₂ => by
    by_cases he₁ : e₁ = e <;> by_cases he₂ : e₂ = e
    · rw [he₁, he₂]
    · rw [n.eb e₂ he₂] at ho₂
      exact absurd ho₂ ((heown (he₁ ▸ ho₁)).2.2 he₂)
    · rw [n.eb e₁ he₁] at ho₁
      exact absurd ho₁ ((heown (he₂ ▸ ho₂)).2.2 he₁)
    · rw [n.eb e₁ he₁] at ho₁
      rw [n.eb e₂ he₂] at ho₂
      exact h.excl ho₁ ho₂
  used := fun {e' j} hu => by
    rw [n.want_eq]
    by_cases he : e' = e
    · subst he
      exact heuse hu
    · rw [n.eb e' he] at hu
      by_cases hj : j = i
      · subst hj
        have := huse he hu
        exact ⟨this.1, this.2.trans (h.used hu).2⟩
      · rw [n.st j hj, n.dbn j hj]
        exact h.used hu
  placed := fun {j} hv => by
    by_cases hj : j = i
    · subst hj
      exact (hplace hv).1
    · rw [n.st j hj] at hv
      rw [n.dbn j hj]
      exact h.placed hv
  uniq := fun hsize j k hv hv' hd => by
    by_cases hj : j = i <;> by_cases hk : k = i
    · rw [hj, hk]
    · subst hj
      rw [n.st k hk] at hv'
      rw [n.dbn k hk] at hd
      exact absurd hd.symm ((hplace hv).2 hsize k hk hv')
    · subst hk
      rw [n.st j hj] at hv
      rw [n.dbn j hj] at hd
      exact absurd hd ((hplace hv').2 hsize j hj hv)
    · rw [n.st j hj] at hv
      rw [n.st k hk] at hv'
      rw [n.dbn j hj, n.dbn k hk] at hd
      exact h.uniq hsize hv hv' hd
  held := fun {j} hb => by
    by_cases hj : j = i
    · subst hj
      exact hheld hb
    · rw [n.st j hj] at hb
      obtain ⟨e', f, ho⟩ := h.held hb
      by_cases he : e' = e
      · subst he
        exact ⟨e', f, hkeep hj ho⟩
      · exact ⟨e', f, n.eb e' he ▸ ho⟩
  cleaned := fun {j} hc => by
    rw [n.count.clean]
    by_cases hj : j = i
    · subst hj
      exact hclean hc
    · exact h.cleaned (n.st j hj ▸ hc)
  zero := n.zero h.zero
  onDisk := fun j => by
    by_cases hj : j = i
    · subst hj
      rcases n.stale with hs | hs
      · rw [hs]
        exact h.onDisk j
      · exact hs
    · rw [n.dbn j hj]
      exact h.onDisk j
  tally := by
    refine h.tally.recount n.count n.st ?_
    rintro (hv | hv)
    · exact (h.placed hv).lt_size
    · exact (hplace hv).1.lt_size

/-- What `hplace` of `change` asks for holds if the block was valid before and
kept its sector. -/
theorem placed_same (h : BlkInv g s) (hv : (s.st g i).has valid = true)
    (hd : s'.dbn g i = s.dbn g i) :
    Placed g i (s'.dbn g i) ∧ (g.size ≤ 2 ^ 32 →
      ∀ j ≠ i, (s.st g j).has valid = true → s.dbn g j ≠ s'.dbn g i) := by
  rw [hd]
  exact ⟨h.placed hv, fun hsize j hj hvj heq => hj (h.uniq hsize hvj hv heq)⟩

/-- The owner goes on: it holds its block with other flags now. -/
theorem advance (h : BlkInv g s) (n : Near g s s' e i) (ho : (s.ebio e).Owns i f)
    (ho' : (s'.ebio e).Owns i f') (hs : Shows (s'.st g i) f')
    (hd : s'.dbn g i = s.dbn g i) : BlkInv g s' := by
  have hv := (h.owned ho).1.has_valid (mem_held_of_holds ho.2)
  refine h.change n (hs.mem_allowed (mem_held_of_holds ho'.2)) ?_ ?_ ?_ ?_
    (fun _ => h.placed_same hv hd) (fun _ => ⟨e, f', ho'⟩) (fun hj ho₁ => absurd ho₁ (ho.only hj))
    (fun hc => absurd hc (hs.ne_idle (mem_held_of_holds ho'.2)).2.2.2)
  · intro e' f₁ he ho₁
    exact absurd (h.excl ho₁ ho) he
  · intro e' _ hu
    exact absurd hu (h.not_uses_of_owns ho e')
  · intro j f₁ ho₁
    obtain rfl : i = j := by simpa using ho'.1.symm.trans ho₁.1
    obtain rfl : f' = f₁ := by simpa using ho'.2.symm.trans ho₁.2
    exact ⟨hs, fun hsize => hd.trans ((h.owned ho).2 hsize), fun he ho₂ => he (h.excl ho₂ ho)⟩
  · intro j hu
    exfalso
    have hf := ho'.2
    rw [hu.2.1] at hf
    simp [holds] at hf

/-- The owner lets its block go: idle, dirty, or invalid. -/
theorem release (h : BlkInv g s) (n : Near g s s' e i) (ho : (s.ebio e).Owns i f)
    (hno : ∀ j f', ¬ (s'.ebio e).Owns j f') (hnu : ∀ j, ¬ (s'.ebio e).Uses j)
    (hs : s'.st g i = invalid ∨
      ((s'.st g i = valid ∨ s'.st g i = alreadyDirty) ∧ s'.dbn g i = s.dbn g i)) :
    BlkInv g s' := by
  have hv := (h.owned ho).1.has_valid (mem_held_of_holds ho.2)
  refine h.change n ?_ ?_ ?_ (fun ho' => absurd ho' (hno _ _)) (fun hu => absurd hu (hnu _)) ?_
    (fun hr => absurd ?_ hr) (fun hj ho₁ => absurd ho₁ (ho.only hj)) (fun hc => absurd hc ?_)
  · rcases hs with hs | ⟨hs | hs, _⟩ <;> rw [hs] <;> decide
  · intro e' f₁ he ho₁
    exact absurd (h.excl ho₁ ho) he
  · intro e' _ hu
    exact absurd hu (h.not_uses_of_owns ho e')
  · intro hv'
    rcases hs with hs | ⟨_, hd⟩
    · rw [hs] at hv'
      simp [State.has, State.invalid, State.valid] at hv'
    · exact h.placed_same hv hd
  · rcases hs with hs | ⟨hs | hs, _⟩ <;> rw [hs] <;> decide
  · rcases hs with hs | ⟨hs | hs, _⟩ <;> rw [hs] <;> decide

/-- An idle block is taken for the sector an ebio wants. -/
theorem reserve (h : BlkInv g s) (n : Near g s s' e i)
    (hidle : s.st g i = valid ∨ s.st g i = invalid) (hnone : ∀ j f', ¬ (s.ebio e).Owns j f')
    (ho' : (s'.ebio e).Owns i f) (hs : s'.st g i = f) (hp : Placed g i (s'.dbn g i))
    (hd : g.size ≤ 2 ^ 32 → s'.dbn g i = s.want g e ∧
      ∀ j ≠ i, (s.st g j).has valid = true → s.dbn g j ≠ s.want g e) : BlkInv g s' := by
  have hno : ∀ e' f', ¬ (s.ebio e').Owns i f' :=
    h.not_owns_of_idle (hidle.elim (fun hc => .inr (.inl hc)) .inl)
  have hnu : ∀ e', ¬ (s.ebio e').Uses i := h.not_uses_of_ne (by
    rcases hidle with hc | hc <;> rw [hc] <;> decide)
  refine h.change n ?_ (fun _ ho => absurd ho (hno _ _)) (fun _ hu => absurd hu (hnu _)) ?_ ?_ ?_
    (fun _ => ⟨e, f, ho'⟩) (fun _ ho => absurd ho (hnone _ _))
    (fun hc => absurd (hs ▸ hc) ((Shows.self f).ne_idle (mem_held_of_holds ho'.2)).2.2.2)
  · rw [hs]
    exact (Shows.self f).mem_allowed (mem_held_of_holds ho'.2)
  · intro j f₁ ho₁
    obtain rfl : i = j := by simpa using ho'.1.symm.trans ho₁.1
    obtain rfl : f = f₁ := by simpa using ho'.2.symm.trans ho₁.2
    exact ⟨hs ▸ Shows.self f, fun hsize => (hd hsize).1, fun _ => hno _ _⟩
  · intro j hu
    exfalso
    have hf := ho'.2
    rw [hu.2.1] at hf
    simp [holds] at hf
  · intro _
    refine ⟨hp, fun hsize => ?_⟩
    rw [(hd hsize).1]
    exact (hd hsize).2

/-- No block changes; the ebio ends up without one, or using a dirty one. -/
theorem ebio (h : BlkInv g s) (n : Near g s s' e i) (hst : s'.st g i = s.st g i)
    (hd : s'.dbn g i = s.dbn g i) (hnone : ∀ j f, ¬ (s.ebio e).Owns j f)
    (hno : ∀ j f, ¬ (s'.ebio e).Owns j f)
    (hu : ∀ j, (s'.ebio e).Uses j → s.st g j = alreadyDirty ∧ s.dbn g j = s.want g e) :
    BlkInv g s' := by
  refine h.change n (hst ▸ h.allowed i) ?_ ?_ (fun ho => absurd ho (hno _ _)) ?_ ?_ ?_
    (fun _ ho => absurd ho (hnone _ _)) (fun hc => h.cleaned (hst ▸ hc))
  · intro e' f₁ _ ho
    rw [hst]
    exact ⟨(h.owned ho).1, hd⟩
  · intro e' _ hu'
    rw [hst]
    exact ⟨(h.used hu').1, hd⟩
  · intro j hu'
    by_cases hj : j = i
    · subst hj
      rw [hst, hd]
      exact hu j hu'
    · rw [n.st j hj, n.dbn j hj]
      exact hu j hu'
  · intro hv
    exact h.placed_same (hst ▸ hv) hd
  · intro hr
    obtain ⟨e', f, ho⟩ := h.held (hst ▸ hr)
    have he : e' ≠ e := by
      rintro rfl
      exact hnone _ _ ho
    exact ⟨e', f, n.eb e' he ▸ ho⟩

/-- A block changes without any ebio taking part. Owners see at most a `QUEUED`
more, users see nothing. -/
theorem block (h : BlkInv g s) (n : Near g s s' e i) (heb : s'.ebio e = s.ebio e)
    (hallow : s'.st g i ∈ State.allowed)
    (hown : ∀ {e' f}, (s.ebio e').Owns i f → Shows (s'.st g i) f)
    (huse : ∀ {e'}, (s.ebio e').Uses i → s'.st g i = alreadyDirty)
    (hv : (s'.st g i).has valid = true →
      (s.st g i).has valid = true ∧ s'.dbn g i = s.dbn g i)
    (hrest : (s.st g i).Resting → (s'.st g i).Resting)
    (hclean : s'.st g i = cleanInprog → s.cleanSet = some (i / g.assoc)) : BlkInv g s' := by
  have hown' : ∀ {e' f}, (s.ebio e').Owns i f →
      Shows (s'.st g i) f ∧ s'.dbn g i = s.dbn g i := by
    intro e' f ho
    exact ⟨hown ho, (hv ((hown ho).has_valid (mem_held_of_holds ho.2))).2⟩
  have huse' : ∀ {e'}, (s.ebio e').Uses i →
      s'.st g i = alreadyDirty ∧ s'.dbn g i = s.dbn g i := by
    intro e' hu
    exact ⟨huse hu, (hv (by rw [huse hu]; decide)).2⟩
  have heb' : ∀ e', s'.ebio e' = s.ebio e' := fun e' => by
    by_cases he : e' = e
    · rw [he, heb]
    · exact n.eb e' he
  refine h.change n hallow (fun _ => hown') (fun _ => huse') ?_ ?_
    (fun hv' => h.placed_same (hv hv').1 (hv hv').2) ?_ (fun _ ho => heb.symm ▸ ho) hclean
  · intro j f₁ ho
    rw [heb] at ho
    refine ⟨?_, ?_, fun he ho' => he (h.excl ho' ho)⟩
    · by_cases hj : j = i
      · subst hj
        exact (hown' ho).1
      · exact n.st j hj ▸ (h.owned ho).1
    · intro hsize
      by_cases hj : j = i
      · subst hj
        exact (hown' ho).2.trans ((h.owned ho).2 hsize)
      · exact (n.dbn j hj).trans ((h.owned ho).2 hsize)
  · intro j hu
    rw [heb] at hu
    by_cases hj : j = i
    · subst hj
      exact ⟨(huse' hu).1, (huse' hu).2.trans (h.used hu).2⟩
    · rw [n.st j hj, n.dbn j hj]
      exact h.used hu
  · intro hr
    obtain ⟨e', f, ho⟩ := h.held fun hrs => hr (hrest hrs)
    exact ⟨e', f, (heb' e').symm ▸ ho⟩

theorem congr (h : BlkInv g s) (hc : s'.counts = s.counts) (heb : s'.ebio = s.ebio)
    (hreq : s'.req = s.req) : BlkInv g s' := by
  have hmd : s'.md = s.md := congrArg Prod.fst hc
  have hst : ∀ i, s'.st g i = s.st g i := fun i => by simp only [Sys.st, hmd]
  have hdbn : ∀ i, s'.dbn g i = s.dbn g i := fun i => by simp only [Sys.dbn, hmd]
  have n : Near g s s' (0, 0) 0 :=
    ⟨hreq, fun _ _ => by rw [heb], fun j _ => hst j, fun j _ => hdbn j, fun h => hmd ▸ h,
      .inl (hdbn 0), .same hc⟩
  refine h.block n (by rw [heb]) (hst 0 ▸ h.allowed 0) ?_ ?_ ?_ (hst 0 ▸ id)
    (fun hc => h.cleaned (hst 0 ▸ hc))
  · intro e' f ho
    exact hst 0 ▸ (h.owned ho).1
  · intro e' hu
    exact hst 0 ▸ (h.used hu).1
  · intro hv
    exact ⟨hst 0 ▸ hv, hdbn 0⟩

end BlkInv
end EnhanceIO
