import EnhanceIO.Meta

/-!
# Compressed metadata over a whole history

With 4-byte metadata the accessors of `eio.h` keep 24 bits of a sector. The laws
of `Meta` are about one store; here they are carried through any sequence of
`EIO_DBN_SET`, `EIO_CACHE_STATE_SET` and `eio_invalidate_md`: what is read from
a block is the sector last stored there.
-/

namespace EnhanceIO

/-- An operation on the in-core metadata. -/
inductive MdOp where
  | dbnSet (index dbn : Nat)
  | stateSet (index : Nat) (c : State)
  | invalidateMd (index : Nat)
  deriving DecidableEq, Repr

namespace Meta

/-- `eio_invalidate_md`. -/
def invalidateMd (g : Geom) (m : Meta) (index : Nat) : Meta :=
  if g.md8 then { m with cacheMd8 := Function.update m.cacheMd8 index ⟨0, State.invalid⟩ }
  else { m with cache := Function.update m.cache index ⟨0, State.invalid⟩ }

/-- One operation. -/
def apply (g : Geom) (m : Meta) : MdOp → Meta
  | .dbnSet index dbn => m.dbnSet g index dbn
  | .stateSet index c => m.stateSet g index c
  | .invalidateMd index => m.invalidateMd g index

end Meta

namespace MdOp

/-- What the driver keeps to: a sector is on the source device and is stored at
a block of its set. -/
def Ok (g : Geom) : MdOp → Prop
  | .dbnSet index dbn => dbn < g.diskSize ∧ index / g.assoc = g.hashBlock dbn
  | _ => True

instance (g : Geom) : (op : MdOp) → Decidable (op.Ok g)
  | .dbnSet _ _ => inferInstanceAs (Decidable (_ ∧ _))
  | .stateSet _ _ => inferInstanceAs (Decidable True)
  | .invalidateMd _ => inferInstanceAs (Decidable True)

/-- The sector last stored at each block since its last `eio_invalidate_md`. -/
def remember (last : Nat → Option Nat) : MdOp → Nat → Option Nat
  | .dbnSet index dbn => Function.update last index (some dbn)
  | .stateSet _ _ => last
  | .invalidateMd index => Function.update last index none

end MdOp

/-- What a history leaves in the descriptors: the shrunk sector, or zero where
none was stored. -/
structure Remembers (g : Geom) (m : Meta) (last : Nat → Option Nat) : Prop where
  zero : Meta.ZeroOk g m
  stored : ∀ {index dbn}, last index = some dbn →
    (m.cache index).dbn = g.shrinkDbn dbn ∧ dbn < g.diskSize ∧ index / g.assoc = g.hashBlock dbn
  blank : ∀ {index}, last index = none → (m.cache index).dbn = 0

section
variable {g : Geom} {m : Meta} {last : Nat → Option Nat} {index : Nat}

theorem Remembers.create (g : Geom) : Remembers g (Meta.create g) fun _ => none where
  zero := .create g
  stored := by simp
  blank := by simp [Meta.create]

theorem Meta.ZeroOk.invalidateMd (hmd : g.md8 = false) (h : Meta.ZeroOk g m) :
    Meta.ZeroOk g (m.invalidateMd g index) := by
  intro _ hlt
  simp only [Meta.invalidateMd, hmd, Bool.false_eq_true, if_false] at hlt ⊢
  by_cases hz : m.indexZero = index
  · simp [hz]
  · simpa [hz] using h hmd hlt

theorem Remembers.update {m' : Meta} {x : Option Nat} (h : Remembers g m last)
    (hz : Meta.ZeroOk g m') (hne : ∀ j ≠ index, (m'.cache j).dbn = (m.cache j).dbn)
    (hstored : ∀ dbn, x = some dbn → (m'.cache index).dbn = g.shrinkDbn dbn ∧
      dbn < g.diskSize ∧ index / g.assoc = g.hashBlock dbn)
    (hblank : x = none → (m'.cache index).dbn = 0) :
    Remembers g m' (Function.update last index x) where
  zero := hz
  stored := by
    intro j dbn hj
    by_cases hji : j = index
    · subst hji
      rw [Function.update_self] at hj
      exact hstored dbn hj
    · rw [Function.update_of_ne hji] at hj
      rw [hne j hji]
      exact h.stored hj
  blank := by
    intro j hj
    by_cases hji : j = index
    · subst hji
      rw [Function.update_self] at hj
      exact hblank hj
    · rw [Function.update_of_ne hji] at hj
      rw [hne j hji]
      exact h.blank hj

theorem Remembers.apply (hmd : g.md8 = false) {op : MdOp} (h : Remembers g m last)
    (hop : op.Ok g) : Remembers g (m.apply g op) (op.remember last) := by
  cases op with
  | dbnSet index dbn =>
    have hcache : ∀ j, ((m.dbnSet g index dbn).cache j).dbn =
        if j = index then g.shrinkDbn dbn else (m.cache j).dbn := by
      intro j
      by_cases h0 : dbn = 0 <;> by_cases hj : j = index <;>
        simp [Meta.dbnSet, hmd, h0, Meta.md4DbnSet, hj]
    refine h.update h.zero.dbnSet (fun j hj => ?_) ?_ (by simp)
    · show ((m.dbnSet g index dbn).cache j).dbn = _
      rw [hcache, if_neg hj]
    · rintro d hd
      cases hd
      refine ⟨?_, hop⟩
      show ((m.dbnSet g index dbn).cache index).dbn = _
      rw [hcache, if_pos rfl]
  | stateSet index c =>
    have hcache : ∀ j, ((m.stateSet g index c).cache j).dbn = (m.cache j).dbn := by
      intro j
      by_cases hj : j = index <;> simp [Meta.stateSet, hmd, hj]
    refine ⟨h.zero.stateSet, ?_, ?_⟩
    · intro j dbn hj
      show ((m.stateSet g index c).cache j).dbn = _ ∧ _
      rw [hcache]
      exact h.stored hj
    · intro j hj
      show ((m.stateSet g index c).cache j).dbn = 0
      rw [hcache]
      exact h.blank hj
  | invalidateMd index =>
    refine h.update (h.zero.invalidateMd hmd) ?_ (by simp) ?_
    · intro j hj
      simp [Meta.apply, Meta.invalidateMd, hmd, hj]
    · intro _
      simp [Meta.apply, Meta.invalidateMd, hmd]

theorem Remembers.run (hmd : g.md8 = false) (ops : List MdOp) (hops : ∀ op ∈ ops, op.Ok g) :
    ∀ {m last}, Remembers g m last →
      Remembers g (ops.foldl (Meta.apply g) m) (ops.foldl MdOp.remember last) := by
  induction ops with
  | nil => exact fun h => h
  | cons op ops ih =>
    intro m last h
    exact ih (fun op' hop' => hops op' (List.mem_cons_of_mem _ hop'))
      (h.apply hmd (hops op List.mem_cons_self))

/-- What `EIO_DBN_GET` reads: the sector stored, except that a block without
flags and with a zero descriptor reads as sector 0. -/
theorem Remembers.expandDbn (hmd : g.md8 = false) (h : Remembers g m last) {dbn : Nat}
    (hlast : last index = some dbn) :
    m.expandDbn g index = dbn ∨ m.expandDbn g index = 0 ∧ m.stateGet g index = State.invalid := by
  obtain ⟨hcache, hlt, hset⟩ := h.stored hlast
  have hfit := Nat.lt_of_lt_of_le hlt (Geom.diskSize_le_of_not_md8 hmd)
  rw [h.zero.expandDbn_eq hmd]
  split
  · next hzero => exact .inr ⟨rfl, by simp [Meta.stateGet, hmd, hzero.2]⟩
  · rw [hcache, g.expandBits_shrinkDbn hset.le hfit, hset, g.moved_self]
    exact .inl rfl

end

/-- **4-byte metadata is lossless.** After any sequence of stores, a block that
is in use reads as the sector last stored there; shrinking tells the sectors of
a set apart, sets are numbered below `num_sets`, and neither assertion fails. -/
theorem md4_lossless (g : Geom) (hmd : g.md8 = false) (hshift : g.setShift ≤ 23)
    (ops : List MdOp) (hops : ∀ op ∈ ops, op.Ok g) :
    let m := ops.foldl (Meta.apply g) (Meta.create g)
    let last := ops.foldl MdOp.remember fun _ => none
    (∀ index dbn, last index = some dbn → m.stateGet g index ≠ State.invalid →
      m.dbnGet g index = dbn) ∧
    (∀ dbn dbn', dbn < g.diskSize → dbn' < g.diskSize → g.hashBlock dbn = g.hashBlock dbn' →
      g.shrinkDbn dbn = g.shrinkDbn dbn' → dbn = dbn') ∧
    (∀ dbn, g.hashBlock dbn < g.numSets) ∧
    (∀ index dbn, MdOp.dbnSet index dbn ∈ ops → g.dbnFits dbn = true) ∧
    ∀ index, last index ≠ none ∨ m.stateGet g index = State.invalid →
      m.expandDbn g index < 2 ^ 40 := by
  intro m last
  have h : Remembers g m last := Remembers.run hmd ops hops (.create g)
  refine ⟨?_, ?_, g.hashBlock_lt, ?_, ?_⟩
  · intro index dbn hlast hstate
    simp only [Meta.dbnGet, hmd, Bool.false_eq_true, if_false]
    rcases h.expandDbn hmd hlast with hd | ⟨_, hinv⟩
    · exact hd
    · exact absurd hinv hstate
  · -- both are what expanding the common descriptor in the common set gives
    intro dbn dbn' hlt hlt' hset heq
    have hmax := Geom.diskSize_le_of_not_md8 hmd
    have h1 := g.expandBits_shrinkDbn (Nat.le_refl (g.hashBlock dbn)) (hlt.trans_le hmax)
    have h2 := g.expandBits_shrinkDbn (Nat.le_refl (g.hashBlock dbn')) (hlt'.trans_le hmax)
    rw [g.moved_self] at h1 h2
    rw [← h1, ← h2, hset, heq]
  · intro index dbn hmem
    exact g.dbnFits_of_lt (fun _ => hshift) (hops _ hmem).1
  · intro index hcase
    cases hlast : last index with
    | none =>
      have hinv : m.stateGet g index = State.invalid := hcase.resolve_left (fun hn => hn hlast)
      simp only [Meta.stateGet, hmd, Bool.false_eq_true, if_false] at hinv
      rw [h.zero.expandDbn_eq hmd, if_pos ⟨h.blank hlast, hinv⟩]
      exact Nat.two_pow_pos 40
    | some dbn =>
      have hlt := (h.stored hlast).2.1
      have hdisk := g.diskSize_lt
      rcases h.expandDbn hmd hlast with hd | ⟨hd, _⟩ <;> omega

/-- A cache of 50000 sets of 512 blocks, small enough for 4-byte metadata. -/
def md4Cache : Geom :=
  .ofSizes .wt 3 9 50000 (2 ^ 30) (by decide)

/-- The history of a block of set 10000: a sector whose masked set value wraps,
stored after the one that set number stands for. -/
def md4History : List MdOp :=
  [.stateSet 5120000 State.valid, .dbnSet 5120000 40960000, .invalidateMd 5120000,
    .stateSet 5120000 State.valid, .dbnSet 5120000 (60000 * 4096 + 8)]

theorem md4_lossless_wrapped : md4Cache.md8 = false ∧
    (md4History.foldl (Meta.apply md4Cache) (Meta.create md4Cache)).dbnGet md4Cache 5120000 =
      60000 * 4096 + 8 := by
  have hmd : md4Cache.md8 = false := by decide +kernel
  have hops : ∀ op ∈ md4History, op.Ok md4Cache := by decide +kernel
  exact ⟨hmd, (md4_lossless md4Cache hmd (by decide) md4History hops).1 5120000 _
    (by decide +kernel) (by decide +kernel)⟩

end EnhanceIO
