import Mathlib.Data.BitVec

/-!
# The flag byte of a cache block

`cache_state` of `eio.h`: one byte of flags per cache block. Every function of
the driver reads it with a mask and writes it back with an absolute store, an
`|=` or an `&= ~`; the model keeps the byte, so that each of those is the same
operation here.
-/

namespace EnhanceIO

/-- The `cache_state` byte of a cache block. -/
abbrev State := BitVec 8

namespace State

def invalid : State := 0x01
def valid : State := 0x02
def diskReadInprog : State := 0x04
def diskWriteInprog : State := 0x08
def cacheReadInprog : State := 0x10
def cacheWriteInprog : State := 0x20
def dirty : State := 0x40
def queued : State := 0x80

/-- `BLOCK_IO_INPROG`. -/
def blockIoInprog : State :=
  diskReadInprog ||| diskWriteInprog ||| cacheReadInprog ||| cacheWriteInprog

/-- `DIRTY_INPROG`: a block being dirtied. -/
def dirtyInprog : State := valid ||| dirty ||| cacheWriteInprog

/-- `CLEAN_INPROG`: a block being cleaned. -/
def cleanInprog : State := valid ||| dirty ||| diskWriteInprog

/-- `ALREADY_DIRTY`. -/
def alreadyDirty : State := valid ||| dirty

/-- `cache_state & mask` as a condition. -/
def has (c mask : State) : Bool := c &&& mask != 0

/-- `EIO_CACHE_STATE_ON`. -/
def on (c mask : State) : State := c ||| mask

/-- `EIO_CACHE_STATE_OFF`. -/
def off (c mask : State) : State := c &&& ~~~mask

/-- The flag combinations of a block that some request is working on without
having made it dirty. -/
def busy : List State :=
  [valid ||| diskReadInprog, valid ||| cacheReadInprog, valid ||| cacheWriteInprog,
    valid ||| diskWriteInprog, valid ||| cacheWriteInprog ||| diskWriteInprog]

/-- The combinations the flag byte may take. -/
def allowed : List State :=
  [invalid, valid] ++ busy ++ busy.map (on · queued) ++
    [alreadyDirty, dirtyInprog, cleanInprog]

/-- The states in which a request may own a block, and what the byte may then
read: the flags of the request, and `QUEUED` on top if a range invalidation
passed by. Dirty owners are skipped by the invalidation. -/
def Shows (c f : State) : Prop := c = f ∨ (c = f.on queued ∧ f.has dirty = false)

instance (c f : State) : Decidable (Shows c f) := inferInstanceAs (Decidable (_ ∨ _))

/-- Every combination of flags a block can be held with. -/
def held : List State := busy ++ [dirtyInprog]

/-- No request works on the block. -/
def Resting (c : State) : Prop :=
  c = invalid ∨ c = valid ∨ c = alreadyDirty ∨ c = cleanInprog

instance (c : State) : Decidable c.Resting := inferInstanceAs (Decidable (_ ∨ _))

/-! ## Tables of flags -/

theorem allowed_idle : ∀ c ∈ allowed, c.has invalid = false →
    c.has (blockIoInprog ||| dirty ||| queued) = false → c = valid := by
  decide +kernel

theorem allowed_queue : ∀ c ∈ allowed,
    c.has (blockIoInprog ||| dirty ||| queued) = true → c.has (dirty ||| queued) = false →
      c.on queued ∈ allowed ∧ c.has queued = false ∧ c ≠ invalid ∧ c ≠ alreadyDirty ∧
        c.on queued ≠ invalid ∧ c.has dirty = false ∧ c.has valid = true := by
  decide +kernel

theorem allowed_busy : ∀ c ∈ allowed, c.has (blockIoInprog ||| dirty ||| queued) = true →
    c.has (dirty ||| queued) = false → ¬ c.Resting := by
  decide +kernel

theorem held_clean : ∀ f ∈ held, f.has (dirty ||| cacheWriteInprog) = false →
    (f.has dirty = false ∧ f.has cacheWriteInprog = false) ∧
      ((f.on queued).has dirty = false ∧ (f.on queued).has cacheWriteInprog = false) := by
  decide +kernel

theorem allowed_free : ∀ c ∈ allowed, c.has valid = true →
    c.has (blockIoInprog ||| queued) = false → c = valid ∨ c = alreadyDirty := by
  decide +kernel

/-- A fact about held blocks, checked on each combination with and without
`QUEUED`. -/
theorem Shows.elim {c f : State} {P : State → Prop} (h : Shows c f) (hf : f ∈ held)
    (hp : ∀ f ∈ held, P f ∧ (f.has dirty = false → P (f.on queued))) : P c := by
  rcases h with rfl | ⟨rfl, hd⟩
  · exact (hp _ hf).1
  · exact (hp _ hf).2 hd

theorem Shows.mem_allowed {c f : State} (h : Shows c f) (hf : f ∈ held) : c ∈ allowed :=
  h.elim (P := (· ∈ allowed)) hf (by decide +kernel)

theorem Shows.has_valid {c f : State} (h : Shows c f) (hf : f ∈ held) : c.has valid = true :=
  h.elim (P := fun c => c.has valid = true) hf (by decide +kernel)

/-- A held block is never idle and never being cleaned. -/
theorem Shows.ne_idle {c f : State} (h : Shows c f) (hf : f ∈ held) :
    c ≠ invalid ∧ c ≠ valid ∧ c ≠ alreadyDirty ∧ c ≠ cleanInprog :=
  h.elim (P := fun c => c ≠ invalid ∧ c ≠ valid ∧ c ≠ alreadyDirty ∧ c ≠ cleanInprog) hf
    (by decide +kernel)

theorem Shows.self (f : State) : Shows f f := .inl rfl

theorem has_queued_on (f : State) : (f.on queued).has queued = true := by
  simp [State.has, State.on, State.queued, BitVec.and_or_distrib_right]

theorem Shows.eq_of_unqueued {c f : State} (h : Shows c f) (hq : c.has queued = false) :
    c = f := by
  rcases h with rfl | ⟨rfl, _⟩
  · rfl
  · simp [has_queued_on] at hq

end State
end EnhanceIO
