import EnhanceIO.MdLoad

/-!
# When a load is safe

`eio_md_load` takes the fields of the superblock and the entries of the metadata as they are.
It checks the version, the magic number and the state, and asserts that the sector numbers fit
their fields; nothing else of what makes a cache well-formed is checked. So a load is safe
exactly on a device whose contents are well-formed as far as the load gets.
-/

namespace EnhanceIO

/-- What a cache needs to work: the geometry is in powers of two, and each valid block has a
sector number of its own, in the source and in its set. -/
structure Config.WellFormed (cfg : Config) (diskSize : Nat) (valid : Nat → Prop)
    (dbn : Nat → Option Nat) : Prop where
  assoc : ∃ a, cfg.assoc.toNat = 2 ^ a
  blockSize : ∃ b, cfg.blockSize.toNat = 2 ^ b
  pos : 0 < cfg.size.toNat
  sets : cfg.assoc.toNat ∣ cfg.size.toNat
  /-- the shifts of `eio_expand_dbn` are defined, if there is a block to use it on -/
  shift : (∃ i < cfg.size.toNat, valid i) → cfg.md8 = true ∨ cfg.setShift + 1 < 32
  placed : ∀ i < cfg.size.toNat, valid i →
    ∃ d, dbn i = some d ∧ d < diskSize ∧ (cfg.dbnToSet d).1 = i / cfg.assoc.toNat
  unique : ∀ i < cfg.size.toNat, ∀ j < cfg.size.toNat, valid i → valid j → dbn i = dbn j → i = j

theorem Config.WellFormed.congr {cfg : Config} {diskSize : Nat} {valid valid' : Nat → Prop}
    {dbn dbn' : Nat → Option Nat} (hvalid : ∀ i < cfg.size.toNat, (valid i ↔ valid' i))
    (hdbn : (cfg.md8 = true ∨ cfg.setShift + 1 < 32) → ∀ i < cfg.size.toNat, valid i →
      dbn i = dbn' i)
    (h : cfg.WellFormed diskSize valid dbn) : cfg.WellFormed diskSize valid' dbn' where
  assoc := h.assoc
  blockSize := h.blockSize
  pos := h.pos
  sets := h.sets
  shift := fun ⟨i, hi, hv⟩ => h.shift ⟨i, hi, (hvalid i hi).mpr hv⟩
  placed := by
    intro i hi hv
    have hold := (hvalid i hi).mpr hv
    rw [← hdbn (h.shift ⟨i, hi, hold⟩) i hi hold]
    exact h.placed i hi hold
  unique := by
    intro i hi j hj hvi hvj heq
    have hi' := (hvalid i hi).mpr hvi
    have hj' := (hvalid j hj).mpr hvj
    have hshift := h.shift ⟨i, hi, hi'⟩
    rw [← hdbn hshift i hi hi', ← hdbn hshift j hj hj'] at heq
    exact h.unique i hi j hj hi' hj' heq

/-- A cache in memory is well-formed, and its array is as long as its entries need. -/
structure RawCache.WellFormed (c : RawCache) (diskSize : Nat) : Prop where
  array : c.arrayBytes = some (c.cfg.size.toNat * c.cfg.entrySize)
  blocks : c.cfg.WellFormed diskSize c.Valid c.dbnGet

/-- The entry becomes a valid block. -/
def MdEntry.Loaded (clean : Bool) (e : MdEntry) : Prop :=
  e.Taken clean ∧ e.state.has State.valid = true

/-- The sector number that block `i` gets from an entry. -/
def Config.entryDbn (cfg : Config) (i : Nat) (e : MdEntry) : Option Nat :=
  if cfg.md8 then some e.dbn
  else (cfg.dbnBits e.dbn).bind fun bits => cfg.expandDbn (i / cfg.assoc.toNat) bits

section
variable {cfg : Config} {clean : Bool} {entry : Nat → MdEntry} {n i : Nat} {st : RawLoop}
  {c : RawCache}

theorem Config.expandDbn_zero (h : cfg.setShift + 1 < 32) : cfg.expandDbn 0 0 = some 0 := by
  unfold expandDbn
  rw [if_neg (Nat.not_le.mpr h)]
  simp

theorem State.has_valid_off_queued (s : State) :
    (s.off State.queued).has State.valid = s.has State.valid := by
  rw [has, off, BitVec.and_assoc, show ~~~queued &&& valid = valid from rfl, has]

theorem RawLoop.Read.valid_iff (h : RawLoop.Read c.cfg clean entry n st) (hi : i < n)
    (hblocks : c.blocks = st.blocks) : c.Valid i ↔ (entry i).Loaded clean := by
  unfold RawCache.Valid MdEntry.Loaded
  rw [hblocks, h.blocks i hi, Config.block]
  by_cases htaken : (entry i).Taken clean
  · rw [if_pos htaken]
    simp [htaken, State.has_valid_off_queued]
  · rw [if_neg htaken]
    refine iff_of_false ?_ fun hl => htaken hl.1
    rintro ⟨s, hs, hv⟩
    cases hs
    cases hv

/-- `EIO_DBN_GET` of a valid block, also of the one that is known to stand for sector 0. -/
theorem RawLoop.Read.dbnGet_eq (h : RawLoop.Read c.cfg clean entry n st) (hi : i < n)
    (hblocks : c.blocks = st.blocks) (hzero : c.indexZero = st.indexZero)
    (hshift : c.cfg.md8 = true ∨ c.cfg.setShift + 1 < 32) (hv : c.Valid i) :
    c.dbnGet i = c.cfg.entryDbn i (entry i) := by
  have hloaded := (h.valid_iff hi hblocks).mp hv
  have hpass := (h.fine i hi).passes hloaded.1
  have hdbn : (c.blocks i).dbn = c.cfg.dbnBits (entry i).dbn := by
    rw [hblocks, h.blocks i hi, Config.block, if_pos hloaded.1]
  unfold RawCache.dbnGet Config.entryDbn
  by_cases hmd8 : c.cfg.md8 = true
  · rw [if_pos hmd8, if_pos hmd8, hdbn]
    have hsome := hpass.dbn
    unfold Config.dbnBits at hsome ⊢
    rw [if_pos hmd8] at hsome ⊢
    split at hsome
    · next hlt => rw [if_pos hlt]
    · cases hsome
  · rw [if_neg hmd8, if_neg hmd8]
    by_cases hz : i = c.indexZero ∧ c.indexZero < c.cfg.assoc.toNat
    · have hassoc : i < c.cfg.assoc.toNat := hz.1 ▸ hz.2
      have hbits := h.zero i hi (hzero.symm.trans hz.1.symm) hassoc hloaded.1
      rw [if_pos hz, hbits, Option.bind_some, Nat.div_eq_of_lt hassoc,
        Config.expandDbn_zero (hshift.resolve_left hmd8)]
    · rw [if_neg hz, hdbn]
      congr 1
      funext bits
      -- a valid block is not one that was dropped
      rw [if_neg]
      rintro ⟨-, hstate⟩
      obtain ⟨s, hs, hvs⟩ := hv
      rw [hstate] at hs
      cases hs
      cases hvs

end

namespace LoadReq

open RawLoop (Reached Read)

variable {env : LoadEnv} {r : LoadReq} {ssd : Ssd}

/-- The load ends: with an error, with the request to create the cache anew, or with a
well-formed cache. -/
def SafeEnd (diskSize : Nat) : Option (Int × RawCache × Ssd) → Prop
  | none => False
  | some (ret, c, _) => ret ≠ 0 ∨ c.persistence = cacheForcecreate ∨ c.WellFormed diskSize

/-- The contents of the device, as far as the load gets: each entry passes the assertions, and
if the load does not end in an error, the blocks are well-formed. -/
structure Sound (env : LoadEnv) (r : LoadReq) (ssd : Ssd) (cfg : Config) : Prop where
  fine : ∀ i < cfg.size.toNat, Reached env.mdRead r.nrPages i →
    cfg.Fine (r.cleanShutdown ssd.sb) (entries ssd) i
  ends : (∃ i < cfg.size.toNat, ¬ Reached env.mdRead r.nrPages i) ∨
    DirtyRefused ssd cfg ∨ StoreFails env cfg ∨
      (r.Md8Kept ssd ∧ cfg.WellFormed r.diskSize
        (fun i => (entries ssd i).Loaded (r.cleanShutdown ssd.sb))
        fun i => cfg.entryDbn i (entries ssd i))

theorem finished_wellFormed_iff {needed : Bool} {st : RawLoop}
    (hmem : (r.config ssd).memInitMd8 r.diskSize = some needed)
    (hsize : (r.config ssd).size.toNat ≠ 0)
    (hread : Read ((r.config ssd).setMd8 needed) (r.cleanShutdown ssd.sb) (entries ssd)
      (r.config ssd).size.toNat st) :
    (finished (r.ready ssd needed) st).WellFormed r.diskSize ↔
      r.Md8Kept ssd ∧ ((r.config ssd).setMd8 needed).WellFormed r.diskSize
        (fun i => (entries ssd i).Loaded (r.cleanShutdown ssd.sb))
        fun i => ((r.config ssd).setMd8 needed).entryDbn i (entries ssd i) := by
  have hread' : Read (finished (r.ready ssd needed) st).cfg (r.cleanShutdown ssd.sb) (entries ssd)
      (r.config ssd).size.toNat st := hread
  have harray := finished_array_iff st hmem hsize
  constructor
  · intro h
    refine ⟨harray.mp h.array, h.blocks.congr (fun i hi => hread'.valid_iff hi rfl) ?_⟩
    exact fun hshift i hi hv => hread'.dbnGet_eq hi rfl rfl hshift hv
  · intro h
    refine ⟨harray.mpr h.1, h.2.congr (fun i hi => (hread'.valid_iff hi rfl).symm) ?_⟩
    intro hshift i hi hv
    exact (hread'.dbnGet_eq hi rfl rfl hshift ((hread'.valid_iff hi rfl).mpr hv)).symm

theorem blocks_safe_iff {needed : Bool} {result : Option (Int × RawCache × Ssd)}
    (hmem : (r.config ssd).memInitMd8 r.diskSize = some needed)
    (hsize : (r.config ssd).size.toNat ≠ 0)
    (hend : BlocksEnd env r ssd (r.ready ssd needed) result) :
    SafeEnd r.diskSize result ↔ r.Sound env ssd ((r.config ssd).setMd8 needed) := by
  cases hend with
  | refused ret c' hret fine why =>
    exact iff_of_true (.inl hret) ⟨fine, why.imp_right fun h => h.imp_right .inl⟩
  | stuck bad =>
    refine iff_of_false id fun h => ?_
    obtain ⟨i, hi, hreached, hbad⟩ := bad
    exact hbad (h.fine i hi hreached)
  | loaded st read reached mode store =>
    have hwf := finished_wellFormed_iff hmem hsize read
    constructor
    · rintro (hret | hpers | h)
      · exact absurd rfl hret
      · cases hpers
      · exact ⟨fun i hi _ => read.fine i hi, .inr (.inr (.inr (hwf.mp h)))⟩
    · rintro ⟨-, ⟨i, hi, hlost⟩ | hdirty | hstore | h⟩
      · exact absurd (reached i hi) hlost
      · exact absurd hdirty mode
      · exact absurd hstore store
      · exact .inr (.inr (hwf.mpr h))

/-- **Loading what is on the device.** The load is safe exactly if it does not get past the
checks of the superblock, or there is a policy, the associativity is not 0 and the sets can be
counted, and then an allocation fails or the contents are sound. -/
theorem load_safe_iff (env : LoadEnv) (r : LoadReq) (ssd : Ssd) :
    SafeEnd r.diskSize (r.load env ssd) ↔
      (Checked env r ssd → PolicyFound env r ssd ∧
        ∃ needed, (r.config ssd).memInitMd8 r.diskSize = some needed ∧
          (AllocFails env r (r.config ssd).size.toNat ∨
            r.Sound env ssd ((r.config ssd).setMd8 needed))) := by
  have hend := load_end env r ssd
  generalize r.load env ssd = result at hend ⊢
  cases hend with
  | unchecked ret c hret check => exact iff_of_true (.inl hret) fun h => absurd h check
  | recreate refuse =>
    refine iff_of_true (.inr (.inl rfl)) fun h => ?_
    rw [h.refuse] at refuse
    cases refuse
  | noPolicy check policy =>
    refine iff_of_false ?_ fun h => policy (h check).1
    rintro (hret | hpers | hwf)
    · exact hret rfl
    · cases hpers
    · cases hwf.blocks.pos
  | noMem check policy mem =>
    refine iff_of_false id fun h => ?_
    obtain ⟨-, needed, hmem, -⟩ := h check
    rw [mem] at hmem
    cases hmem
  | noAlloc ret c needed hret check policy mem alloc =>
    exact iff_of_true (.inl hret) fun _ => ⟨policy, needed, mem, .inl alloc⟩
  | blocks needed result check policy mem alloc ends =>
    rw [blocks_safe_iff mem (fun hsize => alloc (.inl (.inr hsize))) ends]
    constructor
    · exact fun h _ => ⟨policy, needed, mem, .inr h⟩
    · intro h
      obtain ⟨-, needed', hmem, hok⟩ := h check
      cases Option.some.inj (mem.symm.trans hmem)
      exact hok.resolve_left alloc

/-- The superblock of a clean shutdown. -/
def cleanSb : Superblock := { tinySsd.sb with cacheSbState := mdStateClean }

/-- With an associativity of 0 the load divides by it, and with entries that all name the same
sectors it loads blocks that stand for them twice. -/
theorem load_unsafe :
    (plainLoad tinyLayout.diskSize).load plainEnv ⟨{ cleanSb with assoc := 0 }, tinySsd.md⟩ = none ∧
      ∃ c ssd', (plainLoad tinyLayout.diskSize).load plainEnv
          ⟨cleanSb, fun _ _ => ⟨16, State.valid⟩⟩ = some (0, c, ssd') ∧
        c.persistence = cacheReload ∧ c.cfg.size = 8 ∧ c.Valid 2 ∧ c.Valid 3 ∧
          c.dbnGet 2 = some 16 ∧ c.dbnGet 3 = some 16 := by
  refine ⟨by decide +kernel, _, _, rfl, rfl, ?_, ⟨State.valid, ?_, ?_⟩, ⟨State.valid, ?_, ?_⟩, ?_⟩
  all_goals decide +kernel

end LoadReq
end EnhanceIO
