import EnhanceIO.MdLoad

/-!
# The array of the blocks and the flag that selects it

`CACHE_FLAGS_MD8` says which of the two arrays the blocks are in. The flag is kept in the
superblock, `eio_mem_init` sets it from the size of the source and never clears it, and the
array is allocated once, when the cache is created or loaded. If the source has another size
later, the flag and the array can part.
-/

namespace EnhanceIO
namespace AddCache

variable {env : AddEnv} {s s₁ s' : AddCache} {cold : Bool} {r : Int}

/-- The size of the array that `EIO_MD8` selects. -/
def arrayBytes (s : AddCache) : Option Nat := if s.md8 then s.cacheMd8Bytes else s.cacheBytes

/-- That array is allocated, for so many blocks as the cache has. -/
def ArrayOk (s : AddCache) : Prop := s.arrayBytes = some (s.size * s.entrySize)

/-- The fields that the arrays depend on are the same. -/
structure SameMem (s s' : AddCache) : Prop where
  size : s'.size = s.size
  blockSize : s'.blockSize = s.blockSize
  assoc : s'.assoc = s.assoc
  cacheSize : s'.cacheSize = s.cacheSize
  cacheDevStartSect : s'.cacheDevStartSect = s.cacheDevStartSect
  md8 : s'.md8 = s.md8
  cacheBytes : s'.cacheBytes = s.cacheBytes
  cacheMd8Bytes : s'.cacheMd8Bytes = s.cacheMd8Bytes

theorem SameMem.of_eq {pol : PolicyData} {md : Meta} (h : s' = { s with pol := pol, md := md }) :
    SameMem s s' := by
  subst h
  exact ⟨rfl, rfl, rfl, rfl, rfl, rfl, rfl, rfl⟩

theorem SameMem.trans (h : SameMem s s₁) (h' : SameMem s₁ s') : SameMem s s' where
  size := h'.size.trans h.size
  blockSize := h'.blockSize.trans h.blockSize
  assoc := h'.assoc.trans h.assoc
  cacheSize := h'.cacheSize.trans h.cacheSize
  cacheDevStartSect := h'.cacheDevStartSect.trans h.cacheDevStartSect
  md8 := h'.md8.trans h.md8
  cacheBytes := h'.cacheBytes.trans h.cacheBytes
  cacheMd8Bytes := h'.cacheMd8Bytes.trans h.cacheMd8Bytes

theorem SameMem.arrayOk_iff (h : SameMem s s') : s'.ArrayOk ↔ s.ArrayOk := by
  simp only [ArrayOk, arrayBytes, entrySize, h.md8, h.size, h.cacheBytes, h.cacheMd8Bytes]

/-! ## The stages of `eio_md_create` -/

theorem freeCache_of_ssdAdd (h : s.has flagsSsdAddInprog = true) : s.freeCache = s := if_pos h

/-- Past the allocation, the arrays stay unless the creation of a new cache fails. -/
theorem createStore_same (h : s.createStore env = (s', r))
    (hr : r = 0 ∨ s.has flagsSsdAddInprog = true) : s' = s := by
  have hfree : ∀ ret : Int, ret ≠ 0 → (s.freeCache, ret) = (s', r) → s' = s := by
    intro ret hret heq
    obtain ⟨hs, rfl⟩ := Prod.mk.inj heq
    rw [← hs, freeCache_of_ssdAdd (hr.resolve_left hret)]
  unfold createStore at h
  split at h
  · exact hfree _ (by decide) h
  · split at h
    · exact hfree _ (by decide) h
    · exact (Prod.mk.inj h).1.symm

theorem createCold_same (h : s.createCold env = (s', r))
    (hr : r = 0 ∨ s.has flagsSsdAddInprog = true) : ∃ md, s' = { s with md := md } := by
  simp only [createCold] at h
  generalize coldLoop env (s.has flagsSsdAddInprog) s.md8 s.size 10 0 s.md = pass at h
  refine ⟨pass.1, ?_⟩
  split at h
  · exact (Prod.mk.inj h).1.symm
  · split at h
    · exact (Prod.mk.inj h).1.symm
    · split at h
      · exact (Prod.mk.inj h).1.symm
      · split at h
        · obtain ⟨hs, hret⟩ := Prod.mk.inj h
          rw [← hs]
          exact freeCache_of_ssdAdd (hr.resolve_left (hret ▸ by decide))
        · exact createStore_same h hr

theorem allocArray_flags (env : AddEnv) (s : AddCache) :
    (s.allocArray env).cacheFlags = s.cacheFlags := by
  simp only [allocArray]
  split
  · rfl
  · split <;> rfl

theorem createAlloc_same (h : s.createAlloc env cold = (s', r))
    (hr : r = 0 ∨ s.has flagsSsdAddInprog = true) :
    SameMem (s.allocArray env) s' ∧ (env.array = true ∨ s.has flagsSsdAddInprog = true) := by
  have hhas : (s.allocArray env).has flagsSsdAddInprog = s.has flagsSsdAddInprog := by
    rw [has, allocArray_flags, has]
  simp only [createAlloc, hhas] at h
  generalize s.allocArray env = t at h hhas ⊢
  split at h
  · next hno =>
    obtain ⟨-, rfl⟩ := Prod.mk.inj h
    rw [hr.resolve_left (by decide)] at hno
    cases hno.1
  · next hok =>
    have halloc : env.array = true ∨ s.has flagsSsdAddInprog = true := by
      cases harray : env.array
      · cases hadd : s.has flagsSsdAddInprog
        · exact absurd ⟨hadd, harray⟩ hok
        · exact .inr rfl
      · exact .inl rfl
    refine ⟨?_, halloc⟩
    rw [← hhas] at hr
    split at h
    · exact .of_eq (Prod.mk.inj h).1.symm
    · split at h
      · obtain ⟨md, hs⟩ := createCold_same (s := { t with pol := _ }) h hr
        exact .of_eq hs
      · exact .of_eq (createStore_same (s := { t with pol := _ }) h hr)

/-- `eio_mem_init` with its result. -/
def flagged (s : AddCache) (needed : Bool) : AddCache :=
  { s with
    numSets := s.size / s.assoc
    cacheFlags := if needed then s.cacheFlags ||| flagsMd8 else s.cacheFlags }

/-- Whether the long entries are needed for a source of the size. -/
def needsMd8 (s : AddCache) (diskSize : Nat) : Option Bool :=
  EnhanceIO.memInit s.size s.assoc (Nat.log2 s.assoc + Nat.log2 s.blockSize) diskSize

theorem flagged_md8 (s : AddCache) (needed : Bool) :
    (s.flagged needed).md8 = (s.md8 || needed) := by
  simp only [md8, has, flagged]
  cases needed with
  | false => simp
  | true =>
    rw [if_pos rfl, flag_or_and, Bool.or_true]
    rfl

theorem flagged_ssdAdd (s : AddCache) (needed : Bool) :
    (s.flagged needed).has flagsSsdAddInprog = s.has flagsSsdAddInprog := by
  simp only [has, flagged]
  cases needed with
  | false => rfl
  | true =>
    rw [if_pos rfl, BitVec.and_or_distrib_right,
      show flagsMd8 &&& flagsSsdAddInprog = 0#32 from rfl, BitVec.or_zero]

theorem createMem_cases (h : s.createMem env cold = some (s', r)) :
    (s.size / s.assoc > 2 ^ 32 - 1 ∧ s' = s ∧ r ≠ 0) ∨
    (s.size / s.assoc ≤ 2 ^ 32 - 1 ∧ ∃ needed, s.needsMd8 env.diskSize = some needed ∧
      ((s' = s.flagged needed ∧ r ≠ 0) ∨
        (s.flagged needed).createAlloc env cold = (s', r))) := by
  obtain ⟨⟨s₁, error⟩, hmem, heq⟩ := Option.map_eq_some_iff.mp h
  unfold memInit at hmem
  split at hmem
  · next hbig =>
    cases hmem
    obtain ⟨hs, hret⟩ := Prod.mk.inj ((if_pos rfl).symm.trans heq)
    exact .inl ⟨hbig, hs.symm, hret ▸ by decide⟩
  · next hsets =>
    obtain ⟨needed, hneeded, hpair⟩ := Option.map_eq_some_iff.mp hmem
    obtain ⟨hs, herror⟩ := Prod.mk.inj hpair
    replace hs : s.flagged needed = s₁ := hs
    have herr : error ≠ -1 := by
      rw [← herror]
      cases needed <;> decide
    rw [← hs] at heq
    refine .inr ⟨Nat.le_of_not_lt hsets, needed, hneeded, ?_⟩
    simp only [if_neg herr] at heq
    have hfail : ∀ ret : Int, ret ≠ 0 → (s.flagged needed, ret) = (s', r) →
        s' = s.flagged needed ∧ r ≠ 0 := by
      intro ret hret hpair
      obtain ⟨hs, rfl⟩ := Prod.mk.inj hpair
      exact ⟨hs.symm, hret⟩
    split at heq
    · exact .inl (hfail _ (by decide) heq)
    · split at heq
      · exact .inl (hfail _ (by decide) heq)
      · split at heq
        · exact .inl (hfail _ (by decide) heq)
        · exact .inr heq

/-! ## A new cache -/

/-- The cache that `eio_cache_create` hands to `eio_md_create`. -/
structure Fresh (s : AddCache) : Prop where
  flags : s.has flagsSsdAddInprog = false
  array : s.cacheMd8Bytes = none
  size : s.size = s.cacheSize
  size_lt : s.size < 2 ^ 64
  blockSize_pos : 0 < s.blockSize
  blockSize_lt : s.blockSize < 2 ^ 32
  assoc_pos : 0 < s.assoc
  assoc_le : s.assoc ≤ 8192

/-- A cache with its array, whose blocks are as many as the device gives. -/
structure Built (s : AddCache) : Prop where
  array : s.ArrayOk
  single : s.md8 = false → s.cacheMd8Bytes = none
  sets : s.size / s.assoc ≤ 2 ^ 32 - 1
  layout : { s with size := s.cacheSize }.layout.size = s.size
  ne : s.size ≠ s.cacheSize

theorem layout_size_congr (hsize : s'.size = s.size) (hblock : s'.blockSize = s.blockSize)
    (hassoc : s'.assoc = s.assoc) (hstart : s'.cacheDevStartSect = s.cacheDevStartSect) :
    s'.layout.size = s.layout.size := by
  simp only [layout, hsize, hblock, hassoc, hstart]

theorem Built.same (h : Built s) (hs : SameMem s s') : Built s' where
  array := hs.arrayOk_iff.mpr h.array
  single := by
    rw [hs.md8, hs.cacheMd8Bytes]
    exact h.single
  sets := by
    rw [hs.size, hs.assoc]
    exact h.sets
  layout := by
    rw [hs.size, ← h.layout]
    exact layout_size_congr hs.cacheSize hs.blockSize hs.assoc hs.cacheDevStartSect
  ne := by
    rw [hs.size, hs.cacheSize]
    exact h.ne

/-- The number of blocks is not that of the sectors: the metadata takes some, and if the device
is too small for it, the difference wraps around. -/
theorem Fresh.layout_size_ne (h : Fresh s) : s.layout.size ≠ s.size := by
  have hmd : mdSectorsFor s.cacheDevStartSect (s.size / s.blockSize) ≤ s.size / 32 + 192 ∧
      0 < mdSectorsFor s.cacheDevStartSect (s.size / s.blockSize) := by
    have hdiv : s.size / s.blockSize / 32 ≤ s.size / 32 :=
      Nat.div_le_div_right (Nat.div_le_self _ _)
    simp only [mdSectorsFor, extraSectors, metadataStart, superblockStart, superblockSectors,
      align1Sectors, align2Sectors]
    generalize s.size / s.blockSize / 32 = q at hdiv ⊢
    generalize s.size / 32 = q' at hdiv ⊢
    split <;> split <;> omega
  obtain ⟨hle, hpos⟩ := hmd
  have hlt := h.size_lt
  simp only [layout]
  generalize mdSectorsFor s.cacheDevStartSect (s.size / s.blockSize) = md at hle hpos ⊢
  rcases Nat.lt_or_ge s.size md with hwrap | hfits
  · -- fewer than 200 sectors, and the blocks are almost `2 ^ 64 / block_size`
    have havail : (s.size + 2 ^ 64 - md) % 2 ^ 64 = s.size + 2 ^ 64 - md :=
      Nat.mod_eq_of_lt (by omega)
    rw [havail]
    have hblocks : 2 ^ 32 - 1 ≤ (s.size + 2 ^ 64 - md) / s.blockSize := by
      rw [Nat.le_div_iff_mul_le h.blockSize_pos]
      have := Nat.mul_le_mul_left (2 ^ 32 - 1) h.blockSize_lt.le
      omega
    have hdiv := Nat.div_add_mod' ((s.size + 2 ^ 64 - md) / s.blockSize) s.assoc
    have hmod : (s.size + 2 ^ 64 - md) / s.blockSize % s.assoc < s.assoc :=
      Nat.mod_lt _ h.assoc_pos
    have hassoc := h.assoc_le
    omega
  · have havail : (s.size + 2 ^ 64 - md) % 2 ^ 64 = s.size - md := by omega
    rw [havail]
    have h1 : (s.size - md) / s.blockSize / s.assoc * s.assoc ≤ (s.size - md) / s.blockSize :=
      Nat.div_mul_le_self _ _
    have h2 : (s.size - md) / s.blockSize ≤ s.size - md := Nat.div_le_self _ _
    omega

theorem allocArray_md8 (env : AddEnv) (s : AddCache) : (s.allocArray env).md8 = s.md8 := by
  rw [md8, has, allocArray_flags, md8, has]

theorem allocArray_arrayOk (hnew : s.has flagsSsdAddInprog = false) (harray : env.array = true) :
    (s.allocArray env).ArrayOk := by
  unfold ArrayOk arrayBytes entrySize
  rw [allocArray_md8]
  simp only [allocArray, hnew, harray, Bool.false_eq_true, if_false, if_true, entrySize]
  split <;> rfl

theorem allocArray_single (hmd8 : s.md8 = false) :
    (s.allocArray env).cacheMd8Bytes = s.cacheMd8Bytes := by
  simp only [allocArray, hmd8]
  split <;> rfl

theorem allocArray_size (env : AddEnv) (s : AddCache) : (s.allocArray env).size = s.size ∧
    (s.allocArray env).assoc = s.assoc ∧ (s.allocArray env).blockSize = s.blockSize ∧
    (s.allocArray env).cacheSize = s.cacheSize ∧
    (s.allocArray env).cacheDevStartSect = s.cacheDevStartSect := by
  simp only [allocArray]
  split
  · exact ⟨rfl, rfl, rfl, rfl, rfl⟩
  · split <;> exact ⟨rfl, rfl, rfl, rfl, rfl⟩

theorem Fresh.built {force : Bool} (hf : Fresh s) (h : s.mdCreate env force cold = some (s', 0)) :
    Built s' := by
  unfold mdCreate at h
  split at h
  · cases (Prod.mk.inj (Option.some.inj h)).2
  · split at h
    · cases (Prod.mk.inj (Option.some.inj h)).2
    · split at h
      · cases (Prod.mk.inj (Option.some.inj h)).2
      · split at h
        · cases (Prod.mk.inj (Option.some.inj h)).2
        · rcases createMem_cases h with ⟨-, -, hret⟩ | ⟨hsets, needed, -, ⟨-, hret⟩ | halloc⟩
          · exact absurd rfl hret
          · exact absurd rfl hret
          · have hnew : (s.layout.flagged needed).has flagsSsdAddInprog = false :=
              (flagged_ssdAdd s.layout needed).trans hf.flags
            obtain ⟨hsame, harray⟩ := createAlloc_same halloc (.inl rfl)
            rw [hnew, or_iff_left Bool.false_ne_true] at harray
            obtain ⟨hsize, hassoc, hblock, hcache, hstart⟩ :=
              allocArray_size env (s.layout.flagged needed)
            refine Built.same ⟨allocArray_arrayOk hnew harray, ?_, ?_, ?_, ?_⟩ hsame
            · rw [allocArray_md8]
              exact fun hmd8 => (allocArray_single hmd8).trans hf.array
            · rw [hsize, hassoc]
              exact hsets
            · rw [hsize]
              exact layout_size_congr (s := s) (hcache.trans hf.size.symm) hblock hassoc hstart
            · rw [hsize, hcache]
              exact fun heq => hf.layout_size_ne (heq.trans hf.size.symm)

/-! ## Adding the SSD again -/

/-- `eio_md_create` for an SSD that is added again allocates no array. -/
theorem mdCreate_readded (hadd : s.has flagsSsdAddInprog = true)
    (h : s.mdCreate env true cold = some (s', r)) :
    (¬ (env.headerPage = true ∧ env.header.isSome) ∧ s' = s) ∨
    ((env.headerPage = true ∧ env.header.isSome) ∧
      ((s.layout.size / s.assoc > 2 ^ 32 - 1 ∧ s' = s.layout) ∨
        ∃ needed, s.layout.needsMd8 env.diskSize = some needed ∧
          SameMem (s.layout.flagged needed) s')) := by
  unfold mdCreate at h
  have hwrite : s.unwritable = false := by simp [unwritable, hadd]
  split at h
  · next hpage =>
    refine .inl ⟨fun hok => ?_, (Prod.mk.inj (Option.some.inj h)).1.symm⟩
    rw [hok.1] at hpage
    cases hpage
  · next hpage =>
    rw [if_neg (by simp [hwrite])] at h
    split at h
    · next hheader =>
      refine .inl ⟨fun hok => ?_, (Prod.mk.inj (Option.some.inj h)).1.symm⟩
      rw [hheader] at hok
      cases hok.2
    · next state hheader =>
      refine .inr ⟨⟨Bool.eq_true_of_not_eq_false hpage, by rw [hheader]; rfl⟩, ?_⟩
      rw [if_neg (by simp)] at h
      rcases createMem_cases h with ⟨hbig, hs, -⟩ | ⟨-, needed, hneeded, ⟨rfl, -⟩ | halloc⟩
      · exact .inl ⟨hbig, hs⟩
      · exact .inr ⟨needed, hneeded, .of_eq rfl⟩
      · have hinprog : (s.layout.flagged needed).has flagsSsdAddInprog = true :=
          (flagged_ssdAdd s.layout needed).trans hadd
        obtain ⟨hsame, -⟩ := createAlloc_same halloc (.inr hinprog)
        rw [allocArray, if_pos hinprog] at hsame
        exact .inr ⟨needed, hneeded, hsame⟩

theorem entrySize_ne_zero (s : AddCache) : s.entrySize ≠ 0 := by
  unfold entrySize
  split <;> decide

/-- The array after an SSD is added again: `eio_md_create` has to get to the layout, and must not
find that the entries are too short now. -/
theorem Built.readded_iff {t : AddCache} (hb : Built s)
    (hsame : SameMem { s with size := s.cacheSize } t) (hadd : t.has flagsSsdAddInprog = true)
    (h : t.mdCreate env true cold = some (s', r)) :
    s'.ArrayOk ↔ env.headerPage = true ∧ env.header.isSome ∧
      (s.md8 = false → s.needsMd8 env.diskSize = some false) := by
  have hsize : t.layout.size = s.size :=
    (layout_size_congr (s := { s with size := s.cacheSize }) hsame.size hsame.blockSize hsame.assoc
      hsame.cacheDevStartSect).trans hb.layout
  rcases mdCreate_readded hadd h with ⟨hno, rfl⟩ |
    ⟨⟨hpage, hheader⟩, ⟨hbig, -⟩ | ⟨needed, hneeded, hflag⟩⟩
  · refine iff_of_false (fun hok => ?_) fun hok => hno ⟨hok.1, hok.2.1⟩
    have hsectors := hsame.arrayOk_iff.mp hok
    have heq := Option.some.inj (hb.array.symm.trans hsectors)
    exact hb.ne (Nat.eq_of_mul_eq_mul_right (Nat.pos_of_ne_zero s.entrySize_ne_zero) heq)
  · rw [hsize, hsame.assoc] at hbig
    exact absurd hb.sets (Nat.not_le.mpr hbig)
  · have hneeds : s.needsMd8 env.diskSize = some needed := by
      rw [← hneeded]
      unfold needsMd8
      rw [hsize]
      show _ = EnhanceIO.memInit s.size t.assoc (Nat.log2 t.assoc + Nat.log2 t.blockSize)
        env.diskSize
      rw [hsame.assoc, hsame.blockSize]
    have hmd8 : (t.layout.flagged needed).md8 = (s.md8 || needed) := by
      rw [flagged_md8]
      exact congrArg (· || needed) hsame.md8
    rw [hflag.arrayOk_iff, hneeds, ArrayOk, arrayBytes, entrySize, hmd8]
    change (if _ then t.cacheMd8Bytes else t.cacheBytes) = some (t.layout.size * _) ↔ _
    rw [hsize, hsame.cacheMd8Bytes, hsame.cacheBytes]
    have harray := hb.array
    rw [ArrayOk, arrayBytes, entrySize] at harray
    cases hold : s.md8 with
    | true =>
      rw [hold] at harray
      exact iff_of_true harray ⟨hpage, hheader, nofun⟩
    | false =>
      rw [hold] at harray
      cases needed with
      | false => exact iff_of_true harray ⟨hpage, hheader, fun _ => rfl⟩
      | true =>
        -- the other array is selected now, and was never allocated
        refine iff_of_false (fun hok => ?_) fun hok => ?_
        · cases (hb.single hold).symm.trans hok
        · cases hok.2.2 rfl

/-- The re-adding gets to `eio_md_create`. -/
structure Reaches (env : AddEnv) (s : AddCache) (dev : String) : Prop where
  resumable : s.Resumable dev
  device : ¬ s.DevRefused env
  policy : ¬ s.PolicyFails env

theorem SameMem.of_flags {flags : BitVec 32} (h : flags &&& flagsMd8 = s.cacheFlags &&& flagsMd8) :
    SameMem s { s with cacheFlags := flags } where
  size := rfl
  blockSize := rfl
  assoc := rfl
  cacheSize := rfl
  cacheDevStartSect := rfl
  md8 := by
    show (flags &&& flagsMd8 != 0) = (s.cacheFlags &&& flagsMd8 != 0)
    rw [h]
  cacheBytes := rfl
  cacheMd8Bytes := rfl

/-- What `eio_ctr_ssd_add` does after `eio_md_create` leaves the arrays alone. -/
theorem addPolicy_reaches {prev : Nat} (hpol : ¬ s.PolicyFails env)
    (h : s.addPolicy env prev = some (s', r)) :
    ∃ pol s₁ r₁, AddCache.mdCreate env { s with pol := pol } true
        (s.mode ≠ Devices.cacheModeWb) = some (s₁, r₁) ∧ SameMem s₁ s' := by
  have hinit := (PolicyData.policyInit_eq env.pol s.pol.policyFree).trans (if_pos (not_not.mp hpol))
  simp only [addPolicy, (Prod.mk.inj hinit).2, ne_eq, not_true, if_false] at h
  obtain ⟨⟨s₁, r₁⟩, hmd, heq⟩ := Option.map_eq_some_iff.mp h
  refine ⟨_, s₁, r₁, hmd, ?_⟩
  simp only at heq
  split at heq
  · obtain ⟨rfl, -⟩ := Prod.mk.inj heq
    exact ⟨rfl, rfl, rfl, rfl, rfl, rfl, rfl, rfl⟩
  · split at heq
    · obtain ⟨rfl, -⟩ := Prod.mk.inj heq
      exact ⟨rfl, rfl, rfl, rfl, rfl, rfl, rfl, rfl⟩
    · obtain ⟨rfl, -⟩ := Prod.mk.inj heq
      exact ⟨rfl, rfl, rfl, rfl, rfl, rfl, rfl, rfl⟩

theorem ctrSsdAdd_reaches {dev : String} (hdev : ¬ s.DevRefused env) (hpol : ¬ s.PolicyFails env)
    (h : s.ctrSsdAdd env dev = some (s', r)) :
    ∃ t s₁ r₁ cold, SameMem { s with size := s.cacheSize } t ∧ t.cacheFlags = s.cacheFlags ∧
      t.mdCreate env true cold = some (s₁, r₁) ∧ SameMem s₁ s' := by
  obtain ⟨d, hd, hsize, hstart⟩ : ∃ d, env.dev = some d ∧ s.cacheSize = d.size ∧
      s.cacheDevStartSect = d.startSect := by
    simpa only [DevRefused, not_forall, not_or, not_not, exists_prop] using hdev
  unfold ctrSsdAdd at h
  split at h
  · cases h
  · simp only [hd] at h
    rw [if_neg (not_not.mpr hsize), if_neg (not_not.mpr hstart)] at h
    obtain ⟨pol, s₁, r₁, hmd, hsame⟩ := addPolicy_reaches (s := { s with
      cacheDev := d, cacheDevname := dev, size := s.cacheSize
      persistence := cacheForcecreate }) hpol h
    refine ⟨_, s₁, r₁, _, ?_, ?_, hmd, hsame⟩
    · exact ⟨rfl, rfl, rfl, rfl, rfl, rfl, rfl, rfl⟩
    · rfl

theorem resumeCaching_reaches {dev : String} {result : ResumeResult} (hreach : s.Reaches env dev)
    (h : s.resumeCaching env dev = some (s', result)) :
    ∃ t s₁ r₁ cold, SameMem { s with size := s.cacheSize } t ∧
      t.has flagsSsdAddInprog = true ∧ t.mdCreate env true cold = some (s₁, r₁) ∧
        SameMem s₁ s' := by
  unfold resumeCaching at h
  rw [if_neg (not_not.mpr hreach.resumable)] at h
  obtain ⟨⟨s₂, r⟩, hadd, heq⟩ := Option.map_eq_some_iff.mp h
  obtain ⟨t, s₁, r₁, cold, hsame, hflags, hmd, hlast⟩ := ctrSsdAdd_reaches
    (s := { s with cacheFlags := s.cacheFlags ||| flagsSsdAddInprog }) hreach.device hreach.policy
    hadd
  have hinprog : t.has flagsSsdAddInprog = true := by
    rw [has, hflags]
    show (s.cacheFlags ||| flagsSsdAddInprog) &&& flagsSsdAddInprog != 0
    rw [flag_or_and]
    rfl
  have hset : SameMem { s with size := s.cacheSize }
      { s with cacheFlags := s.cacheFlags ||| flagsSsdAddInprog, size := s.cacheSize } := by
    refine SameMem.of_flags (s := { s with size := s.cacheSize }) ?_
    rw [BitVec.and_or_distrib_right, show flagsSsdAddInprog &&& flagsMd8 = 0#32 from rfl,
      BitVec.or_zero]
  have hclear : SameMem s₂ s' := by
    simp only at heq
    split at heq
    · obtain ⟨rfl, -⟩ := Prod.mk.inj heq
      refine .of_flags ?_
      rw [BitVec.and_assoc, show ~~~flagsSsdAddInprog &&& flagsMd8 = flagsMd8 from rfl]
    · obtain ⟨rfl, -⟩ := Prod.mk.inj heq
      refine .of_flags ?_
      rw [BitVec.and_assoc, show ~~~flagsSsdAddInprog &&& flagsMd8 = flagsMd8 from rfl,
        BitVec.and_assoc]
      split <;> rfl
  exact ⟨t, s₁, r₁, cold, hset.trans hsame, hinprog, hmd, hlast.trans hclear⟩

/-- A cache that was created and has lost its SSD, after the SSD is added again. -/
theorem readded_arrayOk_iff {env₁ : AddEnv} {s₀ s₂ s₃ : AddCache} {force : Bool} {dev : String}
    {result : ResumeResult} (hfresh : s₀.Fresh)
    (hcreate : s₀.mdCreate env force cold = some (s₁, 0)) (hrun : SameMem s₁ s₂)
    (hreach : s₂.Reaches env₁ dev) (hadd : s₂.resumeCaching env₁ dev = some (s₃, result)) :
    s₃.ArrayOk ↔ env₁.headerPage = true ∧ env₁.header.isSome ∧
      (s₁.md8 = false → s₁.needsMd8 env₁.diskSize = some false) := by
  obtain ⟨t, s', r, cold', hsame, hinprog, hmd, hlast⟩ := resumeCaching_reaches hreach hadd
  have hneeds : s₂.needsMd8 env₁.diskSize = s₁.needsMd8 env₁.diskSize := by
    rw [needsMd8, hrun.size, hrun.assoc, hrun.blockSize, needsMd8]
  rw [hlast.arrayOk_iff, ((hfresh.built hcreate).same hrun).readded_iff hsame hinprog hmd, hneeds,
    hrun.md8]

end AddCache

/-! ## A load -/

theorem LoadReq.load_array_iff {env : LoadEnv} {r : LoadReq} {ssd ssd' : Ssd} {c : RawCache}
    (h : r.load env ssd = some (0, c, ssd')) (hkeep : c.persistence = cacheReload) :
    c.arrayBytes = some (c.cfg.size.toNat * c.cfg.entrySize) ↔
      PolicyFound env r ssd ∧ r.Md8Kept ssd := by
  rcases load_zero_cases h with ⟨-, hpers⟩ |
    ⟨-, -, ⟨hno, rfl⟩ | ⟨hpolicy, needed, st, hmem, hsize, -, rfl, -⟩⟩
  · rw [hpers] at hkeep
    cases hkeep
  · refine iff_of_false (fun hok => ?_) fun hok => hno hok.1
    unfold RawCache.arrayBytes at hok
    split at hok <;> cases hok
  · exact (finished_array_iff st hmem hsize).trans ⟨fun h => ⟨hpolicy, h⟩, fun h => h.2⟩

/-- **The array and the flag.** A load that keeps the cache leaves an array for all blocks, of the
entries that the flag says, exactly if there is a policy and the flag is not left over from a
larger source. An SSD that is added again does so exactly if `eio_md_create` gets to the layout
and the source has not grown beyond what short entries can hold. -/
theorem metadata_array_iff (env : LoadEnv) (r : LoadReq) (ssd ssd' : Ssd) (c : RawCache)
    (env₀ env₁ : AddEnv) (s₀ s₁ s₂ s₃ : AddCache) (force cold : Bool) (dev : String)
    (result : AddCache.ResumeResult) :
    (r.load env ssd = some (0, c, ssd') → c.persistence = cacheReload →
      (c.arrayBytes = some (c.cfg.size.toNat * c.cfg.entrySize) ↔
        LoadReq.PolicyFound env r ssd ∧ r.Md8Kept ssd)) ∧
    (s₀.Fresh → s₀.mdCreate env₀ force cold = some (s₁, 0) → AddCache.SameMem s₁ s₂ →
      s₂.Reaches env₁ dev → s₂.resumeCaching env₁ dev = some (s₃, result) →
        (s₃.ArrayOk ↔ env₁.headerPage = true ∧ env₁.header.isSome ∧
          (s₁.md8 = false → s₁.needsMd8 env₁.diskSize = some false))) := by
  constructor
  · intro hload hkeep
    exact LoadReq.load_array_iff hload hkeep
  · intro hfresh hcreate hrun hreach hadd
    exact AddCache.readded_arrayOk_iff hfresh hcreate hrun hreach hadd

/-! ## A source of another size -/

/-- A load in which nothing is wrong. -/
theorem LoadReq.load_of_fine {env : LoadEnv} {r : LoadReq} {ssd : Ssd} {needed : Bool}
    (check : Checked env r ssd) (policy : PolicyFound env r ssd)
    (mem : (r.config ssd).memInitMd8 r.diskSize = some needed)
    (alloc : ¬ AllocFails env r (r.config ssd).size.toNat)
    (reached : ∀ i, RawLoop.Reached env.mdRead r.nrPages i)
    (fine : ∀ i < (r.config ssd).size.toNat,
      ((r.config ssd).setMd8 needed).Fine (r.cleanShutdown ssd.sb) (entries ssd) i)
    (mode : ¬ DirtyRefused ssd ((r.config ssd).setMd8 needed))
    (store : ¬ StoreFails env ((r.config ssd).setMd8 needed)) :
    ∃ st ssd', r.load env ssd = some (0, finished (r.ready ssd needed) st, ssd') := by
  have hend := load_end env r ssd
  generalize r.load env ssd = result at hend
  cases hend with
  | unchecked ret c hret nocheck => exact absurd check nocheck
  | recreate refuse => cases check.refuse.symm.trans refuse
  | noPolicy _ nopolicy => exact absurd policy nopolicy
  | noMem _ _ nomem => cases mem.symm.trans nomem
  | noAlloc _ _ _ _ _ _ _ noalloc => exact absurd noalloc alloc
  | blocks needed' result _ _ mem' _ ends =>
    cases Option.some.inj (mem.symm.trans mem')
    cases ends with
    | loaded st read reached mode store => exact ⟨st, _, rfl⟩
    | refused ret c' hret fine why =>
      rcases why with ⟨i, -, hlost⟩ | hdirty | hfails
      · exact absurd (reached i) hlost
      · exact absurd hdirty mode
      · exact absurd hfails store
    | stuck bad =>
      obtain ⟨i, hi, -, hbad⟩ := bad
      exact absurd (fine i hi) hbad

/-- A new cache on a small device, with the random policy. -/
def AddCache.small : AddCache where
  cacheFlags := 0
  mode := Devices.cacheModeWt
  noSourceDev := false
  persistence := cacheCreate
  cacheDev := ⟨240, 63⟩
  cacheDevname := "/dev/sdb"
  cacheSize := 240
  cacheDevStartSect := 63
  size := 240
  mdStartSect := 0
  mdSectors := 0
  blockSize := 8
  assoc := 2
  numSets := 0
  pol := PolicyData.randData
  cacheBytes := none
  cacheMd8Bytes := none
  md := zeroMeta

/-- The device is found and nothing fails; the source has the given size. -/
def AddEnv.plain (dev : SsdDev) (diskSize : Nat) : AddEnv where
  dev := some dev
  diskSize := diskSize
  pol := PolicyData.noSetMemory
  headerPage := true
  header := some mdStateDirty
  memAvailable := true
  array := true
  inprog := fun _ _ => false
  pages := true
  pgVirtAddr := true
  mdWrite := true
  sbStore := true

theorem AddCache.small_fresh : AddCache.small.Fresh := by
  constructor <;> decide

/-- That cache when it is there and its SSD is lost. -/
def AddCache.lost : AddCache :=
  { small with
    cacheFlags := flagsMd8 ||| flagsDegraded
    size := 8
    mdStartSect := 145
    mdSectors := 161
    numSets := 4
    cacheMd8Bytes := some 64 }

theorem AddCache.lost_reaches : AddCache.lost.Reaches (.plain ⟨240, 63⟩ 419430400) "/dev/sdb" := by
  refine ⟨by decide, fun href => ?_, fun hfails => hfails rfl⟩
  rcases href _ rfl with h | h <;> exact h rfl

theorem AddCache.small_created :
    ∃ s₁, AddCache.small.mdCreate (.plain ⟨240, 63⟩ 209715200) true true = some (s₁, 0) ∧
      AddCache.SameMem s₁ AddCache.lost :=
  ⟨_, rfl, rfl, rfl, rfl, rfl, rfl, rfl, rfl, rfl⟩

theorem tiny_loaded : ∃ c ssd', (plainLoad tinyLayout.diskSize).load LoadReq.plainEnv tinySsd =
    some (0, c, ssd') ∧ c.persistence = cacheReload :=
  ⟨_, _, rfl, rfl⟩

/-- Few sets always have long entries, so the size of the source does not matter. -/
theorem metadata_array_small :
    (∃ c ssd', (plainLoad tinyLayout.diskSize).load LoadReq.plainEnv tinySsd = some (0, c, ssd') ∧
      c.arrayBytes = some (c.cfg.size.toNat * c.cfg.entrySize)) ∧
    ∃ s₁ s₃ result,
      AddCache.small.mdCreate (.plain ⟨240, 63⟩ 209715200) true true = some (s₁, 0) ∧
      AddCache.SameMem s₁ AddCache.lost ∧
      AddCache.lost.resumeCaching (.plain ⟨240, 63⟩ 419430400) "/dev/sdb" = some (s₃, result) ∧
      s₃.ArrayOk := by
  obtain ⟨⟨s₃, result⟩, hadd⟩ := Option.isSome_iff_exists.mp (show
    (AddCache.lost.resumeCaching (.plain ⟨240, 63⟩ 419430400) "/dev/sdb").isSome by decide +kernel)
  obtain ⟨s₁, hcreate, hsame⟩ := AddCache.small_created
  obtain ⟨c, ssd', hload, hkeep⟩ := tiny_loaded
  obtain ⟨hloaded, hreadd⟩ := metadata_array_iff LoadReq.plainEnv (plainLoad tinyLayout.diskSize)
    tinySsd ssd' c (.plain ⟨240, 63⟩ 209715200) (.plain ⟨240, 63⟩ 419430400) AddCache.small s₁
    AddCache.lost s₃ true true "/dev/sdb" result
  refine ⟨⟨c, ssd', hload, (hloaded hload hkeep).mpr ⟨⟨rfl, rfl⟩, fun _ => ?_⟩⟩,
    s₁, s₃, result, hcreate, hsame, hadd, ?_⟩
  · decide +kernel
  · refine (hreadd AddCache.small_fresh hcreate hsame AddCache.lost_reaches hadd).mpr
      ⟨rfl, rfl, fun hshort => ?_⟩
    rw [← hsame.md8] at hshort
    cases hshort

/-- The superblock of a cache of `2 ^ 15` sets whose source was larger than `2 ^ 39` sectors. -/
def largeSb : Superblock :=
  { tinySsd.sb with
    size := 65536, cacheSbState := mdStateClean, cacheFlags := flagsMd8 }

def largeSsd : Ssd := ⟨largeSb, fun _ _ => ⟨0, State.invalid⟩⟩

/-- The same cache with short entries, after its SSD has failed. -/
def AddCache.large : AddCache :=
  { small with
    cacheFlags := flagsFailed
    mode := Devices.cacheModeWb
    cacheDev := ⟨600000, 63⟩
    cacheSize := 600000
    size := 74684
    mdStartSect := 145
    mdSectors := 2497
    numSets := 37342
    cacheBytes := some 298736 }

theorem load_large : ∃ st ssd', (plainLoad 209715200).load LoadReq.plainEnv largeSsd =
    some (0, LoadReq.finished ((plainLoad 209715200).ready largeSsd false) st, ssd') := by
  have hsize : ((plainLoad 209715200).config largeSsd).size.toNat = 65536 := by decide +kernel
  have hentry : ∀ i, LoadReq.entries largeSsd i = ⟨0, State.invalid⟩ := fun _ => rfl
  refine LoadReq.load_of_fine ⟨rfl, rfl, rfl, ?_, ?_⟩ ⟨rfl, rfl⟩ ?_ ?_ (fun _ _ _ => rfl) ?_ ?_ ?_
  · decide +kernel
  · decide +kernel
  · decide +kernel
  · rintro ((h | h) | h | (h | h) | h)
    · cases h
    · rw [hsize] at h
      cases h
    all_goals cases h
  · intro i hi
    rw [hsize] at hi
    refine ⟨by omega, fun _ => ?_⟩
    rw [hentry]
    refine ⟨by decide, ?_⟩
    rw [RawLoop.dbnBits_zero]
    rfl
  · rintro ⟨⟨i, -, hdirty⟩, -⟩
    rw [hentry] at hdirty
    cases hdirty
  · decide +kernel

/-- Loaded on a source that has shrunk, the cache has an array of half the size; and added again
on a source that has grown, it uses an array that it does not have. -/
theorem metadata_array_resized :
    (∃ c ssd', (plainLoad 209715200).load LoadReq.plainEnv largeSsd = some (0, c, ssd') ∧
      c.persistence = cacheReload ∧ c.cfg.size = 65536 ∧ c.cfg.entrySize = 8 ∧
        c.arrayBytes = some (65536 * 4)) ∧
    AddCache.large.ArrayOk ∧
      ∃ s₃, AddCache.large.resumeCaching (.plain ⟨600000, 63⟩ (2 ^ 39 + 1)) "/dev/sdb" =
          some (s₃, .resumed) ∧ s₃.size = 74684 ∧ s₃.arrayBytes = none := by
  obtain ⟨st, ssd', hload⟩ := load_large
  refine ⟨⟨_, ssd', hload, rfl, ?_, ?_, ?_⟩, ?_, _, rfl, ?_, ?_⟩
  · show ((plainLoad 209715200).config largeSsd).size = 65536
    decide +kernel
  · show (((plainLoad 209715200).config largeSsd).setMd8 false).entrySize = 8
    decide +kernel
  · show ((plainLoad 209715200).ready largeSsd false).arrayBytes = _
    decide +kernel
  · show AddCache.large.arrayBytes = _
    decide +kernel
  · decide +kernel
  · decide +kernel

end EnhanceIO
