import EnhanceIO.Reload
import EnhanceIO.SsdAdd

/-!
# Loading whatever is on the cache device

`eio_md_load` for every content of the superblock and of the metadata, with every outcome
of its allocations and transfers, and the variable `ret` as each exit leaves it. `Reload` has
the loads in which nothing fails and the fields fit together; here the fields of the
superblock are what they are, and the arithmetic on them is that of the source, with its
widths.

Where C leaves the result of a shift open, and where the loop variable, an int, becomes
negative, the load ends without a result, as after a failed assertion.
-/

namespace EnhanceIO

open State

/-! ## The geometry that a superblock gives -/

namespace Config

variable (cfg : Config)

/-- `ffs(x) - 1` in an unsigned int. -/
def ffsShift (x : BitVec 32) : Nat := if x = 0 then 2 ^ 32 - 1 else x.ctz.toNat

/-- `SECTORS_PER_SET_SHIFT`. -/
def setShift : Nat := (ffsShift cfg.assoc + ffsShift cfg.blockSize) % 2 ^ 32

/-- `SECTORS_PER_SET` and `SECTORS_PER_SET_MASK`, unsigned ints. -/
def sectorsPerSet : Nat := (cfg.assoc * cfg.blockSize).toNat
def setMask : Nat := (cfg.assoc * cfg.blockSize - 1).toNat

/-- `num_sets` and `num_sets_bits`. -/
def numSets : Nat := cfg.size.toNat / cfg.assoc.toNat
def numSetsBits : Nat := cfg.numSets.size

/-- `EIO_MD8`. -/
def md8 : Bool := cfg.has flagsMd8

/-- `EIO_DBN_TO_SET`. -/
def dbnToSet (dbn : Nat) : Nat × Nat :=
  let value := dbn >>> cfg.setShift
  let mid := value &&& (2 ^ cfg.numSetsBits - 1)
  if mid ≥ cfg.numSets then (mid - cfg.numSets, 1) else (mid, 0)

/-- `eio_shrink_dbn`. -/
def shrinkDbn (dbn : Nat) : Option Nat :=
  if dbn = 0 then some 0
  else if 64 ≤ cfg.numSetsBits + cfg.setShift then none
  else
    let lsb := dbn &&& cfg.setMask
    let wrapped := (cfg.dbnToSet dbn).2
    let msb := dbn >>> (cfg.numSetsBits + cfg.setShift)
    some ((lsb ||| (wrapped <<< cfg.setShift) ||| (msb <<< (cfg.setShift + 1))) % 2 ^ 32)

/-- The arithmetic of `eio_expand_dbn`. -/
def expandDbn (setNumber dbn24 : Nat) : Option Nat :=
  if 32 ≤ cfg.setShift + 1 then none
  else
    let lsb := dbn24 &&& cfg.setMask
    let msb := dbn24 >>> (cfg.setShift + 1)
    if dbn24 &&& cfg.sectorsPerSet ≠ 0 then
      some ((msb <<< (cfg.numSetsBits + cfg.setShift)) |||
        ((setNumber + cfg.numSets) <<< cfg.setShift) ||| lsb)
    else some ((msb <<< (cfg.numSetsBits + cfg.setShift)) ||| (setNumber <<< cfg.setShift) ||| lsb)

/-- What `EIO_DBN_SET` stores for a sector; `none` if an assertion fails. -/
def dbnBits (dbn : Nat) : Option Nat :=
  if cfg.md8 then if dbn < 2 ^ 56 then some dbn else none
  else (cfg.shrinkDbn dbn).bind fun dbn24 => if dbn24 < 2 ^ 24 then some dbn24 else none

/-- What `eio_mem_init` returns: whether the long entries are needed. It divides by the
associativity, and its loop may not end. -/
def memInitMd8 (diskSize : Nat) : Option Bool :=
  if cfg.assoc = 0 then none
  else EnhanceIO.memInit cfg.size.toNat cfg.assoc.toNat cfg.setShift diskSize

/-- `eio_mem_init` sets `CACHE_FLAGS_MD8` and never clears it. -/
def setMd8 (needed : Bool) : Config :=
  { cfg with cacheFlags := if needed then cfg.cacheFlags ||| flagsMd8 else cfg.cacheFlags }

/-- The size of an entry of the array that `EIO_MD8` selects. -/
def entrySize : Nat := if cfg.md8 then 8 else 4

end Config

/-! ## The loop -/

/-- A descriptor in memory that may not have been written yet. -/
structure RawBlock where
  dbn : Option Nat
  state : Option State
  deriving DecidableEq

/-- The variables of the loop. -/
structure RawLoop where
  sector : Nat
  i : Nat
  dirtyLoaded : Nat
  sectorsRead : Nat
  blocks : Nat → RawBlock
  indexZero : Nat

/-- The entry is taken over: after an unclean shutdown only those of dirty blocks are. -/
def MdEntry.Taken (cleanShutdown : Bool) (e : MdEntry) : Prop :=
  cleanShutdown = true ∨ e.state.has dirty = true

instance (cleanShutdown : Bool) (e : MdEntry) : Decidable (e.Taken cleanShutdown) :=
  inferInstanceAs (Decidable (_ ∨ _))

/-- Why the loop ends early: there is no result, or a transfer failed. -/
inductive LoadStop where
  | stuck
  | readError
  deriving DecidableEq

namespace RawLoop

variable (cfg : Config) (cleanShutdown : Bool)

/-- `EIO_DBN_SET` at block `i`, with the bits that it stores. -/
def dbnSet (st : RawLoop) (i dbn bits : Nat) : RawLoop :=
  let indexZero :=
    if st.indexZero < cfg.assoc.toNat ∧ i = st.indexZero ∧ bits ≠ 0 then cfg.assoc.toNat
    else st.indexZero
  { st with
    blocks := Function.update st.blocks i { st.blocks i with dbn := some bits }
    indexZero := if dbn = 0 then i else indexZero }

/-- The entry is taken over: `EIO_CACHE_STATE_SET` and `EIO_DBN_SET`. -/
def take (entry : MdEntry) (bits : Nat) (st : RawLoop) : RawLoop :=
  let c := entry.state.off queued
  let blocks := Function.update st.blocks st.i { st.blocks st.i with state := some c }
  { dbnSet cfg { st with blocks := blocks } st.i entry.dbn bits with
    i := st.i + 1
    dirtyLoaded := st.dirtyLoaded + if entry.state.has dirty then 1 else 0 }

/-- The block is not taken over: `eio_invalidate_md`. -/
def drop (st : RawLoop) : RawLoop :=
  { st with
    blocks := Function.update st.blocks st.i ⟨some 0, some invalid⟩
    i := st.i + 1 }

/-- The innermost statements, for one entry. -/
def loadEntry (entry : MdEntry) (st : RawLoop) : Except LoadStop RawLoop :=
  if 2 ^ 31 ≤ st.i then .error .stuck
  else if entry.Taken cleanShutdown then
    let c := entry.state.off queued
    if c.has valid ∧ c.has invalid then .error .stuck
    else
      match cfg.dbnBits entry.dbn with
      | none => .error .stuck
      | some bits => .ok (take cfg entry bits st)
  else .ok st.drop

/-- The slots of one transfer, from the slot `j` on. -/
def loadSlots (slot : Nat → MdEntry) : Nat → Nat → RawLoop → Except LoadStop RawLoop
  | 0, _, st => .ok st
  | left + 1, j, st =>
    (loadEntry cfg cleanShutdown (slot j) st).bind fun st => loadSlots slot left (j + 1) st

/-- After a transfer of so many slots: `where.sector` and `sectors_read`. -/
def advance (slotsRead : Nat) (st : RawLoop) : RawLoop :=
  let count := if slotsRead % 32 ≠ 0 then 1 + slotsRead / 32 else slotsRead / 32
  { st with sector := st.sector + count, sectorsRead := st.sectorsRead + count }

/-- The loop: `size` is what is left to read, `k` the number of the transfer. -/
def run (mdRead : Nat → Bool) (nrPages : Nat) (dev : MdDev) :
    Nat → Nat → Nat → RawLoop → Except LoadStop RawLoop
  | _, _, 0, st => .ok st
  | 0, _, _ + 1, _ => .error .stuck
  | fuel + 1, k, size + 1, st =>
    let slotsRead := min (size + 1) (256 * nrPages)
    if mdRead k = false then .error .readError
    else
      (loadSlots cfg cleanShutdown (fun j => dev (st.sector + j / 32) (j % 32 * 16)) slotsRead 0
        st).bind fun st =>
          run mdRead nrPages dev fuel (k + 1) (size + 1 - slotsRead) (st.advance slotsRead)

end RawLoop

/-! ## `eio_md_load` -/

/-- The `cache_c` as far as `eio_md_load` goes; before it all is zero but what the caller has
set. -/
structure RawCache where
  cfg : Config
  persistence : Nat
  policyOps : Option (BitVec 32)
  cacheBytes : Option Nat
  cacheMd8Bytes : Option Nat
  blocks : Nat → RawBlock
  indexZero : Nat
  sbState : BitVec 32
  sbVersion : BitVec 32

/-- The registered policies, and the outcome of each allocation and transfer. -/
structure LoadEnv where
  registered : BitVec 32 → Bool
  opsAlloc : Bool
  headerPage : Bool
  sbRead : Bool
  array : Bool
  blkInit : Bool
  pages : Bool
  pgVirtAddr : Bool
  mdRead : Nat → Bool
  sbStore : Bool

/-- What the checks of the version and the magic number return; 0 is the exit that asks for the
cache to be created anew. -/
def Superblock.refuse (sb : Superblock) : Option Int :=
  if sb.cacheVersion ≠ eioSbVersion ∧ sb.cacheVersion = 0 then some 1
  else if eioSbVersion < sb.cacheVersion then some 1
  else if sb.cacheVersion ≠ eioSbVersion ∧ sb.mode = Mode.wb.code then some 1
  else if sb.cacheVersion ≠ eioSbVersion ∧ (sb.mode = Mode.ro.code ∨ sb.mode = Mode.wt.code) then
    some 0
  else if eioSbVersion ≤ sb.cacheVersion ∧ sb.magic ≠ eioMagic then some 1
  else none

/-- The state of the superblock is one that a cache leaves. -/
def Superblock.StateOk (sb : Superblock) : Prop :=
  sb.cacheSbState = mdStateDirty ∨ sb.cacheSbState = mdStateClean ∨
    sb.cacheSbState = mdStateFastclean

instance (sb : Superblock) : Decidable sb.StateOk := inferInstanceAs (Decidable (_ ∨ _ ∨ _))

namespace RawCache

/-- The `cache_c` that the caller hands over. -/
def init (r : LoadReq) : RawCache where
  cfg :=
    { size := 0, blockSize := 0, assoc := 0, mdStartSect := 0, mdSectors := 0
      mode := r.mode, reqPolicy := r.reqPolicy, cacheFlags := r.cacheFlags
      thresholds := ⟨0, 0, 0, 0, 0, 0⟩ }
  persistence := cacheReload
  policyOps := none
  cacheBytes := none
  cacheMd8Bytes := none
  blocks := fun _ => ⟨none, none⟩
  indexZero := 0
  sbState := 0
  sbVersion := 0

variable (c : RawCache)

/-- The size of the array that `EIO_MD8` selects. -/
def arrayBytes : Option Nat := if c.cfg.md8 then c.cacheMd8Bytes else c.cacheBytes

/-- That array is allocated, or freed. -/
def setArray (bytes : Option Nat) : RawCache :=
  { c with
    cacheBytes := if c.cfg.md8 then c.cacheBytes else bytes
    cacheMd8Bytes := if c.cfg.md8 then bytes else c.cacheMd8Bytes }

/-- `eio_sb_store` of the cache, without the transfer. -/
def superblock (r : LoadReq) : Superblock :=
  Cache.superblock
    { cfg := c.cfg, diskSize := r.diskSize, sbState := c.sbState, sbVersion := c.sbVersion
      coldBoot := r.coldBoot, md := r.md } r.forceWarmBoot

/-- The variables before the loop. -/
def startLoop : RawLoop where
  sector := c.cfg.mdStartSect.toNat
  i := 0
  dirtyLoaded := 0
  sectorsRead := 0
  blocks := c.blocks
  indexZero := c.indexZero

/-- `EIO_CACHE_STATE_GET` has the flag. -/
def Valid (i : Nat) : Prop := ∃ st, (c.blocks i).state = some st ∧ st.has valid = true

/-- `EIO_DBN_GET`. -/
def dbnGet (i : Nat) : Option Nat :=
  if c.cfg.md8 then (c.blocks i).dbn
  else if i = c.indexZero ∧ c.indexZero < c.cfg.assoc.toNat then some 0
  else (c.blocks i).dbn.bind fun bits =>
    if bits = 0 ∧ (c.blocks i).state = some invalid then some 0
    else c.cfg.expandDbn (i / c.cfg.assoc.toNat) bits

end RawCache

namespace LoadReq

variable (env : LoadEnv) (r : LoadReq) (ssd : Ssd) (c : RawCache)

/-- `eio_sb_store` refuses a cache with the flags of a failed or a degraded one. -/
def StoreFails (cfg : Config) : Prop :=
  (cfg.has flagsFailed ∨ cfg.has flagsDegraded) ∧ ¬ cfg.has flagsSsdAddInprog ∨
    env.sbStore = false

instance (cfg : Config) : Decidable (StoreFails env cfg) :=
  inferInstanceAs (Decidable ((_ ∨ _) ∧ ¬ _ ∨ _))

/-- The end of `eio_md_load`. -/
def loadFinish (st : RawLoop) : Int × RawCache × Ssd :=
  let size := c.cfg.size.toNat
  if st.dirtyLoaded ≠ 0 ∧ c.cfg.mode ≠ Mode.wb.code then (-22, c.setArray none, ssd)
  else if size / 32 + (if size % 32 ≠ 0 then 1 else 0) ≠ st.sectorsRead then
    (-5, c.setArray none, ssd)
  else
    let c := { c with sbState := mdStateDirty }
    if StoreFails env c.cfg then (1, c.setArray none, ssd)
    else (0, c, { ssd with sb := c.superblock r })

/-- The metadata. -/
def loadBlocks : Option (Int × RawCache × Ssd) :=
  match RawLoop.run c.cfg (r.cleanShutdown ssd.sb) env.mdRead r.nrPages ssd.md c.cfg.size.toNat 0
    c.cfg.size.toNat c.startLoop with
  | .error .stuck => none
  | .error .readError => some (-5, c.setArray none, ssd)
  | .ok st =>
    some (loadFinish env r ssd { c with blocks := st.blocks, indexZero := st.indexZero } st)

/-- The allocations. The size of the array goes by what `eio_mem_init` has returned, the array
by `EIO_MD8`. There is no array of 0 bytes, and no buffer of 0 pages. -/
def loadAlloc (needed : Bool) : Option (Int × RawCache × Ssd) :=
  let order := c.cfg.size.toNat * if needed then 8 else 4
  if env.array = false ∨ order = 0 then some (1, c.setArray none, ssd)
  else
    let c := c.setArray (some order)
    if env.blkInit = false then some (-22, c.setArray none, ssd)
    else if env.pages = false ∨ r.nrPages = 0 then some (-12, c.setArray none, ssd)
    else if env.pgVirtAddr = false then some (-12, c, ssd)
    else loadBlocks env r ssd c

/-- From `eio_mem_init` on. -/
def loadMem : Option (Int × RawCache × Ssd) :=
  (c.cfg.memInitMd8 r.diskSize).bind fun needed =>
    loadAlloc env r ssd { c with cfg := c.cfg.setMd8 needed } needed

/-- The policy that is asked for, by the caller or the superblock. -/
def policy : BitVec 32 :=
  let req := (r.readConfig ssd.sb).reqPolicy
  if req = 0 then 1 else req

/-- `eio_policy_init` succeeds. -/
def PolicyFound : Prop := env.registered (r.policy ssd) = true ∧ env.opsAlloc = true

instance : Decidable (PolicyFound env r ssd) := inferInstanceAs (Decidable (_ ∧ _))

/-- The fields of the superblock, and the policy. -/
def config : Config := { r.readConfig ssd.sb with reqPolicy := r.policy ssd }

/-- The cache before `eio_mem_init`. -/
def configured : RawCache :=
  { RawCache.init r with
    cfg := r.config ssd, policyOps := some (r.policy ssd), sbVersion := eioSbVersion }

/-- The cache if there is no policy. -/
def unconfigured : RawCache :=
  let c := { RawCache.init r with sbVersion := eioSbVersion }
  let cfg := r.config ssd
  { c with
    cfg := { c.cfg with
      mode := cfg.mode, reqPolicy := cfg.reqPolicy, cacheFlags := cfg.cacheFlags } }

/-- Past the checks of the superblock. If there is no policy, `ret` is 0 still. -/
def loadConf : Option (Int × RawCache × Ssd) :=
  if ¬ PolicyFound env r ssd then some (0, r.unconfigured ssd, ssd)
  else loadMem env r ssd (r.configured ssd)

/-- `eio_md_load`: the value it returns, the cache and the device; `none` if it does not
return. -/
def load : Option (Int × RawCache × Ssd) :=
  if env.headerPage = false then some (-12, .init r, ssd)
  else if r.cacheFlags &&& (flagsFailed ||| flagsDegraded) ≠ 0 then some (-19, .init r, ssd)
  else if env.sbRead = false then some (-22, .init r, ssd)
  else
    match ssd.sb.refuse with
    | some 0 => some (0, { RawCache.init r with persistence := cacheForcecreate }, ssd)
    | some ret => some (ret, .init r, ssd)
    | none =>
      if ¬ ssd.sb.StateOk then some (-22, { RawCache.init r with sbVersion := eioSbVersion }, ssd)
      else loadConf env r ssd

end LoadReq

/-! ## What the loop leaves -/

/-- The entry of block `i` on the device. -/
def entryOf (dev : MdDev) (mdStartSect i : Nat) : MdEntry :=
  dev (mdSectorOf mdStartSect i) (mdByteOf i)

/-- The entry passes the assertions of the load. -/
structure Config.Passes (cfg : Config) (e : MdEntry) : Prop where
  state : ¬ ((e.state.off queued).has valid = true ∧
    (e.state.off queued).has invalid = true)
  dbn : (cfg.dbnBits e.dbn).isSome

/-- The entry of block `i` does not stop the load. -/
structure Config.Fine (cfg : Config) (clean : Bool) (entry : Nat → MdEntry) (i : Nat) : Prop where
  small : i < 2 ^ 31
  passes : (entry i).Taken clean → cfg.Passes (entry i)

/-- The descriptor that an entry gives. -/
def Config.block (cfg : Config) (clean : Bool) (e : MdEntry) : RawBlock :=
  if e.Taken clean then ⟨cfg.dbnBits e.dbn, some (e.state.off queued)⟩
  else ⟨some 0, some invalid⟩

namespace RawLoop

variable {cfg : Config} {clean : Bool} {entry : Nat → MdEntry} {n : Nat} {st st' : RawLoop}

/-- The entries of the blocks before `n` have been read. -/
structure Read (cfg : Config) (clean : Bool) (entry : Nat → MdEntry) (n : Nat) (st : RawLoop) :
    Prop where
  i : st.i = n
  fine : ∀ i < n, cfg.Fine clean entry i
  blocks : ∀ i < n, st.blocks i = cfg.block clean (entry i)
  dirty : st.dirtyLoaded ≠ 0 ↔ ∃ i < n, (entry i).state.has dirty = true
  /-- a block that stands for sector 0 has no bits of a sector -/
  zero : ∀ i < n, st.indexZero = i → i < cfg.assoc.toNat → (entry i).Taken clean →
    cfg.dbnBits (entry i).dbn = some 0

theorem dbnBits_zero (cfg : Config) : cfg.dbnBits 0 = some 0 := by
  unfold Config.dbnBits
  split
  · rfl
  · rfl

theorem take_blocks (e : MdEntry) (bits i : Nat) (st : RawLoop) :
    (take cfg e bits st).blocks i =
      if i = st.i then ⟨some bits, some (e.state.off queued)⟩ else st.blocks i := by
  simp only [take, dbnSet, Function.update_apply]
  split <;> simp_all

theorem drop_blocks (i : Nat) (st : RawLoop) :
    st.drop.blocks i = if i = st.i then ⟨some 0, some invalid⟩ else st.blocks i := by
  simp only [drop, Function.update_apply]

theorem take_indexZero (e : MdEntry) (bits : Nat) (st : RawLoop) :
    (take cfg e bits st).indexZero = if e.dbn = 0 then st.i else
      if st.indexZero < cfg.assoc.toNat ∧ st.i = st.indexZero ∧ bits ≠ 0 then cfg.assoc.toNat
      else st.indexZero := rfl

theorem loadEntry_cases (cfg : Config) (clean : Bool) (e : MdEntry) (st : RawLoop) :
    (∃ bits, e.Taken clean ∧ cfg.dbnBits e.dbn = some bits ∧ cfg.Passes e ∧ st.i < 2 ^ 31 ∧
      loadEntry cfg clean e st = .ok (take cfg e bits st)) ∨
    (¬ e.Taken clean ∧ st.i < 2 ^ 31 ∧ loadEntry cfg clean e st = .ok st.drop) ∨
    (¬ (st.i < 2 ^ 31 ∧ (e.Taken clean → cfg.Passes e)) ∧
      loadEntry cfg clean e st = .error .stuck) := by
  unfold loadEntry
  by_cases hi : 2 ^ 31 ≤ st.i
  · exact .inr (.inr ⟨fun h => absurd h.1 (Nat.not_lt.mpr hi), if_pos hi⟩)
  · rw [if_neg hi]
    have hlt : st.i < 2 ^ 31 := Nat.lt_of_not_le hi
    by_cases htaken : e.Taken clean
    · rw [if_pos htaken]
      simp only
      by_cases hstate : (e.state.off queued).has valid = true ∧
          (e.state.off queued).has invalid = true
      · exact .inr (.inr ⟨fun h => (h.2 htaken).state hstate, if_pos hstate⟩)
      · rw [if_neg hstate]
        cases hbits : cfg.dbnBits e.dbn with
        | none =>
          refine .inr (.inr ⟨fun h => ?_, rfl⟩)
          have hsome := (h.2 htaken).dbn
          rw [hbits] at hsome
          cases hsome
        | some bits =>
          exact .inl ⟨bits, htaken, rfl, ⟨hstate, by rw [hbits]; rfl⟩, hlt, rfl⟩
    · exact .inr (.inl ⟨htaken, hlt, if_neg htaken⟩)

theorem Read.step (h : Read cfg clean entry n st)
    (hload : loadEntry cfg clean (entry n) st = .ok st') :
    Read cfg clean entry (n + 1) st' ∧ st'.sector = st.sector ∧
      st'.sectorsRead = st.sectorsRead := by
  have hi := h.i
  rcases loadEntry_cases cfg clean (entry n) st with
    ⟨bits, htaken, hbits, hpass, hlt, heq⟩ | ⟨hno, hlt, heq⟩ | ⟨-, heq⟩
  · cases Except.ok.inj (heq.symm.trans hload)
    refine ⟨⟨by rw [← hi]; rfl, Nat.forall_lt_succ_right.mpr ⟨h.fine, hi ▸ hlt, fun _ => hpass⟩,
      fun i hin => ?_, ?_, ?_⟩, rfl, rfl⟩
    · rw [take_blocks, hi]
      rcases Nat.lt_succ_iff_lt_or_eq.mp hin with hin | rfl
      · rw [if_neg hin.ne, h.blocks i hin]
      · rw [if_pos rfl, Config.block, if_pos htaken, hbits]
    · rw [Nat.exists_lt_succ_right, ← h.dirty]
      show st.dirtyLoaded + (if (entry n).state.has State.dirty then 1 else 0) ≠ 0 ↔ _
      split <;> simp_all
    · intro i hin hz hassoc ht
      rw [take_indexZero, hi] at hz
      by_cases hd : (entry n).dbn = 0
      · rw [if_pos hd] at hz
        rw [← hz, hd, dbnBits_zero]
      · rw [if_neg hd] at hz
        split at hz
        · omega
        · next hkeep =>
          rcases Nat.lt_succ_iff_lt_or_eq.mp hin with hin | rfl
          · exact h.zero i hin hz hassoc ht
          · -- sector 0 was here before, and stays only if there are no bits
            obtain rfl : bits = 0 := by
              by_contra hne
              exact hkeep ⟨hz ▸ hassoc, hz.symm, hne⟩
            exact hbits
  · cases Except.ok.inj (heq.symm.trans hload)
    have hclean : (entry n).state.has State.dirty ≠ true := fun hd => hno (.inr hd)
    refine ⟨⟨by rw [← hi]; rfl,
      Nat.forall_lt_succ_right.mpr ⟨h.fine, hi ▸ hlt, fun ht => absurd ht hno⟩,
      fun i hin => ?_, ?_, ?_⟩, rfl, rfl⟩
    · rw [drop_blocks, hi]
      rcases Nat.lt_succ_iff_lt_or_eq.mp hin with hin | rfl
      · rw [if_neg hin.ne, h.blocks i hin]
      · rw [if_pos rfl, Config.block, if_neg hno]
    · rw [Nat.exists_lt_succ_right, ← h.dirty, or_iff_left hclean]
      rfl
    · intro i hin hz hassoc ht
      rcases Nat.lt_succ_iff_lt_or_eq.mp hin with hin | rfl
      · exact h.zero i hin hz hassoc ht
      · exact absurd ht hno
  · rw [heq] at hload
    cases hload

theorem Read.advance (h : Read cfg clean entry n st) (slotsRead : Nat) :
    Read cfg clean entry n (st.advance slotsRead) :=
  ⟨h.i, h.fine, h.blocks, h.dirty, h.zero⟩

theorem Read.slots {left j : Nat} (h : Read cfg clean entry n st) (slot : Nat → MdEntry)
    (hslot : ∀ t < left, slot (j + t) = entry (n + t)) :
    (∃ st', loadSlots cfg clean slot left j st = .ok st' ∧
      Read cfg clean entry (n + left) st' ∧ st'.sector = st.sector ∧
        st'.sectorsRead = st.sectorsRead) ∨
    (loadSlots cfg clean slot left j st = .error .stuck ∧
      ∃ t < left, ¬ cfg.Fine clean entry (n + t)) := by
  induction left generalizing n j st with
  | zero => exact .inl ⟨st, rfl, h, rfl, rfl⟩
  | succ left ih =>
    unfold loadSlots
    rw [show slot j = entry n from hslot 0 (Nat.succ_pos _)]
    have hrest : ∀ t < left, slot (j + 1 + t) = entry (n + 1 + t) := by
      intro t ht
      have := hslot (t + 1) (by omega)
      rwa [← Nat.add_assoc, Nat.add_right_comm, ← Nat.add_assoc n, Nat.add_right_comm n] at this
    cases hentry : loadEntry cfg clean (entry n) st with
    | error stop =>
      refine .inr ?_
      rcases loadEntry_cases cfg clean (entry n) st with
        ⟨bits, -, -, -, -, heq⟩ | ⟨-, -, heq⟩ | ⟨hbad, heq⟩
      · cases heq.symm.trans hentry
      · cases heq.symm.trans hentry
      · cases heq.symm.trans hentry
        exact ⟨rfl, 0, Nat.succ_pos _, fun hfine => hbad ⟨h.i ▸ hfine.small, hfine.passes⟩⟩
    | ok st₁ =>
      obtain ⟨hread, hsector, hsectors⟩ := h.step hentry
      rcases ih hread hrest with ⟨st', hload, hdone, hsame, hsames⟩ | ⟨hload, t, ht, hbad⟩
      · refine .inl ⟨st', hload, ?_, hsame.trans hsector, hsames.trans hsectors⟩
        rwa [Nat.add_assoc, Nat.add_comm 1] at hdone
      · refine .inr ⟨hload, t + 1, by omega, ?_⟩
        rwa [Nat.add_assoc, Nat.add_comm 1] at hbad

/-! The transfers: each but the last is of full pages. -/

section
variable {dev : MdDev} {mdStartSect nrPages k size : Nat} {mdRead : Nat → Bool}

/-- The transfer that brings block `i` succeeds, and all before it. -/
def Reached (mdRead : Nat → Bool) (nrPages i : Nat) : Prop :=
  ∀ k ≤ i / (256 * nrPages), mdRead k = true

/-- The state at the start of transfer `k`, with `n` blocks read and `size` left. -/
structure At (mdRead : Nat → Bool) (nrPages mdStartSect k n size : Nat) (st : RawLoop) : Prop where
  sectors : st.sectorsRead = (n + 31) / 32
  transfers : ∀ t < k, mdRead t = true
  le : n ≤ 256 * nrPages * k
  more : size = 0 ∨ (n = 256 * nrPages * k ∧ st.sector = mdStartSect + n / 32)

theorem At.reached (h : At mdRead nrPages mdStartSect k n size st) :
    ∀ i < n, Reached mdRead nrPages i := by
  intro i hi t ht
  have hlt : i / (256 * nrPages) < k := Nat.div_lt_of_lt_mul (Nat.lt_of_lt_of_le hi h.le)
  exact h.transfers t (Nat.lt_of_le_of_lt ht hlt)

theorem At.mod (h : At mdRead nrPages mdStartSect k n (size + 1) st) : n % 32 = 0 := by
  rw [(h.more.resolve_left (Nat.succ_ne_zero _)).1, Nat.mul_assoc, Nat.mul_mod]
  simp

theorem At.slot (h : At mdRead nrPages mdStartSect k n (size + 1) st) (j : Nat) :
    dev (st.sector + j / 32) (j % 32 * 16) = entryOf dev mdStartSect (n + j) := by
  have hmod := h.mod
  have hdiv : (n + j) / 32 = n / 32 + j / 32 := by omega
  have hrem : (n + j) % 32 = j % 32 := by omega
  rw [entryOf, mdSectorOf, mdByteOf, (h.more.resolve_left (Nat.succ_ne_zero _)).2, hdiv, hrem,
    Nat.add_assoc]

theorem At.next {slotsRead : Nat} (h : At mdRead nrPages mdStartSect k n (size + 1) st)
    (hread : min (size + 1) (256 * nrPages) = slotsRead) (hk : mdRead k = true) :
    At mdRead nrPages mdStartSect (k + 1) (n + slotsRead) (size + 1 - slotsRead)
      (st.advance slotsRead) := by
  obtain ⟨hstart, hsector⟩ := h.more.resolve_left (Nat.succ_ne_zero _)
  have hmod := h.mod
  have hsectors := h.sectors
  refine ⟨?_, Nat.forall_lt_succ_right.mpr ⟨h.transfers, hk⟩, ?_, ?_⟩
  · simp only [advance, hsectors]
    split <;> omega
  · rw [hstart, Nat.mul_add, Nat.mul_one]
    omega
  · by_cases hlast : size + 1 - slotsRead = 0
    · exact .inl hlast
    · have hfull : slotsRead = 256 * nrPages := by omega
      refine .inr ⟨?_, ?_⟩
      · rw [hstart, hfull, Nat.mul_add, Nat.mul_one]
      · simp only [advance, hsector]
        rw [if_neg (by omega)]
        omega

/-- How the loop over `size` blocks ends. -/
inductive Ends (cfg : Config) (clean : Bool) (entry : Nat → MdEntry) (mdRead : Nat → Bool)
    (nrPages size : Nat) : Except LoadStop RawLoop → Prop where
  | done (st : RawLoop) (read : Read cfg clean entry size st)
      (sectors : st.sectorsRead = (size + 31) / 32)
      (reached : ∀ i < size, Reached mdRead nrPages i) :
      Ends cfg clean entry mdRead nrPages size (.ok st)
  | failed (fails : ∃ i < size, ¬ Reached mdRead nrPages i)
      (fine : ∀ i < size, Reached mdRead nrPages i → cfg.Fine clean entry i) :
      Ends cfg clean entry mdRead nrPages size (.error .readError)
  | stuck (bad : ∃ i < size, Reached mdRead nrPages i ∧ ¬ cfg.Fine clean entry i) :
      Ends cfg clean entry mdRead nrPages size (.error .stuck)

/-- The loop ends at the first failed transfer, or the first entry that does not pass. -/
theorem Read.run {fuel : Nat} (hn : 1 ≤ nrPages) (hfuel : size ≤ fuel)
    (h : Read cfg clean (entryOf dev mdStartSect) n st)
    (hat : At mdRead nrPages mdStartSect k n size st) :
    Ends cfg clean (entryOf dev mdStartSect) mdRead nrPages (n + size)
      (run cfg clean mdRead nrPages dev fuel k size st) := by
  induction fuel generalizing k n size st with
  | zero =>
    obtain rfl : size = 0 := by omega
    exact .done st h hat.sectors hat.reached
  | succ fuel ih =>
    cases size with
    | zero => exact .done st h hat.sectors hat.reached
    | succ size =>
      simp only [RawLoop.run]
      generalize hread : min (size + 1) (256 * nrPages) = slotsRead
      have hstart := (hat.more.resolve_left (Nat.succ_ne_zero _)).1
      by_cases hk : mdRead k = false
      · rw [if_pos hk]
        have hlost : ∀ i, n ≤ i → ¬ Reached mdRead nrPages i := by
          intro i hi hreached
          have hle : k ≤ i / (256 * nrPages) := by
            rw [Nat.le_div_iff_mul_le (by omega), Nat.mul_comm, ← hstart]
            exact hi
          rw [hreached k hle] at hk
          cases hk
        refine .failed ⟨n, by omega, hlost n (Nat.le_refl n)⟩ fun i _ hreached => ?_
        exact h.fine i (Nat.lt_of_not_le fun hle => hlost i hle hreached)
      · rw [if_neg hk]
        replace hk : mdRead k = true := Bool.eq_true_of_not_eq_false hk
        have hslot : ∀ t < slotsRead, dev (st.sector + (0 + t) / 32) ((0 + t) % 32 * 16) =
            entryOf dev mdStartSect (n + t) := by
          intro t _
          rw [Nat.zero_add]
          exact hat.slot t
        rcases h.slots (fun j => dev (st.sector + j / 32) (j % 32 * 16)) hslot with
          ⟨st₁, hload, hdone, hsector, hsectors⟩ | ⟨hload, t, ht, hbad⟩
        · rw [hload]
          have hat₁ : At mdRead nrPages mdStartSect k n (size + 1) st₁ :=
            ⟨hsectors.trans hat.sectors, hat.transfers, hat.le, hsector ▸ hat.more⟩
          have hrest := ih (by omega) (hdone.advance slotsRead) (hat₁.next hread hk)
          rwa [Nat.add_assoc, show slotsRead + (size + 1 - slotsRead) = size + 1 by omega]
            at hrest
        · rw [hload]
          refine .stuck ⟨n + t, by omega, ?_, hbad⟩
          exact (hat.next hread hk).reached _ (by omega)

end
end RawLoop

/-! ## The stages of the load -/

theorem flag_or_and (flags flag : BitVec 32) : (flags ||| flag) &&& flag = flag := by
  ext i
  simp only [BitVec.getElem_and, BitVec.getElem_or]
  cases flag[i] <;> simp

theorem Config.setMd8_md8 (cfg : Config) (needed : Bool) :
    (cfg.setMd8 needed).md8 = (cfg.md8 || needed) := by
  simp only [md8, has, setMd8]
  cases needed with
  | false => simp
  | true =>
    rw [if_pos rfl, flag_or_and, Bool.or_true]
    rfl

@[simp] theorem RawCache.arrayBytes_setArray (c : RawCache) (bytes : Option Nat) :
    (c.setArray bytes).arrayBytes = bytes := by
  simp only [arrayBytes, setArray]
  split <;> rfl

namespace LoadReq

open RawLoop (Reached Read Ends)

variable {env : LoadEnv} {r : LoadReq} {ssd ssd' : Ssd} {c c' : RawCache}

/-- The entries of the device, from the start of the metadata on. -/
def entries (ssd : Ssd) : Nat → MdEntry := entryOf ssd.md ssd.sb.cacheMdStartSect.toNat

/-- The loaded cache. -/
def finished (c : RawCache) (st : RawLoop) : RawCache :=
  { c with blocks := st.blocks, indexZero := st.indexZero, sbState := mdStateDirty }

/-- There are dirty blocks, and the mode does not allow them. -/
def DirtyRefused (ssd : Ssd) (cfg : Config) : Prop :=
  (∃ i < cfg.size.toNat, (entries ssd i).state.has dirty = true) ∧ cfg.mode ≠ Mode.wb.code

/-- How the loop and what comes after it end. -/
inductive BlocksEnd (env : LoadEnv) (r : LoadReq) (ssd : Ssd) (c : RawCache) :
    Option (Int × RawCache × Ssd) → Prop where
  | loaded (st : RawLoop)
      (read : Read c.cfg (r.cleanShutdown ssd.sb) (entries ssd) c.cfg.size.toNat st)
      (reached : ∀ i < c.cfg.size.toNat, Reached env.mdRead r.nrPages i)
      (mode : ¬ DirtyRefused ssd c.cfg) (store : ¬ StoreFails env c.cfg) :
      BlocksEnd env r ssd c
        (some (0, finished c st, { ssd with sb := (finished c st).superblock r }))
  | refused (ret : Int) (c' : RawCache) (hret : ret ≠ 0)
      (fine : ∀ i < c.cfg.size.toNat, Reached env.mdRead r.nrPages i →
        c.cfg.Fine (r.cleanShutdown ssd.sb) (entries ssd) i)
      (why : (∃ i < c.cfg.size.toNat, ¬ Reached env.mdRead r.nrPages i) ∨
        DirtyRefused ssd c.cfg ∨ StoreFails env c.cfg) :
      BlocksEnd env r ssd c (some (ret, c', ssd))
  | stuck (bad : ∃ i < c.cfg.size.toNat, Reached env.mdRead r.nrPages i ∧
        ¬ c.cfg.Fine (r.cleanShutdown ssd.sb) (entries ssd) i) :
      BlocksEnd env r ssd c none

theorem loadFinish_end (env : LoadEnv) {st : RawLoop}
    (read : Read c.cfg (r.cleanShutdown ssd.sb) (entries ssd) c.cfg.size.toNat st)
    (sectors : st.sectorsRead = (c.cfg.size.toNat + 31) / 32)
    (reached : ∀ i < c.cfg.size.toNat, Reached env.mdRead r.nrPages i) :
    BlocksEnd env r ssd c
      (some (r.loadFinish env ssd
        { c with blocks := st.blocks, indexZero := st.indexZero } st)) := by
  have hfine : ∀ i < c.cfg.size.toNat, Reached env.mdRead r.nrPages i →
      c.cfg.Fine (r.cleanShutdown ssd.sb) (entries ssd) i := fun i hi _ => read.fine i hi
  have hsectors : c.cfg.size.toNat / 32 + (if c.cfg.size.toNat % 32 ≠ 0 then 1 else 0) =
      st.sectorsRead := by
    rw [sectors]
    split <;> omega
  have hdirty : st.dirtyLoaded ≠ 0 ∧ c.cfg.mode ≠ Mode.wb.code ↔ DirtyRefused ssd c.cfg :=
    and_congr_left fun _ => read.dirty
  simp only [loadFinish]
  by_cases hmode : st.dirtyLoaded ≠ 0 ∧ c.cfg.mode ≠ Mode.wb.code
  · rw [if_pos hmode]
    exact .refused _ _ (by decide) hfine (.inr (.inl (hdirty.mp hmode)))
  · rw [if_neg hmode, if_neg (not_not.mpr hsectors)]
    by_cases hstore : StoreFails env c.cfg
    · rw [if_pos hstore]
      exact .refused _ _ (by decide) hfine (.inr (.inr hstore))
    · rw [if_neg hstore]
      exact .loaded st read reached (fun h => hmode (hdirty.mpr h)) hstore

theorem loadBlocks_end (env : LoadEnv) (hn : r.nrPages ≠ 0)
    (hstart : c.cfg.mdStartSect = ssd.sb.cacheMdStartSect) :
    BlocksEnd env r ssd c (r.loadBlocks env ssd c) := by
  have hread : Read c.cfg (r.cleanShutdown ssd.sb) (entries ssd) 0 c.startLoop :=
    ⟨rfl, nofun, nofun, by simp [RawCache.startLoop], nofun⟩
  have hat : RawLoop.At env.mdRead r.nrPages ssd.sb.cacheMdStartSect.toNat 0 0 c.cfg.size.toNat
      c.startLoop :=
    ⟨rfl, nofun, Nat.zero_le _, .inr ⟨rfl, by rw [← hstart]; rfl⟩⟩
  have hrun := hread.run (Nat.pos_of_ne_zero hn) (Nat.le_refl _) hat
  rw [Nat.zero_add] at hrun
  unfold loadBlocks
  generalize RawLoop.run c.cfg (r.cleanShutdown ssd.sb) env.mdRead r.nrPages ssd.md
    c.cfg.size.toNat 0 c.cfg.size.toNat c.startLoop = result at hrun ⊢
  cases hrun with
  | done st read sectors reached => exact loadFinish_end env read sectors reached
  | failed fails fine => exact .refused _ _ (by decide) fine (.inl fails)
  | stuck bad => exact .stuck bad

/-- An allocation fails. -/
def AllocFails (env : LoadEnv) (r : LoadReq) (size : Nat) : Prop :=
  (env.array = false ∨ size = 0) ∨ env.blkInit = false ∨
    (env.pages = false ∨ r.nrPages = 0) ∨ env.pgVirtAddr = false

/-- The cache with its array. -/
def allocated (c : RawCache) (needed : Bool) : RawCache :=
  c.setArray (some (c.cfg.size.toNat * if needed then 8 else 4))

theorem loadAlloc_cases (env : LoadEnv) (r : LoadReq) (ssd : Ssd) (c : RawCache) (needed : Bool) :
    (AllocFails env r c.cfg.size.toNat ∧
      ∃ ret c', ret ≠ 0 ∧ r.loadAlloc env ssd c needed = some (ret, c', ssd)) ∨
    (¬ AllocFails env r c.cfg.size.toNat ∧
      r.loadAlloc env ssd c needed = r.loadBlocks env ssd (allocated c needed)) := by
  have horder : (c.cfg.size.toNat * if needed then 8 else 4) = 0 ↔ c.cfg.size.toNat = 0 := by
    split <;> omega
  simp only [loadAlloc, horder]
  by_cases harray : env.array = false ∨ c.cfg.size.toNat = 0
  · rw [if_pos harray]
    exact .inl ⟨.inl harray, 1, _, by decide, rfl⟩
  rw [if_neg harray]
  by_cases hblk : env.blkInit = false
  · rw [if_pos hblk]
    exact .inl ⟨.inr (.inl hblk), -22, _, by decide, rfl⟩
  rw [if_neg hblk]
  by_cases hpages : env.pages = false ∨ r.nrPages = 0
  · rw [if_pos hpages]
    exact .inl ⟨.inr (.inr (.inl hpages)), -12, _, by decide, rfl⟩
  rw [if_neg hpages]
  by_cases haddr : env.pgVirtAddr = false
  · rw [if_pos haddr]
    exact .inl ⟨.inr (.inr (.inr haddr)), -12, _, by decide, rfl⟩
  rw [if_neg haddr]
  have hok : ¬ AllocFails env r c.cfg.size.toNat := by
    rintro (h | h | h | h)
    · exact harray h
    · exact hblk h
    · exact hpages h
    · exact haddr h
  exact .inr ⟨hok, rfl⟩

/-- The cache of a load that has come to the blocks. -/
def ready (r : LoadReq) (ssd : Ssd) (needed : Bool) : RawCache :=
  allocated { r.configured ssd with cfg := (r.config ssd).setMd8 needed } needed

/-- The superblock can be read and passes the checks. -/
structure Checked (env : LoadEnv) (r : LoadReq) (ssd : Ssd) : Prop where
  headerPage : env.headerPage = true
  flags : r.cacheFlags &&& (flagsFailed ||| flagsDegraded) = 0
  sbRead : env.sbRead = true
  refuse : ssd.sb.refuse = none
  state : ssd.sb.StateOk

/-- How a load ends. -/
inductive LoadEnd (env : LoadEnv) (r : LoadReq) (ssd : Ssd) :
    Option (Int × RawCache × Ssd) → Prop where
  | unchecked (ret : Int) (c : RawCache) (hret : ret ≠ 0) (check : ¬ Checked env r ssd) :
      LoadEnd env r ssd (some (ret, c, ssd))
  | recreate (refuse : ssd.sb.refuse = some 0) :
      LoadEnd env r ssd (some (0, { RawCache.init r with persistence := cacheForcecreate }, ssd))
  | noPolicy (check : Checked env r ssd) (policy : ¬ PolicyFound env r ssd) :
      LoadEnd env r ssd (some (0, r.unconfigured ssd, ssd))
  | noMem (check : Checked env r ssd) (policy : PolicyFound env r ssd)
      (mem : (r.config ssd).memInitMd8 r.diskSize = none) : LoadEnd env r ssd none
  | noAlloc (ret : Int) (c : RawCache) (needed : Bool) (hret : ret ≠ 0) (check : Checked env r ssd)
      (policy : PolicyFound env r ssd)
      (mem : (r.config ssd).memInitMd8 r.diskSize = some needed)
      (alloc : AllocFails env r (r.config ssd).size.toNat) : LoadEnd env r ssd (some (ret, c, ssd))
  | blocks (needed : Bool) (result : Option (Int × RawCache × Ssd)) (check : Checked env r ssd)
      (policy : PolicyFound env r ssd)
      (mem : (r.config ssd).memInitMd8 r.diskSize = some needed)
      (alloc : ¬ AllocFails env r (r.config ssd).size.toNat)
      (ends : BlocksEnd env r ssd (r.ready ssd needed) result) : LoadEnd env r ssd result

theorem loadConf_end (check : Checked env r ssd) : LoadEnd env r ssd (r.loadConf env ssd) := by
  unfold loadConf
  by_cases hpolicy : PolicyFound env r ssd
  · rw [if_neg (not_not.mpr hpolicy)]
    unfold loadMem
    cases hmem : (r.configured ssd).cfg.memInitMd8 r.diskSize with
    | none => exact .noMem check hpolicy hmem
    | some needed =>
      rw [Option.bind_some]
      rcases loadAlloc_cases env r ssd
          { r.configured ssd with cfg := (r.config ssd).setMd8 needed } needed with
        ⟨hfails, ret, c, hret, heq⟩ | ⟨hok, heq⟩
      · have hend : LoadEnd env r ssd (some (ret, c, ssd)) :=
          .noAlloc ret c needed hret check hpolicy hmem hfails
        rwa [← heq] at hend
      · have hn : r.nrPages ≠ 0 := fun h => hok (.inr (.inr (.inl (.inr h))))
        have hend := LoadEnd.blocks needed _ check hpolicy hmem hok
          (loadBlocks_end (c := r.ready ssd needed) env hn rfl)
        rwa [ready, ← heq] at hend
  · rw [if_pos hpolicy]
    exact .noPolicy check hpolicy

theorem refuse_cases (sb : Superblock) : sb.refuse = none ∨ sb.refuse = some 0 ∨
    sb.refuse = some 1 := by
  unfold Superblock.refuse
  repeat' split
  all_goals simp

/-- Every load ends in one of these ways. -/
theorem load_end (env : LoadEnv) (r : LoadReq) (ssd : Ssd) :
    LoadEnd env r ssd (r.load env ssd) := by
  unfold load
  by_cases hpage : env.headerPage = false
  · rw [if_pos hpage]
    exact .unchecked _ _ (by decide) fun h => by simp [h.headerPage] at hpage
  rw [if_neg hpage]
  by_cases hflags : r.cacheFlags &&& (flagsFailed ||| flagsDegraded) ≠ 0
  · rw [if_pos hflags]
    exact .unchecked _ _ (by decide) fun h => hflags h.flags
  rw [if_neg hflags]
  by_cases hsb : env.sbRead = false
  · rw [if_pos hsb]
    exact .unchecked _ _ (by decide) fun h => by simp [h.sbRead] at hsb
  rw [if_neg hsb]
  rcases refuse_cases ssd.sb with href | href | href
  · rw [href]
    by_cases hstate : ssd.sb.StateOk
    · rw [if_neg (not_not.mpr hstate)]
      refine loadConf_end ⟨?_, not_not.mp hflags, ?_, href, hstate⟩
      · exact Bool.eq_true_of_not_eq_false hpage
      · exact Bool.eq_true_of_not_eq_false hsb
    · rw [if_pos hstate]
      exact .unchecked _ _ (by decide) fun h => hstate h.state
  · rw [href]
    exact .recreate href
  · rw [href]
    exact .unchecked _ _ (by decide) fun h => by simp [h.refuse] at href

/-! ## What a load that returns 0 has done -/

/-- The cache is loaded: it has a policy, the geometry of the superblock and the whole array, with
each descriptor written, and the superblock on the device is that of a cache in use. -/
structure Done (r : LoadReq) (ssd : Ssd) (c : RawCache) (ssd' : Ssd) : Prop where
  policyOps : c.policyOps.isSome
  size : c.cfg.size = (ssd.sb.size.setWidth 32).setWidth 64
  blockSize : c.cfg.blockSize = ssd.sb.blockSize
  assoc : c.cfg.assoc = ssd.sb.assoc
  mdStartSect : c.cfg.mdStartSect = ssd.sb.cacheMdStartSect
  mdSectors : c.cfg.mdSectors = ssd.sb.cacheDataStartSect
  array : c.arrayBytes = some (c.cfg.size.toNat * c.cfg.entrySize)
  blocks : ∀ i < c.cfg.size.toNat, (c.blocks i).dbn.isSome ∧ (c.blocks i).state.isSome
  superblock : ssd'.sb = c.superblock r ∧ ssd'.sb.cacheSbState = mdStateDirty

/-- The long entries are needed if `CACHE_FLAGS_MD8` is set already. -/
def Md8Kept (r : LoadReq) (ssd : Ssd) : Prop :=
  (r.config ssd).md8 = true → (r.config ssd).memInitMd8 r.diskSize = some true

theorem block_isSome {cfg : Config} {clean : Bool} {entry : Nat → MdEntry} {i : Nat}
    (h : cfg.Fine clean entry i) :
    (cfg.block clean (entry i)).dbn.isSome ∧ (cfg.block clean (entry i)).state.isSome := by
  unfold Config.block
  by_cases htaken : (entry i).Taken clean
  · rw [if_pos htaken]
    exact ⟨(h.passes htaken).dbn, rfl⟩
  · rw [if_neg htaken]
    exact ⟨rfl, rfl⟩

/-- The array is as long as its entries need. -/
theorem finished_array_iff {needed : Bool} (st : RawLoop)
    (hmem : (r.config ssd).memInitMd8 r.diskSize = some needed)
    (hsize : (r.config ssd).size.toNat ≠ 0) :
    (finished (r.ready ssd needed) st).arrayBytes =
        some ((r.config ssd).size.toNat * ((r.config ssd).setMd8 needed).entrySize) ↔
      r.Md8Kept ssd := by
  have harray : (finished (r.ready ssd needed) st).arrayBytes =
      some ((r.config ssd).size.toNat * if needed then 8 else 4) := by
    show (r.ready ssd needed).arrayBytes = _
    exact RawCache.arrayBytes_setArray _ _
  rw [harray, Option.some.injEq, Nat.mul_right_inj hsize, Md8Kept, hmem, Config.entrySize,
    Config.setMd8_md8]
  cases needed <;> cases (r.config ssd).md8 <;> simp

/-- The ways in which a load returns 0. -/
theorem load_zero_cases (h : r.load env ssd = some (0, c, ssd')) :
    (ssd.sb.refuse = some 0 ∧ c.persistence = cacheForcecreate) ∨
    (ssd.sb.refuse = none ∧ c.persistence = cacheReload ∧
      ((¬ PolicyFound env r ssd ∧ c = r.unconfigured ssd) ∨
      (PolicyFound env r ssd ∧ ∃ needed st,
        (r.config ssd).memInitMd8 r.diskSize = some needed ∧ (r.config ssd).size.toNat ≠ 0 ∧
        Read ((r.config ssd).setMd8 needed) (r.cleanShutdown ssd.sb) (entries ssd)
          (r.config ssd).size.toNat st ∧
        c = finished (r.ready ssd needed) st ∧ ssd' = { ssd with sb := c.superblock r }))) := by
  have hend := load_end env r ssd
  rw [h] at hend
  generalize hzero : (0 : Int) = ret at hend
  cases hend with
  | unchecked ret c hret check => exact absurd hzero.symm hret
  | recreate refuse => exact .inl ⟨refuse, rfl⟩
  | noPolicy check policy => exact .inr ⟨check.refuse, rfl, .inl ⟨policy, rfl⟩⟩
  | noAlloc ret c needed hret check policy mem alloc => exact absurd hzero.symm hret
  | blocks needed result check policy mem alloc ends =>
    cases ends with
    | refused ret c' hret fine why => exact absurd hzero.symm hret
    | loaded st read reached mode store =>
      have hsize : (r.config ssd).size.toNat ≠ 0 := fun hsize => alloc (.inl (.inr hsize))
      exact .inr ⟨check.refuse, rfl, .inr ⟨policy, needed, st, mem, hsize, read, rfl, rfl⟩⟩

/-- **A load that returns 0.** It has loaded the cache, or has asked for the cache to be created
anew, exactly if the superblock is of an older version, or there is a policy and the long
entries are not left over from a larger source. -/
theorem load_done_iff (env : LoadEnv) (r : LoadReq) (ssd ssd' : Ssd) (c : RawCache)
    (h : r.load env ssd = some (0, c, ssd')) :
    (c.persistence = cacheForcecreate ∨ r.Done ssd c ssd') ↔
      (ssd.sb.refuse = some 0 ∨ (PolicyFound env r ssd ∧ r.Md8Kept ssd)) := by
  rcases load_zero_cases h with ⟨href, hpers⟩ | ⟨href, hpers, hload⟩
  · exact iff_of_true (.inl hpers) (.inl href)
  · rw [hpers, href, or_iff_right (by decide), or_iff_right nofun]
    rcases hload with ⟨hno, rfl⟩ | ⟨hpolicy, needed, st, hmem, hsize, hread, rfl, rfl⟩
    · refine iff_of_false (fun hdone => ?_) fun hok => hno hok.1
      cases hdone.policyOps
    · have harray := finished_array_iff st hmem hsize
      constructor
      · exact fun hdone => ⟨hpolicy, harray.mp hdone.array⟩
      · intro hok
        refine ⟨rfl, rfl, rfl, rfl, rfl, rfl, harray.mpr hok.2, fun i hi => ?_, rfl, rfl⟩
        show (st.blocks i).dbn.isSome ∧ (st.blocks i).state.isSome
        rw [hread.blocks i hi]
        exact block_isSome (hread.fine i hi)

/-- All policies are registered and nothing fails. -/
def plainEnv : LoadEnv where
  registered := fun _ => true
  opsAlloc := true
  headerPage := true
  sbRead := true
  array := true
  blkInit := true
  pages := true
  pgVirtAddr := true
  mdRead := fun _ => true
  sbStore := true

theorem load_tiny :
    ∃ c ssd', (plainLoad tinyLayout.diskSize).load plainEnv tinySsd = some (0, c, ssd') ∧
      (plainLoad tinyLayout.diskSize).Done tinySsd c ssd' := by
  refine ⟨_, _, rfl, ((load_done_iff plainEnv (plainLoad tinyLayout.diskSize) tinySsd _ _ rfl).mpr
    (.inr ⟨⟨rfl, rfl⟩, ?_⟩)).resolve_left ?_⟩
  · intro _
    decide +kernel
  · decide +kernel

/-- If the module of the policy is not loaded, the load returns 0 with nothing of the cache. -/
theorem load_without_policy :
    ∃ c, (plainLoad tinyLayout.diskSize).load { plainEnv with registered := fun _ => false }
        tinySsd = some (0, c, tinySsd) ∧
      c.persistence = cacheReload ∧ c.policyOps = none ∧ c.cfg.size ≠ tinySsd.sb.size ∧
        c.arrayBytes = none := by
  refine ⟨_, rfl, rfl, rfl, ?_, rfl⟩
  decide +kernel

end LoadReq
end EnhanceIO
