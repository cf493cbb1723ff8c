import EnhanceIO.PolicySwitch
import EnhanceIO.Super

/-!
# Adding an SSD again

A cache that has lost its SSD goes on without it, degraded or failed. When a device
comes back, `eio_resume_caching` lets `eio_ctr_ssd_add` rebuild the cache on it: it takes
the device, replaces the policy and has `eio_md_create` lay the device out again. Each step
may fail, and then the cache is to go on as before.

The transfers and allocations have any outcome. What is written on the device is in
`MdIo`.
-/

namespace EnhanceIO

open Devices (cacheModeWb cacheModeWt)

/-- `CACHE_RELOAD`, `CACHE_CREATE` and `CACHE_FORCECREATE`. -/
def cacheReload : Nat := 1
def cacheCreate : Nat := 2
def cacheForcecreate : Nat := 3

/-- `DEV_PATHLEN`. -/
def devPathlen : Nat := 128

/-- A block device, in sectors. -/
structure SsdDev where
  size : Nat
  startSect : Nat
  deriving DecidableEq, Repr

/-- What the re-adding of an SSD works on. The arrays of the blocks are given by the number of
bytes that are allocated. -/
structure AddCache where
  cacheFlags : BitVec 32
  mode : Nat
  noSourceDev : Bool
  persistence : Nat
  cacheDev : SsdDev
  cacheDevname : String
  cacheSize : Nat
  cacheDevStartSect : Nat
  size : Nat
  mdStartSect : Nat
  mdSectors : Nat
  blockSize : Nat
  assoc : Nat
  numSets : Nat
  pol : PolicyData
  cacheBytes : Option Nat
  cacheMd8Bytes : Option Nat
  md : Meta

/-- The device that is found under the name, the size of the source, the outcome of each
allocation and transfer (`true` is success; `header` is the state in the superblock that is
read), and which blocks have I/O in progress in a pass over them. -/
structure AddEnv where
  dev : Option SsdDev
  diskSize : Nat
  pol : PolicyEnv
  headerPage : Bool
  header : Option (BitVec 32)
  memAvailable : Bool
  array : Bool
  inprog : Nat → Nat → Bool
  pages : Bool
  pgVirtAddr : Bool
  mdWrite : Bool
  sbStore : Bool

namespace AddCache

variable (env : AddEnv) (s : AddCache)

/-- The flag is set. -/
def has (flag : BitVec 32) : Bool := s.cacheFlags &&& flag != 0

/-- `EIO_MD8`. -/
def md8 : Bool := s.has flagsMd8

/-- The size of an entry of the array that `EIO_MD8` selects. -/
def entrySize : Nat := if s.md8 then 8 else 4

/-- `eio_invalidate_md`. -/
def invalidateMd (md8 : Bool) (md : Meta) (i : Nat) : Meta :=
  if md8 then { md with cacheMd8 := Function.update md.cacheMd8 i ⟨0, State.invalid⟩ }
  else { md with cache := Function.update md.cache i ⟨0, State.invalid⟩ }

/-- `eio_mem_init`; `none` if its loop does not end. -/
def memInit (diskSize : Nat) : Option (AddCache × Int) :=
  if s.size / s.assoc > 2 ^ 32 - 1 then some (s, -1)
  else
    let needed := EnhanceIO.memInit s.size s.assoc (Nat.log2 s.assoc + Nat.log2 s.blockSize)
      diskSize
    needed.map fun md8 =>
      ({ s with
          numSets := s.size / s.assoc
          cacheFlags := if md8 then s.cacheFlags ||| flagsMd8 else s.cacheFlags },
        if md8 then 1 else 0)

/-! ## `eio_md_create` -/

/-- The cache must not write to the device. -/
def unwritable : Bool := (s.has flagsFailed || s.has flagsDegraded) && !s.has flagsSsdAddInprog

/-- The place of the metadata and the number of blocks, from the number of sectors. -/
def layout : AddCache :=
  let mdSectors := mdSectorsFor s.cacheDevStartSect (s.size / s.blockSize)
  let avail := (s.size + 2 ^ 64 - mdSectors) % 2 ^ 64
  let size := avail / s.blockSize / s.assoc * s.assoc
  { s with
    mdStartSect := metadataStart s.cacheDevStartSect
    mdSectors := mdSectorsFor s.cacheDevStartSect size
    size := size }

/-- `vfree(EIO_CACHE(dmc))`, which the re-adding leaves out. -/
def freeCache : AddCache :=
  if s.has flagsSsdAddInprog then s
  else if s.md8 then { s with cacheMd8Bytes := none } else { s with cacheBytes := none }

/-- The superblock at the end of `eio_md_create`. -/
def createStore : AddCache × Int :=
  if s.unwritable then (s.freeCache, -19)
  else if env.sbStore = false then (s.freeCache, -5)
  else (s, 0)

/-- One pass over the blocks from `i` on, up to one with I/O in progress, and the index where
it ends. -/
def coldPass (inprog : Nat → Bool) (md8 : Bool) : Nat → Nat → Meta → Meta × Nat
  | 0, i, md => (md, i)
  | left + 1, i, md =>
    if inprog i then (md, i) else coldPass inprog md8 left (i + 1) (invalidateMd md8 md i)

/-- The passes, one more than `retries` at most. Only a re-added SSD looks for I/O in
progress. -/
def coldLoop (ssdAdd md8 : Bool) (size : Nat) : Nat → Nat → Meta → Meta × Nat
  | 0, pass, md => coldPass (fun i => ssdAdd && env.inprog pass i) md8 size 0 md
  | retries + 1, pass, md =>
    let (md, i) := coldPass (fun i => ssdAdd && env.inprog pass i) md8 size 0 md
    if i < size then coldLoop ssdAdd md8 size retries (pass + 1) md else (md, i)

/-- The metadata of a cold cache. -/
def createCold : AddCache × Int :=
  let (md, i) := coldLoop env (s.has flagsSsdAddInprog) s.md8 s.size 10 0 s.md
  let s := { s with md := md }
  if i < s.size then (s, -16)
  else if env.pages = false then (s, -12)
  else if env.pgVirtAddr = false then (s, -12)
  else if env.mdWrite = false then (s.freeCache, -5)
  else s.createStore env

/-- The array of the blocks, which a re-added SSD does not allocate. -/
def allocArray : AddCache :=
  let bytes := if env.array then some (s.size * s.entrySize) else none
  if s.has flagsSsdAddInprog then s
  else if s.md8 then { s with cacheMd8Bytes := bytes } else { s with cacheBytes := bytes }

/-- The array of the blocks and those of the policy. -/
def createAlloc (cold : Bool) : AddCache × Int :=
  let s := s.allocArray env
  if s.has flagsSsdAddInprog = false ∧ env.array = false then (s, -12)
  else
    let (pol, error) := s.pol.replBlkInit env.pol
    let s := { s with pol := pol }
    if error ≠ 0 then (s, -12)
    else if cold then s.createCold env
    else s.createStore env

/-- `eio_md_create` from the layout on. -/
def createMem (cold : Bool) : Option (AddCache × Int) :=
  (s.memInit env.diskSize).map fun (s, error) =>
    if error = -1 then (s, -22)
    else if s.unwritable then (s, -19)
    else if s.cacheDev.size < (s.mdSectors + s.size * s.blockSize) % 2 ^ 64 then (s, -22)
    else if env.memAvailable = false ∧ s.has flagsSsdAddInprog = false then (s, -12)
    else s.createAlloc env cold

/-- `eio_md_create`. -/
def mdCreate (force cold : Bool) : Option (AddCache × Int) :=
  if env.headerPage = false then some (s, -12)
  else if s.unwritable then some (s, -19)
  else
    match env.header with
    | none => some (s, -22)
    | some state =>
      if force = false ∧
          (state = mdStateDirty ∨ state = mdStateClean ∨ state = mdStateFastclean) then
        some (s, -22)
      else s.layout.createMem env cold

/-! ## `eio_ctr_ssd_add` -/

/-- `eio_ctr_ssd_add` from the new policy on, with the old `persistence`. -/
def addPolicy (prevPersistence : Nat) : Option (AddCache × Int) :=
  let (pol, r) := s.pol.policyFree.policyInit env.pol
  let s := { s with pol := pol }
  if r ≠ 0 then some ({ s with persistence := prevPersistence }, r)
  else
    (s.mdCreate env true (s.mode ≠ cacheModeWb)).map fun (s, r) =>
      if r ≠ 0 then ({ s with persistence := prevPersistence }, r)
      else
        let (pol, r) := s.pol.setsInit env.pol s.assoc s.numSets
        let s := { s with pol := pol }
        if r < 0 then ({ s with persistence := prevPersistence }, r)
        else ({ s with pol := s.pol.pushblks s.assoc s.size }, 0)

/-- `eio_ctr_ssd_add`; `none` if its assertion fails. -/
def ctrSsdAdd (dev : String) : Option (AddCache × Int) :=
  if s.noSourceDev then none
  else
    match env.dev with
    | none => some (s, -22)
    | some cacheDev =>
      let s := { s with cacheDev := cacheDev }
      if s.cacheSize ≠ cacheDev.size then some (s, -22)
      else if s.cacheDevStartSect ≠ cacheDev.startSect then some (s, -22)
      else
        addPolicy env
          { s with cacheDevname := dev, size := s.cacheSize, persistence := cacheForcecreate }
          s.persistence

/-- How `eio_resume_caching` ends. -/
inductive ResumeResult where
  | refused
  | failed (r : Int)
  | resumed
  deriving DecidableEq

/-- The checks of `eio_resume_caching`. -/
def Resumable (dev : String) : Prop :=
  dev.utf8ByteSize < devPathlen ∧ s.has flagsStale = false ∧ s.has flagsSsdAddInprog = false ∧
    (s.mode = cacheModeWb → s.has flagsFailed = true ∧ s.noSourceDev = false) ∧
    (s.mode ≠ cacheModeWb → s.has flagsFailed = false ∧ s.has flagsDegraded = true)

instance (dev : String) : Decidable (s.Resumable dev) :=
  inferInstanceAs (Decidable (_ ∧ _ ∧ _ ∧ (_ → _) ∧ (_ → _)))

/-- `eio_resume_caching`. -/
def resumeCaching (dev : String) : Option (AddCache × ResumeResult) :=
  if ¬ s.Resumable dev then some (s, .refused)
  else
    (ctrSsdAdd env { s with cacheFlags := s.cacheFlags ||| flagsSsdAddInprog } dev).map
      fun (s, r) =>
        if r ≠ 0 then
          ({ s with cacheFlags := s.cacheFlags &&& ~~~flagsSsdAddInprog }, .failed r)
        else
          let flag := if s.mode ≠ cacheModeWb then flagsDegraded else flagsFailed
          ({ s with
              cacheFlags := s.cacheFlags &&& ~~~flag &&& ~~~flagsSsdAddInprog }, .resumed)

/-! ## A re-adding that fails -/

variable {env : AddEnv} {s s₁ s' : AddCache} {dev : String}

/-- The cache is as it was. -/
structure Unchanged (s s' : AddCache) : Prop where
  cacheFlags : s'.cacheFlags = s.cacheFlags
  size : s'.size = s.size
  mdSectors : s'.mdSectors = s.mdSectors
  numSets : s'.numSets = s.numSets
  cacheDevname : s'.cacheDevname = s.cacheDevname
  persistence : s'.persistence = s.persistence
  policyOps : s'.pol.policyOps = s.pol.policyOps
  md : s'.md = s.md

/-- The device is not there, or not the one the cache was on. -/
def DevRefused (env : AddEnv) (s : AddCache) : Prop :=
  ∀ dev, env.dev = some dev → s.cacheSize ≠ dev.size ∨ s.cacheDevStartSect ≠ dev.startSect

/-- There is no policy for the cache any more. -/
def PolicyFails (env : AddEnv) (s : AddCache) : Prop :=
  ¬ (env.pol.registered
      (if s.pol.reqPolicy = 0 then Devices.cacheReplDefault else s.pol.reqPolicy) &&
    env.pol.opsAlloc) = true

/-! The steps of `eio_md_create` keep the policy instance. -/

theorem freeCache_pol (s : AddCache) : s.freeCache.pol = s.pol := by
  unfold freeCache
  split
  · rfl
  · split <;> rfl

theorem createStore_pol (env : AddEnv) (s : AddCache) : (s.createStore env).1.pol = s.pol := by
  unfold createStore
  split
  · exact freeCache_pol s
  · split
    · exact freeCache_pol s
    · rfl

theorem createCold_pol (env : AddEnv) (s : AddCache) : (s.createCold env).1.pol = s.pol := by
  simp only [createCold]
  split
  · rfl
  · split
    · rfl
    · split
      · rfl
      · split
        · exact freeCache_pol _
        · exact createStore_pol env _

theorem replBlkInit_policyOps (e : PolicyEnv) (d : PolicyData) :
    (d.replBlkInit e).1.policyOps = d.policyOps := by
  unfold PolicyData.replBlkInit
  split
  · split <;> rfl
  · rfl

theorem setsInit_policyOps (e : PolicyEnv) (d : PolicyData) (assoc numSets : Nat) :
    (d.setsInit e assoc numSets).1.policyOps = d.policyOps := by
  simp only [PolicyData.setsInit]
  split
  · rfl
  · split <;> rfl

theorem allocArray_pol (env : AddEnv) (s : AddCache) : (s.allocArray env).pol = s.pol := by
  simp only [allocArray]
  split
  · rfl
  · split <;> rfl

theorem createAlloc_policyOps (env : AddEnv) (s : AddCache) (cold : Bool) :
    (s.createAlloc env cold).1.pol.policyOps = s.pol.policyOps := by
  simp only [createAlloc]
  split
  · rw [allocArray_pol]
  · have hblk := replBlkInit_policyOps env.pol (s.allocArray env).pol
    rw [allocArray_pol] at hblk
    split
    · rw [allocArray_pol]
      exact hblk
    · split
      · rw [createCold_pol, allocArray_pol]
        exact hblk
      · rw [createStore_pol, allocArray_pol]
        exact hblk

theorem memInit_pol {diskSize : Nat} {error : Int} (h : s.memInit diskSize = some (s', error)) :
    s'.pol = s.pol := by
  unfold memInit at h
  split at h
  · cases h
    rfl
  · obtain ⟨md8, -, heq⟩ := Option.map_eq_some_iff.mp h
    cases heq
    rfl

theorem createMem_policyOps {cold : Bool} {r : Int}
    (h : s.createMem env cold = some (s', r)) : s'.pol.policyOps = s.pol.policyOps := by
  obtain ⟨⟨s₁, error⟩, hmem, heq⟩ := Option.map_eq_some_iff.mp h
  rw [← memInit_pol hmem]
  simp only at heq
  split at heq
  · cases heq
    rfl
  · split at heq
    · cases heq
      rfl
    · split at heq
      · cases heq
        rfl
      · split at heq
        · cases heq
          rfl
        · have hpol := createAlloc_policyOps env s₁ cold
          rw [heq] at hpol
          exact hpol

theorem mdCreate_policyOps {force cold : Bool} {r : Int}
    (h : s.mdCreate env force cold = some (s', r)) : s'.pol.policyOps = s.pol.policyOps := by
  unfold mdCreate at h
  split at h
  · cases h
    rfl
  · split at h
    · cases h
      rfl
    · split at h
      · cases h
        rfl
      · split at h
        · cases h
          rfl
        · have hpol := createMem_policyOps h
          exact hpol

/-- `eio_policy_free` and `eio_policy_init`: the new instance is at an address of its own. -/
theorem policyInit_ok (h : ¬ s.PolicyFails env) :
    (s.pol.policyFree.policyInit env.pol).1.policyOps = some s.pol.mem.next := by
  have hnext : s.pol.policyFree.mem.next = s.pol.mem.next := by
    simp only [PolicyData.policyFree, Heap.next_free]
  rw [← hnext]
  have hinit := (PolicyData.policyInit_eq env.pol s.pol.policyFree).trans (if_pos (not_not.mp h))
  exact (Prod.mk.inj hinit).1

theorem policyInit_fails (h : s.PolicyFails env) :
    (s.pol.policyFree.policyInit env.pol).1.policyOps = none ∧
      (s.pol.policyFree.policyInit env.pol).2 = -22 := by
  have hinit := (PolicyData.policyInit_eq env.pol s.pol.policyFree).trans (if_neg h)
  exact Prod.mk.inj hinit

theorem addPolicy_policyOps {prev : Nat} {r : Int} (h : s.addPolicy env prev = some (s', r))
    (hr : r ≠ 0) (hok : ¬ s.PolicyFails env) : s'.pol.policyOps = some s.pol.mem.next := by
  have hnew := policyInit_ok hok
  simp only [addPolicy] at h
  split at h
  · cases h
    exact hnew
  · obtain ⟨⟨s₁, r₁⟩, hmd, heq⟩ := Option.map_eq_some_iff.mp h
    have hops := (mdCreate_policyOps hmd).trans hnew
    simp only at heq
    split at heq
    · cases heq
      exact hops
    · split at heq
      · cases heq
        exact (setsInit_policyOps _ _ _ _).trans hops
      · exact absurd (congrArg Prod.snd heq).symm hr

/-- Without a policy the re-adding ends at once. -/
theorem addPolicy_of_fails {prev : Nat} (h : s.PolicyFails env) :
    s.addPolicy env prev = some ({ s with
      persistence := prev, pol := (s.pol.policyFree.policyInit env.pol).1 }, -22) := by
  simp only [addPolicy, (policyInit_fails h).2]
  exact if_pos (by decide)

theorem flag_set_clear {flags flag : BitVec 32} (h : flags &&& flag = 0) :
    (flags ||| flag) &&& ~~~flag = flags := by
  ext i hi
  have hbit : (flags &&& flag)[i] = false := by
    rw [h]
    exact BitVec.getElem_zero hi
  rw [BitVec.getElem_and] at hbit
  cases hf : flags[i] <;> cases hg : flag[i] <;> simp_all

theorem has_eq_false {flag : BitVec 32} (h : s.has flag = false) : s.cacheFlags &&& flag = 0 := by
  simpa [has] using h

/-- The ways in which `eio_ctr_ssd_add` fails: the device is refused, there is no policy, or
something fails later, when the policy is a new one. -/
theorem ctrSsdAdd_failed {r : Int} (h : s.ctrSsdAdd env dev = some (s₁, r)) (hr : r ≠ 0) :
    (s.DevRefused env ∧ ∃ d, s₁ = { s with cacheDev := d }) ∨
    (¬ s.DevRefused env ∧ s.PolicyFails env ∧ ∃ d pol, pol.policyOps = none ∧
      s₁ = { s with cacheDev := d, cacheDevname := dev, size := s.cacheSize, pol := pol }) ∨
    (¬ s.DevRefused env ∧ ¬ s.PolicyFails env ∧ s₁.pol.policyOps = some s.pol.mem.next) := by
  unfold ctrSsdAdd at h
  split at h
  · cases h
  · cases hdev : env.dev with
    | none =>
      simp only [hdev] at h
      cases h
      refine .inl ⟨fun d hd => ?_, s.cacheDev, rfl⟩
      rw [hdev] at hd
      cases hd
    | some d =>
      simp only [hdev] at h
      by_cases hsize : s.cacheSize = d.size
      · rw [if_neg (not_not.mpr hsize)] at h
        by_cases hstart : s.cacheDevStartSect = d.startSect
        · rw [if_neg (not_not.mpr hstart)] at h
          have hdevok : ¬ s.DevRefused env := fun href =>
            (href d hdev).elim (· hsize) (· hstart)
          by_cases hpol : s.PolicyFails env
          · rw [addPolicy_of_fails (s := { s with
              cacheDev := d, cacheDevname := dev, size := s.cacheSize
              persistence := cacheForcecreate }) hpol] at h
            cases h
            exact .inr (.inl ⟨hdevok, hpol, d, _, (policyInit_fails hpol).1, rfl⟩)
          · exact .inr (.inr ⟨hdevok, hpol, addPolicy_policyOps (s := { s with
              cacheDev := d, cacheDevname := dev, size := s.cacheSize
              persistence := cacheForcecreate }) h hr hpol⟩)
        · rw [if_pos hstart] at h
          cases h
          refine .inl ⟨fun d' hd => .inr ?_, d, rfl⟩
          cases Option.some.inj (hdev.symm.trans hd)
          exact hstart
      · rw [if_pos hsize] at h
        cases h
        refine .inl ⟨fun d' hd => .inl ?_, d, rfl⟩
        cases Option.some.inj (hdev.symm.trans hd)
        exact hsize

/-- A failed re-adding leaves the cache as it was if the device is refused; past that only a
cache that had no policy and whose size was that of the device is the same. -/
theorem resumeCaching_unchanged_iff (env : AddEnv) (s s' : AddCache) (dev : String)
    (result : ResumeResult) (hops : ∀ p, s.pol.policyOps = some p → p < s.pol.mem.next)
    (h : s.resumeCaching env dev = some (s', result)) (hfail : result ≠ .resumed) :
    Unchanged s s' ↔
      ¬ s.Resumable dev ∨ s.DevRefused env ∨
        s.PolicyFails env ∧ dev = s.cacheDevname ∧ s.size = s.cacheSize ∧
          s.pol.policyOps = none := by
  unfold resumeCaching at h
  by_cases hres : s.Resumable dev
  · rw [if_neg (not_not.mpr hres)] at h
    obtain ⟨⟨s₁, r⟩, hadd, heq⟩ := Option.map_eq_some_iff.mp h
    have hclear := flag_set_clear (has_eq_false (s := s) hres.2.2.1)
    simp only at heq
    by_cases hr : r = 0
    · rw [if_neg (not_not.mpr hr)] at heq
      exact absurd (congrArg Prod.snd heq).symm hfail
    · rw [if_pos hr] at heq
      obtain rfl := congrArg Prod.fst heq
      simp only [hres, not_true, false_or]
      rcases ctrSsdAdd_failed hadd hr with ⟨href, d, rfl⟩ | ⟨hdev, hpol, d, pol, hnone, rfl⟩ |
        ⟨hdev, hpol, hnew⟩
      · exact iff_of_true ⟨hclear, rfl, rfl, rfl, rfl, rfl, rfl, rfl⟩ (.inl href)
      · constructor
        · intro hsame
          exact .inr ⟨hpol, hsame.cacheDevname, hsame.size.symm,
            hsame.policyOps.symm.trans hnone⟩
        · rintro (href | ⟨-, hname, hsize, hold⟩)
          · exact absurd href hdev
          · exact ⟨hclear, hsize.symm, rfl, rfl, hname, rfl, hnone.trans hold.symm, rfl⟩
      · refine iff_of_false (fun hsame => ?_) ?_
        · exact (hops _ (hsame.policyOps.symm.trans hnew)).ne rfl
        · rintro (href | ⟨hbad, -⟩)
          · exact hdev href
          · exact hpol hbad
  · rw [if_pos hres] at h
    cases h
    exact iff_of_true ⟨rfl, rfl, rfl, rfl, rfl, rfl, rfl, rfl⟩ (.inl hres)

/-- A write-through cache of eight blocks that has lost its SSD. -/
def degraded : AddCache where
  cacheFlags := flagsDegraded ||| flagsMd8
  mode := cacheModeWt
  noSourceDev := false
  persistence := cacheCreate
  cacheDev := ⟨240, 63⟩
  cacheDevname := "/dev/sdb"
  cacheSize := 240
  cacheDevStartSect := 63
  size := 8
  mdStartSect := 145
  mdSectors := 161
  blockSize := 8
  assoc := 2
  numSets := 4
  pol := PolicyData.lruData
  cacheBytes := none
  cacheMd8Bytes := some 64
  md := zeroMeta

/-- The given device is found; the policies are not registered any more. -/
def unregistered (dev : Option SsdDev) : AddEnv where
  dev := dev
  diskSize := 209715200
  pol := { PolicyData.noSetMemory with registered := fun _ => false }
  headerPage := true
  header := some mdStateDirty
  memAvailable := true
  array := true
  inprog := fun _ _ => false
  pages := true
  pgVirtAddr := true
  mdWrite := true
  sbStore := true

theorem degraded_ops : ∀ p, degraded.pol.policyOps = some p → p < degraded.pol.mem.next := by
  intro p hp
  cases hp
  decide

/-- A device of another size is refused. -/
theorem resumeCaching_refuses_device : ∃ s' r,
    degraded.resumeCaching (unregistered (some ⟨480, 63⟩)) "/dev/sdc" = some (s', .failed r) ∧
      Unchanged degraded s' := by
  refine ⟨_, -22, rfl, ?_⟩
  refine (resumeCaching_unchanged_iff (unregistered (some ⟨480, 63⟩)) degraded _ "/dev/sdc"
    (.failed (-22)) degraded_ops rfl nofun).mpr (.inr (.inl fun d hd => .inl ?_))
  cases hd
  decide

/-- Without a policy the cache is left without one, and with the sectors of the device as the
number of its blocks. -/
theorem resumeCaching_loses_policy :
    (∀ p, degraded.pol.policyOps = some p → p < degraded.pol.mem.next) ∧ ∃ s' r,
    degraded.resumeCaching (unregistered (some ⟨240, 63⟩)) "/dev/sdb" = some (s', .failed r) ∧
      s'.pol.policyOps = none ∧ s'.size = 240 ∧ ¬ Unchanged degraded s' := by
  refine ⟨degraded_ops, _, -22, rfl, rfl, rfl, fun hsame => ?_⟩
  exact absurd hsame.size (by decide)

end AddCache
end EnhanceIO
