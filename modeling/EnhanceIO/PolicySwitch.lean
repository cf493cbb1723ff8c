import EnhanceIO.Devices
import EnhanceIO.Policies
import EnhanceIO.States
import EnhanceIO.Lib.Heap

/-!
# Switching the replacement policy

`eio_policy_switch` makes a new instance of a policy and lets it set up its arrays in
the fields of the cache that hold those of the old one. The instance is made for
`req_policy`, which is set to the requested policy only at the end.
-/

namespace EnhanceIO

/-- `CACHE_REPL_FIFO`, `CACHE_REPL_LRU` and `CACHE_REPL_RANDOM`. -/
def cacheReplFifo : Nat := 1
def cacheReplLru : Nat := 2
def cacheReplRandom : Nat := 3

/-- What a policy allocates: the instance, and the arrays of the LRU and the FIFO policy. -/
inductive PolicyObj
  | ops (name : Nat)
  | lruBlks (prev next : Nat → Nat)
  | lruSets (head tail : Nat → Nat)
  | fifoSets (f : Fifo)

/-- The fields of a cache that belong to its policy. -/
structure PolicyData where
  reqPolicy : Nat
  policyOps : Option Nat
  spCacheBlk : Option Nat
  spCacheSet : Option Nat
  mem : Heap PolicyObj

/-- Which policies are registered, which allocations succeed, and what the memory holds that
`vmalloc` gives. -/
structure PolicyEnv where
  registered : Nat → Bool
  opsAlloc : Bool
  blkAlloc : Bool
  setAlloc : Bool
  junk : BlockLru
  fifoJunk : Fifo

namespace PolicyData

variable (g : Geom) (env : PolicyEnv) (d : PolicyData)

/-- `sp_name` of the instance. -/
def name : Option Nat :=
  match d.policyOps.bind d.mem.obj with
  | some (.ops name) => some name
  | _ => none

/-- `eio_policy_init`, with the registered instances of `eio_get_policy`. -/
def policyInit : PolicyData × Int :=
  let req := if d.reqPolicy = 0 then Devices.cacheReplDefault else d.reqPolicy
  if env.registered req && env.opsAlloc then
    ({ d with
        reqPolicy := req
        policyOps := some d.mem.next
        mem := d.mem.alloc (.ops req) }, 0)
  else ({ d with reqPolicy := req, policyOps := none }, -22)

/-- `eio_repl_blk_init`. Only the LRU policy allocates. -/
def replBlkInit : PolicyData × Int :=
  if d.name = some cacheReplLru then
    if env.blkAlloc then
      ({ d with
          spCacheBlk := some d.mem.next
          mem := d.mem.alloc (.lruBlks env.junk.prev env.junk.next) }, 0)
    else ({ d with spCacheBlk := none }, -12)
  else (d, 0)

/-- `eio_repl_sets_init` for `numSets` sets of `assoc` blocks. The random policy allocates
nothing. -/
def setsInit (assoc numSets : Nat) : PolicyData × Int :=
  let sets : Option PolicyObj :=
    if d.name = some cacheReplLru then
      let l := env.junk.cacheSetsInit numSets
      some (.lruSets l.head l.tail)
    else if d.name = some cacheReplFifo then
      some (.fifoSets (env.fifoJunk.cacheSetsInit assoc numSets))
    else none
  match sets with
  | none => (d, 0)
  | some sets =>
    if env.setAlloc then
      ({ d with spCacheSet := some d.mem.next, mem := d.mem.alloc sets }, 0)
    else ({ d with spCacheSet := none }, -12)

/-- `eio_repl_sets_init` of a cache. -/
def replSetsInit : PolicyData × Int := d.setsInit env g.assoc g.numSets

/-- `eio_policy_lru_pushblks` for `size` blocks. -/
def pushblks (assoc size : Nat) : PolicyData :=
  match d.spCacheBlk, d.spCacheSet with
  | some blk, some set =>
    match d.mem.obj blk, d.mem.obj set with
    | some (.lruBlks prev next), some (.lruSets head tail) =>
      if d.name = some cacheReplLru then
        let l := BlockLru.pushblks assoc size ⟨head, tail, prev, next⟩
        let mem := d.mem.write blk (.lruBlks l.prev l.next)
        { d with mem := mem.write set (.lruSets l.head l.tail) }
      else d
    | _, _ => d
  | _, _ => d

/-- `eio_policy_lru_pushblks` of a cache. -/
def lruPushblks : PolicyData := d.pushblks g.assoc g.size

/-- `eio_policy_free`. -/
def policyFree : PolicyData :=
  { d with
    policyOps := none
    spCacheBlk := none
    spCacheSet := none
    mem := ((d.mem.free d.policyOps).free d.spCacheBlk).free d.spCacheSet }

/-- The label `out` of `eio_policy_switch`. -/
def switchOut (old : Option Nat) : PolicyData :=
  { (if d.policyOps ≠ old then d.policyFree else d) with policyOps := old }

/-- `eio_policy_switch`; `none` if its assertion fails. -/
def policySwitch (policy : Nat) : Option (PolicyData × Int) :=
  if d.reqPolicy = policy then none
  else
    let old := d.policyOps
    let (d, error) := d.policyInit env
    if error ≠ 0 then some (d.switchOut old, error)
    else
      let (d, error) := d.replBlkInit env
      if error ≠ 0 then some (d.switchOut old, -12)
      else
        let (d, error) := d.replSetsInit g env
        if error ≠ 0 then some (d.switchOut old, -12)
        else some ({ d.lruPushblks g with reqPolicy := policy }, 0)

end PolicyData

/-! ## A switch that fails -/

/-- A cache with a policy: the pointers are to allocated objects. -/
structure PolicyData.Running (d : PolicyData) : Prop where
  req : d.reqPolicy ≠ 0
  ops : ∃ p name, d.policyOps = some p ∧ d.mem.obj p = some (.ops name)
  blk : ∀ p, d.spCacheBlk = some p → (d.mem.obj p).isSome
  set : ∀ p, d.spCacheSet = some p → (d.mem.obj p).isSome
  fresh : ∀ p, d.mem.next ≤ p → d.mem.obj p = none

/-- The policy data of a cache are as they were, with the contents of the arrays. -/
structure PolicyData.Same (d d' : PolicyData) : Prop where
  policyOps : d'.policyOps = d.policyOps
  reqPolicy : d'.reqPolicy = d.reqPolicy
  spCacheBlk : d'.spCacheBlk = d.spCacheBlk
  spCacheSet : d'.spCacheSet = d.spCacheSet
  contents : ∀ p, d.policyOps = some p ∨ d.spCacheBlk = some p ∨ d.spCacheSet = some p →
    d'.mem.obj p = d.mem.obj p

namespace PolicyData

variable {g : Geom} {env : PolicyEnv} {d d' : PolicyData} {policy : Nat} {error : Int}

theorem policyInit_eq (env : PolicyEnv) (d : PolicyData) :
    ((d.policyInit env).1.policyOps, (d.policyInit env).2) =
      if (env.registered (if d.reqPolicy = 0 then Devices.cacheReplDefault else d.reqPolicy) &&
        env.opsAlloc) = true then (some d.mem.next, 0) else (none, -22) := by
  simp only [policyInit]
  generalize (if d.reqPolicy = 0 then Devices.cacheReplDefault else d.reqPolicy) = req
  split <;> rfl

theorem Running.lt_next (h : d.Running) {p : Nat} (hp : (d.mem.obj p).isSome) :
    p < d.mem.next := by
  by_contra hge
  rw [h.fresh p (by omega)] at hp
  cases hp

/-- What a failed switch leaves: no arrays, and of the memory in use before all but the old
arrays. -/
structure Emptied (d d' : PolicyData) : Prop where
  policyOps : d'.policyOps = d.policyOps
  reqPolicy : d'.reqPolicy = d.reqPolicy
  spCacheBlk : d'.spCacheBlk = none
  spCacheSet : d'.spCacheSet = none
  contents : ∀ p < d.mem.next, d.spCacheBlk ≠ some p → d.spCacheSet ≠ some p →
    d'.mem.obj p = d.mem.obj p

/-- The switch is under way: the instance is a new one or missing, and the arrays are the
old ones, new ones or missing. -/
structure Stage (d d₁ : PolicyData) : Prop where
  reqPolicy : d₁.reqPolicy = d.reqPolicy
  policyOps : ∀ p < d.mem.next, d₁.policyOps ≠ some p
  spCacheBlk : ∀ p < d.mem.next, d₁.spCacheBlk = some p → d.spCacheBlk = some p
  spCacheSet : ∀ p < d.mem.next, d₁.spCacheSet = some p → d.spCacheSet = some p
  mem : ∀ p < d.mem.next, d₁.mem.obj p = d.mem.obj p
  next : d.mem.next ≤ d₁.mem.next

theorem Stage.policyInit (env : PolicyEnv) (hreq : d.reqPolicy ≠ 0) :
    Stage d (d.policyInit env).1 := by
  simp only [PolicyData.policyInit, if_neg hreq]
  split
  · refine ⟨rfl, fun p hp => ?_, fun _ _ h => h, fun _ _ h => h, fun p hp => ?_, Nat.le_succ _⟩
    · exact fun h => hp.ne' (Option.some.inj h)
    · exact Heap.obj_alloc _ _ hp.ne
  · exact ⟨rfl, nofun, fun _ _ h => h, fun _ _ h => h, fun _ _ => rfl, le_rfl⟩

variable {d₁ : PolicyData}

theorem Stage.replBlkInit (h : Stage d d₁) : Stage d (d₁.replBlkInit env).1 := by
  have hnext := h.next
  rw [PolicyData.replBlkInit]
  split
  · split
    · refine ⟨h.reqPolicy, h.policyOps, fun p hp heq => ?_, h.spCacheSet, fun p hp => ?_,
        Nat.le_succ_of_le hnext⟩
      · exact absurd (Option.some.inj heq) (by omega)
      · exact (Heap.obj_alloc _ _ (by omega)).trans (h.mem p hp)
    · exact ⟨h.reqPolicy, h.policyOps, nofun, h.spCacheSet, h.mem, hnext⟩
  · exact h

theorem Stage.replSetsInit (h : Stage d d₁) : Stage d (d₁.replSetsInit g env).1 := by
  have hnext := h.next
  simp only [PolicyData.replSetsInit, PolicyData.setsInit]
  split
  · exact h
  · split
    · refine ⟨h.reqPolicy, h.policyOps, h.spCacheBlk, fun p hp heq => ?_, fun p hp => ?_,
        Nat.le_succ_of_le hnext⟩
      · exact absurd (Option.some.inj heq) (by omega)
      · exact (Heap.obj_alloc _ _ (by omega)).trans (h.mem p hp)
    · exact ⟨h.reqPolicy, h.policyOps, h.spCacheBlk, nofun, h.mem, hnext⟩

/-- At `out` the new instance is not the old one, so `eio_policy_free` releases whatever
arrays the fields point to. -/
theorem Stage.switchOut (hd : d.Running) (h : Stage d d₁) :
    Emptied d (d₁.switchOut d.policyOps) := by
  obtain ⟨ops, name, hops, hobj⟩ := hd.ops
  have hne : d₁.policyOps ≠ d.policyOps := by
    rw [hops]
    exact h.policyOps ops (hd.lt_next (by rw [hobj]; rfl))
  rw [PolicyData.switchOut, if_pos hne]
  refine ⟨rfl, h.reqPolicy, rfl, rfl, fun p hp hblk hset => ?_⟩
  show (((d₁.mem.free d₁.policyOps).free d₁.spCacheBlk).free d₁.spCacheSet).obj p = _
  rw [Heap.obj_free _ fun heq => hset (h.spCacheSet p hp heq),
    Heap.obj_free _ fun heq => hblk (h.spCacheBlk p hp heq),
    Heap.obj_free _ (h.policyOps p hp), h.mem p hp]

theorem policySwitch_cases (hd : d.Running)
    (hret : d.policySwitch g env policy = some (d', error)) :
    error ≠ 0 ∧ Emptied d d' ∨ error = 0 ∧ d'.reqPolicy = policy := by
  have hinit := Stage.policyInit env hd.req
  simp only [policySwitch] at hret
  split at hret
  · cases hret
  · split at hret
    · next herror =>
      cases hret
      exact .inl ⟨herror, hinit.switchOut hd⟩
    · split at hret
      · cases hret
        exact .inl ⟨by decide, hinit.replBlkInit.switchOut hd⟩
      · split at hret
        · cases hret
          exact .inl ⟨by decide, hinit.replBlkInit.replSetsInit.switchOut hd⟩
        · cases hret
          exact .inr ⟨rfl, rfl⟩

/-- A switch that fails leaves all as it was just if the cache had no arrays of its
policy. -/
theorem policySwitch_failed_iff (g : Geom) (env : PolicyEnv) (d d' : PolicyData) (policy : Nat)
    (error : Int) (hd : d.Running) (hret : d.policySwitch g env policy = some (d', error))
    (herror : error ≠ 0) :
    Same d d' ↔ d.spCacheBlk = none ∧ d.spCacheSet = none := by
  have hempty := ((policySwitch_cases hd hret).resolve_right fun h => herror h.1).2
  constructor
  · intro hsame
    exact ⟨hsame.spCacheBlk.symm.trans hempty.spCacheBlk,
      hsame.spCacheSet.symm.trans hempty.spCacheSet⟩
  · rintro ⟨hblk, hset⟩
    refine ⟨hempty.policyOps, hempty.reqPolicy, hempty.spCacheBlk.trans hblk.symm,
      hempty.spCacheSet.trans hset.symm, fun p hp => ?_⟩
    rw [hblk, hset] at hp
    obtain ⟨ops, name, hops, hobj⟩ := hd.ops
    have hp' : p < d.mem.next := by
      rcases hp with hp | hp | hp
      · rw [hops] at hp
        rw [← Option.some.inj hp]
        exact hd.lt_next (by rw [hobj]; rfl)
      · cases hp
      · cases hp
    exact hempty.contents p hp' (by simp [hblk]) (by simp [hset])

/-- The memory of a cache of four blocks with one LRU list for all of them: the instance,
the blocks and the sets. -/
def lruMem : Heap PolicyObj where
  obj := fun p =>
    if p = 0 then some (.ops cacheReplLru)
    else if p = 1 then some (.lruBlks (fun i => i - 1) (fun i => i + 1))
    else if p = 2 then some (.lruSets (fun _ => 0) (fun _ => 3))
    else none
  next := 3

/-- The LRU policy runs. -/
def lruData : PolicyData where
  reqPolicy := cacheReplLru
  policyOps := some 0
  spCacheBlk := some 1
  spCacheSet := some 2
  mem := lruMem

/-- The random policy runs; it has no arrays. -/
def randData : PolicyData where
  reqPolicy := cacheReplRandom
  policyOps := some 0
  spCacheBlk := none
  spCacheSet := none
  mem := ⟨fun p => if p = 0 then some (.ops cacheReplRandom) else none, 1⟩

/-- All policies are registered, and there is memory for all but the arrays of the sets. -/
def noSetMemory : PolicyEnv where
  registered := fun _ => true
  opsAlloc := true
  blkAlloc := true
  setAlloc := false
  junk := ⟨fun _ => 0, fun _ => 0, fun _ => 0, fun _ => 0⟩
  fifoJunk := ⟨fun _ => 0, fun _ => 0⟩

theorem lruData_running : lruData.Running where
  req := by decide
  ops := ⟨0, cacheReplLru, rfl, rfl⟩
  blk := by
    intro p hp
    cases hp
    rfl
  set := by
    intro p hp
    cases hp
    rfl
  fresh := by
    intro p hp
    have hp' : 3 ≤ p := hp
    show (if p = 0 then _ else if p = 1 then _ else if p = 2 then _ else none) = none
    rw [if_neg (by omega), if_neg (by omega), if_neg (by omega)]

theorem randData_running : randData.Running where
  req := by decide
  ops := ⟨0, cacheReplRandom, rfl, rfl⟩
  blk := nofun
  set := nofun
  fresh := by
    intro p hp
    have hp' : 1 ≤ p := hp
    show (if p = 0 then _ else none) = none
    rw [if_neg (by omega)]

/-- Under the random policy a switch that finds no policy changes nothing. -/
theorem policySwitch_failed_random : ∃ d', randData.policySwitch smallCache
      { noSetMemory with registered := fun _ => false } cacheReplLru = some (d', -22) ∧
    Same randData d' := by
  refine ⟨_, rfl, ?_⟩
  exact (policySwitch_failed_iff smallCache { noSetMemory with registered := fun _ => false }
    randData _ cacheReplLru (-22) randData_running rfl (by decide)).mpr ⟨rfl, rfl⟩

/-- Under the LRU policy a switch to FIFO without memory for the sets leaves the LRU policy
running without its arrays. -/
theorem policySwitch_loses_arrays : lruData.Running ∧
    ∃ d', lruData.policySwitch smallCache noSetMemory cacheReplFifo = some (d', -12) ∧
      d'.policyOps = some 0 ∧ d'.mem.obj 0 = some (.ops cacheReplLru) ∧
      d'.spCacheBlk = none ∧ d'.spCacheSet = none ∧ ¬ Same lruData d' := by
  refine ⟨lruData_running, _, rfl, rfl, rfl, rfl, rfl, fun hsame => ?_⟩
  exact nomatch hsame.spCacheBlk

end PolicyData
end EnhanceIO
