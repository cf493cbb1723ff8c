import Mathlib.Data.List.Pairwise
import Mathlib.Data.List.Nodup
import Mathlib.Tactic.Ring
import EnhanceIO.Lib.Run

/-!
# The registry of active caches

An active cache is on the bucket list of its disk (`eio_ttc_list`), and the request
queue of the disk calls `eio_make_request_fn` instead of its own function, which the
cache keeps as `origmfn`. `eio_cache_create` looks at the lists twice: in
`eio_do_preliminary_checks`, and much later in `eio_ttc_activate`, which puts the
cache on its list. `eio_cache_delete` takes it off in `eio_ttc_deactivate`, and calls
that function a second time if an earlier attempt had left the cache stale.

Only the order within a bucket matters, so the model keeps all active caches on one
list, and a bucket is the part of it with the bucket's hash.
-/

namespace EnhanceIO.Ttc

/-! ## Devices and caches -/

/-- A `make_request_fn`: the driver's own or that of some block driver. -/
inductive Mfn where
  | eio
  | other (id : Nat)
deriving DecidableEq, Repr

structure DevT where
  major : Nat
  minor : Nat
deriving DecidableEq, Repr

/-- A `block_device`, with the range of sectors of its `bd_part`. -/
structure BlockDevice where
  bdDev : DevT
  bdContains : DevT
  startSect : Nat
  nrSects : Nat
deriving DecidableEq, Repr

/-- `bdev == bdev->bd_contains`. -/
def BlockDevice.wholedisk (bdev : BlockDevice) : Bool := bdev.bdDev == bdev.bdContains

/-- `EIO_DEV_PARTITION` and `EIO_DEV_WHOLE_DISK`. -/
inductive DevInfo where
  | partition
  | wholeDisk
deriving DecidableEq, Repr

/-- What `eio_cache_create` knows of a cache before it is activated. `addr` is the
address of its `cache_c`. -/
structure Creation where
  addr : Nat
  cacheName : String
  diskDev : BlockDevice
  cacheDev : BlockDevice
deriving DecidableEq, Repr

/-- The fields of `cache_c` that the registry reads. -/
structure CacheC extends Creation where
  devInfo : DevInfo
  devStartSect : Nat
  devEndSect : Nat
  origmfn : Mfn
deriving DecidableEq, Repr

/-- The disk of the source device. -/
def Creation.disk (r : Creation) : DevT := r.diskDev.bdContains

def eioMagic : Nat := 0xE10CAC6E
def eioHashtblSize : Nat := 1024

/-- `EIO_HASH_BDEV`. -/
def eioHashBdev (dev : DevT) : Nat :=
  (dev.major * eioMagic + dev.minor) % 2 ^ 32 % eioHashtblSize

/-! ## The state and its steps -/

/-- `mfn` is the `make_request_fn` of the queue of a disk; `checked` are the creations
between their preliminary checks and their activation, `deleting` the stale caches
between their two deactivations; `bug` is set by an assertion that fails. -/
structure Registry where
  active : List CacheC
  mfn : DevT → Mfn
  checked : List Creation
  deleting : List CacheC
  bug : Bool := false

variable (reg : Registry)

/-- `eio_ttc_list[index]`. -/
def Registry.ttcList (index : Nat) : List CacheC :=
  reg.active.filter fun c => eioHashBdev c.disk == index

/-- `eio_cache_lookup`. -/
def Registry.eioCacheLookup (name : String) : Option CacheC :=
  (List.range eioHashtblSize).findSome? fun i =>
    (reg.ttcList i).find? fun c => c.cacheName == name

/-- A cache of the same disk that excludes a cache on `bdev`. -/
def CacheC.excludes (c : CacheC) (bdev : BlockDevice) : Bool :=
  bdev.wholedisk || c.devInfo == .wholeDisk || c.diskDev.bdDev == bdev.bdDev

def EINVAL : Int := 22
def EEXIST : Int := 17

def Registry.eioDoPreliminaryChecks (r : Creation) : Int :=
  if r.diskDev.bdContains = r.cacheDev.bdContains then -EINVAL
  else if (reg.eioCacheLookup r.cacheName).isSome then -EEXIST
  else if (reg.ttcList (eioHashBdev r.disk)).any fun c =>
      c.disk == r.disk && c.excludes r.diskDev then -EINVAL
  else 0

/-- The loop of `eio_ttc_activate`: it stops at the first cache of the disk, with an
error or with the request function that cache has saved. -/
def activateScan (bdev : BlockDevice) : List CacheC → Except Int (Option Mfn)
  | [] => .ok none
  | c :: cs =>
    if c.disk ≠ bdev.bdContains then activateScan bdev cs
    else if c.excludes bdev then .error (-EINVAL)
    else .ok (some c.origmfn)

/-- The cache as `eio_ttc_activate` puts it on the list. -/
def Creation.activated (r : Creation) (devInfo : DevInfo) (origmfn : Mfn) : CacheC where
  toCreation := r
  devInfo := devInfo
  devStartSect := r.diskDev.startSect
  devEndSect := (r.diskDev.startSect + r.diskDev.nrSects + (2 ^ 64 - 1)) % 2 ^ 64
  origmfn := origmfn

def Registry.eioTtcActivate (r : Creation) : Registry :=
  match activateScan r.diskDev (reg.ttcList (eioHashBdev r.disk)) with
  | .error _ => reg
  | .ok (some origmfn) =>
    { reg with active := reg.active ++ [r.activated .partition origmfn] }
  | .ok none =>
    { reg with
      active := reg.active ++
        [r.activated (if r.diskDev.wholedisk then .wholeDisk else .partition) (reg.mfn r.disk)]
      mfn := Function.update reg.mfn r.disk .eio }

/-- The loop of `eio_ttc_deactivate`, which is not entered for a whole disk: it stops at
the first other cache of the disk. -/
def Registry.foundPartition (c : CacheC) : Option CacheC :=
  if c.devInfo = .wholeDisk then none
  else (reg.ttcList (eioHashBdev c.disk)).find? fun c' => c'.addr ≠ c.addr && c'.disk == c.disk

/-- The end of `eio_ttc_deactivate`. -/
def Registry.unlink (c : CacheC) : Registry :=
  { reg with
    active := reg.active.filter fun c' => c'.addr ≠ c.addr
    mfn := if (reg.foundPartition c).isNone then Function.update reg.mfn c.disk c.origmfn
      else reg.mfn }

/-- `eio_ttc_deactivate`, from the label `deactivate` on. -/
def Registry.eioTtcDeactivate (c : CacheC) : Registry :=
  -- the assertion on `dmc1->dev_info` in the loop
  if (reg.foundPartition c).any (·.devInfo ≠ .partition) then { reg with bug := true }
  else reg.unlink c

/-- The addresses of all `cache_c` in use. -/
def Registry.addrs : List Nat :=
  reg.active.map (·.addr) ++ reg.checked.map (·.addr) ++ reg.deleting.map (·.addr)

inductive RegAct where
  /-- `eio_cache_create` up to and including the preliminary checks -/
  | check (r : Creation)
  | activate (r : Creation)
  /-- the deactivation of a deletion; a stale cache is deactivated once more -/
  | deactivate (c : CacheC) (stale : Bool)
  | force (c : CacheC)
deriving DecidableEq, Repr

def Registry.act (reg : Registry) : RegAct → Option Registry
  | .check r =>
    if r.addr ∈ reg.addrs then none
    else if reg.eioDoPreliminaryChecks r ≠ 0 then some reg
    else some { reg with checked := r :: reg.checked }
  | .activate r =>
    if r ∈ reg.checked then
      some ({ reg with checked := reg.checked.erase r }.eioTtcActivate r)
    else none
  | .deactivate c stale =>
    if c ∈ reg.active then
      some { reg.eioTtcDeactivate c with
        deleting := if stale then c :: reg.deleting else reg.deleting }
    else none
  | .force c =>
    if c ∈ reg.deleting then
      some ({ reg with deleting := reg.deleting.erase c }.eioTtcDeactivate c)
    else none

/-- Nothing is done any more after an assertion has failed. -/
def Registry.step (reg : Registry) (a : RegAct) : Option Registry :=
  if reg.bug then none else reg.act a

/-- No cache is active and every queue has its own function. -/
def Registry.init (orig : DevT → Mfn) : Registry where
  active := []
  mfn := orig
  checked := []
  deleting := []

abbrev Registry.Reachable (orig : DevT → Mfn) (P : Registry → RegAct → Prop) :=
  Run.Reach Registry.step P (Registry.init orig)

/-! ## What the scans find -/

theorem mem_ttcList {index : Nat} {c : CacheC} :
    c ∈ reg.ttcList index ↔ c ∈ reg.active ∧ eioHashBdev c.disk = index := by
  simp [Registry.ttcList]

/-- The three ways the loop of `eio_ttc_activate` ends. -/
theorem activateScan_cases (bdev : BlockDevice) (cs : List CacheC) :
    (activateScan bdev cs = .error (-EINVAL) ∧
      ∃ c ∈ cs, c.disk = bdev.bdContains ∧ c.excludes bdev = true) ∨
    (activateScan bdev cs = .ok none ∧ ∀ c ∈ cs, c.disk ≠ bdev.bdContains) ∨
    ∃ c ∈ cs, activateScan bdev cs = .ok (some c.origmfn) ∧ c.disk = bdev.bdContains ∧
      c.excludes bdev = false := by
  induction cs with
  | nil => exact .inr (.inl ⟨rfl, by simp⟩)
  | cons c cs ih =>
    simp only [activateScan]
    by_cases hd : c.disk = bdev.bdContains
    · rw [if_neg (not_not.mpr hd)]
      by_cases hx : c.excludes bdev = true
      · exact .inl ⟨if_pos hx, c, List.mem_cons_self, hd, hx⟩
      · exact .inr (.inr ⟨c, List.mem_cons_self, if_neg hx, hd, eq_false_of_ne_true hx⟩)
    · rw [if_pos hd]
      rcases ih with ⟨hs, c', hmem, h⟩ | ⟨hs, h⟩ | ⟨c', hmem, h⟩
      · exact .inl ⟨hs, c', List.mem_cons_of_mem _ hmem, h⟩
      · exact .inr (.inl ⟨hs, List.forall_mem_cons.mpr ⟨hd, h⟩⟩)
      · exact .inr (.inr ⟨c', List.mem_cons_of_mem _ hmem, h⟩)

/-- An activation is refused, or puts the cache on the list. In the last case it is a
partition, as is the first cache of the disk, whose request function it takes over. -/
inductive Activated (r : Creation) : Registry → Prop
  | refused : Activated r reg
  | first (hdisk : ∀ c ∈ reg.active, c.disk ≠ r.disk) :
      Activated r { reg with
        active := reg.active ++
          [r.activated (if r.diskDev.wholedisk then .wholeDisk else .partition) (reg.mfn r.disk)]
        mfn := Function.update reg.mfn r.disk .eio }
  | another {c : CacheC} (hmem : c ∈ reg.active) (hdisk : c.disk = r.disk)
      (hpart : r.diskDev.wholedisk = false) (hinfo : c.devInfo = .partition) :
      Activated r { reg with active := reg.active ++ [r.activated .partition c.origmfn] }

theorem Registry.activated (r : Creation) : Activated reg r (reg.eioTtcActivate r) := by
  unfold Registry.eioTtcActivate
  rcases activateScan_cases r.diskDev (reg.ttcList (eioHashBdev r.disk)) with
    ⟨hs, -⟩ | ⟨hs, hnone⟩ | ⟨c, hmem, hs, hdisk, hx⟩
  · rw [hs]
    exact .refused
  · rw [hs]
    refine .first fun c hmem hdisk => hnone c ?_ hdisk
    exact (mem_ttcList reg).mpr ⟨hmem, congrArg eioHashBdev hdisk⟩
  · rw [hs]
    simp only [CacheC.excludes, Bool.or_eq_false_iff, beq_eq_false_iff_ne] at hx
    refine .another ((mem_ttcList reg).mp hmem).1 hdisk hx.1.1 ?_
    cases hi : c.devInfo with
    | partition => rfl
    | wholeDisk => exact absurd hi hx.1.2

theorem eioCacheLookup_isSome {name : String} :
    (reg.eioCacheLookup name).isSome = true ↔ ∃ c ∈ reg.active, c.cacheName = name := by
  simp only [Registry.eioCacheLookup, List.findSome?_isSome_iff, List.find?_isSome, mem_ttcList,
    List.mem_range, beq_iff_eq]
  constructor
  · rintro ⟨-, -, c, ⟨hc, -⟩, hname⟩
    exact ⟨c, hc, hname⟩
  · rintro ⟨c, hc, hname⟩
    exact ⟨_, Nat.mod_lt _ (by decide), c, ⟨hc, rfl⟩, hname⟩

/-- What a creation that passes the preliminary checks can rely on. -/
theorem eioDoPreliminaryChecks_passed {r : Creation} (h : reg.eioDoPreliminaryChecks r = 0)
    {c : CacheC} (hc : c ∈ reg.active) :
    c.cacheName ≠ r.cacheName ∧ (c.disk = r.disk → c.diskDev.bdDev ≠ r.diskDev.bdDev) := by
  unfold Registry.eioDoPreliminaryChecks at h
  split at h
  · simp [EINVAL] at h
  split at h
  · simp [EEXIST] at h
  next hname =>
  split at h
  · simp [EINVAL] at h
  next hdisk =>
  refine ⟨fun heq => hname ((eioCacheLookup_isSome reg).mpr ⟨c, hc, heq⟩), fun hd heq => hdisk ?_⟩
  refine List.any_eq_true.mpr ⟨c, (mem_ttcList reg).mpr ⟨hc, congrArg eioHashBdev hd⟩, ?_⟩
  simp [hd, CacheC.excludes, heq]

theorem foundPartition_isSome {c : CacheC} : (reg.foundPartition c).isSome = true ↔
    c.devInfo ≠ .wholeDisk ∧ ∃ c' ∈ reg.active, c'.addr ≠ c.addr ∧ c'.disk = c.disk := by
  unfold Registry.foundPartition
  split
  · next hinfo => simp [hinfo]
  · next hinfo =>
    simp only [List.find?_isSome, mem_ttcList, Bool.and_eq_true, decide_eq_true_eq, beq_iff_eq]
    constructor
    · rintro ⟨c', ⟨hmem, -⟩, haddr, hdisk⟩
      exact ⟨hinfo, c', hmem, haddr, hdisk⟩
    · rintro ⟨-, c', hmem, haddr, hdisk⟩
      exact ⟨c', ⟨hmem, congrArg eioHashBdev hdisk⟩, haddr, hdisk⟩

/-- Beside partitions of the disk alone, a deactivation meets no assertion. -/
theorem eioTtcDeactivate_eq {c : CacheC} (h : ∀ c' ∈ reg.active, c'.addr ≠ c.addr →
    c'.disk = c.disk → c.devInfo ≠ .wholeDisk → c'.devInfo = .partition) :
    reg.eioTtcDeactivate c = reg.unlink c := by
  refine if_neg ?_
  rw [Option.any_eq_true]
  rintro ⟨c', hfound, hinfo⟩
  simp only [Registry.foundPartition, Option.ite_none_left_eq_some] at hfound
  obtain ⟨hmem, -⟩ := (mem_ttcList reg).mp (List.mem_of_find?_eq_some hfound.2)
  have hother := List.find?_some hfound.2
  simp only [Bool.and_eq_true, decide_eq_true_eq, beq_iff_eq] at hother
  simp [h c' hmem hother.1 hother.2 hfound.1] at hinfo

/-- An activation activates no other creation, and lets none through. -/
theorem Registry.eioTtcActivate_subset (reg : Registry) (r : Creation) :
    (∀ c ∈ (reg.eioTtcActivate r).active, c ∈ reg.active ∨ c.toCreation = r) ∧
      (reg.eioTtcActivate r).checked = reg.checked := by
  have hact := reg.activated r
  generalize reg.eioTtcActivate r = reg' at hact ⊢
  cases hact with
  | refused => exact ⟨fun _ hc => .inl hc, rfl⟩
  | first _ | another _ _ _ _ =>
    refine ⟨fun c hc => (List.mem_append.mp hc).imp_right fun hc => ?_, rfl⟩
    rw [List.mem_singleton.mp hc]
    rfl

/-- A deactivation activates nothing, and lets no creation through. -/
theorem Registry.eioTtcDeactivate_subset (reg : Registry) (c : CacheC) :
    (reg.eioTtcDeactivate c).active ⊆ reg.active ∧
      (reg.eioTtcDeactivate c).checked = reg.checked := by
  unfold Registry.eioTtcDeactivate
  split
  · exact ⟨List.Subset.refl _, rfl⟩
  · exact ⟨List.filter_subset_self _, rfl⟩

/-! ## The invariant -/

/-- What the driver relies on. -/
structure Registry.Ok (orig : DevT → Mfn) (reg : Registry) : Prop where
  device : reg.active.Pairwise fun c c' => c.diskDev.bdDev ≠ c'.diskDev.bdDev
  name : reg.active.Pairwise fun c c' => c.cacheName ≠ c'.cacheName
  whole : reg.active.Pairwise fun c c' =>
    c.disk = c'.disk → c.diskDev.wholedisk = false ∧ c'.diskDev.wholedisk = false
  mfn : ∀ disk, reg.mfn disk = .eio ↔ ∃ c ∈ reg.active, c.disk = disk
  origmfn : ∀ c ∈ reg.active, c.origmfn = orig c.disk
  bug : reg.bug = false

/-- The steps of a run in which nobody is overtaken. An activation finds no other creation
of the same name or on the same device between its checks and its activation; and no stale
cache of its disk between its two deactivations, unless both are on partitions. `diskOf`
is the `bd_contains` of a block device, which does not change. -/
def Registry.Orderly (diskOf : DevT → DevT) (reg : Registry) : RegAct → Prop
  | .check r => r.disk = diskOf r.diskDev.bdDev
  | .activate r =>
      (∀ r' ∈ reg.checked.erase r,
        r'.cacheName ≠ r.cacheName ∧ r'.diskDev.bdDev ≠ r.diskDev.bdDev) ∧
      ∀ c ∈ reg.deleting, c.disk = r.disk →
        c.devInfo = .partition ∧ r.diskDev.wholedisk = false
  | _ => True

instance (diskOf : DevT → DevT) (a : RegAct) : Decidable (reg.Orderly diskOf a) :=
  match a with
  | .check r => inferInstanceAs (Decidable (r.disk = diskOf r.diskDev.bdDev))
  | .activate r => inferInstanceAs (Decidable (
      (∀ r' ∈ reg.checked.erase r,
        r'.cacheName ≠ r.cacheName ∧ r'.diskDev.bdDev ≠ r.diskDev.bdDev) ∧
      ∀ c ∈ reg.deleting, c.disk = r.disk →
        c.devInfo = .partition ∧ r.diskDev.wholedisk = false))
  | .deactivate _ _ | .force _ => inferInstanceAs (Decidable True)

/-- `Ok`, with what is known of the queues and caches that are not active. -/
structure Registry.Inv (orig : DevT → Mfn) (reg : Registry) : Prop extends reg.Ok orig where
  idle : ∀ disk, reg.mfn disk ≠ .eio → reg.mfn disk = orig disk
  info : ∀ c ∈ reg.active, (c.devInfo = .wholeDisk ↔ c.diskDev.wholedisk = true)
  sects : ∀ c ∈ reg.active, c = c.toCreation.activated c.devInfo c.origmfn
  addrs : reg.addrs.Nodup
  deleting : ∀ c ∈ reg.deleting, c.origmfn = orig c.disk
  stale : ∀ c ∈ reg.deleting, ∀ c' ∈ reg.active, c'.disk = c.disk →
    c.devInfo = .partition ∧ c'.diskDev.wholedisk = false

/-- No active cache stands in the way of a creation that has passed its checks. -/
structure Registry.Unchallenged (diskOf : DevT → DevT) (reg : Registry) : Prop where
  active : ∀ c ∈ reg.active, c.disk = diskOf c.diskDev.bdDev
  checked : ∀ r ∈ reg.checked, r.disk = diskOf r.diskDev.bdDev
  clear : ∀ r ∈ reg.checked, ∀ c ∈ reg.active,
    c.cacheName ≠ r.cacheName ∧ c.diskDev.bdDev ≠ r.diskDev.bdDev

variable {reg} {orig : DevT → Mfn} {diskOf : DevT → DevT} {r : Creation} {c : CacheC}

theorem Registry.Inv.init (horig : ∀ disk, orig disk ≠ .eio) : (Registry.init orig).Inv orig where
  device := .nil
  name := .nil
  whole := .nil
  mfn disk := by simp [Registry.init, horig]
  origmfn := by simp [Registry.init]
  idle _ _ := rfl
  info := by simp [Registry.init]
  sects := by simp [Registry.init]
  addrs := .nil
  deleting := by simp [Registry.init]
  stale := by simp [Registry.init]
  bug := rfl

namespace Registry.Inv

variable {c' : CacheC} (h : reg.Inv orig)
include h

/-- Two active caches at one address are one. -/
theorem eq_of_addr (hc : c ∈ reg.active) (hc' : c' ∈ reg.active) (haddr : c'.addr = c.addr) :
    c' = c := by
  have hnodup : (reg.active.map (·.addr)).Nodup :=
    (List.nodup_append.mp (List.nodup_append.mp h.addrs).1).1
  exact List.inj_on_of_nodup_map hnodup hc' hc haddr

/-- A creation leaves the list of those that wait for their activation. -/
theorem eraseChecked (hr : r ∈ reg.checked) :
    { reg with checked := reg.checked.erase r }.Inv orig ∧
      r.addr ∉ { reg with checked := reg.checked.erase r }.addrs := by
  have hperm : reg.addrs.Perm (r.addr :: { reg with checked := reg.checked.erase r }.addrs) := by
    have hchecked := (List.perm_cons_erase hr).map (·.addr)
    exact ((hchecked.append_left _).trans List.perm_middle).append_right _
  obtain ⟨hnot, hnodup⟩ := List.nodup_cons.mp (hperm.nodup_iff.mp h.addrs)
  exact ⟨{ h with addrs := hnodup }, hnot⟩

/-- A stale cache leaves the list of those that wait to be deactivated again. -/
theorem eraseDeleting (hc : c ∈ reg.deleting) :
    { reg with deleting := reg.deleting.erase c }.Inv orig ∧
      c.addr ∉ { reg with deleting := reg.deleting.erase c }.addrs := by
  have hperm : reg.addrs.Perm (c.addr :: { reg with deleting := reg.deleting.erase c }.addrs) := by
    have hdeleting := (List.perm_cons_erase hc).map (·.addr)
    exact (hdeleting.append_left _).trans List.perm_middle
  obtain ⟨hnot, hnodup⟩ := List.nodup_cons.mp (hperm.nodup_iff.mp h.addrs)
  exact ⟨{ h with
    addrs := hnodup
    deleting := fun c' hmem => h.deleting c' (List.mem_of_mem_erase hmem)
    stale := fun c' hmem => h.stale c' (List.mem_of_mem_erase hmem) }, hnot⟩

/-- Two caches of one disk are on partitions. -/
theorem partitions (hc : c ∈ reg.active) (hc' : c' ∈ reg.active) (hne : c' ≠ c)
    (hdisk : c'.disk = c.disk) :
    c'.diskDev.wholedisk = false ∧ c.diskDev.wholedisk = false := by
  have : Std.Symm fun c c' : CacheC =>
      c.disk = c'.disk → c.diskDev.wholedisk = false ∧ c'.diskDev.wholedisk = false :=
    ⟨fun _ _ hr hd => (hr hd.symm).symm⟩
  exact h.whole.forall hc' hc hne hdisk

theorem devInfo_of_partition (hc : c ∈ reg.active) (hpart : c.diskDev.wholedisk = false) :
    c.devInfo = .partition := by
  cases hi : c.devInfo with
  | partition => rfl
  | wholeDisk => simp [(h.info c hc).mp hi] at hpart

theorem partition_of_disk (hc : c ∈ reg.active) (hc' : c' ∈ reg.active)
    (hdisk : c'.disk = c.disk) (hpart : c.diskDev.wholedisk = false) :
    c'.diskDev.wholedisk = false := by
  by_cases heq : c' = c
  · rw [heq]
    exact hpart
  · exact (h.partitions hc hc' heq hdisk).1

/-- A cache joins the list, as the first of its disk or beside other partitions. -/
theorem add {devInfo : DevInfo} {origmfn : Mfn} {mfn : DevT → Mfn} (haddr : r.addr ∉ reg.addrs)
    (hnew : ∀ c ∈ reg.active, c.cacheName ≠ r.cacheName ∧ c.diskDev.bdDev ≠ r.diskDev.bdDev)
    (hwhole : ∀ c ∈ reg.active, c.disk = r.disk →
      c.diskDev.wholedisk = false ∧ r.diskDev.wholedisk = false)
    (hstale : ∀ c ∈ reg.deleting, c.disk = r.disk →
      c.devInfo = .partition ∧ r.diskDev.wholedisk = false)
    (hinfo : devInfo = .wholeDisk ↔ r.diskDev.wholedisk = true)
    (horig : origmfn = orig r.disk) (hmfn : mfn = Function.update reg.mfn r.disk .eio) :
    { reg with active := reg.active ++ [r.activated devInfo origmfn], mfn := mfn }.Inv orig where
  device := List.pairwise_append.mpr ⟨h.device, List.pairwise_singleton _ _, fun c hc c' hc' => by
    rw [List.mem_singleton.mp hc']
    exact (hnew c hc).2⟩
  name := List.pairwise_append.mpr ⟨h.name, List.pairwise_singleton _ _, fun c hc c' hc' => by
    rw [List.mem_singleton.mp hc']
    exact (hnew c hc).1⟩
  whole := List.pairwise_append.mpr ⟨h.whole, List.pairwise_singleton _ _, fun c hc c' hc' => by
    rw [List.mem_singleton.mp hc']
    exact hwhole c hc⟩
  mfn disk := by
    simp only [hmfn, List.mem_append, List.mem_singleton]
    by_cases hd : disk = r.disk
    · rw [hd, Function.update_self]
      exact ⟨fun _ => ⟨_, .inr rfl, rfl⟩, fun _ => rfl⟩
    · rw [Function.update_of_ne hd, h.mfn]
      constructor
      · rintro ⟨c, hc, hdisk⟩
        exact ⟨c, .inl hc, hdisk⟩
      · rintro ⟨c, hc | rfl, hdisk⟩
        · exact ⟨c, hc, hdisk⟩
        · exact absurd hdisk.symm hd
  origmfn c hc := by
    rcases List.mem_append.mp hc with hc | hc
    · exact h.origmfn c hc
    · rw [List.mem_singleton.mp hc]
      exact horig
  idle disk hne := by
    simp only [hmfn] at hne ⊢
    by_cases hd : disk = r.disk
    · rw [hd, Function.update_self] at hne
      exact absurd rfl hne
    · rw [Function.update_of_ne hd] at hne ⊢
      exact h.idle disk hne
  info c hc := by
    rcases List.mem_append.mp hc with hc | hc
    · exact h.info c hc
    · rw [List.mem_singleton.mp hc]
      exact hinfo
  sects c hc := by
    rcases List.mem_append.mp hc with hc | hc
    · exact h.sects c hc
    · rw [List.mem_singleton.mp hc]
      rfl
  addrs := by
    have hperm : (reg.active.map (·.addr) ++ [r.addr] ++ reg.checked.map (·.addr) ++
        reg.deleting.map (·.addr)).Perm (r.addr :: reg.addrs) :=
      ((List.perm_append_singleton _ _).append_right _).append_right _
    simp only [Registry.addrs, List.map_append, List.map_cons, List.map_nil]
    exact hperm.nodup_iff.mpr (List.nodup_cons.mpr ⟨haddr, h.addrs⟩)
  deleting := h.deleting
  stale c hc c' hc' hdisk := by
    rcases List.mem_append.mp hc' with hc' | hc'
    · exact h.stale c hc c' hc' hdisk
    · rw [List.mem_singleton.mp hc'] at hdisk ⊢
      exact hstale c hc hdisk.symm
  bug := h.bug

theorem activate (haddr : r.addr ∉ reg.addrs)
    (hnew : ∀ c ∈ reg.active, c.cacheName ≠ r.cacheName ∧ c.diskDev.bdDev ≠ r.diskDev.bdDev)
    (hstale : ∀ c ∈ reg.deleting, c.disk = r.disk →
      c.devInfo = .partition ∧ r.diskDev.wholedisk = false) :
    (reg.eioTtcActivate r).Inv orig := by
  have hact := reg.activated r
  generalize reg.eioTtcActivate r = reg' at hact ⊢
  cases hact with
  | refused => exact h
  | first hdisk =>
    have hmfn : reg.mfn r.disk ≠ .eio := by
      intro heio
      obtain ⟨c, hc, hd⟩ := (h.mfn r.disk).mp heio
      exact hdisk c hc hd
    refine h.add haddr hnew (fun c hc hd => absurd hd (hdisk c hc)) hstale ?_ (h.idle _ hmfn) rfl
    cases r.diskDev.wholedisk <;> simp
  | @another c hc hdisk hpart hinfo =>
    have hcpart : c.diskDev.wholedisk = false := by
      rw [← Bool.not_eq_true, ← h.info c hc, hinfo]
      simp
    have hmfn : reg.mfn r.disk = .eio := (h.mfn _).mpr ⟨c, hc, hdisk⟩
    refine h.add haddr hnew (fun c' hc' hd => ⟨?_, hpart⟩) hstale (by simp [hpart])
      (hdisk ▸ h.origmfn c hc) ?_
    · exact h.partition_of_disk hc hc' (hd.trans hdisk.symm) hcpart
    · rw [← hmfn, Function.update_eq_self]

/-- A deactivated cache that is stale will be deactivated again. -/
theorem deleteAgain (hc : c.origmfn = orig c.disk) (haddr : c.addr ∉ reg.addrs)
    (hstale : ∀ c' ∈ reg.active, c'.disk = c.disk →
      c.devInfo = .partition ∧ c'.diskDev.wholedisk = false) :
    { reg with deleting := c :: reg.deleting }.Inv orig := by
  refine { h with
    addrs := ?_
    deleting := List.forall_mem_cons.mpr ⟨hc, h.deleting⟩
    stale := List.forall_mem_cons.mpr ⟨hstale, h.stale⟩ }
  have hperm : (reg.active.map (·.addr) ++ reg.checked.map (·.addr) ++
      c.addr :: reg.deleting.map (·.addr)).Perm (c.addr :: reg.addrs) := List.perm_middle
  exact hperm.nodup_iff.mpr (List.nodup_cons.mpr ⟨haddr, h.addrs⟩)

/-- Once deactivated, the address of a cache is in no list. -/
theorem addr_unlink (hc : c ∈ reg.active) : c.addr ∉ (reg.unlink c).addrs := by
  have hnodup := h.addrs
  simp only [Registry.addrs, List.nodup_append, List.mem_append, List.mem_map] at hnodup
  obtain ⟨⟨-, -, hchecked⟩, -, hdeleting⟩ := hnodup
  simp only [Registry.addrs, Registry.unlink, List.mem_append, List.mem_map,
    List.mem_filter, decide_eq_true_eq]
  rintro ((⟨c', ⟨-, hne⟩, heq⟩ | ⟨r, hr, heq⟩) | ⟨c', hc', heq⟩)
  · exact hne heq
  · exact hchecked _ ⟨c, hc, rfl⟩ _ ⟨r, hr, rfl⟩ heq.symm
  · exact hdeleting _ (.inl ⟨c, hc, rfl⟩) _ ⟨c', hc', rfl⟩ heq.symm

variable (horig : ∀ disk, orig disk ≠ .eio)
include horig

section
variable (hc : c.origmfn = orig c.disk)
  (haddr : ∀ c' ∈ reg.active, c'.addr = c.addr → c'.disk = c.disk)
  (hwhole : c.devInfo = .wholeDisk → ∀ c' ∈ reg.active, c'.addr ≠ c.addr → c'.disk ≠ c.disk)
include hc haddr hwhole

/-- After a deactivation, the queue of the disk has its own function again exactly if
no cache of the disk is left. -/
theorem mfn_unlink (disk : DevT) : (reg.unlink c).mfn disk = .eio ↔
      ∃ c' ∈ (reg.unlink c).active, c'.disk = disk := by
  simp only [Registry.unlink, List.mem_filter, decide_eq_true_eq, ne_eq]
  by_cases hd : disk = c.disk
  · subst hd
    split
    · next hreset =>
      rw [Function.update_self, hc]
      refine iff_of_false (horig _) ?_
      rintro ⟨c', ⟨hmem, hne⟩, hdisk⟩
      by_cases hi : c.devInfo = .wholeDisk
      · exact hwhole hi c' hmem hne hdisk
      · have hfound := (foundPartition_isSome reg).mpr ⟨hi, c', hmem, hne, hdisk⟩
        rw [Option.isNone_iff_eq_none.mp hreset] at hfound
        cases hfound
    · next hkeep =>
      obtain ⟨-, c', hmem, hne, hdisk⟩ :=
        (foundPartition_isSome reg).mp (by simpa [← Option.isNone_iff_eq_none] using hkeep)
      exact iff_of_true ((h.mfn _).mpr ⟨c', hmem, hdisk⟩) ⟨c', ⟨hmem, hne⟩, hdisk⟩
  · have hsame : (if (reg.foundPartition c).isNone then
        Function.update reg.mfn c.disk c.origmfn else reg.mfn) disk = reg.mfn disk := by
      split
      · exact Function.update_of_ne hd _ _
      · rfl
    rw [hsame, h.mfn]
    constructor
    · rintro ⟨c', hmem, hdisk⟩
      refine ⟨c', ⟨hmem, fun heq => hd ?_⟩, hdisk⟩
      exact hdisk.symm.trans (haddr c' hmem heq)
    · rintro ⟨c', ⟨hmem, -⟩, hdisk⟩
      exact ⟨c', hmem, hdisk⟩

theorem unlink : (reg.unlink c).Inv orig where
  device := h.device.filter _
  name := h.name.filter _
  whole := h.whole.filter _
  mfn := h.mfn_unlink horig hc haddr hwhole
  origmfn c' hc' := h.origmfn c' (List.mem_of_mem_filter hc')
  idle disk hne := by
    simp only [Registry.unlink] at hne ⊢
    split at hne
    · next hreset =>
      rw [if_pos hreset]
      by_cases hd : disk = c.disk
      · rw [hd, Function.update_self, hc]
      · rw [Function.update_of_ne hd] at hne ⊢
        exact h.idle disk hne
    · next hkeep =>
      rw [if_neg hkeep]
      exact h.idle disk hne
  info c' hc' := h.info c' (List.mem_of_mem_filter hc')
  sects c' hc' := h.sects c' (List.mem_of_mem_filter hc')
  addrs := h.addrs.sublist
    ((((List.filter_sublist).map _).append_right _).append_right _)
  deleting := h.deleting
  stale c hc c' hc' := h.stale c hc c' (List.mem_of_mem_filter hc')
  bug := h.bug

end

theorem deactivate (hc : c ∈ reg.active) (stale : Bool) : { reg.eioTtcDeactivate c with
      deleting := if stale then c :: reg.deleting else reg.deleting }.Inv orig := by
  have hpart : ∀ c' ∈ reg.active, c'.addr ≠ c.addr → c'.disk = c.disk →
      c'.diskDev.wholedisk = false ∧ c.diskDev.wholedisk = false :=
    fun c' hc' hne => h.partitions hc hc' fun heq => hne (heq ▸ rfl)
  have h' : (reg.unlink c).Inv orig := by
    refine h.unlink horig (h.origmfn c hc)
      (fun c' hc' heq => by rw [h.eq_of_addr hc hc' heq]) fun hi c' hc' hne hdisk => ?_
    have hwhole := (h.info c hc).mp hi
    simp [(hpart c' hc' hne hdisk).2] at hwhole
  rw [eioTtcDeactivate_eq reg fun c' hc' hne hd _ =>
    h.devInfo_of_partition hc' (hpart c' hc' hne hd).1]
  cases stale with
  | false => exact h'
  | true =>
    refine h'.deleteAgain (h.origmfn c hc) (h.addr_unlink hc) fun c' hc' hdisk => ?_
    simp only [Registry.unlink, List.mem_filter, decide_eq_true_eq] at hc'
    obtain ⟨hwhole', hwhole⟩ := hpart c' hc'.1 hc'.2 hdisk
    exact ⟨h.devInfo_of_partition hc hwhole, hwhole'⟩

/-- The second deactivation of a stale cache. -/
theorem force (hc : c ∈ reg.deleting) :
    ({ reg with deleting := reg.deleting.erase c }.eioTtcDeactivate c).Inv orig := by
  obtain ⟨h', haddr⟩ := h.eraseDeleting hc
  have hother : ∀ c' ∈ reg.active, c'.addr = c.addr → c'.disk = c.disk := by
    refine fun c' hc' heq => absurd ?_ haddr
    simp only [Registry.addrs, List.mem_append, List.mem_map]
    exact .inl (.inl ⟨c', hc', heq⟩)
  rw [eioTtcDeactivate_eq]
  · refine h'.unlink horig (h.deleting c hc) hother fun hinfo c' hc' _ hdisk => ?_
    simp [(h.stale c hc c' hc' hdisk).1] at hinfo
  · intro c' hc' _ hdisk _
    exact h.devInfo_of_partition hc' (h.stale c hc c' hc' hdisk).2

theorem act {reg' : Registry} {a : RegAct} (hu : reg.Unchallenged diskOf)
    (ha : reg.Orderly diskOf a) (hs : reg.act a = some reg') : reg'.Inv orig := by
  cases a with
  | check r =>
    obtain ⟨haddr, hs⟩ := Option.ite_none_left_eq_some.mp hs
    split at hs
    · cases hs
      exact h
    · cases hs
      have hperm : (reg.active.map (·.addr) ++ r.addr :: reg.checked.map (·.addr) ++
          reg.deleting.map (·.addr)).Perm (r.addr :: reg.addrs) :=
        List.perm_middle.append_right _
      exact { h with
        addrs := hperm.nodup_iff.mpr (List.nodup_cons.mpr ⟨haddr, h.addrs⟩) }
  | activate r =>
    obtain ⟨hr, rfl⟩ := Option.ite_some_none_eq_some.mp hs
    obtain ⟨h', haddr⟩ := h.eraseChecked hr
    exact h'.activate haddr (hu.clear r hr) ha.2
  | deactivate c stale =>
    obtain ⟨hc, rfl⟩ := Option.ite_some_none_eq_some.mp hs
    exact h.deactivate horig hc stale
  | force c =>
    obtain ⟨hc, rfl⟩ := Option.ite_some_none_eq_some.mp hs
    exact h.force horig hc

end Registry.Inv

/-- What the preliminary checks have found stays so, as nobody is overtaken. -/
theorem Registry.Unchallenged.act {reg' : Registry} {a : RegAct}
    (h : reg.Unchallenged diskOf) (ha : reg.Orderly diskOf a) (hs : reg.act a = some reg') :
    reg'.Unchallenged diskOf := by
  have removed {reg₁ : Registry} (hactive : reg₁.active ⊆ reg.active)
      (hchecked : reg₁.checked = reg.checked) : reg₁.Unchallenged diskOf :=
    ⟨fun c hc => h.active c (hactive hc), hchecked ▸ h.checked,
      fun r hr c hc => h.clear r (hchecked ▸ hr) c (hactive hc)⟩
  cases a with
  | check r =>
    obtain ⟨-, hs⟩ := Option.ite_none_left_eq_some.mp hs
    split at hs
    · cases hs
      exact h
    · next hpassed =>
      cases hs
      refine ⟨h.active, List.forall_mem_cons.mpr ⟨ha, h.checked⟩,
        List.forall_mem_cons.mpr ⟨fun c hc => ?_, h.clear⟩⟩
      obtain ⟨hname, hdev⟩ := eioDoPreliminaryChecks_passed reg (not_not.mp hpassed) hc
      refine ⟨hname, fun heq => hdev ?_ heq⟩
      rw [h.active c hc, heq]
      exact ha.symm
  | activate r =>
    obtain ⟨hr, rfl⟩ := Option.ite_some_none_eq_some.mp hs
    obtain ⟨hactive, hchecked⟩ :=
      { reg with checked := reg.checked.erase r }.eioTtcActivate_subset r
    refine ⟨fun c hc => ?_, fun r' hr' => ?_, fun r' hr' c hc => ?_⟩
    · rcases hactive c hc with hc | rfl
      · exact h.active c hc
      · exact h.checked _ hr
    · exact h.checked r' (List.mem_of_mem_erase (hchecked ▸ hr'))
    · rw [hchecked] at hr'
      rcases hactive c hc with hc | rfl
      · exact h.clear r' (List.mem_of_mem_erase hr') c hc
      · exact ⟨(ha.1 r' hr').1.symm, (ha.1 r' hr').2.symm⟩
  | deactivate c stale =>
    obtain ⟨-, rfl⟩ := Option.ite_some_none_eq_some.mp hs
    obtain ⟨hactive, hchecked⟩ := reg.eioTtcDeactivate_subset c
    exact removed hactive hchecked
  | force c =>
    obtain ⟨-, rfl⟩ := Option.ite_some_none_eq_some.mp hs
    obtain ⟨hactive, hchecked⟩ :=
      { reg with deleting := reg.deleting.erase c }.eioTtcDeactivate_subset c
    exact removed hactive hchecked

theorem Registry.Reachable.unchallenged
    (h : Registry.Reachable orig (Registry.Orderly diskOf) reg) : reg.Unchallenged diskOf :=
  h.invariant (by constructor <;> simp [Registry.init]) fun hu ha hs =>
    hu.act ha (Option.ite_none_left_eq_some.mp hs).2

theorem Registry.Reachable.inv (horig : ∀ disk, orig disk ≠ .eio)
    (h : Registry.Reachable orig (Registry.Orderly diskOf) reg) : reg.Inv orig :=
  h.invariant_with Registry.Reachable.unchallenged (Registry.Inv.init horig)
    fun hu _ hinv ha hs => hinv.act horig hu ha (Option.ite_none_left_eq_some.mp hs).2

/-- In a run in which no activation overtakes a creation between its checks and its
activation, or a stale cache between its deactivations, the registry is as the driver
relies on it in every state. -/
theorem registry_ok (horig : ∀ disk, orig disk ≠ .eio)
    (h : Registry.Reachable orig (Registry.Orderly diskOf) reg) : reg.Ok orig :=
  (Registry.Reachable.inv horig h).toOk

/-! ## Runs -/

/-- The queues of the disks have different functions of their own. -/
def ownMfn (disk : DevT) : Mfn := .other disk.minor

def sda : BlockDevice := ⟨⟨8, 0⟩, ⟨8, 0⟩, 0, 4096⟩
def sda1 : BlockDevice := ⟨⟨8, 1⟩, ⟨8, 0⟩, 64, 1024⟩
def sda2 : BlockDevice := ⟨⟨8, 2⟩, ⟨8, 0⟩, 2048, 1024⟩
def sdb : BlockDevice := ⟨⟨8, 16⟩, ⟨8, 16⟩, 0, 4096⟩
def ssd : BlockDevice := ⟨⟨8, 32⟩, ⟨8, 32⟩, 0, 4096⟩

/-- A disk has sixteen minor numbers, of which the first is its own. -/
def sdDisk (dev : DevT) : DevT := ⟨dev.major, dev.minor / 16 * 16⟩

/-- A creation that is not interrupted. -/
def create (r : Creation) : List RegAct := [.check r, .activate r]

theorem registry_ok_two_partitions : ∃ reg,
    Registry.Reachable ownMfn (Registry.Orderly sdDisk) reg ∧
    reg.active.map (·.diskDev) = [sda1, sda2] ∧ reg.mfn ⟨8, 0⟩ = .eio ∧ reg.Ok ownMfn := by
  obtain ⟨reg, hreg, hdevs, hmfn⟩ :
      ∃ reg, Registry.Reachable ownMfn (Registry.Orderly sdDisk) reg ∧
        reg.active.map (·.diskDev) = [sda1, sda2] ∧ reg.mfn ⟨8, 0⟩ = .eio :=
    Run.Reach.of_run (fun reg a => decide (reg.Orderly sdDisk a)) (fun _ _ h => of_decide_eq_true h)
      (create ⟨1, "a", sda1, ssd⟩ ++ create ⟨2, "b", sda2, ssd⟩) (by decide +kernel)
  exact ⟨reg, hreg, hdevs, hmfn, registry_ok (by simp [ownMfn]) hreg⟩

/-- The cache on the whole of `sda`, as its activation leaves it. -/
def wholeSda : CacheC := Creation.activated ⟨1, "a", sda, ssd⟩ .wholeDisk (.other 0)

/-- The cache on `sda1`. -/
def partitionSda1 : CacheC := Creation.activated ⟨1, "a", sda1, ssd⟩ .partition (.other 0)

/-- Beside a cache on `sda1`, two creations on `sda2` have passed their checks: both
are activated. Two creations of one name on two disks are activated as well. The
second deactivation of a stale cache on `sda` takes the hook away from the cache that
has been created there in between; that of a stale cache on `sda1` fails the assertion
when a cache on `sda` has been created. -/
theorem registry_overtaken :
    (∃ reg, Registry.Reachable ownMfn (fun _ _ => True) reg ∧
      reg.active.map (·.diskDev) = [sda1, sda2, sda2]) ∧
    (∃ reg, Registry.Reachable ownMfn (fun _ _ => True) reg ∧
      reg.active.map (·.cacheName) = ["a", "a"]) ∧
    (∃ reg, Registry.Reachable ownMfn (fun _ _ => True) reg ∧
      reg.active.map (·.diskDev) = [sda] ∧ reg.mfn ⟨8, 0⟩ = .other 0) ∧
    ∃ reg, Registry.Reachable ownMfn (fun _ _ => True) reg ∧ reg.bug = true := by
  have run (acts : List RegAct) {R : Registry → Prop} [DecidablePred R]
      (h : (Run.exec Registry.step (fun _ _ => true) (.init ownMfn) acts).any
        (fun reg => decide (R reg)) = true) :
      ∃ reg, Registry.Reachable ownMfn (fun _ _ => True) reg ∧ R reg :=
    Run.Reach.of_run _ (fun _ _ _ => trivial) acts h
  refine ⟨?_, ?_, ?_, ?_⟩
  · exact run (create ⟨1, "a", sda1, ssd⟩ ++
      [.check ⟨2, "b", sda2, ssd⟩, .check ⟨3, "c", sda2, ssd⟩,
        .activate ⟨2, "b", sda2, ssd⟩, .activate ⟨3, "c", sda2, ssd⟩]) (by decide +kernel)
  · exact run [.check ⟨1, "a", sda1, ssd⟩, .check ⟨2, "a", sdb, ssd⟩,
        .activate ⟨1, "a", sda1, ssd⟩, .activate ⟨2, "a", sdb, ssd⟩] (by decide +kernel)
  · exact run (create ⟨1, "a", sda, ssd⟩ ++ [.deactivate wholeSda true] ++
      create ⟨2, "b", sda, ssd⟩ ++ [.force wholeSda]) (by decide +kernel)
  · exact run (create ⟨1, "a", sda1, ssd⟩ ++ [.deactivate partitionSda1 true] ++
      create ⟨2, "b", sda, ssd⟩ ++ [.force partitionSda1]) (by decide +kernel)

end EnhanceIO.Ttc
