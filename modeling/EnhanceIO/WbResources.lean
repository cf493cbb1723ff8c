import EnhanceIO.CleanSet
import EnhanceIO.Devices
import EnhanceIO.States

/-!
# The resources of a write-back cache

A cache that becomes a write-back cache gets buffers for its cleans, the list of dirty
sets, the clean thread and the work queue of the metadata updates.
`eio_allocate_wb_resources` makes them one after the other and has one label for the way
out. Each allocation may fail.
-/

namespace EnhanceIO

open Devices (cacheModeWb cacheModeRo cacheModeWt)

/-- What `eio_create_thread` returns: `kthread_run` gives a task or an error pointer, which is
not null. -/
inductive ThreadPtr
  | null
  | error
  | task
  deriving DecidableEq, Repr

/-- The fields of a cache that belong to the write-back mode; a pointer is `true` when it is
not null. `pages` is the number of pages the buffers have. -/
structure WbRes where
  mode : Nat
  cleanDbvecs : Bool
  dbvecCount : Nat
  cleanMdpages : Bool
  mdpageCount : Nat
  dirtySetLru : Bool
  mdupdateQ : Bool
  cleanThread : ThreadPtr
  cleanThreadRunning : Bool
  /-- `EIO_CLEAN_START` -/
  cleanStart : Bool
  pages : Nat
  deriving DecidableEq, Repr

/-- Which allocations succeed. -/
structure WbEnv where
  dbvecs : Bool
  bvecPage : Nat → Bool
  mdpages : Bool
  mdPage : Nat → Bool
  lru : Bool
  thread : ThreadPtr
  queue : Bool

/-- `eio_alloc_wb_bvecs` allocates a page for segment `i`: of blocks of 2 KiB two share one. -/
def bvecNeedsPage (blockSize i : Nat) : Bool :=
  if blockSize = 4 then i % 2 = 0 else blockSize = 8 ∨ blockSize = 16

/-- The pages of the first `n` segments, which `eio_free_wb_bvecs` releases. -/
def bvecPages (blockSize n : Nat) : Nat := (List.range n).countP (bvecNeedsPage blockSize)

namespace WbRes

variable (g : Geom) (env : WbEnv) (r : WbRes)

/-- The number of segments, from an unsigned int of bytes, and of metadata pages. -/
def nrBvecs : Nat := ioBvecCount (g.blockSize * g.assoc * 512 % 2 ^ 32) g.blockSize
def nrPages : Nat := mdPageCount g.assoc

/-- `eio_alloc_wb_bvecs`. At the segment without a page it releases the pages before. -/
def allocBvecs : WbRes × Int :=
  match (List.range (nrBvecs g)).find? fun i => bvecNeedsPage g.blockSize i && !env.bvecPage i with
  | none => ({ r with pages := r.pages + bvecPages g.blockSize (nrBvecs g) }, 0)
  | some i => ({ r with pages := r.pages + bvecPages g.blockSize i - bvecPages g.blockSize i }, -12)

/-- `eio_alloc_wb_pages`. -/
def allocPages : WbRes × Int :=
  match (List.range (nrPages g)).find? fun i => !env.mdPage i with
  | none => ({ r with pages := r.pages + nrPages g }, 0)
  | some i => ({ r with pages := r.pages + i - i }, -12)

/-- `eio_free_wb_bvecs` and `eio_free_wb_pages` of all there are. -/
def freeBvecs : WbRes := { r with pages := r.pages - bvecPages g.blockSize r.dbvecCount }
def freePages : WbRes := { r with pages := r.pages - r.mdpageCount }

/-- The label `errout`. -/
def errout : WbRes :=
  let r := if r.cleanMdpages then { r with cleanMdpages := false, mdpageCount := 0 } else r
  if r.cleanDbvecs then { r with cleanDbvecs := false, dbvecCount := 0 } else r

/-- `eio_allocate_wb_resources` up to the metadata pages. -/
def allocBuffers : WbRes × Int :=
  if env.dbvecs = false then (r.errout, -12)
  else
    let (r, ret) := allocBvecs g env { r with cleanDbvecs := true }
    if ret ≠ 0 then (r.errout, ret)
    else
      let r := { r with dbvecCount := nrBvecs g }
      if env.mdpages = false then ((r.freeBvecs g).errout, -12)
      else
        let (r, ret) := allocPages g env { r with cleanMdpages := true }
        if ret ≠ 0 then ((r.freeBvecs g).errout, ret)
        else ({ r with mdpageCount := nrPages g }, 0)

/-- `eio_start_clean_thread`; `none` if one of its assertions fails. -/
def startCleanThread (thread : ThreadPtr) : Option (WbRes × Int) :=
  if r.cleanThread ≠ .null ∨ r.mode ≠ cacheModeWb ∨ r.cleanThreadRunning ∨ r.cleanStart then none
  else some ({ r with cleanThread := thread, cleanThreadRunning := thread = .task },
    if thread = .null then -14 else 0)

/-- `lru_init` and `eio_clean_thread_init`. -/
def startLru : Option (WbRes × Int) :=
  if env.lru then startCleanThread { r with dirtySetLru := true } env.thread
  else some ({ r with dirtySetLru := false }, -12)

/-- The rest of `eio_allocate_wb_resources`, with `ret` as `startLru` left it. -/
def startQueue (ret : Int) : Option (WbRes × Int) :=
  if r.mdupdateQ then none
  else
    let r := { r with mdupdateQ := env.queue }
    let ret := if env.queue then ret else -12
    if ret < 0 then
      some (((freePages { r with dirtySetLru := false }).freeBvecs g).errout, ret)
    else some (r, ret)

/-- `eio_allocate_wb_resources`; `none` if an assertion fails. -/
def allocateWbResources : Option (WbRes × Int) :=
  if r.cleanDbvecs ∨ r.cleanMdpages ∨ r.dbvecCount ≠ 0 ∨ r.mdpageCount ≠ 0 then none
  else
    let (r, ret) := r.allocBuffers g env
    if ret ≠ 0 then some (r, ret)
    else (r.startLru env).bind fun (r, ret) => r.startQueue g env ret

/-- `eio_free_wb_resources`. -/
def freeWbResources : WbRes :=
  let r := { r with mdupdateQ := false, dirtySetLru := false }
  let r := if r.cleanMdpages then { r.freePages with cleanMdpages := false } else r
  let r := if r.cleanDbvecs then { r.freeBvecs g with cleanDbvecs := false } else r
  { r with dbvecCount := 0, mdpageCount := 0 }

/-- `eio_mode_switch`. -/
def modeSwitch (mode : Nat) : Option (WbRes × Int) :=
  if r.mode = mode then none
  else if mode = cacheModeWb then
    (allocateWbResources g env { r with mode := mode }).map fun (r', error) =>
      if error ≠ 0 then ({ r' with mode := r.mode }, error) else (r', 0)
  else if r.mode = cacheModeWb then some ({ r.freeWbResources g with mode := mode }, 0)
  else if (r.mode = cacheModeRo ∧ mode = cacheModeWt) ∨
      (r.mode = cacheModeWt ∧ mode = cacheModeRo) then some ({ r with mode := mode }, 0)
  else none

end WbRes

/-! ## A switch that fails -/

/-- A cache without write-back resources. -/
structure WbRes.Empty (r : WbRes) : Prop where
  cleanDbvecs : r.cleanDbvecs = false
  cleanMdpages : r.cleanMdpages = false
  dbvecCount : r.dbvecCount = 0
  mdpageCount : r.mdpageCount = 0
  dirtySetLru : r.dirtySetLru = false
  mdupdateQ : r.mdupdateQ = false
  cleanThread : r.cleanThread = .null
  cleanThreadRunning : r.cleanThreadRunning = false

/-- One of the buffers or of their pages cannot be allocated. -/
def WbEnv.BuffersFail (env : WbEnv) (g : Geom) : Prop :=
  env.dbvecs = false ∨
    (∃ i < WbRes.nrBvecs g, bvecNeedsPage g.blockSize i = true ∧ env.bvecPage i = false) ∨
    env.mdpages = false ∨ ∃ i < WbRes.nrPages g, env.mdPage i = false

namespace WbRes

variable {g : Geom} {env : WbEnv} {r r' : WbRes} {error : Int}

/-- Without buffers. -/
structure NoBuffers (r : WbRes) : Prop where
  cleanDbvecs : r.cleanDbvecs = false
  cleanMdpages : r.cleanMdpages = false
  dbvecCount : r.dbvecCount = 0
  mdpageCount : r.mdpageCount = 0

/-- With all buffers. -/
def filled (g : Geom) (r : WbRes) : WbRes :=
  { r with
    cleanDbvecs := true
    dbvecCount := nrBvecs g
    cleanMdpages := true
    mdpageCount := nrPages g
    pages := r.pages + bvecPages g.blockSize (nrBvecs g) + nrPages g }

theorem allocBvecs_of_fail (h : ∃ i < nrBvecs g, bvecNeedsPage g.blockSize i = true ∧
    env.bvecPage i = false) : allocBvecs g env r = (r, -12) := by
  rw [allocBvecs]
  split
  · next hnone =>
    obtain ⟨i, hi, hneeds, hpage⟩ := h
    have := List.find?_eq_none.mp hnone i (List.mem_range.mpr hi)
    simp [hneeds, hpage] at this
  · rw [Nat.add_sub_cancel]

theorem allocBvecs_of_ok (h : ¬ ∃ i < nrBvecs g, bvecNeedsPage g.blockSize i = true ∧
    env.bvecPage i = false) : allocBvecs g env r =
      ({ r with pages := r.pages + bvecPages g.blockSize (nrBvecs g) }, 0) := by
  rw [allocBvecs]
  split
  · rfl
  · next i hsome =>
    have hi := List.mem_range.mp (List.mem_of_find?_eq_some hsome)
    have hfail := List.find?_some hsome
    simp only [Bool.and_eq_true, Bool.not_eq_true'] at hfail
    exact absurd ⟨i, hi, hfail⟩ h

theorem allocPages_of_fail (h : ∃ i < nrPages g, env.mdPage i = false) :
    allocPages g env r = (r, -12) := by
  rw [allocPages]
  split
  · next hnone =>
    obtain ⟨i, hi, hpage⟩ := h
    have := List.find?_eq_none.mp hnone i (List.mem_range.mpr hi)
    simp [hpage] at this
  · rw [Nat.add_sub_cancel]

theorem allocPages_of_ok (h : ¬ ∃ i < nrPages g, env.mdPage i = false) :
    allocPages g env r = ({ r with pages := r.pages + nrPages g }, 0) := by
  rw [allocPages]
  split
  · rfl
  · next i hsome =>
    have hi := List.mem_range.mp (List.mem_of_find?_eq_some hsome)
    have hfail := List.find?_some hsome
    exact absurd ⟨i, hi, by simpa using hfail⟩ h

theorem errout_eq (hr : r.NoBuffers) (dbvecCount mdpageCount pages : Nat) (cleanMdpages : Bool)
    (hcount : cleanMdpages = false → mdpageCount = 0) :
    errout { r with
      cleanDbvecs := true, dbvecCount := dbvecCount, cleanMdpages := cleanMdpages,
      mdpageCount := mdpageCount, pages := pages } = { r with pages := pages } := by
  cases r with
  | mk =>
    obtain ⟨rfl, rfl, rfl, rfl⟩ := hr
    cases cleanMdpages with
    | false =>
      obtain rfl := hcount rfl
      rfl
    | true => rfl

/-- Each way out of the first part leaves the cache as it was. -/
theorem allocBuffers_of_fail (hr : r.NoBuffers) (h : env.BuffersFail g) :
    ∃ ret, ret ≠ 0 ∧ r.allocBuffers g env = (r, ret) := by
  refine ⟨-12, by decide, ?_⟩
  rw [allocBuffers]
  by_cases hd : env.dbvecs = false
  · rw [if_pos hd]
    simp [errout, hr.cleanDbvecs, hr.cleanMdpages]
  · rw [if_neg hd]
    by_cases hp : ∃ i < nrBvecs g, bvecNeedsPage g.blockSize i = true ∧ env.bvecPage i = false
    · simp only [allocBvecs_of_fail hp]
      rw [if_pos (by decide)]
      exact congrArg (·, -12) (errout_eq hr _ _ _ _ fun _ => hr.mdpageCount)
    · simp only [allocBvecs_of_ok hp]
      rw [if_neg (by decide)]
      by_cases hm : env.mdpages = false
      · rw [if_pos hm]
        refine congrArg (·, -12) ((errout_eq hr _ _ _ _ fun _ => hr.mdpageCount).trans ?_)
        rw [Nat.add_sub_cancel]
      · rw [if_neg hm]
        have hq : ∃ i < nrPages g, env.mdPage i = false := by
          rcases h with h | h | h | h
          · exact absurd h hd
          · exact absurd h hp
          · exact absurd h hm
          · exact h
        simp only [allocPages_of_fail hq]
        rw [if_pos (by decide)]
        refine congrArg (·, -12) ((errout_eq hr _ _ _ true nofun).trans ?_)
        rw [Nat.add_sub_cancel]

theorem allocBuffers_of_ok (h : ¬ env.BuffersFail g) :
    r.allocBuffers g env = (r.filled g, 0) := by
  simp only [WbEnv.BuffersFail, not_or] at h
  obtain ⟨hd, hp, hm, hq⟩ := h
  rw [allocBuffers, if_neg hd]
  simp only [allocBvecs_of_ok hp]
  rw [if_neg (by simp), if_neg hm]
  simp only [allocPages_of_ok hq]
  rw [if_neg (by simp), filled]

/-- The way out of the second part releases the buffers. -/
theorem errout_filled (hr : r.NoBuffers) :
    ((freePages (r.filled g)).freeBvecs g).errout = r := by
  refine (errout_eq hr _ _ _ true nofun).trans ?_
  simp only [freePages, filled]
  rw [Nat.add_sub_cancel, Nat.add_sub_cancel]

/-- What is left when the second part fails: the work queue if it was made, and the thread. -/
def leftover (env : WbEnv) (r : WbRes) : WbRes :=
  { r with
    mdupdateQ := env.queue
    cleanThread := if env.lru then env.thread else .null
    cleanThreadRunning := env.lru && decide (env.thread = .task) }

/-- The end of `eio_allocate_wb_resources`: an error, be it an old one or that there is no work
queue, takes the buffers back. -/
theorem startQueue_filled {ret error : Int} (hr : r.NoBuffers)
    (hrun : startQueue g env (r.filled g) ret = some (r', error)) :
    error = (if env.queue then ret else -12) ∧
      (error < 0 → r' = { r with dirtySetLru := false, mdupdateQ := env.queue }) := by
  rw [startQueue] at hrun
  split at hrun
  · cases hrun
  · simp only at hrun
    by_cases hneg : (if env.queue then ret else -12) < 0
    · rw [if_pos hneg] at hrun
      cases hrun
      refine ⟨rfl, fun _ => ?_⟩
      exact errout_filled (r := { r with dirtySetLru := false, mdupdateQ := env.queue })
        ⟨hr.1, hr.2, hr.3, hr.4⟩
    · rw [if_neg hneg] at hrun
      cases hrun
      exact ⟨rfl, fun h => absurd h hneg⟩

/-- With the list of dirty sets and the clean thread, as far as there are. -/
def started (env : WbEnv) (r : WbRes) : WbRes :=
  { r with
    dirtySetLru := env.lru
    cleanThread := if env.lru then env.thread else .null
    cleanThreadRunning := env.lru && decide (env.thread = .task) }

/-- What `lru_init` and the start of the clean thread have returned. -/
def lruRet (env : WbEnv) : Int :=
  if env.lru then if env.thread = .null then -14 else 0 else -12

theorem startLru_filled {ret : Int} (hthread : r.cleanThread = .null)
    (hrunning : r.cleanThreadRunning = false) (hrun : startLru env (r.filled g) = some (r', ret)) :
    r' = filled g (r.started env) ∧ ret = lruRet env := by
  rw [startLru] at hrun
  split at hrun
  · next hlru =>
    rw [startCleanThread] at hrun
    split at hrun
    · cases hrun
    · cases hrun
      simp [filled, started, lruRet, hlru]
  · next hlru =>
    cases hrun
    simp [filled, started, lruRet, hlru, hthread, hrunning]

/-- The error of the second part is negative, and says what failed. -/
theorem queueRet_neg {ret : Int} (hret : ret = if env.queue then lruRet env else -12)
    (hne : ret ≠ 0) :
    ret < 0 ∧ (env.lru = false ∨ env.thread = .null ∨ env.queue = false) := by
  unfold lruRet at hret
  cases hq : env.queue with
  | false =>
    simp only [hq, Bool.false_eq_true, if_false] at hret
    exact ⟨by omega, .inr (.inr rfl)⟩
  | true =>
    simp only [hq, if_true] at hret
    cases hl : env.lru with
    | false =>
      simp only [hl, Bool.false_eq_true, if_false] at hret
      exact ⟨by omega, .inl rfl⟩
    | true =>
      simp only [hl, if_true] at hret
      by_cases hn : env.thread = .null
      · rw [if_pos hn] at hret
        exact ⟨by omega, .inr (.inl hn)⟩
      · rw [if_neg hn] at hret
        exact absurd hret hne

/-- A switch to write-back that returns an error: it has failed in the first part and all is
as it was, or in the second. -/
theorem modeSwitch_failed (hmode : r.mode ≠ cacheModeWb) (h : r.Empty)
    (hret : r.modeSwitch g env cacheModeWb = some (r', error)) (herror : error ≠ 0) :
    env.BuffersFail g ∧ r' = r ∨
      ¬ env.BuffersFail g ∧ r' = r.leftover env ∧
        (env.lru = false ∨ env.thread = .null ∨ env.queue = false) := by
  have hnone : ({ r with mode := cacheModeWb } : WbRes).NoBuffers :=
    ⟨h.cleanDbvecs, h.cleanMdpages, h.dbvecCount, h.mdpageCount⟩
  rw [modeSwitch, if_neg hmode, if_pos rfl, allocateWbResources, if_neg (by
    simp [h.cleanDbvecs, h.cleanMdpages, h.dbvecCount, h.mdpageCount])] at hret
  by_cases hfail : env.BuffersFail g
  · refine .inl ⟨hfail, ?_⟩
    obtain ⟨ret, hne, hbuf⟩ := allocBuffers_of_fail hnone hfail
    simp only [hbuf] at hret
    rw [if_pos hne, Option.map_some] at hret
    simp only [if_pos hne] at hret
    cases hret
    rfl
  · refine .inr ⟨hfail, ?_⟩
    simp only [allocBuffers_of_ok hfail] at hret
    rw [if_neg (by decide)] at hret
    obtain ⟨⟨r₁, error₁⟩, hrun, hmap⟩ := Option.map_eq_some_iff.mp hret
    obtain ⟨⟨r₂, ret⟩, hlru, hqueue⟩ := Option.bind_eq_some_iff.mp hrun
    simp only at hmap hqueue
    obtain ⟨rfl, rfl⟩ := startLru_filled (r := { r with mode := cacheModeWb })
      h.cleanThread h.cleanThreadRunning hlru
    have hne : error₁ ≠ 0 := by
      intro hzero
      rw [if_neg (not_not.mpr hzero)] at hmap
      exact herror (Prod.mk.inj hmap).2.symm
    rw [if_pos hne] at hmap
    obtain ⟨heq, hleft⟩ :=
      startQueue_filled (r := started env { r with mode := cacheModeWb })
        ⟨hnone.1, hnone.2, hnone.3, hnone.4⟩ hqueue
    obtain ⟨hneg, hcause⟩ := queueRet_neg heq hne
    refine ⟨?_, hcause⟩
    rw [← (Prod.mk.inj hmap).1, hleft hneg, leftover, ← h.dirtySetLru]
    rfl

/-- A switch to write-back that fails sets the mode back. -/
theorem modeSwitch_mode (hret : r.modeSwitch g env cacheModeWb = some (r', error))
    (herror : error ≠ 0) : r'.mode = r.mode := by
  rw [modeSwitch] at hret
  split at hret
  · cases hret
  · rw [if_pos rfl] at hret
    obtain ⟨⟨r₁, error₁⟩, -, hmap⟩ := Option.map_eq_some_iff.mp hret
    simp only at hmap
    split at hmap
    · rw [← (Prod.mk.inj hmap).1]
    · exact absurd (Prod.mk.inj hmap).2.symm herror

theorem startLru_ok (h : r.startLru env = some (r', 0)) :
    r'.mode = cacheModeWb ∧ r'.cleanThread = env.thread ∧
      r'.cleanThreadRunning = decide (env.thread = .task) := by
  rw [startLru] at h
  split at h
  · rw [startCleanThread] at h
    split at h
    · cases h
    · next hassert =>
      rw [← (Prod.mk.inj (Option.some.inj h)).1]
      simp only [not_or, not_not] at hassert
      exact ⟨hassert.2.1, rfl, rfl⟩
  · exact absurd (Prod.mk.inj (Option.some.inj h)).2 (by decide)

theorem startQueue_ok {ret : Int} (h : r.startQueue g env ret = some (r', 0)) :
    ret = 0 ∧ r' = { r with mdupdateQ := true } := by
  rw [startQueue] at h
  split at h
  · cases h
  · simp only at h
    cases hq : env.queue with
    | false =>
      simp only [hq, Bool.false_eq_true, if_false] at h
      exact absurd (Prod.mk.inj (Option.some.inj h)).2 (by decide)
    | true =>
      rw [hq, if_pos rfl] at h
      by_cases hneg : ret < 0
      · rw [if_pos hneg] at h
        have := (Prod.mk.inj (Option.some.inj h)).2
        omega
      · rw [if_neg hneg] at h
        exact ⟨(Prod.mk.inj (Option.some.inj h)).2, (Prod.mk.inj (Option.some.inj h)).1.symm⟩

/-- After a switch to write-back that returns 0 the cache has what `eio_create_thread` gave. -/
theorem modeSwitch_ok (hret : r.modeSwitch g env cacheModeWb = some (r', 0)) :
    r'.mode = cacheModeWb ∧ r'.cleanThread = env.thread ∧
      r'.cleanThreadRunning = decide (env.thread = .task) := by
  rw [modeSwitch] at hret
  split at hret
  · cases hret
  · rw [if_pos rfl] at hret
    obtain ⟨⟨r₁, error₁⟩, hrun, hmap⟩ := Option.map_eq_some_iff.mp hret
    simp only at hmap
    split at hmap
    · next hne => exact absurd (Prod.mk.inj hmap).2 hne
    · next hzero =>
      obtain rfl := (Prod.mk.inj hmap).1
      obtain rfl : error₁ = 0 := not_not.mp hzero
      rw [allocateWbResources] at hrun
      split at hrun
      · cases hrun
      · simp only at hrun
        split at hrun
        · next hne => exact absurd (Prod.mk.inj (Option.some.inj hrun)).2 hne
        · obtain ⟨⟨r₂, ret⟩, hlru, hqueue⟩ := Option.bind_eq_some_iff.mp hrun
          obtain ⟨hret, hr'⟩ := startQueue_ok hqueue
          simp only at hret hr'
          rw [hret] at hlru
          rw [hr']
          have hthread := startLru_ok hlru
          exact hthread

/-- From a cache without write-back resources no assertion of the switch fails. -/
theorem modeSwitch_isSome (hmode : r.mode ≠ cacheModeWb) (h : r.Empty)
    (hstart : r.cleanStart = false) : (r.modeSwitch g env cacheModeWb).isSome := by
  have hnone : ({ r with mode := cacheModeWb } : WbRes).NoBuffers :=
    ⟨h.cleanDbvecs, h.cleanMdpages, h.dbvecCount, h.mdpageCount⟩
  rw [modeSwitch, if_neg hmode, if_pos rfl, allocateWbResources, if_neg (by
    simp [h.cleanDbvecs, h.cleanMdpages, h.dbvecCount, h.mdpageCount]), Option.isSome_map]
  by_cases hfail : env.BuffersFail g
  · obtain ⟨ret, hne, hbuf⟩ := allocBuffers_of_fail hnone hfail
    simp only [hbuf, if_pos hne, Option.isSome_some]
  · simp only [allocBuffers_of_ok hfail]
    rw [if_neg (by decide), startLru, startCleanThread]
    cases hl : env.lru with
    | false => simp [startQueue, filled, h.mdupdateQ]
    | true =>
      simp [startQueue, filled, h.mdupdateQ, h.cleanThread, h.cleanThreadRunning, hstart,
        apply_ite Option.isSome]

/-- Nothing of a failed switch is left: the fields are as before, which is empty, no clean
thread runs, and another attempt passes all assertions. -/
structure Restored (g : Geom) (r r' : WbRes) : Prop where
  mode : r'.mode = r.mode
  empty : r'.Empty
  again : r.cleanStart = false → ∀ env, (r'.modeSwitch g env cacheModeWb).isSome

theorem empty_leftover_iff (h : r.Empty) :
    (r.leftover env).Empty ↔ env.queue = false ∧ (env.lru = false ∨ env.thread = .null) := by
  constructor
  · intro hleft
    refine ⟨hleft.mdupdateQ, ?_⟩
    have hthread : (if env.lru then env.thread else .null) = ThreadPtr.null := hleft.cleanThread
    cases hl : env.lru with
    | false => exact .inl rfl
    | true =>
      rw [hl, if_pos rfl] at hthread
      exact .inr hthread
  · rintro ⟨hq, hthread⟩
    refine ⟨h.1, h.2, h.3, h.4, h.5, hq, ?_, ?_⟩
    · show (if env.lru then env.thread else .null) = ThreadPtr.null
      rcases hthread with hl | hn
      · rw [hl, if_neg (by decide)]
      · rw [hn, ite_self]
    · show (env.lru && decide (env.thread = .task)) = false
      rcases hthread with hl | hn
      · rw [hl, Bool.false_and]
      · rw [hn, decide_eq_false (by decide), Bool.and_false]

/-- A failed switch to write-back leaves nothing exactly if a buffer failed, or the work queue
when there was no thread either: the work queue is not destroyed and the thread not stopped. -/
theorem modeSwitch_restored_iff (hmode : r.mode = cacheModeRo ∨ r.mode = cacheModeWt)
    (h : r.Empty) (hret : r.modeSwitch g env cacheModeWb = some (r', error)) (herror : error ≠ 0) :
    Restored g r r' ↔
      env.BuffersFail g ∨ env.queue = false ∧ (env.lru = false ∨ env.thread = .null) := by
  have hne : r.mode ≠ cacheModeWb := by
    rcases hmode with hmode | hmode <;> rw [hmode] <;> decide
  rcases modeSwitch_failed hne h hret herror with ⟨hfail, rfl⟩ | ⟨hok, rfl, -⟩
  · refine ⟨fun _ => .inl hfail, fun _ => ⟨rfl, h, fun hstart env => ?_⟩⟩
    exact modeSwitch_isSome hne h hstart
  · rw [or_iff_right hok, ← empty_leftover_iff h]
    refine ⟨fun hres => hres.empty, fun hempty => ⟨rfl, hempty, fun hstart env => ?_⟩⟩
    exact modeSwitch_isSome hne hempty hstart

/-- A read-only cache, for the runs below. -/
def readOnly : WbRes where
  mode := cacheModeRo
  cleanDbvecs := false
  dbvecCount := 0
  cleanMdpages := false
  mdpageCount := 0
  dirtySetLru := false
  mdupdateQ := false
  cleanThread := .null
  cleanThreadRunning := false
  cleanStart := false
  pages := 0

theorem readOnly_empty : readOnly.Empty := ⟨rfl, rfl, rfl, rfl, rfl, rfl, rfl, rfl⟩

/-- All allocations succeed but that of the segments, or that of the work queue. -/
def noSegments : WbEnv := ⟨false, fun _ => true, true, fun _ => true, true, .task, true⟩
def noQueue : WbEnv := ⟨true, fun _ => true, true, fun _ => true, true, .task, false⟩

theorem modeSwitch_restored_without_segments :
    readOnly.modeSwitch smallCache noSegments cacheModeWb = some (readOnly, -12) ∧
      Restored smallCache readOnly readOnly :=
  have hret : readOnly.modeSwitch smallCache noSegments cacheModeWb = some (readOnly, -12) := rfl
  ⟨hret, (modeSwitch_restored_iff (.inl rfl) readOnly_empty hret (by decide)).mpr (.inl (.inl rfl))⟩

/-- Without a work queue the switch returns an error and the clean thread goes on; the cache
has the mode it had. -/
theorem modeSwitch_leaves_thread :
    readOnly.Empty ∧
      readOnly.modeSwitch smallCache noQueue cacheModeWb =
        some ({ readOnly with cleanThread := .task, cleanThreadRunning := true }, -12) ∧
      ¬ Restored smallCache readOnly
        { readOnly with cleanThread := .task, cleanThreadRunning := true } := by
  refine ⟨readOnly_empty, by decide +kernel, fun hres => ?_⟩
  exact absurd hres.empty.cleanThread (by decide)

end WbRes
end EnhanceIO
