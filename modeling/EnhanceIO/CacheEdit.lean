import EnhanceIO.PolicySwitch
import EnhanceIO.WbResources

/-!
# Editing a cache

`eio_cache_edit` stops the clean thread of a write-back cache, drains its dirty blocks,
takes the lock that keeps I/O out, switches policy and mode, writes the superblock and
ends at the label `out`, where it undoes what it has set up. Each step may fail.

The steps that other modules have (`eio_policy_switch`, `eio_mode_switch`) are theirs; of
`eio_finish_nrdirty` and `eio_sb_store` any outcome is possible. `Devices` has an edit as
critical sections among what else happens to the cache; the edit here is a run of those.
-/

namespace EnhanceIO

open Devices (cacheModeWb cacheModeRo cacheModeWt)

/-- What an edit works on. -/
structure EditCache where
  res : WbRes
  pol : PolicyData
  failed : Bool
  degraded : Bool
  /-- `CACHE_FLAGS_SHUTDOWN_INPROG`, `CACHE_FLAGS_MOD_INPROG`, `CACHE_FLAGS_FAST_REMOVE` -/
  shutdownInprog : Bool
  modInprog : Bool
  flagFastRemove : Bool
  /-- the values of `sysctl_active` -/
  fastRemove : Bool
  cleanKeep : Bool
  timeBasedCleanInterval : Nat
  nrDirty : Nat
  /-- the delayed clean of the sets that have been dirty for long -/
  agedSetsWork : Bool
  /-- the edit holds `eio_ttc_lock` of the device -/
  ttcLock : Bool

/-- The outcome of each step, and whether the cache is found failed where the edit looks
again. -/
structure EditEnv where
  found : Bool
  failStop : Bool
  failDrain : Bool
  drain : Int
  dirtyLeft : Nat
  pol : PolicyEnv
  wb : WbEnv
  store : Int
  restart : ThreadPtr

namespace EditCache

variable (g : Geom) (env : EditEnv) (mode policy : Nat)

/-- `eio_stop_async_tasks`. -/
def stopAsyncTasks (s : EditCache) : EditCache :=
  { s with
    res := if s.res.cleanThread ≠ .null then
      { s.res with cleanThread := .null, cleanThreadRunning := false } else s.res
    fastRemove := s.flagFastRemove
    timeBasedCleanInterval :=
      if s.res.mode = cacheModeWb then 0 else s.timeBasedCleanInterval
    agedSetsWork := if s.res.mode = cacheModeWb then false else s.agedSetsWork }

/-- The label `out`, with the local variables of the edit. -/
def editOut (oldTimeThresh : Nat) (restartAsyncTask : Bool) (error : Int) (s : EditCache) :
    Option (EditCache × Int) :=
  let s := { s with
    timeBasedCleanInterval := oldTimeThresh
    res := { s.res with cleanStart := false }
    cleanKeep := false }
  if s.res.mode = cacheModeWb ∧ restartAsyncTask then
    if s.res.cleanThread ≠ .null then none
    else (s.res.startCleanThread env.restart).map fun (res, ret) =>
      ({ s with
          res := res
          agedSetsWork := s.agedSetsWork || s.timeBasedCleanInterval ≠ 0 && s.nrDirty ≠ 0
          modInprog := false },
        if ret ≠ 0 then ret else error)
  else some ({ s with modInprog := false }, error)

/-- The superblock is written; on an error the edit goes to `out` with the lock held. -/
def editStore (old : Nat) (restart : Bool) (s : EditCache) : Option (EditCache × Int) :=
  let s := { s with timeBasedCleanInterval := old }
  if env.store ≠ 0 then editOut env old restart env.store s
  else editOut env old restart 0 { s with ttcLock := false }

/-- The mode change. -/
def editMode (old : Nat) (restart : Bool) (s : EditCache) : Option (EditCache × Int) :=
  if mode ≠ 0 ∧ mode ≠ s.res.mode then
    (s.res.modeSwitch g env.wb mode).bind fun (res, error) =>
      if error ≠ 0 then editOut env old restart error { s with res := res, ttcLock := false }
      else editStore env old restart { s with res := res }
  else editStore env old restart s

/-- The policy change, after the lock is taken and the I/O has drained. -/
def editPolicy (old : Nat) (restart : Bool) (s : EditCache) : Option (EditCache × Int) :=
  let s := { s with ttcLock := true }
  if policy ≠ 0 ∧ policy ≠ s.pol.reqPolicy then
    (s.pol.policySwitch g env.pol policy).bind fun (pol, error) =>
      if error ≠ 0 then editOut env old restart error { s with pol := pol, ttcLock := false }
      else editMode g env mode old restart { s with pol := pol }
  else editMode g env mode old restart s

/-- The dirty blocks of a cache that is to be a write-back cache no more. `eio_finish_nrdirty`
sets `EIO_CLEAN_KEEP` and leaves `EIO_CLEAN_START` clear. -/
def editDrain (old : Nat) (restart : Bool) (s : EditCache) : Option (EditCache × Int) :=
  if s.res.mode = cacheModeWb ∧ mode ≠ cacheModeWb then
    let s := { s with failed := s.failed || env.failDrain }
    if s.failed then editOut env old restart (-22) s
    else if s.res.cleanStart then none
    else
      let s := { s with cleanKeep := true, nrDirty := env.dirtyLeft }
      if env.drain ≠ 0 then editOut env old restart env.drain s
      else if ¬ s.fastRemove ∧ s.nrDirty ≠ 0 then none
      else editPolicy g env mode policy old restart s
  else editPolicy g env mode policy old restart s

/-- The edit from where it has set `CACHE_FLAGS_MOD_INPROG`. -/
def editStop (s : EditCache) : Option (EditCache × Int) :=
  let old := s.timeBasedCleanInterval
  if s.res.mode = cacheModeWb then
    let s := { s with failed := s.failed || env.failStop }
    if s.failed then editOut env old false (-22) s
    else editDrain g env mode policy old true s.stopAsyncTasks
  else editDrain g env mode policy old false s

/-- `eio_cache_edit`; `none` if an assertion fails. -/
def cacheEdit (s : EditCache) : Option (EditCache × Int) :=
  if mode = 0 ∧ policy = 0 then none
  else if env.found = false then some (s, -22)
  else if s.res.mode = mode ∧ s.pol.reqPolicy = policy then some (s, 0)
  else if s.failed ∨ s.degraded then some (s, -22)
  else if s.shutdownInprog then some (s, -22)
  else if s.modInprog then some (s, -22)
  else editStop g env mode policy { s with modInprog := true }

end EditCache

/-! ## What an edit leaves -/

/-- The clean thread is there and runs. -/
def WbRes.HasThread (r : WbRes) : Prop := r.cleanThread = .task ∧ r.cleanThreadRunning = true

namespace EditCache

variable {g : Geom} {env : EditEnv} {mode policy old : Nat} {restart : Bool}
  {s s₀ s₁ s' : EditCache} {error : Int}

/-- What the label `out` leaves of a state. -/
structure Out (env : EditEnv) (old : Nat) (restart : Bool) (s s' : EditCache) : Prop where
  ttcLock : s'.ttcLock = s.ttcLock
  modInprog : s'.modInprog = false
  cleanStart : s'.res.cleanStart = false
  cleanKeep : s'.cleanKeep = false
  interval : s'.timeBasedCleanInterval = old
  mode : s'.res.mode = s.res.mode
  restarted : s.res.mode = cacheModeWb → restart = true →
    (s'.res.HasThread ↔ env.restart = .task)
  kept : restart = false → (s'.res.HasThread ↔ s.res.HasThread)

theorem editOut_out {error₀ : Int} (h : editOut env old restart error₀ s = some (s', error)) :
    Out env old restart s s' := by
  simp only [editOut] at h
  split at h
  · next hwb =>
    split at h
    · cases h
    · obtain ⟨⟨res, ret⟩, hstart, hmap⟩ := Option.map_eq_some_iff.mp h
      rw [WbRes.startCleanThread] at hstart
      split at hstart
      · cases hstart
      · cases hstart
        cases hmap
        refine ⟨rfl, rfl, rfl, rfl, rfl, rfl, fun _ _ => ?_, fun hno => ?_⟩
        · simp [WbRes.HasThread]
        · rw [hno] at hwb
          exact absurd hwb.2 (by decide)
  · next hno =>
    cases h
    refine ⟨rfl, rfl, rfl, rfl, rfl, rfl, fun hwb hre => ?_, fun _ => Iff.rfl⟩
    exact absurd ⟨hwb, hre⟩ hno

/-- The switch to write-back, if it is asked for, returns 0. -/
def ModeOk (g : Geom) (env : EditEnv) (mode : Nat) (r : WbRes) : Prop :=
  r.mode ≠ cacheModeWb → mode = cacheModeWb → ∃ r', r.modeSwitch g env.wb mode = some (r', 0)

/-- The policy switch, if it is asked for, returns 0. -/
def PolicyOk (g : Geom) (env : EditEnv) (policy : Nat) (d : PolicyData) : Prop :=
  policy ≠ 0 → policy ≠ d.reqPolicy → ∃ d', d.policySwitch g env.pol policy = some (d', 0)

/-- The state with which an edit of a cache of mode `mode₀` arrives at `out`; `ok` says that
all steps before the superblock return 0. -/
structure Ends (env : EditEnv) (mode : Nat) (ok : Prop) (mode₀ : Nat) (s₁ : EditCache) :
    Prop where
  lock : s₁.ttcLock = true ↔ ok ∧ env.store ≠ 0
  thread : mode₀ ≠ cacheModeWb →
    (s₁.res.mode = cacheModeWb ∧ ¬ s₁.res.HasThread ↔
      ok ∧ mode = cacheModeWb ∧ env.wb.thread ≠ .task)

theorem Ends.congr {ok ok' : Prop} {mode₀ : Nat} (h : Ends env mode ok mode₀ s₁)
    (hiff : ok ↔ ok') : Ends env mode ok' mode₀ s₁ := propext hiff ▸ h

theorem Ends.and {ok p : Prop} {mode₀ : Nat} (h : Ends env mode ok mode₀ s₁) (hp : p) :
    Ends env mode (p ∧ ok) mode₀ s₁ := h.congr (and_iff_right hp).symm

/-- An edit that goes to `out` early, without the lock and in the mode it started in. -/
theorem Ends.early {ok : Prop} {mode₀ : Nat} (hlock : s₁.ttcLock = false)
    (hmode : s₁.res.mode = mode₀) (hok : ¬ ok) : Ends env mode ok mode₀ s₁ := by
  refine ⟨?_, fun hne => ?_⟩
  · rw [hlock]
    exact iff_of_false nofun fun h => hok h.1
  · rw [hmode]
    exact iff_of_false (fun h => hne h.1) fun h => hok h.1

theorem editStore_out (hlock : s.ttcLock = true)
    (h : editStore env old restart s = some (s', error)) :
    ∃ s₁ error₁, editOut env old restart error₁ s₁ = some (s', error) ∧
      (s₁.ttcLock = true ↔ env.store ≠ 0) ∧ s₁.res = s.res := by
  simp only [editStore] at h
  split at h
  · next hstore => exact ⟨_, _, h, ⟨fun _ => hstore, fun _ => hlock⟩, rfl⟩
  · next hstore => exact ⟨_, _, h, ⟨nofun, fun hne => absurd hne hstore⟩, rfl⟩

/-- A switch from write-back does not fail, nor does one between the other two modes. -/
theorem modeSwitch_other {r r' : WbRes} {e : WbEnv} (hmode : mode ≠ cacheModeWb)
    (h : r.modeSwitch g e mode = some (r', error)) : error = 0 ∧ r'.mode = mode := by
  rw [WbRes.modeSwitch] at h
  split at h
  · cases h
  · split at h
    · cases h
      exact ⟨rfl, rfl⟩
    · split at h
      · cases h
        exact ⟨rfl, rfl⟩
      · cases h

theorem editMode_out (hlock : s.ttcLock = true)
    (h : editMode g env mode old restart s = some (s', error)) :
    ∃ s₁ error₁, editOut env old restart error₁ s₁ = some (s', error) ∧
      Ends env mode (ModeOk g env mode s.res) s.res.mode s₁ := by
  rw [editMode] at h
  split at h
  · next hswitch =>
    obtain ⟨⟨res, err⟩, hmode, hrest⟩ := Option.bind_eq_some_iff.mp h
    simp only at hrest
    split at hrest
    · next herr =>
      -- only a switch to write-back fails
      obtain rfl : mode = cacheModeWb := by
        by_contra hne
        exact herr (modeSwitch_other hne hmode).1
      refine ⟨_, _, hrest, .early rfl (WbRes.modeSwitch_mode hmode herr) fun hok => ?_⟩
      obtain ⟨r', hr'⟩ := hok hswitch.2.symm rfl
      exact herr (Prod.mk.inj (Option.some.inj (hmode.symm.trans hr'))).2
    · next hzero =>
      obtain rfl : err = 0 := not_not.mp hzero
      have hok : ModeOk g env mode s.res := fun _ _ => ⟨res, hmode⟩
      obtain ⟨s₁, error₁, hout, hlock₁, hres⟩ := editStore_out (s := { s with res := res })
        hlock hrest
      refine ⟨s₁, error₁, hout, hlock₁.trans (and_iff_right hok).symm, fun hne => ?_⟩
      rw [hres]
      by_cases hwb : mode = cacheModeWb
      · subst hwb
        obtain ⟨hm, hthread, hrunning⟩ := WbRes.modeSwitch_ok hmode
        simp [hm, hok, WbRes.HasThread, hthread, hrunning]
      · have hm : res.mode = mode := (modeSwitch_other hwb hmode).2
        simp [hm, hwb]
  · next hsame =>
    -- write-back was not asked for, or is the mode already
    have hno : s.res.mode ≠ cacheModeWb → mode ≠ cacheModeWb := by
      rintro hne rfl
      exact hsame ⟨by decide, hne.symm⟩
    have hok : ModeOk g env mode s.res := fun hne hwb => absurd hwb (hno hne)
    obtain ⟨s₁, error₁, hout, hlock₁, hres⟩ := editStore_out hlock h
    refine ⟨s₁, error₁, hout, hlock₁.trans (and_iff_right hok).symm, fun hne => ?_⟩
    rw [hres]
    exact iff_of_false (fun hthread => hne hthread.1) fun hlost => hno hne hlost.2.1

theorem editPolicy_out (h : editPolicy g env mode policy old restart s = some (s', error)) :
    ∃ s₁ error₁, editOut env old restart error₁ s₁ = some (s', error) ∧
      Ends env mode (PolicyOk g env policy s.pol ∧ ModeOk g env mode s.res) s.res.mode s₁ := by
  simp only [editPolicy] at h
  split at h
  · next hswitch =>
    obtain ⟨⟨pol, err⟩, hpol, hrest⟩ := Option.bind_eq_some_iff.mp h
    simp only at hrest
    split at hrest
    · next herr =>
      refine ⟨_, _, hrest, .early rfl rfl fun hok => ?_⟩
      obtain ⟨d', hd'⟩ := hok.1 hswitch.1 hswitch.2
      exact herr (Prod.mk.inj (Option.some.inj (hpol.symm.trans hd'))).2
    · next hzero =>
      obtain rfl : err = 0 := not_not.mp hzero
      obtain ⟨s₁, error₁, hout, hends⟩ :=
        editMode_out (s := { s with ttcLock := true, pol := pol }) rfl hrest
      exact ⟨s₁, error₁, hout, hends.and fun _ _ => ⟨pol, hpol⟩⟩
  · next hsame =>
    obtain ⟨s₁, error₁, hout, hends⟩ :=
      editMode_out (s := { s with ttcLock := true }) rfl h
    exact ⟨s₁, error₁, hout, hends.and fun h₁ h₂ => absurd ⟨h₁, h₂⟩ hsame⟩

/-- The dirty blocks, if they have to be, are drained. -/
def DrainOk (env : EditEnv) (mode mode₀ : Nat) : Prop :=
  mode₀ = cacheModeWb → mode ≠ cacheModeWb → env.failDrain = false ∧ env.drain = 0

theorem editDrain_out (hlock : s.ttcLock = false) (hfailed : s.failed = false)
    (h : editDrain g env mode policy old restart s = some (s', error)) :
    ∃ s₁ error₁, editOut env old restart error₁ s₁ = some (s', error) ∧
      Ends env mode (DrainOk env mode s.res.mode ∧ PolicyOk g env policy s.pol ∧
        ModeOk g env mode s.res) s.res.mode s₁ := by
  simp only [editDrain] at h
  split at h
  · next hleave =>
    split at h
    · next hfail =>
      refine ⟨_, _, h, .early hlock rfl fun hok => ?_⟩
      rw [hfailed, (hok.1 hleave.1 hleave.2).1] at hfail
      exact absurd hfail (by decide)
    · next hfail =>
      split at h
      · cases h
      · split at h
        · next herr =>
          exact ⟨_, _, h, .early hlock rfl fun hok => herr (hok.1 hleave.1 hleave.2).2⟩
        · next hzero =>
          split at h
          · cases h
          · obtain ⟨s₁, error₁, hout, hends⟩ := editPolicy_out h
            refine ⟨s₁, error₁, hout, hends.and fun _ _ => ⟨?_, not_not.mp hzero⟩⟩
            simpa [hfailed] using hfail
  · next hstay =>
    obtain ⟨s₁, error₁, hout, hends⟩ := editPolicy_out h
    exact ⟨s₁, error₁, hout, hends.and fun h₁ h₂ => absurd ⟨h₁, h₂⟩ hstay⟩

theorem stopAsyncTasks_mode (s : EditCache) : s.stopAsyncTasks.res.mode = s.res.mode := by
  simp only [stopAsyncTasks]
  split <;> rfl

/-- All steps of the edit up to the superblock return 0. -/
structure StepsOk (g : Geom) (env : EditEnv) (mode policy : Nat) (s : EditCache) : Prop where
  stop : s.res.mode = cacheModeWb → env.failStop = false
  drain : DrainOk env mode s.res.mode
  policy : PolicyOk g env policy s.pol
  mode : ModeOk g env mode s.res

/-- Where an edit arrives at `out`: it restarts the thread of a write-back cache just if it has
stopped it. -/
theorem editStop_out (hlock : s.ttcLock = false) (hfailed : s.failed = false)
    (h : editStop g env mode policy s = some (s', error)) :
    ∃ s₁ error₁, editOut env s.timeBasedCleanInterval
        (s.res.mode = cacheModeWb ∧ env.failStop = false) error₁ s₁ = some (s', error) ∧
      Ends env mode (StepsOk g env mode policy s) s.res.mode s₁ ∧
      (s.res.mode = cacheModeWb → env.failStop = true → s₁.res = s.res) := by
  simp only [editStop] at h
  split at h
  · next hwb =>
    split at h
    · next hfail =>
      have hstop : env.failStop = true := by simpa [hfailed] using hfail
      have hrestart : decide (s.res.mode = cacheModeWb ∧ env.failStop = false) = false := by
        simp [hstop]
      rw [← hrestart] at h
      refine ⟨_, _, h, .early hlock rfl fun hok => ?_, fun _ _ => rfl⟩
      rw [hok.stop hwb] at hstop
      cases hstop
    · next hfail =>
      have hstop : env.failStop = false := by simpa [hfailed] using hfail
      obtain ⟨s₁, error₁, hout, hends⟩ := editDrain_out
        (s := stopAsyncTasks { s with failed := s.failed || env.failStop })
        hlock (Bool.not_eq_true _ ▸ hfail) h
      rw [stopAsyncTasks_mode] at hends
      refine ⟨s₁, error₁, by simpa [hwb, hstop] using hout, hends.congr ?_, ?_⟩
      · -- a cache that is a write-back cache already has no switch to it
        have hmode : ∀ r : WbRes, r.mode = cacheModeWb → ModeOk g env mode r :=
          fun r hr hne => absurd hr hne
        exact ⟨fun h => ⟨fun _ => hstop, h.1, h.2.1, hmode _ hwb⟩,
          fun h => ⟨h.2, h.3, hmode _ ((stopAsyncTasks_mode _).trans hwb)⟩⟩
      · rw [hstop]
        nofun
  · next hwb =>
    obtain ⟨s₁, error₁, hout, hends⟩ := editDrain_out hlock hfailed h
    refine ⟨s₁, error₁, by simpa [hwb] using hout, hends.congr ?_, fun h => absurd h hwb⟩
    exact ⟨fun h => ⟨fun heq => absurd heq hwb, h.1, h.2.1, h.2.2⟩, fun h => ⟨h.2, h.3, h.4⟩⟩

/-- The edit gets past its first checks, and sets `CACHE_FLAGS_MOD_INPROG`. -/
structure Checked (env : EditEnv) (mode policy : Nat) (s : EditCache) : Prop where
  found : env.found = true
  changes : ¬ (s.res.mode = mode ∧ s.pol.reqPolicy = policy)
  failed : s.failed = false
  degraded : s.degraded = false
  shutdownInprog : s.shutdownInprog = false
  modInprog : s.modInprog = false

/-- What an edit is to leave. A write-back cache that had its clean thread has it, unless it
could not be started again. -/
structure EditDone (env : EditEnv) (mode policy : Nat) (s s' : EditCache) : Prop where
  ttcLock : s'.ttcLock = false
  modInprog : Checked env mode policy s → s'.modInprog = false
  cleanStart : Checked env mode policy s → s'.res.cleanStart = false
  cleanKeep : Checked env mode policy s → s'.cleanKeep = false
  interval : s'.timeBasedCleanInterval = s.timeBasedCleanInterval
  thread : (s.res.mode = cacheModeWb → s.res.HasThread) → s'.res.mode = cacheModeWb →
    s'.res.HasThread ∨
      s.res.mode = cacheModeWb ∧ env.failStop = false ∧ env.restart ≠ .task

/-- An edit that does not get past its first checks changes nothing. -/
theorem cacheEdit_cases (h : s.cacheEdit g env mode policy = some (s', error)) :
    ¬ Checked env mode policy s ∧ s' = s ∨
      Checked env mode policy s ∧
        editStop g env mode policy { s with modInprog := true } = some (s', error) := by
  rw [cacheEdit] at h
  split at h
  · cases h
  · split at h
    · next hfound =>
      cases h
      exact .inl ⟨fun hc => by simp [hc.found] at hfound, rfl⟩
    · next hfound =>
      split at h
      · next hsame =>
        cases h
        exact .inl ⟨fun hc => hc.changes hsame, rfl⟩
      · next hchanges =>
        split at h
        · next hfail =>
          cases h
          exact .inl ⟨fun hc => by simp [hc.failed, hc.degraded] at hfail, rfl⟩
        · next hfail =>
          split at h
          · next hdown =>
            cases h
            exact .inl ⟨fun hc => by simp [hc.shutdownInprog] at hdown, rfl⟩
          · next hdown =>
            split at h
            · next hmod =>
              cases h
              exact .inl ⟨fun hc => by simp [hc.modInprog] at hmod, rfl⟩
            · next hmod =>
              simp only [not_or, Bool.not_eq_true] at hfound hfail hdown hmod
              refine .inr ⟨⟨?_, hchanges, hfail.1, hfail.2, hdown, hmod⟩, h⟩
              exact Bool.eq_true_of_not_eq_false hfound

/-- An edit that returns has undone all it is to undo, unless the superblock could not be
written, when it keeps the lock, or the clean thread of a new write-back cache could not be
created, which nobody notices. -/
theorem cacheEdit_done_iff (hlock : s.ttcLock = false)
    (h : s.cacheEdit g env mode policy = some (s', error)) :
    EditDone env mode policy s s' ↔
      ¬ (Checked env mode policy s ∧ StepsOk g env mode policy s ∧
        (env.store ≠ 0 ∨
          s.res.mode ≠ cacheModeWb ∧ mode = cacheModeWb ∧ env.wb.thread ≠ .task)) := by
  rcases cacheEdit_cases h with ⟨hno, rfl⟩ | ⟨hchecked, hrun⟩
  · refine iff_of_true ⟨hlock, fun hc => absurd hc hno, fun hc => absurd hc hno,
      fun hc => absurd hc hno, rfl, fun hhas hwb => .inl (hhas hwb)⟩ fun hbad => hno hbad.1
  · obtain ⟨s₁, error₁, hout, hends, hkept⟩ :=
      editStop_out (s := { s with modInprog := true }) hlock hchecked.failed hrun
    have hleft := editOut_out hout
    replace hends : Ends env mode (StepsOk g env mode policy s) s.res.mode s₁ :=
      hends.congr ⟨fun h => ⟨h.1, h.2, h.3, h.4⟩, fun h => ⟨h.1, h.2, h.3, h.4⟩⟩
    constructor
    · rintro hdone ⟨-, hok, hstore | ⟨hne, hmode, hthread⟩⟩
      · have hheld : s₁.ttcLock = true := hends.lock.mpr ⟨hok, hstore⟩
        rw [← hleft.ttcLock, hdone.ttcLock] at hheld
        cases hheld
      · obtain ⟨hwb, hlost⟩ := (hends.thread hne).mpr ⟨hok, hmode, hthread⟩
        have hsame : s'.res.HasThread ↔ s₁.res.HasThread := hleft.kept (by simp [hne])
        rcases hdone.thread (fun heq => absurd heq hne) (hleft.mode.trans hwb) with hhas | hre
        · exact hlost (hsame.mp hhas)
        · exact hne hre.1
    · intro hgood
      refine ⟨?_, fun _ => hleft.modInprog, fun _ => hleft.cleanStart, fun _ => hleft.cleanKeep,
        hleft.interval, fun hhas hwb => ?_⟩
      · rw [hleft.ttcLock, ← Bool.not_eq_true, hends.lock]
        exact fun hheld => hgood ⟨hchecked, hheld.1, .inl hheld.2⟩
      · rw [hleft.mode] at hwb
        by_cases hwas : s.res.mode = cacheModeWb
        · cases hstop : env.failStop with
          | true =>
            have hres : s₁.res = s.res := hkept hwas hstop
            refine .inl ((hleft.kept (by simp [hstop])).mpr ?_)
            rw [hres]
            exact hhas hwas
          | false =>
            have hre := hleft.restarted hwb (by simp [hwas, hstop])
            by_cases htask : env.restart = .task
            · exact .inl (hre.mpr htask)
            · exact .inr ⟨hwas, rfl, htask⟩
        · refine .inl ((hleft.kept (by simp [hwas])).mpr ?_)
          by_contra hlost
          have hbad := (hends.thread hwas).mp ⟨hwb, hlost⟩
          exact hgood ⟨hchecked, hbad.1, .inr ⟨hwas, hbad.2⟩⟩

/-- A read-only cache, and an edit of it in which the store of the superblock returns
`store`. -/
def readOnly : EditCache where
  res := .readOnly
  pol := .randData
  failed := false
  degraded := false
  shutdownInprog := false
  modInprog := false
  flagFastRemove := false
  fastRemove := false
  cleanKeep := false
  timeBasedCleanInterval := 15
  nrDirty := 0
  agedSetsWork := false
  ttcLock := false

def storing (store : Int) : EditEnv where
  found := true
  failStop := false
  failDrain := false
  drain := 0
  dirtyLeft := 0
  pol := PolicyData.noSetMemory
  wb := WbRes.noQueue
  store := store
  restart := .task

/-- The edit of that cache to write-through returns what the store returns; the lock is
released if that is 0. -/
theorem cacheEdit_readOnly (store : Int) :
    readOnly.cacheEdit smallCache (storing store) cacheModeWt 0 =
      some ({ readOnly with
        res := { WbRes.readOnly with mode := cacheModeWt }, ttcLock := decide (store ≠ 0) },
        store) := by
  show editStore (storing store) 15 false { readOnly with
    modInprog := true, ttcLock := true, res := { WbRes.readOnly with mode := cacheModeWt } } = _
  by_cases hstore : store = 0
  · subst hstore
    rfl
  · have hdec : decide (store ≠ 0) = true := decide_eq_true hstore
    rw [hdec]
    exact if_pos hstore

theorem cacheEdit_releases : ∃ s',
    readOnly.cacheEdit smallCache (storing 0) cacheModeWt 0 = some (s', 0) ∧
      EditDone (storing 0) cacheModeWt 0 readOnly s' := by
  refine ⟨_, cacheEdit_readOnly 0, ?_⟩
  refine (cacheEdit_done_iff rfl (cacheEdit_readOnly 0)).mpr fun hbad => ?_
  rcases hbad.2.2 with hstore | hwb
  · exact hstore rfl
  · exact absurd hwb.2.1 (by decide)

/-- After a failed write of the superblock the edit returns with the lock held. -/
theorem cacheEdit_keeps_lock : readOnly.ttcLock = false ∧
    ∃ s', readOnly.cacheEdit smallCache (storing (-5)) cacheModeWt 0 = some (s', -5) ∧
      s'.ttcLock = true ∧ ¬ EditDone (storing (-5)) cacheModeWt 0 readOnly s' := by
  refine ⟨rfl, _, cacheEdit_readOnly (-5), rfl, fun hdone => ?_⟩
  exact absurd hdone.ttcLock (by decide)

/-! ## An edit among the other events -/

open Devices in
/-- The cache as `Devices` has it, with the edit at `pc`; `d` is what the edit does not
work on. -/
def dmc (s : EditCache) (d : Dmc) (pc : Devices.EditPc) : Dmc :=
  { d with
    mode := s.res.mode, failed := s.failed, degraded := s.degraded
    shutdownInprog := s.shutdownInprog, modInprog := s.modInprog
    reqPolicy := s.pol.reqPolicy, ttcLock := s.ttcLock, edit := pc, returned := none }

open Devices in
/-- A run of `Devices` from `d` on ends when the edit returns and has left `s'`. -/
def Returns (e : Edit) (error : Int) (s' : EditCache) (d : Dmc) : Prop :=
  ∃ d' pc, Run.Reach Dmc.step (fun _ _ => True) d
    { s'.dmc d' pc with returned := some (e, decide (error = 0)) }

/-- No device of the cache is missing. -/
def Up (s : EditCache) : Prop := s.failed = false ∧ s.degraded = false

section
open Devices

variable {e : Edit} {d d₁ : Dmc} {pc : Devices.EditPc} (hbug : d.bug = none)
include hbug

theorem Returns.step (a : DevAct) (hs : (s.dmc d pc).act a = some d₁)
    (h : Returns e error s' d₁) : Returns e error s' (s.dmc d pc) := by
  obtain ⟨d', pc', hrun⟩ := h
  exact ⟨d', pc', (Run.Reach.init.step a trivial ((if_pos hbug).trans hs)).trans hrun⟩

theorem Returns.last (a : DevAct) (d' : Dmc) (pc' : Devices.EditPc) (hs : (s.dmc d pc).act a =
      some { s'.dmc d' pc' with returned := some (e, decide (error = 0)) }) :
    Returns e error s' (s.dmc d pc) :=
  .step hbug a hs ⟨d', pc', .init⟩

/-- The source device goes. -/
theorem Returns.removed (hmode : s.res.mode = cacheModeWb) (hdegraded : s.degraded = false)
    (h : Returns e error s' ({ s with failed := true }.dmc { d with noSourceDev := true } pc)) :
    Returns e error s' (s.dmc d pc) :=
  .step hbug .srcRemoved (by simp [Dmc.act, Dmc.srcRemoved, dmc, hmode, hdegraded]) h

variable (hargs : d.args = ⟨mode, policy⟩)
include hargs

theorem editOut_returns {error₀ : Int} (h : editOut env old restart error₀ s = some (s', error)) :
    Returns ⟨mode, policy⟩ error s' (s.dmc d (.out (error₀ = 0))) := by
  simp only [editOut] at h
  split at h
  · split at h
    · cases h
    obtain ⟨⟨res, ret⟩, hstart, hmap⟩ := Option.map_eq_some_iff.mp h
    rw [WbRes.startCleanThread] at hstart
    split at hstart <;> cases hstart
    cases hmap
    refine .last hbug (.editEnd (env.restart ≠ .null)) d .idle ?_
    cases env.restart <;> simp [Dmc.act, Dmc.editEnd, dmc, hargs]
  · cases h
    exact .last hbug (.editEnd true) d .idle (by simp [Dmc.act, Dmc.editEnd, dmc, hargs])

theorem editStore_returns (h : editStore env old restart s = some (s', error))
    (hlock : s.ttcLock = true) (hup : s.Up) :
    Returns ⟨mode, policy⟩ error s' (s.dmc d .switched) := by
  simp only [editStore] at h
  split at h
  · next hstore =>
    refine .step hbug (.editStore false) ?_ (editOut_returns hbug hargs h)
    simp [Dmc.act, dmc, hlock, hstore]
  · refine .step hbug (.editStore true) ?_ (editOut_returns hbug hargs h)
    simp [Dmc.act, dmc, Dmc.Storable, hup.1, hup.2]

theorem editMode_returns (h : editMode g env mode old restart s = some (s', error))
    (hlock : s.ttcLock = true) (hup : s.Up) :
    Returns ⟨mode, policy⟩ error s' (s.dmc d .policySet) := by
  simp only [editMode] at h
  split at h
  · next hswitch =>
    obtain ⟨⟨res, err⟩, hmode, hrest⟩ := Option.bind_eq_some_iff.mp h
    by_cases hwb : mode = cacheModeWb
    · -- the mode is set before the resources are allocated
      subst hwb
      suffices hmid : Returns ⟨cacheModeWb, policy⟩ error s'
          ({ s with res := { s.res with mode := cacheModeWb } }.dmc d (.allocating s.res.mode)) by
        refine .step hbug .editMode ?_ hmid
        simp [Dmc.act, dmc, Dmc.editMode, Dmc.eioModeSwitch, hargs, hswitch]
      simp only at hrest
      split at hrest
      · next herr =>
        refine .step hbug (.editAlloc false) ?_ (editOut_returns hbug hargs hrest)
        simp [Dmc.act, dmc, Dmc.editAlloc, herr, WbRes.modeSwitch_mode hmode herr]
      · next hzero =>
        obtain rfl : err = 0 := not_not.mp hzero
        refine .step hbug (.editAlloc true) ?_ (editStore_returns hbug hargs hrest hlock hup)
        simp [Dmc.act, dmc, Dmc.editAlloc, (WbRes.modeSwitch_ok hmode).1]
    · obtain ⟨rfl, hres⟩ := modeSwitch_other hwb hmode
      refine .step hbug .editMode ?_ (editStore_returns hbug hargs hrest hlock hup)
      rw [WbRes.modeSwitch, if_neg hswitch.2.symm, if_neg hwb] at hmode
      split_ifs at hmode <;> cases hmode <;>
        simp [Dmc.act, dmc, Dmc.editMode, Dmc.eioModeSwitch, *]
  · next hsame =>
    refine .step hbug .editMode ?_ (editStore_returns hbug hargs h hlock hup)
    simp [Dmc.act, dmc, Dmc.editMode, hargs, hsame]

theorem editPolicy_returns (h : editPolicy g env mode policy old restart s = some (s', error))
    (hpol : s.pol.Running) (hlock : s.ttcLock = false) (hup : s.Up) :
    Returns ⟨mode, policy⟩ error s' (s.dmc d .drained) := by
  suffices hmid : Returns ⟨mode, policy⟩ error s' ({ s with ttcLock := true }.dmc d .blocked) from
    .step hbug .editBlock (by simp [Dmc.act, dmc, hlock]) hmid
  simp only [editPolicy] at h
  split at h
  · next hswitch =>
    obtain ⟨⟨pol, err⟩, hret, hrest⟩ := Option.bind_eq_some_iff.mp h
    rcases PolicyData.policySwitch_cases hpol hret with ⟨herr, hempty⟩ | ⟨rfl, hnew⟩
    · rw [if_pos herr] at hrest
      refine .step hbug (.editPolicy false false) ?_ (editOut_returns hbug hargs hrest)
      simp [Dmc.act, dmc, Dmc.editPolicy, Dmc.eioPolicySwitch, Dmc.eioPolicyInit, hargs, hswitch,
        herr, hempty.reqPolicy, hpol.req]
    · rw [if_neg (not_not.mpr rfl)] at hrest
      refine .step hbug (.editPolicy true true) ?_ (editMode_returns
        (d := { d with policyOps := some s.pol.reqPolicy }) hbug hargs hrest rfl hup)
      simp [Dmc.act, dmc, Dmc.editPolicy, Dmc.eioPolicySwitch, Dmc.eioPolicyInit, hargs, hswitch,
        hnew, hpol.req]
  · next hsame =>
    refine .step hbug (.editPolicy false false) ?_ (editMode_returns hbug hargs h rfl hup)
    simp [Dmc.act, dmc, Dmc.editPolicy, hargs, hsame]

theorem editDrain_returns (h : editDrain g env mode policy old restart s = some (s', error))
    (hpol : s.pol.Running) (hlock : s.ttcLock = false) (hup : s.Up) :
    Returns ⟨mode, policy⟩ error s' (s.dmc d .stopped) := by
  simp only [editDrain] at h
  split at h
  · next hleave =>
    cases hfail : env.failDrain
    · simp only [hup.1, hfail, Bool.or_false, Bool.false_eq_true, if_false] at h
      split at h
      · cases h
      split at h
      · next herr =>
        refine .step hbug (.editDrain true) ?_ (editOut_returns hbug hargs h)
        simp [Dmc.act, dmc, Dmc.editDrain, hargs, hleave, herr, hup.1]
      · split at h
        · cases h
        refine .step hbug (.editDrain false) ?_
          (editPolicy_returns hbug hargs h hpol hlock ⟨rfl, hup.2⟩)
        simp [Dmc.act, dmc, Dmc.editDrain, hup.1]
    · simp only [hfail, Bool.or_true, if_true] at h
      refine .removed hbug hleave.1 hup.2 (.step hbug (.editDrain false) ?_
        (editOut_returns (d := { d with noSourceDev := true }) hbug hargs h))
      simp [Dmc.act, dmc, Dmc.editDrain, hargs, hleave]
  · refine .step hbug (.editDrain false) ?_ (editPolicy_returns hbug hargs h hpol hlock hup)
    simp [Dmc.act, dmc, Dmc.editDrain, hargs, hup.1]

theorem editStop_returns (h : editStop g env mode policy s = some (s', error))
    (hpol : s.pol.Running) (hlock : s.ttcLock = false) (hup : s.Up) :
    Returns ⟨mode, policy⟩ error s' (s.dmc d .locked) := by
  simp only [editStop] at h
  split at h
  · next hwb =>
    cases hfail : env.failStop
    · simp only [hup.1, hfail, Bool.or_false, Bool.false_eq_true, if_false] at h
      refine .step hbug .editStop ?_ (editDrain_returns hbug hargs h hpol hlock ⟨rfl, hup.2⟩)
      have hsame : ∀ s : EditCache, s.stopAsyncTasks.dmc d .stopped = s.dmc d .stopped := by
        intro s
        rw [dmc, stopAsyncTasks_mode]
        rfl
      rw [hsame]
      simp [Dmc.act, dmc, Dmc.editStop, hup.1]
    · simp only [hfail, Bool.or_true, if_true] at h
      refine .removed hbug hwb hup.2 (.step hbug .editStop ?_
        (editOut_returns (d := { d with noSourceDev := true }) hbug hargs h))
      simp [Dmc.act, dmc, Dmc.editStop, hwb]
  · refine .step hbug .editStop ?_ (editDrain_returns hbug hargs h hpol hlock hup)
    simp [Dmc.act, dmc, Dmc.editStop, hup.1]

omit hargs in
/-- An edit as `cacheEdit` has it is a run of the critical sections of `Devices` with the same
result; the source device goes where the edit finds that the cache has failed. -/
theorem cacheEdit_returns (pc : Devices.EditPc) (hfound : env.found = true)
    (h : s.cacheEdit g env mode policy = some (s', error)) (hpol : s.pol.Running)
    (hlock : s.ttcLock = false) :
    Returns ⟨mode, policy⟩ error s' (s.dmc d pc) := by
  simp only [cacheEdit, hfound, Bool.true_eq_false, if_false] at h
  split_ifs at h with hargs hsame hdown hshut hmod
  · cases h
    exact .last hbug (.editCheck ⟨mode, policy⟩) d pc
      (by simp [Dmc.act, Dmc.editCheck, dmc, hargs, hsame])
  · cases h
    exact .last hbug (.editCheck ⟨mode, policy⟩) d pc
      (by simp [Dmc.act, Dmc.editCheck, dmc, hargs, hsame, hdown])
  all_goals
    rw [not_or, Bool.not_eq_true, Bool.not_eq_true] at hdown
    suffices hmid : Returns ⟨mode, policy⟩ error s'
        (s.dmc { d with checked := ⟨mode, policy⟩ :: d.checked } pc) from
      .step hbug (.editCheck ⟨mode, policy⟩)
        (by simp [Dmc.act, Dmc.editCheck, dmc, hargs, hsame, hdown]) hmid
  · cases h
    exact .last hbug (.editLock ⟨mode, policy⟩) d pc
      (by simp [Dmc.act, Dmc.editLock, dmc, hshut])
  · cases h
    exact .last hbug (.editLock ⟨mode, policy⟩) d pc (by simp [Dmc.act, Dmc.editLock, dmc, hmod])
  · refine .step hbug (.editLock ⟨mode, policy⟩) ?_ (editStop_returns
      (d := { d with args := ⟨mode, policy⟩ }) hbug rfl h hpol hlock hdown)
    simp [Dmc.act, Dmc.editLock, dmc, hshut, hmod]

end

end EditCache
end EnhanceIO
