import EnhanceIO.FinishNrdirty
import EnhanceIO.Positions
import EnhanceIO.States

/-!
# Draining the dirty blocks

Before a write-back cache changes its mode or is deleted, `eio_finish_nrdirty`
waits for the bios in flight, sets `EIO_CLEAN_KEEP`, which makes every later write
an uncached one, and cleans all sets until `nr_dirty` is 0. A write decides at the
beginning of `eio_write` whether it may be cached, and dirties its blocks two
asynchronous stages later, so what counts are the writes that had decided before
the flag was set: they are waited for.

`Drain` is the driver with those who set and read the flag: the thread that edits
or deletes the cache, position by position, the sysctl `do_clean`, the clean thread
and `eio_reboot_handling`. Its loops are those of `FinishNrdirty`.
-/

namespace EnhanceIO

open State

/-! ## Writes that dirty nothing -/

/-- `eio_write` has not yet looked at `EIO_CLEAN_KEEP`, which it does before the
first peek. -/
def MapPc.undecided : MapPc → Bool
  | .absent | .lock _ | .inval _ _ | .spin | .peek 0 => true
  | _ => false

/-- A write that takes the uncached path, or is over. -/
def Bio.Uncached (r : Req) (bc : Bio) : Prop :=
  r.dir = .write → r.segs ≠ [] → bc.pc.undecided = false → bc.uc = true ∨ bc.endio ≠ []

/-- Every write that has decided is uncached or over. -/
def Sys.Uncached (s : Sys) : Prop := ∀ b, (s.bio b).Uncached (s.req b)

section
variable {g : Geom} {s s' : Sys} {a : Act} {b n : Nat} {bc : Bio} {e : EbId}

theorem Bio.Uncached.of_undecided {r : Req} (h : bc.pc.undecided = true) : bc.Uncached r := by
  intro _ _ hpc
  rw [h] at hpc
  cases hpc

theorem Bio.Uncached.mono {r : Req} {bc' : Bio} (h : bc.Uncached r)
    (hpc : bc.pc.undecided = false) (huc : bc.uc = true → bc'.uc = true)
    (hend : bc.endio ≠ [] → bc'.endio ≠ []) : bc'.Uncached r := by
  intro hdir hsegs _
  rcases h hdir hsegs hpc with hu | he
  · exact .inl (huc hu)
  · exact .inr (hend he)

theorem enterPc_undecided (forced : Bool) (sector nsect : Nat) :
    (Sys.enterPc g forced sector nsect).undecided = true := by
  rcases Sys.enterPc_cases g forced sector nsect with ⟨_, _, h, _⟩ | h | ⟨h, _⟩ <;> rw [h] <;> rfl

theorem newBio_undecided (r : Req) (keep : Bool) : (s.newBio g r keep).pc.undecided = true := by
  rcases s.newBio_pc (g := g) r keep with ⟨_, h⟩ | ⟨_, h⟩ <;> rw [h]
  · rfl
  · exact enterPc_undecided ..

theorem PathMove.decided {pc pc' : MapPc} (h : PathMove g n pc pc') :
    pc.undecided = false ∨ ∃ snum iosize, pc = .inval snum iosize := by
  cases h <;> first | exact .inl rfl | exact .inr ⟨_, _, rfl⟩

theorem Bio.put_endio (now : Nat) (h : bc.endio ≠ []) : (Bio.put g now bc).endio ≠ [] := by
  simp only [Bio.put]
  split
  · simp
  · exact h

theorem Bio.Uncached.put {r : Req} (h : bc.Uncached r) (now : Nat) :
    (Bio.put g now bc).Uncached r := by
  intro hdir hsegs hpc
  rw [Bio.put_pc] at hpc
  rw [Bio.put_uc]
  exact (h hdir hsegs hpc).imp_right (Bio.put_endio now)

theorem dispatchBio_uc (dir : Dir) (bc : Bio) : (Sys.dispatchBio dir bc).uc = bc.uc := by
  simp only [Sys.dispatchBio]
  split <;> rfl

theorem dispatchBio_endio (dir : Dir) (bc : Bio) :
    (Sys.dispatchBio dir bc).endio = bc.endio := (dispatchBio_sameIo dir bc).endio

/-- A waiting ebio belongs to a write on the cached path. -/
theorem BioOk.waiting_cached {r : Req} {eb : Nat → Ebio} {k : Nat} (h : BioOk g r bc eb)
    (hk : k < r.segs.length) (hst : (eb k).st.waiting = true) :
    bc.pc.undecided = false ∧ bc.uc = false ∧ r.dir = .write := by
  have hpc := h.pc
  rcases stage_eq_cwOpen ((h.at_ k hk).waiting hst).1 with ⟨j, hp⟩ | ⟨j, hp⟩ | ⟨hp, hm, hd⟩
  · rw [hp] at hpc ⊢
    exact ⟨rfl, hpc.2.2.1, hpc.2.2.2.1⟩
  · rw [hp] at hpc ⊢
    exact ⟨rfl, hpc.2.2.1, hpc.2.2.2.1⟩
  · have hmain := (pcOk_issued hp).mp hpc
    rw [hm] at hmain
    refine ⟨?_, hmain.2.1, hd⟩
    rcases hp with hp | hp <;> rw [hp] <;> rfl

/-- Where every write is uncached no ebio waits for a metadata update. -/
theorem Live.none_waiting (hl : Live g s) (hu : s.Uncached) (e : EbId) :
    (s.ebio e).st.waiting = false := by
  have hb := hl.bio e.1
  cases hst : (s.ebio e).st.waiting with
  | false => rfl
  | true =>
    have hne : (s.ebio e).st ≠ .new ∧ (s.ebio e).st ≠ .done := by
      constructor <;> intro hn <;> rw [hn] at hst <;> cases hst
    have hk := (hb.started (k := e.2) hne.1).1
    have hsegs : (s.req e.1).segs ≠ [] := by
      intro hnil
      rw [hnil] at hk
      exact absurd hk (Nat.not_lt_zero _)
    obtain ⟨hpc, huc, hdir⟩ := hb.waiting_cached hk hst
    rcases hu e.1 hdir hsegs hpc with hu | hend
    · rw [huc] at hu
      cases hu
    · exact absurd (hb.unended hk hne.2) hend

theorem Sys.Uncached.of_ended (hl : Live g s) (hend : s.allEnded) : s.Uncached := by
  intro b _ _ hpc
  by_cases hb : b < s.nbio
  · rcases hend b hb with habs | hend
    · rw [habs] at hpc
      cases hpc
    · exact .inr hend
  · rw [hl.absent b (by omega)] at hpc
    cases hpc

theorem Sys.Uncached.of_mode (hl : Live g s) (hmode : g.mode ≠ .wb) : s.Uncached := by
  intro b hdir hsegs hdec
  have hforced : (s.req b).forced = false := by
    cases hf : (s.req b).forced with
    | false => rfl
    | true => exact absurd ((hl.req b).segs_forced hf) hsegs
  have hpc := (hl.bio b).pc
  refine .inl ?_
  cases huc : (s.bio b).uc with
  | true => rfl
  | false =>
    cases hp : (s.bio b).pc <;> rw [hp] at hpc hdec <;> simp only [PcOk] at hpc
    case peek => exact absurd (hpc.2.2 hdir huc) hmode
    case uwLock | uwSubmit => simp [huc] at hpc
    case cwAlloc | cwLock | cwFail | cwSubmit => simp [hmode] at hpc
    case cachedRead => simp [hdir] at hpc
    case diskIo => simpa [huc] using hpc.2 hforced
    case put | done =>
      cases hm : (s.bio b).main <;> simp [hm, MainOk, hforced, huc, hdir, hmode] at hpc
    all_goals cases hdec

/-- A step of a bio that reads `EIO_CLEAN_KEEP` as set, if it reads it. -/
theorem BioMove.uncached (hl : Live g s) (h : (s.bio b).Uncached (s.req b))
    (hread : ∀ v, a = .peek b v → (s.bio b).pc = .peek 0 → (s.req b).dir = .write →
      (s.bio b).uc = true)
    (hm : BioMove g s b a bc) : bc.Uncached (s.req b) := by
  have hpcok := (hl.bio b).pc
  cases hm with
  | lock => exact .of_undecided rfl
  | enter => exact .of_undecided (enterPc_undecided ..)
  | @peek k v =>
    intro hdir hsegs _
    cases k with
    | zero => exact .inl (by simp [hread v rfl ‹_› hdir])
    | succ k =>
      rcases h hdir hsegs (by rw [‹(s.bio b).pc = _›]; rfl) with hu | hend
      · exact .inl (by simp [hu])
      · exact .inr hend
  | dispatch hpc =>
    intro hdir hsegs hdec
    have hlen : 0 < (s.req b).segs.length := List.length_pos_iff.mpr hsegs
    have hold : (s.bio b).pc.undecided = false := by
      rw [hpc]
      cases hn : (s.req b).segs.length with
      | zero => omega
      | succ n => rfl
    rw [dispatchBio_uc, dispatchBio_endio]
    exact h hdir hsegs hold
  | alloc hpc => exact h.mono (by rw [hpc]; rfl) id id
  | path hp =>
    rcases hp.decided with hdec | ⟨snum, iosize, hinv⟩
    · exact h.mono hdec id id
    · intro _ hsegs _
      rw [hinv] at hpcok
      exact absurd ((hl.req b).segs_forced hpcok.2) hsegs
  | refuse _ hpc => exact h.mono (by rw [hpc]; rfl) id id
  | disk hpc => exact h.mono (by rw [hpc]; rfl) id id
  | put hpc =>
    refine Bio.Uncached.put ?_ _
    exact h.mono (by rw [hpc]; rfl) id id
  | hddDone => exact h
  | main => exact h
  | mainEndio =>
    refine Bio.Uncached.put ?_ _
    exact h
  | ebEndio =>
    refine Bio.Uncached.put ?_ _
    exact h
  | xfer => exact h
  | mdWrite => exact h
  | enq => exact h
  | same => exact h

/-- An act in which no write reads `EIO_CLEAN_KEEP` as cleared. -/
theorem Sys.Uncached.act (hinv : Inv g s) (hbug : s.bug = none) (h : s.Uncached)
    (hread : ∀ b v, a = .peek b v → (s.bio b).pc = .peek 0 → (s.req b).dir = .write →
      (s.bio b).uc = true)
    (hs : s.act g a = some s') : s'.Uncached := by
  intro b
  cases Sys.act_fate hinv.blk hs b with
  | same hreq hbio =>
    rw [hreq, hbio]
    exact h b
  | new _ _ _ hbio =>
    rw [hbio]
    exact .of_undecided (newBio_undecided ..)
  | move _ hreq hmove =>
    rw [hreq]
    exact hmove.uncached (hinv.live hbug) (h b) (hread b)

/-! ## The number of dirty blocks -/

/-- Only a metadata update makes a block dirty. -/
theorem Sys.act_nrDirty_le (hblk : BlkInv g s) (hnone : ∀ set, s.mdreq set = none)
    (hs : s.act g a = some s') : s'.nrDirty ≤ s.nrDirty := by
  cases hb : a.bio with
  | some b => exact Int.le_of_eq (Sys.act_move hblk hb hs).1.nrDirty
  | none =>
    cases Sys.act_other hb hs with
    | map h =>
      cases a <;> cases h
      obtain rfl := Sys.stepMap_eq_some hs
      exact Int.le_refl _
    | update h =>
      cases a <;> simp only [Act.isMd, Bool.false_eq_true] at h
      all_goals
        simp [Sys.act, Sys.stepDoMd, Sys.stepMdSubmit, Sys.stepMdSector, Sys.stepMdDone,
          Sys.stepPostMd, hnone] at hs
    | clean _ h => exact h.nrDirty
    | inval _ h => rw [MdFrame] at h; rw [h]
    | suspend h =>
      subst h
      obtain ⟨-, hs⟩ := Option.ite_none_left_eq_some.mp hs
      cases hs
      exact Int.le_refl _

theorem BlkInv.nrDirty_nonneg (h : BlkInv g s) : 0 ≤ s.nrDirty := by
  rw [h.tally.total]
  exact Int.natCast_nonneg _

/-- Every write is uncached, and no block is dirty. -/
def Sys.Drained (s : Sys) : Prop := s.Uncached ∧ s.nrDirty = 0

theorem Sys.Drained.act (hinv : Inv g s) (hbug : s.bug = none) (h : s.Drained)
    (hread : ∀ b v, a = .peek b v → (s.bio b).pc = .peek 0 → (s.req b).dir = .write →
      (s.bio b).uc = true)
    (hs : s.act g a = some s') : s'.Drained := by
  have hl := hinv.live hbug
  have hle := Sys.act_nrDirty_le hinv.blk (hl.md.no_request (hl.none_waiting h.1)) hs
  have hnonneg := (hinv.act hbug hs).blk.nrDirty_nonneg
  have hzero := h.2
  exact ⟨h.1.act hinv hbug hread hs, by omega⟩

end

/-! ## Those who drain -/

/-- Who calls `eio_finish_nrdirty`: `eio_cache_edit` with the mode asked for, if one
is, or `eio_cache_delete`. -/
inductive Modifier where
  | edit (mode : Option Mode)
  | delete
  deriving DecidableEq, Repr

/-- Position of the thread that edits or deletes the cache. -/
inductive ModPc where
  | idle
  /-- `eio_stop_async_tasks` -/
  | stop (m : Modifier)
  /-- `eio_finish_nrdirty`: before the lock, and waiting until `nr_ios` is 0 -/
  | lock (m : Modifier)
  | drain (m : Modifier)
  /-- `eio_clean_all` at the head of its loop, and in `eio_clean_set` -/
  | cleanAll (m : Modifier) (set : Nat)
  | cleanSet (m : Modifier) (set : Nat)
  /-- the loop of `eio_finish_nrdirty` reads `nr_dirty`, and then the shutdown flag -/
  | again (m : Modifier)
  | againFlag (m : Modifier)
  /-- behind the loop the two are read once more, the flag first -/
  | result (m : Modifier)
  | resultDirty (m : Modifier)
  /-- `eio_finish_nrdirty` has returned -/
  | returned (m : Modifier) (ret : Int)
  /-- before the lock under which the edit goes on, or the cache is unlisted -/
  | relock (m : Modifier)
  /-- the edit waits until `nr_ios` is 0, and stores the superblock -/
  | switch (mode : Option Mode)
  | store (mode : Option Mode)
  /-- the delete waits until `nr_ios` is 0, and is behind `eio_ttc_deactivate` -/
  | unlisted
  | deactivated
  | deleted
  /-- at the label `out` -/
  | out (m : Modifier)
  deriving DecidableEq, Repr

/-- Assertions of the functions that drain. -/
inductive ModAssert where
  /-- `EIO_CLEAN_START` is clear in `eio_finish_nrdirty` -/
  | finishStart
  /-- `EIO_CLEAN_KEEP` is set and `EIO_CLEAN_START` clear in `eio_cache_edit` -/
  | editFlags
  /-- `nr_dirty` is 0 in `eio_cache_edit`, in `eio_cache_delete` -/
  | editDirty
  | deleteDirty
  deriving DecidableEq, Repr

/-- Position of `eio_reboot_handling`: it waits for an edit or delete to end, then
saves the cache. -/
inductive RebootPc where
  | idle | waiting | saving | done
  deriving DecidableEq, Repr

/-- A cache with those who drain it and those who are in their way. -/
structure Drain extends Running where
  /-- `eio_ttc_lock` is held for writing -/
  ttc : Bool
  /-- the cache is on `eio_ttc_list`, so that bios come to it -/
  listed : Bool
  /-- `EIO_CLEAN_KEEP` and `EIO_CLEAN_START` in `do_clean` -/
  keep : Bool
  start : Bool
  /-- `CACHE_FLAGS_MOD_INPROG` -/
  modInprog : Bool
  reboot : RebootPc
  pc : ModPc
  failed : Option ModAssert

/-- One step. `err` is the error of a switch of policy or mode, of a superblock
write or of the start of the clean thread. -/
inductive DrainAct where
  | io (a : Act)
  /-- a value is written to the sysctl `do_clean` -/
  | sysctl (keep start : Bool)
  /-- the clean thread is through with `eio_clean_all` -/
  | cleanedAll
  | reboot
  | modify (m : Modifier)
  | run (err : Int)
  deriving DecidableEq, Repr

namespace Drain

/-- A new cache. -/
def init (g : Geom) : Drain where
  sys := Sys.init g
  mode := g.mode
  ttc := false
  listed := true
  keep := false
  start := false
  modInprog := false
  cleanThread := g.mode = .wb
  reboot := .idle
  pc := .idle
  failed := none

variable (g : Geom) (d : Drain)

/-- `CACHE_FLAGS_SHUTDOWN_INPROG`. -/
def shutdownInprog : Bool := d.reboot = .waiting || d.reboot = .saving

def fail (x : ModAssert) : Drain := { d with failed := some x }

/-! ## Bios and cleans -/

/-- The clean thread, `eio_clean_all` and `eio_clean_for_reboot` may call
`eio_clean_set` on the set. -/
def mayClean (set : Nat) : Bool :=
  d.cleanThread || d.reboot = .saving ||
    match d.pc with
    | .cleanSet _ set' => set' = set
    | _ => false

/-- What the surroundings allow. A bio comes in if the cache is listed and the lock
is free. A write finds at its first peek the path that the mode and the flag have
left it. -/
def Allows : Act → Prop
  | .map _ _ _ _ => d.ttc = false ∧ d.listed = true
  | .peek b _ => (d.sys.bio b).pc = .peek 0 → (d.sys.req b).dir = .write →
      (d.sys.bio b).uc = (d.mode ≠ .wb || d.keep)
  | .cleanStart set _ => d.mayClean set = true
  | .suspend => False
  | _ => True

instance : DecidablePred d.Allows
  | .map _ _ _ _ => inferInstanceAs (Decidable (_ ∧ _))
  | .peek _ _ => inferInstanceAs (Decidable (_ → _ → _))
  | .cleanStart _ _ => inferInstanceAs (Decidable (_ = _))
  | .suspend => inferInstanceAs (Decidable False)
  | .lock _ | .invalMap _ | .dispatch _ | .cachedRead _ _ | .uwLock _ | .uwSubmit _ _
  | .cwAlloc _ _ | .cwLock _ | .cwSubmit _ _ | .cwFail _ | .diskIo _ _ | .put _ | .hddSector _ _
  | .hddDone _ _ | .invalMain _ | .flag _ | .readDone _ | .readfillStart _ | .readfill _
  | .readfillSubmit _ _ | .mainEndio _ | .ssdSector _ _ _ | .ssdDone _ _ _ | .ebEndio _ _
  | .reread _ _ _ | .rereadSector _ _ _ | .rereadDone _ _ _ | .enqMd _ | .doMd _ | .mdSubmit _ _
  | .mdSector _ _ _ | .mdDone _ _ _ | .postMd _ | .cleanReadSector _ _ | .cleanReadDone _
  | .cleanWriteSector _ _ | .cleanWriteDone _ | .cleanMdSector _ | .cleanMdDone _ | .cleanFinish
  | .inval _ _ => inferInstanceAs (Decidable True)

def stepIo (a : Act) : Option Drain :=
  if d.Allows a then (d.sys.step (d.geom g) a).map fun s => { d with sys := s } else none

/-! ## The flags -/

/-- `eio_do_clean_sysctl`: unless the value is the old one, either flag starts a clean. -/
def stepSysctl (keep start : Bool) : Option Drain :=
  if d.mode = .wb ∧ d.modInprog = false then
    if keep = d.keep ∧ start = d.start then some d
    else some { d with keep := keep, start := keep || start }
  else none

def stepCleanedAll : Option Drain :=
  if d.cleanThread then some { d with start := false } else none

/-- `eio_reboot_handling` with its flag, as far as an edit or delete notices it. -/
def stepReboot : Option Drain :=
  match d.reboot with
  | .idle => some { d with reboot := .waiting }
  | .waiting =>
    if d.modInprog then none
    else
      some
        { d with
          sys := { d.sys with rdonly := true }
          cleanThread := false
          reboot := .saving }
  | .saving => some { d with reboot := .done }
  | .done => none

/-! ## `eio_cache_edit` and `eio_cache_delete` -/

/-- The dirty blocks are finished first. An edit that asks for write-back does not. -/
def finishes : Modifier → Bool
  | .edit mode => d.mode = .wb && mode ≠ some .wb
  | .delete => d.mode = .wb

def stepModify (m : Modifier) : Option Drain :=
  if d.pc = .idle ∧ d.shutdownInprog = false ∧ d.modInprog = false then
    some { d with modInprog := true, pc := .stop m }
  else none

/-- The number of sets as `eio_clean_all` has it, in a signed int. -/
def setCount : Int := (BitVec.ofNat 32 g.numSets).toInt

/-- The next step of the thread. -/
def next (err : Int) : Option Drain :=
  match d.pc with
  | .idle | .deleted => none
  | .stop m =>
    if d.cleanThread ∧ d.sys.clean.isSome then none
    else
      some { d with cleanThread := false, pc := if d.finishes m then .lock m else .relock m }
  | .lock m =>
    if d.ttc = false ∧ d.sys.noMaps then some { d with ttc := true, pc := .drain m } else none
  | .drain m =>
    if d.sys.nrIos = 0 then
      if d.start then some (d.fail .finishStart)
      else some { d with keep := true, start := true, ttc := false, pc := .cleanAll m 0 }
    else none
  | .cleanAll m set =>
    if set < setCount g ∧ d.start ∧ 0 < d.sys.nrDirty ∧ d.shutdownInprog = false then
      some { d with pc := .cleanSet m set }
    else some { d with start := false, pc := .again m }
  | .cleanSet m set =>
    if d.sys.clean.isSome then none else some { d with pc := .cleanAll m (set + 1) }
  | .again m => some { d with pc := if 0 < d.sys.nrDirty then .againFlag m else .result m }
  | .againFlag m => some { d with pc := if d.shutdownInprog then .result m else .cleanAll m 0 }
  | .result m =>
    some { d with start := false, pc := if d.shutdownInprog then .resultDirty m else .returned m 0 }
  | .resultDirty m =>
    some { d with pc := .returned m (if 0 < d.sys.nrDirty then -22 else 0) }
  | .returned m ret =>
    if ret ≠ 0 then some { d with pc := .out m }
    else
      match m with
      | .edit _ =>
        if ¬ d.keep ∨ d.start then some (d.fail .editFlags)
        else if d.sys.nrDirty ≠ 0 then some (d.fail .editDirty)
        else some { d with pc := .relock m }
      | .delete => some { d with pc := .relock m }
  | .relock m =>
    if d.ttc = false ∧ d.sys.noMaps then
      match m with
      | .edit mode => some { d with ttc := true, pc := .switch mode }
      | .delete => some { d with listed := false, pc := .unlisted }
    else none
  | .switch mode =>
    if d.sys.nrIos = 0 then
      if err ≠ 0 then some { d with ttc := false, pc := .out (.edit mode) }
      else some { d with toRunning := d.switchMode mode, pc := .store mode }
    else none
  -- the lock is not given back when the superblock cannot be written
  | .store mode => some { d with ttc := d.ttc && err ≠ 0, pc := .out (.edit mode) }
  | .unlisted => if d.sys.nrIos = 0 then some { d with pc := .deactivated } else none
  | .deactivated =>
    if d.sys.nrDirty ≠ 0 then some (d.fail .deleteDirty) else some { d with pc := .deleted }
  | .out m =>
    some
      { d with
        -- an edit clears both flags, a delete that has failed leaves them
        keep := d.keep && m = .delete
        start := d.start && m = .delete
        cleanThread := d.cleanThread || (d.mode = .wb && err = 0)
        modInprog := false
        pc := .idle }

/-! ## All together -/

def act : DrainAct → Option Drain
  | .io a => d.stepIo g a
  | .sysctl keep start => d.stepSysctl keep start
  | .cleanedAll => d.stepCleanedAll
  | .reboot => d.stepReboot
  | .modify m => d.stepModify m
  | .run err => d.next g err

/-- One step. After a failed assertion nothing happens any more. -/
def step (a : DrainAct) : Option Drain :=
  if d.sys.bug.isSome ∨ d.failed.isSome then none else d.act g a

/-- The states of a cache, whatever happens to it. -/
abbrev Reachable : Drain → Prop := Run.Reach (step g) (fun _ _ => True) (init g)

end Drain

/-! ## What holds in every state -/

/-- `eio_ttc_lock` is held. -/
def ModPc.locked : ModPc → Bool
  | .drain _ | .switch _ => true
  | _ => false

/-- Behind the point where `eio_finish_nrdirty` sets `EIO_CLEAN_KEEP`, for those who
call it. -/
def ModPc.kept (finishes : Modifier → Bool) : ModPc → Bool
  | .cleanAll _ _ | .cleanSet _ _ | .again _ | .againFlag _ | .result _ | .resultDirty _
  | .returned _ _ => true
  | .relock m => finishes m
  | .switch mode => finishes (.edit mode)
  | .unlisted | .deactivated => finishes .delete
  | _ => false

/-- Behind a successful `eio_finish_nrdirty`. -/
def ModPc.dry (finishes : Modifier → Bool) : ModPc → Bool
  | .returned _ ret => ret = 0
  | .relock m => finishes m
  | .switch mode => finishes (.edit mode)
  | .unlisted | .deactivated => finishes .delete
  | _ => false

theorem ModPc.kept_of_dry {finishes : Modifier → Bool} {pc : ModPc}
    (h : pc.dry finishes = true) : pc.kept finishes = true := by
  cases pc <;> first | exact h | rfl

namespace Drain

structure Ok (g : Geom) (d : Drain) : Prop where
  inv : Inv (d.geom g) d.sys
  up : d.sys.degraded = false
  alone : d.ttc = true → d.sys.noMaps
  locked : d.pc.locked = true → d.ttc = true
  modifying : d.pc ≠ .idle → d.modInprog = true
  saving : d.reboot = .saving → d.modInprog = false
  plain : d.mode ≠ .wb → d.sys.nrDirty = 0
  kept : d.pc.kept d.finishes = true → d.keep = true ∧ d.sys.Uncached
  dry : d.pc.dry d.finishes = true → d.sys.nrDirty = 0
  /-- the loop was left with no dirty block, or because of a shutdown, which waits -/
  result : ∀ m, d.pc = .result m → d.sys.nrDirty = 0 ∨ d.shutdownInprog = true
  asserted : d.failed ≠ some .editDirty ∧ d.failed ≠ some .deleteDirty

variable {g : Geom} {d d' : Drain} {a : DrainAct}

theorem Ok.init (g : Geom) : Ok g (init g) where
  inv := Inv.init g
  up := rfl
  alone := fun h => by cases h
  locked := fun h => by cases h
  modifying := fun h => absurd rfl h
  saving := fun h => by cases h
  plain := fun _ => rfl
  kept := fun h => by cases h
  dry := fun h => by cases h
  result := fun _ h => by cases h
  asserted := ⟨by simp [Drain.init], by simp [Drain.init]⟩

theorem step_eq_some (hs : d.step g a = some d') : d.sys.bug = none ∧ d.act g a = some d' := by
  obtain ⟨hrun, hs⟩ := Option.ite_none_left_eq_some.mp hs
  exact ⟨by simpa using fun h => hrun (.inl h), hs⟩

/-- What concerns the flags leaves the driver alone, but for `CACHE_FLAGS_RDONLY`. -/
theorem act_flags (hio : ∀ x, a ≠ .io x) (hrun : ∀ err, a ≠ .run err) (hs : d.act g a = some d') :
    d'.mode = d.mode ∧ ∃ rdonly, d'.sys = { d.sys with rdonly := rdonly } := by
  cases a with
  | io x => exact absurd rfl (hio x)
  | sysctl keep start =>
    obtain ⟨-, hs⟩ := Option.ite_none_right_eq_some.mp hs
    split at hs <;> cases hs <;> exact ⟨rfl, _, rfl⟩
  | reboot =>
    simp only [act, stepReboot] at hs
    repeat' split at hs
    all_goals cases hs
    all_goals exact ⟨rfl, _, rfl⟩
  | cleanedAll | modify m =>
    obtain ⟨-, rfl⟩ := Option.ite_some_none_eq_some.mp hs
    exact ⟨rfl, _, rfl⟩
  | run err => exact absurd rfl (hrun err)

theorem stepIo_eq_some {x : Act} (hbug : d.sys.bug = none) (hs : d.stepIo g x = some d') :
    d.Allows x ∧ ∃ s, d.sys.act (d.geom g) x = some s ∧
      { d with sys := s.tick (d.sys.now + 1) } = d' := by
  obtain ⟨hallow, hs⟩ := Option.ite_none_right_eq_some.mp hs
  obtain ⟨s, hstep, rfl⟩ := Option.map_eq_some_iff.mp hs
  obtain ⟨t, ht, rfl⟩ := (Sys.step_eq_some hbug).mp hstep
  exact ⟨hallow, t, ht, rfl⟩

/-- With the flag set, or in another mode, a write that decides is uncached. -/
theorem Allows.reads {x : Act} (h : d.Allows x) (hkeep : d.mode ≠ .wb ∨ d.keep = true) :
    ∀ b v, x = .peek b v → (d.sys.bio b).pc = .peek 0 → (d.sys.req b).dir = .write →
      (d.sys.bio b).uc = true := by
  rintro b v rfl hpc hdir
  rw [h hpc hdir]
  rcases hkeep with hm | hk
  · simp [hm]
  · simp [hk]

theorem Allows.ne_suspend {x : Act} (h : d.Allows x) : x ≠ .suspend := by
  rintro rfl
  exact h

section
variable (h : Ok g d)
include h

theorem Ok.plain_drained (hbug : d.sys.bug = none) (hm : d.mode ≠ .wb) : d.sys.Drained :=
  ⟨.of_mode (h.inv.live hbug) hm, h.plain hm⟩

theorem Ok.stepIo {x : Act} (hbug : d.sys.bug = none) (hs : d.stepIo g x = some d') : Ok g d' := by
  obtain ⟨hallow, s, hact, rfl⟩ := stepIo_eq_some hbug hs
  have hinv := h.inv.act hbug hact
  have hdrained : d.pc.kept d.finishes = true → d.sys.nrDirty = 0 → s.Drained := by
    intro hk hzero
    obtain ⟨hkeep, hu⟩ := h.kept hk
    exact Sys.Drained.act h.inv hbug ⟨hu, hzero⟩ (hallow.reads (.inr hkeep)) hact
  refine
    { h with inv := ?_, up := ?_, alone := ?_, plain := ?_, kept := ?_, dry := ?_, result := ?_ }
  · exact hinv.devices rfl
  · exact (Sys.act_degraded h.inv.blk hallow.ne_suspend hact).trans h.up
  · intro httc
    have hno : x.isMap = false := by
      cases x with
      | map => exact absurd httc (by simp [hallow.1])
      | _ => rfl
    have hmaps : s.noMaps :=
      Sys.noMaps_act h.inv hbug (h.alone httc) hallow.ne_suspend hno hact
    exact hmaps
  · intro hm
    exact ((h.plain_drained hbug hm).act h.inv hbug (hallow.reads (.inl hm)) hact).2
  · intro hk
    obtain ⟨hkeep, hu⟩ := h.kept hk
    have hu' : s.Uncached := hu.act h.inv hbug (hallow.reads (.inr hkeep)) hact
    exact ⟨hkeep, hu'⟩
  · intro hd
    exact (hdrained (ModPc.kept_of_dry hd) (h.dry hd)).2
  · intro m hpc
    refine (h.result m hpc).imp_left fun hzero => ?_
    have hk : d.pc.kept d.finishes = true := by rw [show d.pc = _ from hpc]; rfl
    exact (hdrained hk hzero).2

theorem Ok.idle (hmod : d.modInprog = false) : d.pc = .idle := by
  by_contra hne
  rw [h.modifying hne] at hmod
  cases hmod

theorem Ok.stepSysctl {keep start : Bool} (hs : d.stepSysctl keep start = some d') : Ok g d' := by
  obtain ⟨⟨-, hmod⟩, hs⟩ := Option.ite_none_right_eq_some.mp hs
  split at hs <;> cases hs
  · exact h
  · refine { h with kept := fun hk => ?_ }
    have hpc : d.pc.kept d.finishes = true := hk
    rw [h.idle hmod] at hpc
    cases hpc

theorem Ok.stepCleanedAll (hs : d.stepCleanedAll = some d') : Ok g d' := by
  obtain ⟨-, rfl⟩ := Option.ite_some_none_eq_some.mp hs
  exact { h with }

theorem Ok.stepReboot (hs : d.stepReboot = some d') : Ok g d' := by
  simp only [Drain.stepReboot] at hs
  split at hs
  · cases hs
    exact { h with saving := (fun hsave => by cases hsave), result := fun _ _ => .inr rfl }
  · obtain ⟨hmod, hs⟩ := Option.ite_none_left_eq_some.mp hs
    cases hs
    exact
      { h with
        inv := h.inv.markRdonly
        saving := fun _ => by simpa using hmod
        result := fun _ _ => .inr rfl }
  · next hsave =>
    cases hs
    refine { h with saving := (fun hdone => by cases hdone), result := fun m hpc => ?_ }
    have hidle : d.pc = .result m := hpc
    rw [h.idle (h.saving hsave)] at hidle
    cases hidle
  · cases hs

theorem Ok.stepModify {m : Modifier} (hs : d.stepModify m = some d') : Ok g d' := by
  obtain ⟨⟨-, hshut, -⟩, rfl⟩ := Option.ite_some_none_eq_some.mp hs
  refine
    { h with
      locked := fun hl => by cases hl
      modifying := fun _ => rfl
      saving := fun hsave => ?_
      kept := fun hk => by cases hk
      dry := fun hd => by cases hd
      result := fun _ hpc => by cases hpc }
  have hreboot : d.reboot = .saving := hsave
  simp [shutdownInprog, hreboot] at hshut

/-! ### The thread -/

theorem Ok.goto {pc : ModPc} (hmod : d.modInprog = true) (hlock : pc.locked = true → d.ttc = true)
    (hkept : pc.kept d.finishes = true → d.keep = true ∧ d.sys.Uncached)
    (hdry : pc.dry d.finishes = true → d.sys.nrDirty = 0)
    (hresult : ∀ m, pc = .result m → d.sys.nrDirty = 0 ∨ d.shutdownInprog = true) :
    Ok g { d with pc := pc } :=
  { h with
    locked := hlock
    modifying := fun _ => hmod
    kept := hkept
    dry := hdry
    result := hresult }

theorem Ok.leave {pc : ModPc} (hmod : d.modInprog = true) (hlock : pc.locked = false)
    (hkept : pc.kept d.finishes = false) : Ok g { d with pc := pc } := by
  refine h.goto hmod (fun hl => ?_) (fun hk => ?_) (fun hd => ?_) fun m hpc => ?_
  · rw [hlock] at hl
    cases hl
  · rw [hkept] at hk
    cases hk
  · rw [ModPc.kept_of_dry hd] at hkept
    cases hkept
  · rw [hpc] at hkept
    cases hkept

/-- On within `eio_finish_nrdirty`, with nothing learnt about `nr_dirty`. -/
theorem Ok.go_on {pc : ModPc} (hmod : d.modInprog = true)
    (hold : d.pc.kept d.finishes = true) (hlock : pc.locked = false)
    (hdry : pc.dry d.finishes = false) (hresult : ∀ m, pc ≠ .result m) :
    Ok g { d with pc := pc } := by
  refine h.goto hmod (fun hl => ?_) (fun _ => h.kept hold) (fun hd => ?_) fun m hpc =>
    absurd hpc (hresult m)
  · rw [hlock] at hl
    cases hl
  · rw [hdry] at hd
    cases hd

/-- Under the lock nothing is left of the bios once `nr_ios` is 0. -/
theorem Ok.ended (hlock : d.pc.locked = true) (hios : d.sys.nrIos = 0) : d.sys.allEnded :=
  Sys.allEnded_of_drained (h.alone (h.locked hlock)) hios

/-- `eio_finish_nrdirty` as a whole. -/
theorem Ok.finish {err : Int} {m : Modifier} (hbug : d.sys.bug = none)
    (hpc : d.pc = .lock m ∨ d.pc = .drain m ∨ (∃ set, d.pc = .cleanAll m set) ∨
      (∃ set, d.pc = .cleanSet m set) ∨ d.pc = .again m ∨ d.pc = .againFlag m ∨
      d.pc = .result m ∨ d.pc = .resultDirty m) (hs : d.next g err = some d') : Ok g d' := by
  have hmod : d.modInprog = true := by
    apply h.modifying
    rcases hpc with hp | hp | ⟨_, hp⟩ | ⟨_, hp⟩ | hp | hp | hp | hp <;> rw [hp] <;> simp
  have hnonneg := h.inv.blk.nrDirty_nonneg
  rcases hpc with hp | hp | ⟨set, hp⟩ | ⟨set, hp⟩ | hp | hp | hp | hp <;>
    simp only [next, hp] at hs
  · obtain ⟨hfree, rfl⟩ := Option.ite_some_none_eq_some.mp hs
    have htaken : Ok g { d with ttc := true } :=
      { h with alone := fun _ => hfree.2, locked := fun _ => rfl }
    exact htaken.goto hmod (fun _ => rfl) (fun hk => by cases hk) (fun hd => by cases hd)
      fun _ hr => by cases hr
  · obtain ⟨hios, hs⟩ := Option.ite_none_right_eq_some.mp hs
    have hu : d.sys.Uncached :=
      .of_ended (h.inv.live hbug) (h.ended (by rw [hp]; rfl) hios)
    split at hs <;> cases hs
    · exact { h with asserted := by simp [fail] }
    · exact
        { h with
          alone := fun hl => by cases hl
          locked := fun hl => by cases hl
          modifying := fun _ => hmod
          kept := fun _ => ⟨rfl, hu⟩
          dry := fun hd => by cases hd
          result := fun _ hr => by cases hr }
  · have hold : d.pc.kept d.finishes = true := by rw [hp]; rfl
    split at hs <;> cases hs
    · exact h.go_on hmod hold rfl rfl (by simp)
    · exact { h.go_on hmod hold rfl rfl (by simp) with }
  · have hold : d.pc.kept d.finishes = true := by rw [hp]; rfl
    obtain ⟨-, hs⟩ := Option.ite_none_left_eq_some.mp hs
    cases hs
    exact h.go_on hmod hold rfl rfl (by simp)
  · have hold : d.pc.kept d.finishes = true := by rw [hp]; rfl
    cases hs
    split
    · exact h.go_on hmod hold rfl rfl (by simp)
    · exact h.goto hmod (fun hl => by cases hl) (fun _ => h.kept hold) (fun hd => by cases hd)
        fun _ _ => .inl (by omega)
  · have hold : d.pc.kept d.finishes = true := by rw [hp]; rfl
    cases hs
    split
    · next hshut =>
      exact h.goto hmod (fun hl => by cases hl) (fun _ => h.kept hold) (fun hd => by cases hd)
        fun _ _ => .inr hshut
    · exact h.go_on hmod hold rfl rfl (by simp)
  · have hold : d.pc.kept d.finishes = true := by rw [hp]; rfl
    cases hs
    split
    · exact { h.go_on hmod hold rfl rfl (by simp) with }
    · next hshut =>
      have hzero : d.sys.nrDirty = 0 := (h.result m hp).resolve_right hshut
      have hret : Ok g { d with pc := .returned m 0 } :=
        h.goto hmod (fun hl => by cases hl) (fun _ => h.kept hold) (fun _ => hzero) fun _ hr => by
          cases hr
      exact { hret with }
  · have hold : d.pc.kept d.finishes = true := by rw [hp]; rfl
    cases hs
    refine h.goto hmod (fun hl => by cases hl) (fun _ => h.kept hold) (fun hd => ?_) fun _ hr => by
      cases hr
    simp only [ModPc.dry, decide_eq_true_eq] at hd
    split at hd
    · cases hd
    · omega

/-- The assertions behind `eio_finish_nrdirty`, and the lock that is taken next. -/
theorem Ok.after_finish {err : Int} {m : Modifier}
    (hpc : (∃ ret, d.pc = .returned m ret) ∨ d.pc = .relock m) (hs : d.next g err = some d') :
    Ok g d' := by
  have hmod : d.modInprog = true := by
    apply h.modifying
    rcases hpc with ⟨_, hp⟩ | hp <;> rw [hp] <;> simp
  rcases hpc with ⟨ret, hp⟩ | hp <;> simp only [next, hp] at hs
  · have hkept := h.kept (by rw [hp]; rfl)
    split at hs
    · cases hs
      exact h.leave hmod rfl rfl
    · next hret =>
      have hzero : d.sys.nrDirty = 0 := h.dry (by rw [hp]; simpa [ModPc.dry] using hret)
      have hgo : Ok g { d with pc := .relock m } :=
        h.goto hmod (fun hl => by cases hl) (fun _ => hkept) (fun _ => hzero)
          fun _ hr => by cases hr
      split at hs
      · split at hs
        · cases hs
          exact { h with asserted := by simp [fail] }
        · split at hs
          · next hdirty => exact absurd hzero hdirty
          · cases hs
            exact hgo
      · cases hs
        exact hgo
  · obtain ⟨hfree, hs⟩ := Option.ite_none_right_eq_some.mp hs
    have hk : d.finishes m = true → d.keep = true ∧ d.sys.Uncached := fun hf =>
      h.kept (by rw [hp]; exact hf)
    have hd : d.finishes m = true → d.sys.nrDirty = 0 := fun hf => h.dry (by rw [hp]; exact hf)
    split at hs <;> cases hs
    · have htaken : Ok g { d with ttc := true } :=
        { h with alone := fun _ => hfree.2, locked := fun _ => rfl }
      exact htaken.goto hmod (fun _ => rfl) hk hd fun _ hr => by cases hr
    · have hgo : Ok g { d with pc := .unlisted } :=
        h.goto hmod (fun hl => by cases hl) hk hd fun _ hr => by cases hr
      exact { hgo with }

theorem Ok.switchMode {mode : Option Mode} (hbug : d.sys.bug = none)
    (hpc : d.pc = .switch mode) (hios : d.sys.nrIos = 0) :
    Ok g { d with toRunning := d.switchMode mode, pc := .store mode } := by
  have hmod : d.modInprog = true := h.modifying (by rw [hpc]; simp)
  have hend := h.ended (by rw [hpc]; rfl) hios
  cases mode with
  | none => exact h.leave hmod rfl rfl
  | some mode =>
    by_cases hsame : mode = d.mode
    · simp only [Running.switchMode, if_pos hsame]
      exact h.leave hmod rfl rfl
    · simp only [Running.switchMode, if_neg hsame]
      -- away from write-back the blocks have been drained, from another mode none was dirty
      have hzero : mode ≠ .wb → d.sys.nrDirty = 0 := by
        intro hm
        by_cases hwb : d.mode = .wb
        · exact h.dry (by rw [hpc]; simp [ModPc.dry, finishes, hwb, hm])
        · exact h.plain hwb
      exact
        { inv := h.inv.forget hbug h.up hend mode
          up := h.up
          alone := fun _ b _ => .inl rfl
          locked := fun hl => by cases hl
          modifying := fun _ => hmod
          saving := h.saving
          plain := hzero
          kept := fun hk => by cases hk
          dry := fun hd => by cases hd
          result := fun _ hr => by cases hr
          asserted := h.asserted }

theorem Ok.next {err : Int} (hbug : d.sys.bug = none) (hs : d.next g err = some d') : Ok g d' := by
  cases hpc : d.pc
  case lock m | drain m | cleanAll m set | cleanSet m set | again m | againFlag m | result m
     | resultDirty m => exact h.finish (m := m) hbug (by simp [hpc]) hs
  case returned m ret => exact h.after_finish (.inl ⟨ret, hpc⟩) hs
  case relock m => exact h.after_finish (.inr hpc) hs
  all_goals simp only [Drain.next, hpc, reduceCtorEq] at hs
  case stop m =>
    have hmod : d.modInprog = true := h.modifying (by rw [hpc]; simp)
    obtain ⟨-, hs⟩ := Option.ite_none_left_eq_some.mp hs
    cases hs
    cases hf : d.finishes m with
    | true =>
      have hgo : Ok g { d with pc := .lock m } := h.leave hmod rfl rfl
      exact { hgo with }
    | false =>
      have hgo : Ok g { d with pc := .relock m } := h.leave hmod rfl hf
      exact { hgo with }
  case switch mode =>
    have hmod : d.modInprog = true := h.modifying (by rw [hpc]; simp)
    obtain ⟨hios, hs⟩ := Option.ite_none_right_eq_some.mp hs
    split at hs <;> cases hs
    · have hgo : Ok g { d with pc := .out (.edit mode) } := h.leave hmod rfl rfl
      exact { hgo with alone := (fun hl => by cases hl), locked := fun hl => by cases hl }
    · exact h.switchMode hbug hpc hios
  case store mode =>
    have hmod : d.modInprog = true := h.modifying (by rw [hpc]; simp)
    cases hs
    have hgo : Ok g { d with pc := .out (.edit mode) } := h.leave hmod rfl rfl
    refine { hgo with alone := fun hl => ?_, locked := fun hl => by cases hl }
    exact h.alone (Bool.and_eq_true_iff.mp hl).1
  case unlisted =>
    have hmod : d.modInprog = true := h.modifying (by rw [hpc]; simp)
    obtain ⟨-, rfl⟩ := Option.ite_some_none_eq_some.mp hs
    exact h.goto hmod (fun hl => by cases hl) (fun hk => h.kept (by rw [hpc]; exact hk))
      (fun hd => h.dry (by rw [hpc]; exact hd)) fun _ hr => by cases hr
  case deactivated =>
    have hmod : d.modInprog = true := h.modifying (by rw [hpc]; simp)
    have hzero : d.sys.nrDirty = 0 := by
      by_cases hwb : d.mode = .wb
      · exact h.dry (by rw [hpc]; simp [ModPc.dry, finishes, hwb])
      · exact h.plain hwb
    split at hs
    · next hdirty => exact absurd hzero hdirty
    · cases hs
      exact h.leave hmod rfl rfl
  case out m =>
    cases hs
    exact
      { h with
        locked := fun hl => by cases hl
        modifying := fun hne => absurd rfl hne
        saving := fun _ => rfl
        kept := fun hk => by cases hk
        dry := fun hd => by cases hd
        result := fun _ hr => by cases hr }

theorem Ok.step (hs : d.step g a = some d') : Ok g d' := by
  obtain ⟨hbug, hs⟩ := step_eq_some hs
  cases a with
  | io x => exact h.stepIo hbug hs
  | sysctl keep start => exact h.stepSysctl hs
  | cleanedAll => exact h.stepCleanedAll hs
  | reboot => exact h.stepReboot hs
  | modify m => exact h.stepModify hs
  | run err => exact h.next hbug hs

end

theorem Reachable.ok (h : Reachable g d) : Ok g d :=
  Run.Reach.invariant (Ok.init g) (fun hok _ hs => Ok.step hok hs) h

/-! ## While the flag stays set -/

/-- The thread leaves the driver alone, but for the change of the mode. -/
theorem next_sys {err : Int} (hs : d.next g err = some d') :
    (d'.sys = d.sys ∧ d'.mode = d.mode) ∨
      ∃ mode, d.pc = .switch (some mode) ∧ d.sys.nrIos = 0 ∧ d'.sys = d.sys.forget ∧
        d'.mode = mode := by
  cases hpc : d.pc <;> simp only [next, hpc, reduceCtorEq] at hs
  case switch mode =>
    obtain ⟨hios, hs⟩ := Option.ite_none_right_eq_some.mp hs
    split at hs <;> cases hs
    · exact .inl ⟨rfl, rfl⟩
    · cases mode with
      | none => exact .inl ⟨rfl, rfl⟩
      | some mode =>
        simp only [Running.switchMode]
        split
        · exact .inl ⟨rfl, rfl⟩
        · exact .inr ⟨mode, rfl, hios, rfl, rfl⟩
  case stop | cleanSet =>
    obtain ⟨-, hs⟩ := Option.ite_none_left_eq_some.mp hs
    cases hs
    exact .inl ⟨rfl, rfl⟩
  case lock | unlisted =>
    obtain ⟨-, rfl⟩ := Option.ite_some_none_eq_some.mp hs
    exact .inl ⟨rfl, rfl⟩
  case drain | relock =>
    obtain ⟨-, hs⟩ := Option.ite_none_right_eq_some.mp hs
    split at hs <;> cases hs <;> exact .inl ⟨rfl, rfl⟩
  case again | againFlag | result | resultDirty | store | out =>
    cases hs
    exact .inl ⟨rfl, rfl⟩
  case cleanAll | deactivated => split at hs <;> cases hs <;> exact .inl ⟨rfl, rfl⟩
  case returned m ret =>
    split at hs
    · cases hs
      exact .inl ⟨rfl, rfl⟩
    · split at hs
      · split at hs
        · cases hs
          exact .inl ⟨rfl, rfl⟩
        · split at hs <;> cases hs <;> exact .inl ⟨rfl, rfl⟩
      · cases hs
        exact .inl ⟨rfl, rfl⟩

theorem forget_drained {s : Sys} (h : s.nrDirty = 0) : s.forget.Drained :=
  ⟨fun _ => .of_undecided rfl, h⟩

/-- A drained cache stays drained while `EIO_CLEAN_KEEP` is set. -/
theorem Ok.drained_step (h : Ok g d) (hkeep : d.keep = true) (hd : d.sys.Drained)
    (hs : d.step g a = some d') : d'.sys.Drained := by
  obtain ⟨hbug, hs⟩ := step_eq_some hs
  cases a with
  | io x =>
    obtain ⟨hallow, s, hact, rfl⟩ := stepIo_eq_some hbug hs
    have hs' : s.Drained := hd.act h.inv hbug (hallow.reads (.inr hkeep)) hact
    exact hs'
  | run err =>
    rcases next_sys hs with ⟨heq, -⟩ | ⟨_, -, -, heq, -⟩ <;> rw [heq]
    · exact hd
    · exact forget_drained hd.2
  | _ =>
    obtain ⟨-, _, hsys⟩ := act_flags (by simp) (by simp) hs
    rw [hsys]
    exact hd

/-- The same along a run in which the flag is never cleared. -/
theorem Ok.drained_run {P : Drain → DrainAct → Prop} (hP : ∀ d a, P d a → d.keep = true)
    (h : Ok g d) (hd : d.sys.Drained) (hrun : Run.Reach (Drain.step g) P d d') :
    d'.sys.Drained := by
  have hboth : Ok g d' ∧ d'.sys.Drained := by
    induction hrun with
    | init => exact ⟨h, hd⟩
    | step a _ hp hs ih => exact ⟨ih.1.step hs, ih.1.drained_step (hP _ _ hp) ih.2 hs⟩
  exact hboth.2

/-- When every bio is over and `nr_dirty` is 0, no block is dirty. -/
theorem clean_of_drained {s : Sys} (hinv : Inv g s) (hbug : s.bug = none) (hend : s.allEnded)
    (hzero : s.nrDirty = 0) (i : Nat) : (s.st g i).has dirty = false := by
  have hl := hinv.live hbug
  have hrest := hinv.blk.resting (fun e => (hl.finished hend e.1).2 e.2) i
  have hcount : (s.st g i).counted = false := by
    cases hc : (s.st g i).counted with
    | false => rfl
    | true =>
      have hlt := (hinv.blk.placed (valid_of_counted hc)).lt_size
      have hall : s.nrDirtyAll g = 0 := by
        have := hinv.blk.tally.total
        omega
      rw [Sys.nrDirtyAll, List.countP_eq_zero] at hall
      exact absurd hc (hall i (List.mem_range.mpr hlt))
  rcases hrest with hi | hi | hi | hi <;> rw [hi] at hcount ⊢ <;> revert hcount <;> decide

theorem act_mode (ha : ∀ err, a ≠ .run err) (hs : d.act g a = some d') : d'.mode = d.mode := by
  cases a with
  | io x =>
    obtain ⟨-, hs⟩ := Option.ite_none_right_eq_some.mp hs
    obtain ⟨s, -, rfl⟩ := Option.map_eq_some_iff.mp hs
    rfl
  | _ => exact (act_flags (by simp) ha hs).1

/-- The step that takes a cache out of write-back finds all its blocks clean. -/
theorem Ok.switch_away (h : Ok g d) (hwb : d.mode = .wb) (hs : d.step g a = some d')
    (hmode : d'.mode ≠ .wb) (i : Nat) : (d'.sys.st g i).has dirty = false := by
  obtain ⟨hbug, hs⟩ := step_eq_some hs
  cases a with
  | run err =>
    rcases next_sys hs with ⟨-, hm⟩ | ⟨mode, hpc, hios, hsys, hm⟩
    · exact absurd (hm.trans hwb) hmode
    · rw [hsys]
      have hend := h.ended (by rw [hpc]; rfl) hios
      have hzero : d.sys.nrDirty = 0 :=
        h.dry (by rw [hpc]; simp [ModPc.dry, finishes, hwb, ← hm, hmode])
      exact clean_of_drained h.inv hbug hend hzero i
  | _ => exact absurd ((act_mode (by simp) hs).trans hwb) hmode

/-! ## The loops of `eio_finish_nrdirty` -/

/-- What the loops look at is as `Draining` has it. -/
structure Sees {α : Type*} (d : Drain) (s : Draining α) : Prop where
  start : d.start = s.cleanStart
  keep : d.keep = s.cleanKeep
  shutdown : d.shutdownInprog = s.shutdown
  nrDirty : d.sys.nrDirty = s.cache.nrDirty
  fastRemove : s.fastRemove = false
  failed : s.cache.failed = false

section
variable {α : Type*} {s : Draining α} {m : Modifier} (h : d.Sees s)
include h

/-- At a set the thread goes on where the loop of `Draining.cleanSets` does. -/
theorem Sees.cleanAll {set : Nat} (hpc : d.pc = .cleanAll m set) (hset : set < setCount g)
    (cfg : CleanCfg) (io : Nat → CleanIo) (rest : List Nat) :
    d.next g 0 = some { d with pc := .cleanSet m set } ∧
        s.cleanSets cfg io (set :: rest) s.cache =
          (s.cache.cleanSet cfg (io set) set true true).bind (s.cleanSets cfg io rest) ∨
      d.next g 0 = some { d with start := false, pc := .again m } ∧
        s.cleanSets cfg io (set :: rest) s.cache = some s.cache := by
  by_cases hgo : s.cleanStart ∧ 0 < s.cache.nrDirty ∧ s.shutdown = false
  · left
    simp [next, Draining.cleanSets, hpc, hset, h.start, h.shutdown, h.nrDirty, h.fastRemove,
      h.failed, hgo]
  · right
    rw [← h.start, ← h.shutdown, ← h.nrDirty] at hgo
    simp only [next, hpc, Draining.cleanSets, h.fastRemove, ← h.start, ← h.shutdown, ← h.nrDirty]
    simp [hset, hgo]

variable (hbug : d.sys.bug = none) (hok : d.failed = none)
include hbug hok

omit h in
theorem reach_next (hs : d.next g 0 = some d') : Run.Reach (step g) (fun _ _ => True) d d' := by
  refine .step (.run 0) .init trivial ?_
  rw [step, if_neg (by simp [hbug, hok])]
  exact hs

theorem Sees.result (hpc : d.pc = .result m) : ∃ d' ret,
    Run.Reach (step g) (fun _ _ => True) d d' ∧ d'.pc = .returned m ret ∧
      s.finishEnd 0 = .returned ret { s with cleanStart := false } ∧
      d'.Sees { s with cleanStart := false } := by
  have hfirst : d.next g 0 = some { d with
      start := false, pc := if s.shutdown then .resultDirty m else .returned m 0 } := by
    simp only [next, hpc, h.shutdown]
  have hrun := reach_next hbug hok hfirst
  split_ifs at hrun with hshut
  · refine ⟨_, _, hrun.trans (reach_next hbug hok rfl), rfl, ?_, { h with start := rfl }⟩
    simp only [Draining.finishEnd, hshut, true_or, true_and, h.nrDirty]
    split <;> rfl
  · exact ⟨_, 0, hrun, rfl, by simp [Draining.finishEnd, finishNrdirtyRetryCount, hshut],
      { h with start := rfl }⟩

/-- Behind the sets it begins the next pass, or returns what `Draining.finishEnd` does. -/
theorem Sees.again (hpc : d.pc = .again m) : ∃ d', Run.Reach (step g) (fun _ _ => True) d d' ∧
    if 0 < s.cache.nrDirty ∧ ¬ s.shutdown then d'.pc = .cleanAll m 0 ∧ d'.Sees s
    else ∃ ret, d'.pc = .returned m ret ∧
      s.finishEnd 0 = .returned ret { s with cleanStart := false } ∧
      d'.Sees { s with cleanStart := false } := by
  have hresult : ∃ d' ret, Run.Reach (step g) (fun _ _ => True) { d with pc := .result m } d' ∧ _ :=
    Sees.result (m := m) { h with } hbug hok rfl
  obtain ⟨d', ret, hrest, hret⟩ := hresult
  have hfirst : d.next g 0 = some { d with
      pc := if 0 < s.cache.nrDirty then .againFlag m else .result m } := by
    simp only [next, hpc, h.nrDirty]
  have hrun := reach_next hbug hok hfirst
  by_cases hdirty : 0 < s.cache.nrDirty
  · rw [if_pos hdirty] at hrun
    have hsecond : next g { d with pc := .againFlag m } 0 = some { d with
        pc := if s.shutdown then .result m else .cleanAll m 0 } := by
      rw [← h.shutdown]
      rfl
    have hrun₂ := hrun.trans (reach_next hbug hok hsecond)
    by_cases hshut : s.shutdown
    · rw [if_pos hshut] at hrun₂
      exact ⟨d', hrun₂.trans hrest, by rw [if_neg fun hgo => hgo.2 hshut]; exact ⟨ret, hret⟩⟩
    · rw [if_neg hshut] at hrun₂
      exact ⟨_, hrun₂, by rw [if_pos ⟨hdirty, hshut⟩]; exact ⟨rfl, { h with }⟩⟩
  · rw [if_neg hdirty] at hrun
    exact ⟨d', hrun.trans hrest, by rw [if_neg fun hgo => hdirty hgo.1]; exact ⟨ret, hret⟩⟩

end

end Drain

/-- A successful `eio_finish_nrdirty` leaves no dirty block, and none becomes dirty
while `EIO_CLEAN_KEEP` stays set. So the assertions on `nr_dirty` of `eio_cache_edit`
and `eio_cache_delete` do not fail, and a cache that leaves write-back is clean. -/
theorem drained_means_drained {g : Geom} {d : Drain} (h : Drain.Reachable g d) :
    (∀ m, d.pc = .returned m 0 → d.sys.nrDirty = 0 ∧
      ∀ d', Run.Reach (Drain.step g) (fun d _ => d.keep = true) d d' → d'.sys.nrDirty = 0) ∧
    d.failed ≠ some .editDirty ∧ d.failed ≠ some .deleteDirty ∧
    ∀ a d', d.mode = .wb → d.step g a = some d' → d'.mode ≠ .wb →
      ∀ i, (d'.sys.st g i).has dirty = false := by
  have hok := h.ok
  refine ⟨fun m hpc => ?_, hok.asserted.1, hok.asserted.2, fun a d' hwb hs hmode => ?_⟩
  · have hzero : d.sys.nrDirty = 0 := hok.dry (by rw [hpc]; rfl)
    have hu := (hok.kept (by rw [hpc]; rfl)).2
    exact ⟨hzero, fun d' hrun => (hok.drained_run (fun _ _ hk => hk) ⟨hu, hzero⟩ hrun).2⟩
  · exact hok.switch_away hwb hs hmode

/-- A clean of block 256 of set 1. -/
def cleaningRun : List Act :=
  [Act.cleanStart 1 [256]] ++ (List.range 8).map (Act.cleanReadSector 256) ++
  [Act.cleanReadDone 0] ++ (List.range 8).map (Act.cleanWriteSector 256) ++
  [Act.cleanWriteDone 0] ++ (List.range 8).map Act.cleanMdSector ++
  [Act.cleanMdDone 0, Act.cleanFinish]

/-- A block is written, the write ends, and an edit to write-through cleans the block. -/
def drainedRun : List DrainAct :=
  dirtyingWrite.map DrainAct.io ++
  [DrainAct.io (.cwLock 0), DrainAct.io (.put 0), DrainAct.io (.ebEndio 0 0)] ++
  (DrainAct.modify (.edit (some .wt)) :: List.replicate 6 (DrainAct.run 0)) ++
  cleaningRun.map DrainAct.io ++ List.replicate 4 (DrainAct.run 0)

theorem drained_means_drained_edit : ∃ d, Drain.Reachable smallCache d ∧
    d.pc = .returned (.edit (some .wt)) 0 ∧ d.sys.st smallCache 256 = valid ∧
    d.sys.hdd 2048 = some 0 ∧
    ∀ d', Run.Reach (Drain.step smallCache) (fun d _ => d.keep = true) d d' →
      d'.sys.nrDirty = 0 := by
  obtain ⟨d, hd, hpc, hst, hhdd⟩ : ∃ d, Drain.Reachable smallCache d ∧
      d.pc = .returned (.edit (some .wt)) 0 ∧ d.sys.st smallCache 256 = valid ∧
        d.sys.hdd 2048 = some 0 :=
    Run.Reach.of_run (fun _ _ => true) (fun _ _ _ => trivial) drainedRun (by decide +kernel)
  exact ⟨d, hd, hpc, hst, hhdd, ((drained_means_drained hd).1 _ hpc).2⟩

end EnhanceIO
