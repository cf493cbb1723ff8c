import EnhanceIO.InvalRange
import EnhanceIO.Lib.Run

/-!
# The invalidate file of a cache

A range is invalidated by two writes to the `invalidate` file of a cache, first
the sector and then the number of sectors. `eio_invalidate_sysctl` keeps what it
has so far in static variables, which all caches share and no lock protects. The
model has the statements of a call that touch them as steps of their own, so the
calls of several processes interleave.
-/

namespace EnhanceIO

open Sys State

/-! ## The file -/

/-- `eio_invalidate_sanity_check`: the number of sectors it leaves, `none` for
`-EINVAL`. The sum is a 64-bit one. -/
def invalidateSanityCheck (diskSize iosector numSectors : Nat) : Option Nat :=
  if numSectors = 0 then none
  else if diskSize ≤ iosector then none
  else if diskSize < (iosector + numSectors) % 2 ^ 64 then some (diskSize - iosector)
  else some numSectors

/-- The next statement of a call of `eio_invalidate_sysctl` that writes. -/
inductive SysctlPc where
  /-- no call -/
  | idle
  /-- the value is in `sysctl_pending` -/
  | parsed
  /-- `if (have_sector)` -/
  | test
  /-- `num_sectors = dmc->sysctl_active.invalidate` -/
  | count
  /-- `eio_invalidate_sanity_check` -/
  | check
  /-- the arguments of `eio_inval_range` -/
  | args
  /-- inside `eio_inval_range` -/
  | range (snum iosize : Nat)
  /-- `have_sector = 0` -/
  | clear
  /-- `sector = dmc->sysctl_active.invalidate` -/
  | first
  /-- `have_sector = 1` -/
  | mark
  /-- `num_sectors = 0` -/
  | reset
  deriving DecidableEq

/-- The statement reads or writes a static variable. -/
def SysctlPc.usesStatics : SysctlPc → Bool
  | .idle | .parsed | .range _ _ => false
  | _ => true

/-- A process, with the cache whose file it writes to. -/
structure SysctlCall where
  dmc : Nat
  pc : SysctlPc

/-- The static variables of `eio_invalidate_sysctl`, the caches with the pending and the
active value of their files, and the processes. -/
structure InvalSysctl where
  haveSector : Bool
  sector : Nat
  numSectors : Nat
  pending : Nat → Nat
  active : Nat → Nat
  sys : Nat → Sys
  call : Nat → SysctlCall

/-- A process writes a value, or goes on with its call. -/
inductive SysctlAct where
  | write (w dmc value : Nat)
  | step (w : Nat)

namespace InvalSysctl

variable (geom : Nat → Geom)

/-- The process goes to another statement. -/
def goto (s : InvalSysctl) (w : Nat) (pc : SysctlPc) : InvalSysctl :=
  { s with call := Function.update s.call w { s.call w with pc } }

/-- The next statement of process `w`, whose call is on cache `c`. -/
def statement (s : InvalSysctl) (w c : Nat) : SysctlPc → Option InvalSysctl
  | .idle => none
  | .parsed => some { s.goto w .test with active := Function.update s.active c (s.pending c) }
  | .test => some (s.goto w (if s.haveSector then .count else .first))
  | .count => some { s.goto w .check with numSectors := s.active c }
  | .check =>
    match invalidateSanityCheck (geom c).diskSize s.sector s.numSectors with
    | none => some (s.goto w .clear)
    | some n => some { s.goto w .args with numSectors := n }
  | .args => some (s.goto w (.range s.sector (s.numSectors * 512 % 2 ^ 32)))
  | .range snum iosize =>
    if iosize = 0 then some (s.goto w .clear)
    else
      some { s.goto w (.range (Sys.invalNext (geom c) snum % 2 ^ 64)
          (iosize - Sys.invalInset (geom c) snum iosize)) with
        sys := Function.update s.sys c ((s.sys c).invalRound (geom c) snum iosize) }
  | .clear => some { s.goto w .idle with haveSector := false }
  | .first => some { s.goto w .mark with sector := s.active c }
  | .mark => some { s.goto w .reset with haveSector := true }
  | .reset => some { s.goto w .idle with numSectors := 0 }

/-- One step. The parsing of the value is under `invalidate_spin_lock`. -/
def step (s : InvalSysctl) : SysctlAct → Option InvalSysctl
  | .write w dmc value =>
    if (s.call w).pc = .idle ∧ value < 2 ^ 64 then
      some { s with
        pending := Function.update s.pending dmc value
        call := Function.update s.call w ⟨dmc, .parsed⟩ }
    else none
  | .step w => s.statement geom w (s.call w).dmc (s.call w).pc

/-! ## Two writes in a row -/

/-- While process `w` writes to the file of cache `c`, the others are at the files of other
caches. -/
def Elsewhere (w c : Nat) (s : InvalSysctl) : SysctlAct → Prop
  | .write v d _ => v ≠ w ∧ d ≠ c
  | .step v => v = w ∨ (s.call v).dmc ≠ c

/-- The same, and none of them comes to a statement with a static variable. -/
def Apart (w c : Nat) (s : InvalSysctl) : SysctlAct → Prop
  | .write v d _ => v ≠ w ∧ d ≠ c
  | .step v => v = w ∨ (s.call v).dmc ≠ c ∧ (s.call v).pc.usesStatics = false

instance (w c : Nat) (s : InvalSysctl) : DecidablePred (Elsewhere w c s)
  | .write _ _ _ => inferInstanceAs (Decidable (_ ∧ _))
  | .step _ => inferInstanceAs (Decidable (_ ∨ _))

/-- A run in which process `w` writes `sector` to the file of cache `c` and, when it is
back, process `w'` writes `num`; the other steps satisfy `P`. -/
def Pair (P : Nat → Nat → InvalSysctl → SysctlAct → Prop) (c w w' sector num : Nat)
    (s s' : InvalSysctl) : Prop :=
  ∃ s₁ s₂ s₃, step geom s (.write w c sector) = some s₁ ∧
    Run.Reach (step geom) (P w c) s₁ s₂ ∧ (s₂.call w).pc = .idle ∧
    step geom s₂ (.write w' c num) = some s₃ ∧
    Run.Reach (step geom) (P w' c) s₃ s' ∧ (s'.call w').pc = .idle

/-- What a call of process `w` on cache `c` depends on. -/
structure View where
  haveSector : Bool
  sector : Nat
  numSectors : Nat
  pending : Nat
  active : Nat
  sys : Sys
  call : SysctlCall

def view (s : InvalSysctl) (w c : Nat) : View :=
  ⟨s.haveSector, s.sector, s.numSectors, s.pending c, s.active c, s.sys c, s.call w⟩

variable {geom} {s s' : InvalSysctl} {w c : Nat}

/-- A step of another process at a statement without static variables. -/
theorem view_of_statement {v d : Nat} (hv : v ≠ w) (hd : d ≠ c) {pc : SysctlPc}
    (hpc : pc.usesStatics = false) (h : s.statement geom v d pc = some s') :
    s'.view w c = s.view w c := by
  cases pc with
  | parsed =>
    cases h
    simp [view, goto, Function.update_of_ne hv.symm, Function.update_of_ne hd.symm]
  | range snum iosize =>
    simp only [statement] at h
    split at h
    · cases h
      simp [view, goto, Function.update_of_ne hv.symm]
    · cases h
      simp [view, goto, Function.update_of_ne hv.symm, Function.update_of_ne hd.symm]
  | idle => cases h
  | _ => cases hpc

/-- What a step apart from the pair does: it is one of the process, or the view stays. -/
theorem Apart.cases {a : SysctlAct} (ha : Apart w c s a) (h : step geom s a = some s') :
    (a = .step w ∧ s.statement geom w (s.call w).dmc (s.call w).pc = some s') ∨
      s'.view w c = s.view w c := by
  cases a with
  | write v d value =>
    obtain ⟨hv, hd⟩ := ha
    right
    simp only [step] at h
    split at h
    · cases h
      simp [view, Function.update_of_ne hv.symm, Function.update_of_ne hd.symm]
    · cases h
  | step v =>
    by_cases hv : v = w
    · subst hv
      exact .inl ⟨rfl, h⟩
    · obtain ⟨hd, hpc⟩ := ha.resolve_left hv
      exact .inr (view_of_statement hv hd hpc h)

/-- What the steps of the call keep is kept beside the steps of the others. -/
theorem Apart.reach {I : View → Prop} (hr : Run.Reach (step geom) (Apart w c) s s')
    (hI : ∀ {s s' : InvalSysctl}, I (s.view w c) →
      s.statement geom w (s.call w).dmc (s.call w).pc = some s' → I (s'.view w c))
    (h : I (s.view w c)) : I (s'.view w c) := by
  induction hr with
  | init => exact h
  | step a _ ha hs ih =>
    rcases ha.cases hs with ⟨_, hst⟩ | hview
    · exact hI ih hst
    · rw [hview]
      exact ih

/-! ## The first write -/

/-- How far the first write has come. -/
def First (sector c : Nat) (base : Sys) (v : View) : Prop :=
  v.call.dmc = c ∧ v.sys = base ∧
    match v.call.pc with
    | .parsed => v.haveSector = false ∧ v.pending = sector
    | .test => v.haveSector = false ∧ v.active = sector
    | .first => v.active = sector
    | .mark => v.sector = sector
    | .reset | .idle => v.haveSector = true ∧ v.sector = sector
    | _ => False

theorem First.statement {sector : Nat} {base : Sys} (h : First sector c base (s.view w c))
    (hs : s.statement geom w (s.call w).dmc (s.call w).pc = some s') :
    First sector c base (s'.view w c) := by
  obtain ⟨hdmc, hbase, hpc⟩ := h
  simp only [view] at hdmc hbase hpc
  rw [hdmc] at hs
  rcases hcase : (s.call w).pc with _ | _ | _ | _ | _ | _ | ⟨snum, iosize⟩ | _ | _ | _ | _ <;>
    rw [hcase] at hs hpc
  case idle => cases hs
  case parsed | first | mark | reset =>
    cases hs
    simp_all [First, view, goto]
  case test =>
    rw [InvalSysctl.statement, hpc.1] at hs
    cases hs
    exact ⟨by simp [view, goto, hdmc], hbase, by simpa [view, goto] using hpc.2⟩
  all_goals exact hpc.elim

/-! ## The second write -/

/-- How far the second write has come; `n` is the number of sectors the check leaves and
`final` the cache at the end of the walk. -/
def Second (g : Geom) (sector num n c : Nat) (base final : Sys) (v : View) : Prop :=
  v.call.dmc = c ∧
    match v.call.pc with
    | .parsed => v.haveSector = true ∧ v.sector = sector ∧ v.pending = num ∧ v.sys = base
    | .test => v.haveSector = true ∧ v.sector = sector ∧ v.active = num ∧ v.sys = base
    | .count => v.sector = sector ∧ v.active = num ∧ v.sys = base
    | .check => v.sector = sector ∧ v.numSectors = num ∧ v.sys = base
    | .args => v.sector = sector ∧ v.numSectors = n ∧ v.sys = base
    | .range snum iosize => RangeFits g snum iosize ∧
        ∃ rounds, Sys.invalRange g rounds snum iosize v.sys = some final
    | .clear | .idle => v.sys = final
    | _ => False

/-- What the second write needs: the check passes, and the walk counts its bytes right and
comes to an end. -/
structure Walks (g : Geom) (sector num n : Nat) (base final : Sys) : Prop where
  check : invalidateSanityCheck g.diskSize sector num = some n
  fits : RangeFits g sector (n * 512 % 2 ^ 32)
  walk : ∃ rounds, Sys.invalRange g rounds sector (n * 512 % 2 ^ 32) base = some final

/-- A walk that comes to an end takes its next round, or has no bytes left. -/
theorem invalRange_next {g : Geom} {rounds snum iosize : Nat} {sys final : Sys}
    (h : Sys.invalRange g rounds snum iosize sys = some final) :
    (iosize = 0 ∧ sys = final) ∨ iosize ≠ 0 ∧ ∃ rounds', rounds = rounds' + 1 ∧
      Sys.invalRange g rounds' (Sys.invalNext g snum % 2 ^ 64)
        (iosize - Sys.invalInset g snum iosize) (sys.invalRound g snum iosize) = some final := by
  by_cases h0 : iosize = 0
  · left
    cases rounds <;> rw [invalRange, if_pos h0] at h <;> exact ⟨h0, Option.some.inj h⟩
  · right
    cases rounds with
    | zero =>
      rw [invalRange, if_neg h0] at h
      cases h
    | succ rounds =>
      rw [invalRange, if_neg h0] at h
      exact ⟨h0, rounds, rfl, h⟩

theorem Second.statement {sector num n : Nat} {base final : Sys}
    (hw : Walks (geom c) sector num n base final)
    (h : Second (geom c) sector num n c base final (s.view w c))
    (hs : s.statement geom w (s.call w).dmc (s.call w).pc = some s') :
    Second (geom c) sector num n c base final (s'.view w c) := by
  obtain ⟨hdmc, hpc⟩ := h
  simp only [view] at hdmc hpc
  rw [hdmc] at hs
  rcases hcase : (s.call w).pc with _ | _ | _ | _ | _ | _ | ⟨snum, iosize⟩ | _ | _ | _ | _ <;>
    rw [hcase] at hs hpc
  case idle => cases hs
  case parsed | count | clear =>
    cases hs
    simp_all [Second, view, goto]
  case test =>
    rw [InvalSysctl.statement, hpc.1] at hs
    cases hs
    exact ⟨by simp [view, goto, hdmc], by simpa [view, goto] using hpc.2⟩
  case check =>
    rw [InvalSysctl.statement, hpc.1, hpc.2.1, hw.check] at hs
    cases hs
    exact ⟨by simp [view, goto, hdmc], by simpa [view, goto] using ⟨hpc.1, hpc.2.2⟩⟩
  case args =>
    rw [InvalSysctl.statement, hpc.1, hpc.2.1] at hs
    cases hs
    refine ⟨by simp [view, goto, hdmc], ?_⟩
    simpa [view, goto, hpc.2.2] using ⟨hw.fits, hw.walk⟩
  case range =>
    obtain ⟨hfit, rounds, hrun⟩ := hpc
    rcases invalRange_next hrun with ⟨h0, hend⟩ | ⟨h0, rounds', _, hnext⟩
    · rw [InvalSysctl.statement, if_pos h0] at hs
      cases hs
      exact ⟨by simp [view, goto, hdmc], by simpa [view, goto] using hend⟩
    · rw [InvalSysctl.statement, if_neg h0] at hs
      cases hs
      refine ⟨by simp [view, goto, hdmc], ?_⟩
      simpa [view, goto] using ⟨hfit.next, rounds', hnext⟩
  all_goals exact hpc.elim

/-! ## Calls return -/

/-- A bound on the statements a call has left. -/
def left : SysctlPc → Nat
  | .idle => 0
  | .clear | .reset => 1
  | .mark => 2
  | .first => 3
  | .range _ iosize => iosize + 2
  | .args => 2 ^ 32 + 3
  | .check => 2 ^ 32 + 4
  | .count => 2 ^ 32 + 5
  | .test => 2 ^ 32 + 6
  | .parsed => 2 ^ 32 + 7

/-- A statement brings a call closer to its end, and changes no other process. -/
theorem statement_left {pc : SysctlPc} (hpc : pc ≠ .idle)
    (hrange : ∀ snum iosize, pc = .range snum iosize → RangeFits (geom c) snum iosize) :
    ∃ s', s.statement geom w c pc = some s' ∧ left (s'.call w).pc < left pc ∧
      (s'.call w).dmc = (s.call w).dmc ∧ ∀ v ≠ w, s'.call v = s.call v := by
  have hothers : ∀ pc, ∀ v ≠ w, (s.goto w pc).call v = s.call v := fun pc v hv => by
    simp [goto, Function.update_of_ne hv]
  have hself : ∀ pc, (s.goto w pc).call w = { s.call w with pc } := fun pc => by simp [goto]
  cases pc with
  | idle => exact absurd rfl hpc
  | test =>
    refine ⟨_, rfl, ?_, by rw [hself], hothers _⟩
    rw [hself]
    cases s.haveSector <;> simp [left]
  | check =>
    rcases hcheck : invalidateSanityCheck (geom c).diskSize s.sector s.numSectors with _ | n
    · refine ⟨_, by rw [statement, hcheck], ?_, by rw [hself], hothers _⟩
      rw [hself]
      simp [left]
    · refine ⟨{ s.goto w .args with numSectors := n }, by rw [statement, hcheck], ?_, ?_,
        hothers _⟩
      · simp only [hself]
        decide
      · simp only [hself]
  | args =>
    refine ⟨_, rfl, ?_, by rw [hself], hothers _⟩
    rw [hself]
    have hlt := Nat.mod_lt (s.numSectors * 512) (Nat.two_pow_pos 32)
    simp only [left]
    omega
  | range snum iosize =>
    by_cases h0 : iosize = 0
    · refine ⟨_, by rw [statement, if_pos h0], ?_, by rw [hself], hothers _⟩
      rw [hself]
      simp [left]
    · obtain ⟨hn, hlt⟩ := invalInset_eq (hrange snum iosize rfl)
      refine ⟨{ s.goto w (.range (invalNext (geom c) snum % 2 ^ 64)
          (iosize - invalInset (geom c) snum iosize)) with
        sys := Function.update s.sys c ((s.sys c).invalRound (geom c) snum iosize) },
        by rw [statement, if_neg h0], ?_, ?_, hothers _⟩
      · simp only [hself, left]
        omega
      · simp only [hself]
  | _ =>
    refine ⟨_, rfl, ?_, ?_, hothers _⟩
    · simp only [hself]
      decide
    · simp only [hself]

/-- Wherever the call of `w` comes to, it counts the bytes of its walk right. -/
def Counts (geom : Nat → Geom) (w c : Nat) (s : InvalSysctl) : Prop :=
  ∀ t, Run.Reach (step geom) (Apart w c) s t → ∀ snum iosize,
    (t.call w).pc = .range snum iosize → RangeFits (geom c) snum iosize

/-- A call that is scheduled returns. -/
theorem returns : ∀ (k : Nat) (s : InvalSysctl), left (s.call w).pc = k → (s.call w).dmc = c →
    Counts geom w c s → ∃ s', Run.Reach (step geom) (Apart w c) s s' ∧
      (s'.call w).pc = .idle ∧ ∀ v ≠ w, s'.call v = s.call v := by
  intro k
  induction k using Nat.strong_induction_on with
  | _ k ih =>
    intro s hk hdmc hcounts
    by_cases hidle : (s.call w).pc = .idle
    · exact ⟨s, .init, hidle, fun _ _ => rfl⟩
    · obtain ⟨t, ht, hleft, hsame, hothers⟩ :=
        statement_left (s := s) (w := w) (c := c) hidle (hcounts s .init)
      have hstep : step geom s (.step w) = some t := by rw [step, hdmc, ht]
      have hrun : Run.Reach (step geom) (Apart w c) s t :=
        .step (.step w) .init (.inl rfl) hstep
      obtain ⟨s', hr, hend, hothers'⟩ := ih _ (hk ▸ hleft) t rfl (hsame.trans hdmc)
        fun u hu => hcounts u (hrun.trans hu)
      refine ⟨s', hrun.trans hr, hend, ?_⟩
      intro v hv
      rw [hothers' v hv, hothers v hv]

/-! ## What the two writes do -/

theorem step_write (geom : Nat → Geom) {d value : Nat} (hidle : (s.call w).pc = .idle)
    (hvalue : value < 2 ^ 64) : ∃ s', step geom s (.write w d value) = some s' ∧
      (s'.call w).dmc = d ∧ ∀ v ≠ w, s'.call v = s.call v := by
  refine ⟨_, if_pos ⟨hidle, hvalue⟩, by simp, fun v hv => ?_⟩
  exact Function.update_of_ne hv _ _

theorem First.write {sector : Nat} (hclear : s.haveSector = false)
    (hs : step geom s (.write w c sector) = some s') : First sector c (s.sys c) (s'.view w c) := by
  obtain ⟨-, rfl⟩ := Option.ite_some_none_eq_some.mp hs
  simp [First, view, hclear]

theorem Second.write {sector num n : Nat} {final : Sys}
    (hmid : s.haveSector = true ∧ s.sector = sector)
    (hs : step geom s (.write w c num) = some s') :
    Second (geom c) sector num n c (s.sys c) final (s'.view w c) := by
  obtain ⟨-, rfl⟩ := Option.ite_some_none_eq_some.mp hs
  simp [Second, view, hmid]

section
variable {w' sector num n : Nat} {final : Sys}
  (hw : Walks (geom c) sector num n (s.sys c) final) (hclear : s.haveSector = false)
include hw hclear

/-- The cache after the pair, when no process in between comes to the static variables. -/
theorem Pair.sys_eq (h : Pair geom Apart c w w' sector num s s') : s'.sys c = final := by
  obtain ⟨s₁, s₂, s₃, hs₁, hr₁, hidle, hs₃, hr₂, hidle'⟩ := h
  obtain ⟨_, hbase, hmid⟩ := Apart.reach hr₁ First.statement (.write hclear hs₁)
  simp only [view, hidle] at hbase hmid
  rw [← hbase] at hw
  obtain ⟨_, hend⟩ := Apart.reach hr₂ (Second.statement hw) (.write hmid hs₃)
  simpa only [view, hidle'] using hend

/-- A pair of writes comes to its end. -/
theorem Pair.exists (hidle : (s.call w).pc = .idle) (hidle' : (s.call w').pc = .idle)
    (hsector : sector < 2 ^ 64) (hnum : num < 2 ^ 64) :
    ∃ s', Pair geom Apart c w w' sector num s s' := by
  obtain ⟨s₁, hs₁, hdmc, hsame⟩ := step_write geom (d := c) hidle hsector
  have hfirst : First sector c (s.sys c) (s₁.view w c) := .write hclear hs₁
  -- the first write does not come to a walk
  have hcounts : Counts geom w c s₁ := fun t hr snum iosize hpc => by
    have hat := (Apart.reach hr First.statement hfirst).2.2
    simp only [view, hpc] at hat
  obtain ⟨s₂, hr₁, hend, hothers⟩ := returns _ s₁ rfl hdmc hcounts
  obtain ⟨_, hbase, hmid⟩ := Apart.reach hr₁ First.statement hfirst
  simp only [view, hend] at hbase hmid
  rw [← hbase] at hw
  have hidle₂ : (s₂.call w').pc = .idle := by
    by_cases hww : w' = w
    · rw [hww]
      exact hend
    · rw [hothers w' hww, hsame w' hww]
      exact hidle'
  obtain ⟨s₃, hs₃, hdmc', -⟩ := step_write geom (d := c) hidle₂ hnum
  have hcounts' : Counts geom w' c s₃ := fun t hr snum iosize hpc => by
    have hat := (Apart.reach hr (Second.statement hw) (.write hmid hs₃)).2
    simp only [view, hpc] at hat
    exact hat.1
  obtain ⟨s', hr₂, hend', -⟩ := returns _ s₃ rfl hdmc' hcounts'
  exact ⟨s', s₁, s₂, s₃, hs₁, hr₁, hend, hs₃, hr₂, hend'⟩

end

/-- A step changes no cache but the one of its call. -/
theorem statement_sys {d : Nat} (hd : d ≠ c) {pc : SysctlPc}
    (h : s.statement geom w c pc = some s') : s'.sys d = s.sys d := by
  cases pc with
  | idle => cases h
  | check =>
    simp only [statement] at h
    split at h <;> cases h <;> rfl
  | range snum iosize =>
    simp only [statement] at h
    split at h
    · cases h
      rfl
    · cases h
      exact Function.update_of_ne hd _ _
  | _ =>
    cases h
    rfl

/-- `num_sectors` after the check, for a range that starts on the disk. -/
def checkedCount (diskSize sector num : Nat) : Nat :=
  if diskSize < (sector + num) % 2 ^ 64 then diskSize - sector else num

/-- The part of the count that survives as a 32-bit number of bytes still covers the range. -/
def CountFits (diskSize sector num : Nat) : Prop :=
  min num (diskSize - sector) ≤ checkedCount diskSize sector num % 2 ^ 23

instance (diskSize sector num : Nat) : Decidable (CountFits diskSize sector num) :=
  inferInstanceAs (Decidable (_ ≤ _))

theorem sanityCheck_eq {diskSize sector num : Nat} (hnum : 0 < num) (hsector : sector < diskSize) :
    invalidateSanityCheck diskSize sector num = some (checkedCount diskSize sector num) := by
  rw [invalidateSanityCheck, if_neg (by omega), if_neg (by omega), checkedCount]
  split <;> rfl

/-- Block `i` is valid and holds a sector from `lo` up to `hi`. -/
def HoldsIn (g : Geom) (sys : Sys) (lo hi i : Nat) : Prop :=
  (sys.st g i).has valid = true ∧
    ∃ x, lo ≤ x ∧ x < hi ∧ sys.dbn g i ≤ x ∧ x < sys.dbn g i + g.blockSize

/-- The blocks the walk looks for are those of the range. -/
theorem overlaps_iff {g : Geom} {sys : Sys} (hok : MapOk g sys) {sector num : Nat}
    (hsector : sector < g.diskSize) (hnum : 0 < num) (hnum' : num < 2 ^ 64)
    (hfits : CountFits g.diskSize sector num) (i : Nat) :
    sys.Overlaps g sector (checkedCount g.diskSize sector num * 512 % 2 ^ 32) i ↔
      HoldsIn g sys sector (min (sector + num) g.diskSize) i := by
  have hdisk := g.diskSize_lt
  have hsect : checkedCount g.diskSize sector num * 512 % 2 ^ 32 / 512 =
      checkedCount g.diskSize sector num % 2 ^ 23 := by omega
  have hsmall := Nat.mod_lt (checkedCount g.diskSize sector num) (Nat.two_pow_pos 23)
  -- a count past the end of the disk is one whose sum has wrapped
  have hcount : checkedCount g.diskSize sector num = min num (g.diskSize - sector) ∨
      g.diskSize ≤ sector + num := by
    rw [checkedCount]
    split <;> omega
  rw [CountFits] at hfits
  rw [Sys.Overlaps, HoldsIn, hsect]
  generalize checkedCount g.diskSize sector num = n at *
  apply and_congr_right
  intro hv
  have hon := (hok.placed i hv).onDisk
  constructor
  · rintro ⟨k, hk, hlo, hhi⟩
    rw [Nat.mod_eq_of_lt (by omega)] at hlo hhi
    by_cases hin : sector + k < min (sector + num) g.diskSize
    · exact ⟨sector + k, by omega, hin, hlo, hhi⟩
    · -- the sector is past the disk; the block also holds one before its end
      refine ⟨max sector (sys.dbn g i), by omega, ?_, by omega, by omega⟩
      have hle := Nat.mod_le n (2 ^ 23)
      omega
  · rintro ⟨x, hlo, hhi, hin⟩
    refine ⟨x - sector, by omega, ?_⟩
    rw [Nat.mod_eq_of_lt (by omega)]
    omega

/-- What a pair of writes is for: no block of the range that was clean and idle is valid,
and the blocks outside the range are as they were. -/
structure PairDone (g : Geom) (lo hi : Nat) (sys sys' : Sys) : Prop where
  gone : ∀ i, HoldsIn g sys lo hi i →
    (sys.st g i).has (blockIoInprog ||| dirty ||| queued) = false →
    (sys'.st g i).has valid = false
  outside : ∀ i, ¬ HoldsIn g sys lo hi i →
    sys'.st g i = sys.st g i ∧ sys'.dbn g i = sys.dbn g i

/-- Two writes to the file of a cache, the first when no half of another pair is waiting and
no other process at the static variables before the second is back, with a count that fits and
a walk that counts its bytes right: they come to an end, and have then invalidated the range
up to the end of the disk. No write to a file changes another cache. -/
theorem pair_invalidates (geom : Nat → Geom) (c w w' sector num : Nat) (s : InvalSysctl)
    (hsize : (geom c).size < 2 ^ 31) (hok : MapOk (geom c) (s.sys c))
    (hsector : sector < (geom c).diskSize) (hnum : 0 < num) (hnum' : num < 2 ^ 64)
    (hclear : s.haveSector = false) (hfits : CountFits (geom c).diskSize sector num)
    (hwalk : RangeFits (geom c) sector (checkedCount (geom c).diskSize sector num * 512 % 2 ^ 32))
    (hidle : (s.call w).pc = .idle) (hidle' : (s.call w').pc = .idle) :
    (∃ s', Pair geom Apart c w w' sector num s s') ∧
      (∀ s', Pair geom Apart c w w' sector num s s' →
        PairDone (geom c) sector (min (sector + num) (geom c).diskSize) (s.sys c) (s'.sys c)) ∧
      ∀ (t t' : InvalSysctl) (v d : Nat), step geom t (.step v) = some t' → d ≠ (t.call v).dmc →
        t'.sys d = t.sys d := by
  have hdisk := (geom c).diskSize_lt
  obtain ⟨final, hrun, hinv⟩ := invalRange_invalidates hsize _ sector
    (checkedCount (geom c).diskSize sector num * 512 % 2 ^ 32) (s.sys c) hwalk (by omega)
    (by omega) (Nat.le_refl _)
  have hw : Walks (geom c) sector num _ (s.sys c) final :=
    ⟨sanityCheck_eq hnum hsector, hwalk, _, hrun⟩
  refine ⟨Pair.exists hw hclear hidle hidle' (by omega) hnum', ?_, ?_⟩
  · intro s' hpair
    have hdone := hinv.rangeInvalidated hok
    have hiff := overlaps_iff hok hsector hnum hnum' hfits
    rw [hpair.sys_eq hw hclear]
    constructor
    · intro i hi hclean
      rw [hdone.dropped i ((hiff i).mpr hi) hclean]
      decide
    · intro i hi
      exact hdone.kept i fun hcase => hi ((hiff i).mp hcase.1)
  · intro t t' v d hs hd
    exact statement_sys hd hs

/-! ## Pairs that fail -/

/-- A cache in front of a disk of 8 GiB. -/
def wideDisk : Geom :=
  .ofSizes .wb 3 8 4 (2 ^ 24) (by decide)

/-- Caches with one block each and no write to a file so far. -/
def fresh : InvalSysctl where
  haveSector := false
  sector := 0
  numSectors := 0
  pending := fun _ => 0
  active := fun _ => 0
  sys := fun _ => Sys.oneBlock wideDisk
  call := fun _ => ⟨0, .idle⟩

theorem fresh_holdsIn {hi : Nat} (h : 0 < hi) : HoldsIn wideDisk (fresh.sys 0) 0 hi 0 := by
  refine ⟨?_, 0, Nat.le_refl 0, h, ?_⟩
  · rw [show fresh.sys 0 = oneBlock wideDisk from rfl, oneBlock_st, if_pos rfl]
    decide
  · rw [show fresh.sys 0 = oneBlock wideDisk from rfl, oneBlock_dbn]
    decide

theorem pair_invalidates_first : ∃ s', Pair (fun _ => wideDisk) Apart 0 0 0 0 8 fresh s' ∧
    ((fresh.sys 0).st wideDisk 0).has valid = true ∧
    ((s'.sys 0).st wideDisk 0).has valid = false := by
  obtain ⟨⟨s', hpair⟩, hdone, _⟩ := pair_invalidates (fun _ => wideDisk) 0 0 0 0 8 fresh
    (by decide) (oneBlock_mapOk (by decide)) (by decide) (by decide) (by decide) rfl (by decide)
    (by decide) rfl rfl
  have hholds := fresh_holdsIn (by decide : 0 < min (0 + 8) (2 ^ 24))
  refine ⟨s', hpair, hholds.1, (hdone s' hpair).gone 0 hholds ?_⟩
  rw [show fresh.sys 0 = oneBlock wideDisk from rfl, oneBlock_st, if_pos rfl]
  decide

theorem Pair.of_exec (geom : Nat → Geom) (c w w' sector num : Nat) {s : InvalSysctl}
    (as bs : List SysctlAct) {R : InvalSysctl → Bool}
    (h : ((step geom s (.write w c sector)).bind fun s₁ =>
      (Run.exec (step geom) (fun s a => decide (Elsewhere w c s a)) s₁ as).bind fun s₂ =>
      (if (s₂.call w).pc = .idle then step geom s₂ (.write w' c num) else none).bind fun s₃ =>
      Run.exec (step geom) (fun s a => decide (Elsewhere w' c s a)) s₃ bs).any
        (fun s' => decide ((s'.call w').pc = .idle) && R s') = true) :
    ∃ s', Pair geom Elsewhere c w w' sector num s s' ∧ R s' = true := by
  obtain ⟨s', hs', hend⟩ := (Option.any_eq_true _ _).mp h
  obtain ⟨s₁, hs₁, hs'⟩ := Option.bind_eq_some_iff.mp hs'
  obtain ⟨s₂, hs₂, hs'⟩ := Option.bind_eq_some_iff.mp hs'
  obtain ⟨s₃, hs₃, hs'⟩ := Option.bind_eq_some_iff.mp hs'
  rw [Bool.and_eq_true, decide_eq_true_iff] at hend
  split at hs₃
  · next hidle =>
    exact ⟨s', ⟨s₁, s₂, s₃, hs₁, .of_exec (fun _ _ => of_decide_eq_true) .init hs₂, hidle, hs₃,
      .of_exec (fun _ _ => of_decide_eq_true) .init hs', hend.1⟩, hend.2⟩
  · cases hs₃

/-- The call of a process from its parsed value to the end of its first write. -/
def storeSector (w : Nat) : List SysctlAct := List.replicate 5 (.step w)

/-- Two ways to keep a block of the range: a write to the file of another cache between the
two, which takes the sector for its own; and a count of 2^23 sectors, whose number of bytes
is 0 in 32 bits. -/
theorem pair_keeps_block :
    (∃ s', Pair (fun _ => wideDisk) Elsewhere 0 0 0 0 8 fresh s' ∧
      HoldsIn wideDisk (fresh.sys 0) 0 8 0 ∧ (fresh.sys 0).st wideDisk 0 = valid ∧
      ((s'.sys 0).st wideDisk 0).has valid = true) ∧
    ∃ s', Pair (fun _ => wideDisk) Elsewhere 0 0 0 0 (2 ^ 23) fresh s' ∧
      HoldsIn wideDisk (fresh.sys 0) 0 (2 ^ 23) 0 ∧ (fresh.sys 0).st wideDisk 0 = valid ∧
      ((s'.sys 0).st wideDisk 0).has valid = true := by
  have hvalid : (fresh.sys 0).st wideDisk 0 = valid := by
    rw [show fresh.sys 0 = oneBlock wideDisk from rfl, oneBlock_st, if_pos rfl]
  constructor
  · obtain ⟨s', hpair, hkept⟩ := Pair.of_exec (fun _ => wideDisk) 0 0 0 0 8
      (s := fresh) (storeSector 0 ++ [.write 1 1 8] ++ List.replicate 8 (.step 1)) (storeSector 0)
      (R := fun s' => ((s'.sys 0).st wideDisk 0).has valid) (by decide +kernel)
    exact ⟨s', hpair, fresh_holdsIn (by decide), hvalid, hkept⟩
  · obtain ⟨s', hpair, hkept⟩ := Pair.of_exec (fun _ => wideDisk) 0 0 0 0 (2 ^ 23)
      (s := fresh) (storeSector 0) (List.replicate 7 (.step 0))
      (R := fun s' => ((s'.sys 0).st wideDisk 0).has valid) (by decide +kernel)
    exact ⟨s', hpair, fresh_holdsIn (by decide), hvalid, hkept⟩

end InvalSysctl
end EnhanceIO
