import EnhanceIO.CleanSet
import Mathlib.Algebra.Order.BigOperators.Group.List

/-!
# Draining the dirty blocks

`eio_finish_nrdirty` cleans all sets of a cache, in passes of `eio_clean_all`, before
the cache changes its mode. The I/O of each pass may fail at other places.

A pass is over `eio_clean_set`, as `CleanSet` has it. The wait for the I/Os in flight at
the start is over, and nobody else works on the cache meanwhile.
-/

namespace EnhanceIO

/-- A cache that is being drained, with the flags the loops look at. -/
structure Draining (α : Type*) where
  cache : CleanCache α
  /-- `EIO_CLEAN_START` and `EIO_CLEAN_KEEP` of `do_clean` -/
  cleanStart : Bool
  cleanKeep : Bool
  /-- `CACHE_FLAGS_SHUTDOWN_INPROG` -/
  shutdown : Bool
  fastRemove : Bool

/-- The outcome of `eio_finish_nrdirty`; `running` is the one after too few rounds. -/
inductive FinishResult (α : Type*)
  | returned (ret : Int) (s : Draining α)
  | assertion
  | running

/-- `FINISH_NRDIRTY_RETRY_COUNT`. -/
def finishNrdirtyRetryCount : Nat := 2

namespace Draining

variable {α : Type*} (cfg : CleanCfg)

/-- The loop of `eio_clean_all` over the sets still to come; `none` if an assertion fails. -/
def cleanSets (s : Draining α) (io : Nat → CleanIo) :
    List Nat → CleanCache α → Option (CleanCache α)
  | [], c => some c
  | set :: rest, c =>
    if ¬ (s.cleanStart ∧ 0 < c.nrDirty ∧ ¬ s.shutdown ∧ ¬ s.fastRemove) then some c
    else if c.failed then some c
    else (c.cleanSet cfg (io set) set true true).bind fun c => cleanSets s io rest c

/-- `eio_clean_all`, with the outcome of the I/O for each set. -/
def cleanAll (io : Nat → CleanIo) (s : Draining α) : Option (Draining α) :=
  if cfg.mode ≠ .wb then none
  else (s.cleanSets cfg io (List.range cfg.numSets) s.cache).map fun c =>
    { s with cache := c, cleanStart := false }

/-- What follows the loop of `eio_finish_nrdirty`. Nothing has changed `retry_count`. -/
def finishEnd (ret : Int) (s : Draining α) : FinishResult α :=
  if (s.shutdown ∨ finishNrdirtyRetryCount = 0) ∧ 0 < s.cache.nrDirty then
    .returned (-22) { s with cleanStart := false }
  else .returned ret { s with cleanStart := false }

/-- At most `rounds` rounds of the loop of `eio_finish_nrdirty` from pass `pass` on. -/
def finishLoop (io : Nat → Nat → CleanIo) : Nat → Nat → Draining α → FinishResult α
  | 0, _, _ => .running
  | rounds + 1, pass, s =>
    if s.cache.failed then finishEnd (-19) s
    else
      match if s.fastRemove then some s else s.cleanAll cfg (io pass) with
      | none => .assertion
      | some s =>
        if ¬ s.fastRemove ∧ 0 < s.cache.nrDirty ∧ ¬ s.shutdown then
          finishLoop io rounds (pass + 1) s
        else finishEnd 0 s

/-- `eio_finish_nrdirty`; `io pass set` is how the devices serve the clean of a set in a
pass. -/
def finishNrdirty (io : Nat → Nat → CleanIo) (rounds : Nat) (s : Draining α) : FinishResult α :=
  if s.cleanStart then .assertion
  else finishLoop cfg io rounds 0 { s with cleanKeep := true, cleanStart := true }

end Draining

/-! ## The whole clean of one set -/

namespace CleanCache

variable {α : Type*} {cfg : CleanCfg} {io : CleanIo} {set : Nat} {c c' : CleanCache α}

/-- The blocks a whole clean selects. -/
def setDirtyBlocks (cfg : CleanCfg) (set : Nat) (st : Nat → State) : Finset Nat :=
  ((List.range' (set * cfg.assoc) cfg.assoc).filter fun i =>
    st i = State.alreadyDirty).toFinset

theorem mem_setDirtyBlocks {st : Nat → State} {i : Nat} : i ∈ setDirtyBlocks cfg set st ↔
    InSet (set * cfg.assoc) cfg.assoc i ∧ st i = State.alreadyDirty := by
  rw [setDirtyBlocks, List.mem_toFinset, List.mem_filter, List.mem_range'_1, decide_eq_true_iff]
  rfl

/-- The I/Os of a whole clean of the set all succeed, there are segments for the blocks, and
the metadata fit. -/
structure CleanOk (cfg : CleanCfg) (io : CleanIo) (set : Nat) (st : Nat → State) : Prop where
  sized : cfg.Sized
  fits : MdFits cfg
  succeeds : Succeeds io (setRuns cfg set (withMarks st (setDirtyBlocks cfg set st)))
    (· ∈ setDirtyBlocks cfg set st)

theorem cleanData_cases {c₁ : CleanCache α} {error : Int}
    (hdbn : DbnsOk cfg c.dbn fun i => i ∈ c.markedBlocks cfg set)
    (hsome : ∃ i, i ∈ c.markedBlocks cfg set)
    (hrun : c.cleanData cfg io set = some (c₁, error)) :
    (∃ mem hdd mdPages md,
      c₁ = { c with mem := mem, hdd := hdd, mdPages := mdPages, md := md }) ∧
    cfg.Sized ∧ (error = 0 ↔ MdFits cfg ∧
      Succeeds io (setRuns cfg set c.st) fun i => i ∈ c.markedBlocks cfg set) := by
  have h : cfg.Sized := by
    obtain ⟨i, hi⟩ := hsome
    by_contra hsized
    rw [cleanData_unsized hsized io hi] at hrun
    cases hrun
  by_cases hmd : MdFits cfg
  · obtain ⟨mem, hdd, mdPages, md, error', hdata, herror, -⟩ :=
      cleanData_spec h hmd io set c hdbn
    cases Option.some.inj (hdata.symm.trans hrun)
    exact ⟨⟨mem, hdd, mdPages, md, rfl⟩, h, by simp only [herror, hmd, true_and]⟩
  · obtain ⟨mem, rerror, hread, -, -⟩ := readPhase_spec h io set c
    obtain ⟨hdd, werror, hwrite, -, -⟩ := writePhase_spec h io set { c with mem := mem } hdbn
    rw [cleanData, hread, Option.bind_some] at hrun
    simp only at hrun
    split at hrun
    · next hr =>
      cases hrun
      exact ⟨⟨mem, c.hdd, c.mdPages, c.md, rfl⟩, h, iff_of_false hr fun hok => hmd hok.1⟩
    · rw [hwrite, Option.bind_some] at hrun
      simp only at hrun
      split at hrun
      · next hw =>
        cases hrun
        exact ⟨⟨mem, hdd, c.mdPages, c.md, rfl⟩, h, iff_of_false hw fun hok => hmd hok.1⟩
      · rw [mdPhase_none hmd io set _] at hrun
        cases hrun

/-- A clean of a set leaves the rest of the cache alone. -/
structure Frame (cfg : CleanCfg) (set : Nat) (c c' : CleanCache α) : Prop where
  st : ∀ i, ¬ InSet (set * cfg.assoc) cfg.assoc i → c'.st i = c.st i
  setDirty : ∀ set', set' ≠ set → c'.setDirty set' = c.setDirty set'
  wlocked : ∀ set', set' ≠ set → c'.wlocked set' = c.wlocked set'
  dbn : c'.dbn = c.dbn
  pol : c'.pol = c.pol
  failed : c'.failed = c.failed

/-- A whole clean that comes to its end: the dirty blocks of the set are gone if its I/Os
succeed, and otherwise they are all there. -/
theorem cleanSet_whole (hc : Ready cfg set c) (hfailed : c.failed = false)
    (hrun : c.cleanSet cfg io set true true = some c') :
    Frame cfg set c c' ∧
      (CleanOk cfg io set c.st → c'.nrDirty = c.nrDirty - c.setDirty set) ∧
      (¬ CleanOk cfg io set c.st → c'.nrDirty = c.nrDirty) := by
  by_cases hzero : c.setDirty set = 0
  · rw [cleanSet, if_neg (by simp [hfailed]), if_pos hzero] at hrun
    cases hrun
    refine ⟨⟨fun _ _ => rfl, fun _ _ => rfl, fun _ _ => rfl, rfl, rfl, rfl⟩, fun _ => ?_,
      fun _ => rfl⟩
    rw [hzero]
    exact (Int.sub_zero _).symm
  · obtain ⟨m, pol, blocks, hsel, hst, hwrites, hblocks⟩ := select_spec hc true
    have hpol : pol = c.pol := by
      rw [select, if_pos rfl] at hsel
      exact (Prod.mk.inj (Option.some.inj hsel)).2.symm
    have hall : blocks = setDirtyBlocks cfg set c.st := by
      ext i
      rw [hblocks.all rfl, mem_setDirtyBlocks]
    have hcard : blocks.card = c.setDirty set := by
      rw [hc.setDirty, hall, setDirtyBlocks, List.toFinset_card_of_nodup
        (List.Nodup.filter _ List.nodup_range'), dirtyBlocks, List.countP_eq_length_filter]
    rw [cleanSet_of_select io ⟨hfailed, .inl rfl⟩ hzero hsel hst, hwrites, hcard, if_neg hzero,
      Option.bind_eq_some_iff] at hrun
    obtain ⟨⟨c₁, error⟩, hdata, hfinish⟩ := hrun
    have hdbn := hblocks.dbnsOk hc
    rw [← hblocks.markedBlocks_eq hc pol] at hdbn
    have hsome : ∃ i, i ∈ (c.marking set blocks pol).markedBlocks cfg set := by
      obtain ⟨i, hi⟩ : blocks.Nonempty := Finset.card_ne_zero.mp (hcard ▸ hzero)
      exact ⟨i, (congrFun (hblocks.markedBlocks_eq hc pol) i).mpr hi⟩
    obtain ⟨⟨mem, hdd, mdPages, md, rfl⟩, hsized, herror⟩ := cleanData_cases hdbn hsome hdata
    rw [hblocks.markedBlocks_eq hc] at herror
    have hok : error = 0 ↔ CleanOk cfg io set c.st := by
      rw [herror]
      constructor
      · rintro ⟨hfits, hsucc⟩
        exact ⟨hsized, hfits, hall ▸ hsucc⟩
      · rintro ⟨-, hfits, hsucc⟩
        exact ⟨hfits, hall ▸ hsucc⟩
    have houtside : ∀ i, ¬ InSet (set * cfg.assoc) cfg.assoc i → i ∉ blocks :=
      fun i hi hmem => hi (hblocks.mem i hmem).1
    have htagged := hblocks.tagged_eq hc
    simp only [finish] at hfinish
    by_cases he : error = 0
    · subst he
      rw [foldlM_finishOne_ok set _ List.nodup_range'
        (htagged.trans hcard).le, Option.map_some] at hfinish
      cases hfinish
      refine ⟨⟨fun i hi => ?_, fun set' hne => Function.update_of_ne hne _ _, fun set' hne => ?_,
        rfl, hpol, rfl⟩, fun _ => ?_, fun hnot => absurd (hok.mp rfl) hnot⟩
      · exact (congrFun (hblocks.retag_eq hc State.valid) i).trans (if_neg (houtside i hi))
      · exact (Function.update_of_ne hne _ _).trans (Function.update_of_ne hne _ _)
      · show c.nrDirty - (tagged (withMarks c.st blocks)
          (List.range' (set * cfg.assoc) cfg.assoc) State.cleanInprog : Nat) =
            c.nrDirty - c.setDirty set
        rw [htagged, hcard]
    · rw [foldlM_finishOne_error he, Option.map_some] at hfinish
      cases hfinish
      refine ⟨⟨fun i hi => ?_, fun _ _ => rfl, fun set' hne => ?_, rfl, hpol, rfl⟩,
        fun h' => absurd (hok.mpr h') he, fun _ => rfl⟩
      · exact (congrFun (hblocks.retag_eq hc State.alreadyDirty) i).trans (if_neg (houtside i hi))
      · exact (Function.update_of_ne hne _ _).trans (Function.update_of_ne hne _ _)

/-- A whole clean comes to its end if the set is clean or its I/Os succeed. -/
theorem cleanSet_whole_some (hc : Ready cfg set c) (hfailed : c.failed = false)
    (hok : c.setDirty set ≠ 0 → CleanOk cfg io set c.st) :
    ∃ c', c.cleanSet cfg io set true true = some c' := by
  by_cases hzero : c.setDirty set = 0
  · exact ⟨_, by rw [cleanSet, if_neg (by simp [hfailed]), if_pos hzero]⟩
  · obtain ⟨c', -, hrun, -⟩ := cleanSet_spec (hok hzero).sized (hok hzero).fits io hc true true
    exact ⟨c', hrun⟩

/-! ## The other sets -/

theorem runEnd_congr {st st' : Nat → State} : ∀ (left j : Nat),
    (∀ i, j ≤ i → i < j + left → st' i = st i) → runEnd st' left j = runEnd st left j := by
  intro left
  induction left with
  | zero => exact fun _ _ => rfl
  | succ left ih =>
    intro j hsame
    rw [runEnd, runEnd, hsame j le_rfl (by omega),
      ih (j + 1) fun i hlo hhi => hsame i (by omega) (by omega)]

theorem runs_congr {st st' : Nat → State} {endIndex : Nat} : ∀ (rounds i : Nat),
    (∀ j, i ≤ j → j < endIndex → st' j = st j) →
      runs st' endIndex rounds i = runs st endIndex rounds i := by
  intro rounds
  induction rounds with
  | zero => exact fun _ _ => rfl
  | succ rounds ih =>
    intro i hsame
    rw [runs, runs]
    by_cases hi : i < endIndex
    · have hend : runEnd st' (endIndex - i) i = runEnd st (endIndex - i) i :=
        runEnd_congr _ _ fun j hlo hhi => hsame j hlo (by omega)
      have hle := (runEnd_spec st (endIndex - i) i).1
      have hnext := ih (i + 1) fun j hlo hhi => hsame j (by omega) hhi
      have hrest := ih (runEnd st (endIndex - i) i + 1) fun j hlo hhi => hsame j (by omega) hhi
      simp only [if_pos hi, hsame i le_rfl hi, hend, hnext, hrest]
    · rw [if_neg hi, if_neg hi]

/-- Which I/Os a clean does depends on the blocks of the set only. -/
theorem CleanOk.congr {st st' : Nat → State}
    (hsame : ∀ i, InSet (set * cfg.assoc) cfg.assoc i → st' i = st i)
    (h : CleanOk cfg io set st) : CleanOk cfg io set st' := by
  have hblocks : setDirtyBlocks cfg set st' = setDirtyBlocks cfg set st := by
    ext i
    rw [mem_setDirtyBlocks, mem_setDirtyBlocks]
    exact and_congr_right fun hi => by rw [hsame i hi]
  have hruns : setRuns cfg set (withMarks st' (setDirtyBlocks cfg set st)) =
      setRuns cfg set (withMarks st (setDirtyBlocks cfg set st)) := by
    apply runs_congr
    intro j hlo hhi
    rw [withMarks, withMarks, hsame j ⟨hlo, hhi⟩]
  refine ⟨h.sized, h.fits, ?_⟩
  rw [hblocks, hruns]
  exact h.succeeds

theorem inSet_disjoint {set' i assoc : Nat} (hne : set' ≠ set) (hi : InSet (set' * assoc) assoc i) :
    ¬ InSet (set * assoc) assoc i := by
  intro hi'
  have hpos : 0 < assoc := by
    rcases Nat.eq_zero_or_pos assoc with h0 | h0
    · rw [h0] at hi
      exact absurd hi.2 (by simp)
    · exact h0
  have hdiv : ∀ n, InSet (n * assoc) assoc i → i / assoc = n := by
    intro n hn
    rw [Nat.div_eq_iff hpos]
    have := hn.1
    have := hn.2
    omega
  exact hne ((hdiv _ hi).symm.trans (hdiv _ hi'))

theorem Frame.ready (hf : Frame cfg set c c') {set' : Nat} (hne : set' ≠ set)
    (hc : Ready cfg set' c) : Ready cfg set' c' := by
  have hst : ∀ i, InSet (set' * cfg.assoc) cfg.assoc i → c'.st i = c.st i :=
    fun i hi => hf.st i (inSet_disjoint hne hi)
  refine ⟨fun i hi => ?_, fun i hi => ?_, ?_, ?_, ?_, ?_⟩
  · rw [hst i hi]
    exact hc.allowed i hi
  · rw [hst i hi]
    exact hc.idle i hi
  · rw [hf.setDirty set' hne, hc.setDirty, dirtyBlocks, dirtyBlocks]
    apply List.countP_congr
    intro i hi
    rw [hst i (List.mem_range'_1.mp hi)]
  · rw [hf.dbn]
    have hsame : (fun i => InSet (set' * cfg.assoc) cfg.assoc i ∧
        c'.st i = State.alreadyDirty) = fun i =>
        InSet (set' * cfg.assoc) cfg.assoc i ∧ c.st i = State.alreadyDirty := by
      funext i
      exact propext (and_congr_right fun hi => by rw [hst i hi])
    rw [hsame]
    exact hc.dbn
  · rw [hf.pol]
    exact hc.pol
  · rw [hf.wlocked set' hne]
    exact hc.unlocked

theorem Frame.cleanOk_iff (hf : Frame cfg set c c') {set' : Nat} (hne : set' ≠ set) :
    CleanOk cfg io set' c'.st ↔ CleanOk cfg io set' c.st := by
  have hst : ∀ i, InSet (set' * cfg.assoc) cfg.assoc i → c'.st i = c.st i :=
    fun i hi => hf.st i (inSet_disjoint hne hi)
  exact ⟨.congr fun i hi => (hst i hi).symm, .congr hst⟩

end CleanCache

/-! ## A pass -/

namespace Draining

variable {α : Type*} {cfg : CleanCfg} {io : Nat → CleanIo} {s : Draining α}

/-- The flags under which the loop of `eio_clean_all` goes on. -/
structure Runs (s : Draining α) : Prop where
  cleanStart : s.cleanStart = true
  shutdown : s.shutdown = false
  fastRemove : s.fastRemove = false

/-- The sets a pass has before it can be cleaned, and their dirty blocks are counted. -/
structure ToClean (cfg : CleanCfg) (sets : List Nat) (c : CleanCache α) : Prop where
  nodup : sets.Nodup
  ready : ∀ set ∈ sets, CleanCache.Ready cfg set c
  failed : c.failed = false
  counted : ((sets.map c.setDirty).sum : Int) ≤ c.nrDirty

theorem ToClean.tail {set : Nat} {rest : List Nat} {c c' : CleanCache α}
    (h : ToClean cfg (set :: rest) c) (hf : CleanCache.Frame cfg set c c')
    (hnr : c.nrDirty - c.setDirty set ≤ c'.nrDirty) : ToClean cfg rest c' where
  nodup := (List.nodup_cons.mp h.nodup).2
  ready := by
    intro set' hmem
    have hne : set' ≠ set := fun heq => (List.nodup_cons.mp h.nodup).1 (heq ▸ hmem)
    exact hf.ready hne (h.ready set' (List.mem_cons_of_mem _ hmem))
  failed := hf.failed.trans h.failed
  counted := by
    have hsame : rest.map c'.setDirty = rest.map c.setDirty := by
      apply List.map_congr_left
      intro set' hmem
      exact hf.setDirty set' fun heq => (List.nodup_cons.mp h.nodup).1 (heq ▸ hmem)
    have hcounted := h.counted
    rw [List.map_cons, List.sum_cons] at hcounted
    rw [hsame]
    omega

theorem cleanSets_cons (hs : s.Runs) {set : Nat} {rest : List Nat} {c : CleanCache α}
    (hfailed : c.failed = false) (hpos : 0 < c.nrDirty) :
    s.cleanSets cfg io (set :: rest) c =
      (c.cleanSet cfg (io set) set true true).bind fun c => s.cleanSets cfg io rest c := by
  rw [cleanSets, if_neg (not_not.mpr ⟨hs.cleanStart, hpos, by simp [hs.shutdown],
    by simp [hs.fastRemove]⟩), if_neg (by simp [hfailed])]

theorem cleanSets_of_clean {sets : List Nat} {c : CleanCache α} (hzero : c.nrDirty ≤ 0) :
    s.cleanSets cfg io sets c = some c := by
  cases sets with
  | nil => rfl
  | cons set rest =>
    rw [cleanSets, if_pos]
    intro h
    omega

/-- If every dirty set can be cleaned, a pass cleans them all. -/
theorem cleanSets_all (hs : s.Runs) : ∀ {sets : List Nat} {c : CleanCache α},
    ToClean cfg sets c →
    (∀ set ∈ sets, c.setDirty set ≠ 0 → CleanCache.CleanOk cfg (io set) set c.st) →
    ∃ c', s.cleanSets cfg io sets c = some c' ∧
      c'.nrDirty = c.nrDirty - (sets.map c.setDirty).sum := by
  intro sets
  induction sets with
  | nil =>
    intro c _ _
    exact ⟨c, rfl, by simp⟩
  | cons set rest ih =>
    intro c hc hok
    have hcounted := hc.counted
    by_cases hpos : 0 < c.nrDirty
    · have hready := hc.ready set List.mem_cons_self
      have hset := hok set List.mem_cons_self
      obtain ⟨c₁, hrun⟩ := CleanCache.cleanSet_whole_some hready hc.failed hset
      obtain ⟨hf, hclean, hdirty⟩ := CleanCache.cleanSet_whole hready hc.failed hrun
      have hnr : c₁.nrDirty = c.nrDirty - c.setDirty set := by
        by_cases hzero : c.setDirty set = 0
        · by_cases hok' : CleanCache.CleanOk cfg (io set) set c.st
          · exact hclean hok'
          · rw [hdirty hok', hzero]
            simp
        · exact hclean (hset hzero)
      have hne : ∀ set' ∈ rest, set' ≠ set :=
        fun set' hmem heq => (List.nodup_cons.mp hc.nodup).1 (heq ▸ hmem)
      obtain ⟨c', hrest, hnr'⟩ := ih (hc.tail hf hnr.ge) fun set' hmem hdirty' => by
        rw [hf.setDirty set' (hne set' hmem)] at hdirty'
        exact (hf.cleanOk_iff (hne set' hmem)).mpr
          (hok set' (List.mem_cons_of_mem _ hmem) hdirty')
      refine ⟨c', ?_, ?_⟩
      · rw [cleanSets_cons hs hc.failed hpos, hrun, Option.bind_some, hrest]
      · have hsame : rest.map c₁.setDirty = rest.map c.setDirty :=
          List.map_congr_left fun set' hmem => hf.setDirty set' (hne set' hmem)
        rw [hnr', hnr, hsame, List.map_cons, List.sum_cons]
        omega
    · refine ⟨c, cleanSets_of_clean (by omega), ?_⟩
      omega

/-- A pass takes away no more than the dirty blocks of its sets. -/
theorem cleanSets_ge (hs : s.Runs) : ∀ {sets : List Nat} {c c' : CleanCache α},
    ToClean cfg sets c → s.cleanSets cfg io sets c = some c' →
    c'.failed = false ∧ c.nrDirty - (sets.map c.setDirty).sum ≤ c'.nrDirty ∧
      ∀ set ∈ sets, c.setDirty set ≠ 0 → ¬ CleanCache.CleanOk cfg (io set) set c.st →
        0 < c'.nrDirty := by
  intro sets
  induction sets with
  | nil =>
    intro c c' hc hrun
    cases hrun
    exact ⟨hc.failed, by simp, nofun⟩
  | cons set rest ih =>
    intro c c' hc hrun
    have hcounted := hc.counted
    rw [List.map_cons, List.sum_cons] at hcounted ⊢
    by_cases hpos : 0 < c.nrDirty
    · rw [cleanSets_cons hs hc.failed hpos, Option.bind_eq_some_iff] at hrun
      obtain ⟨c₁, hset, hrest⟩ := hrun
      obtain ⟨hf, hclean, hdirty⟩ :=
        CleanCache.cleanSet_whole (hc.ready set List.mem_cons_self) hc.failed hset
      have hge : c.nrDirty - c.setDirty set ≤ c₁.nrDirty := by
        by_cases hok : CleanCache.CleanOk cfg (io set) set c.st
        · exact (hclean hok).ge
        · rw [hdirty hok]
          omega
      have hne : ∀ set' ∈ rest, set' ≠ set :=
        fun set' hmem heq => (List.nodup_cons.mp hc.nodup).1 (heq ▸ hmem)
      have hsame : rest.map c₁.setDirty = rest.map c.setDirty :=
        List.map_congr_left fun set' hmem => hf.setDirty set' (hne set' hmem)
      obtain ⟨hfailed, hle, hbad⟩ := ih (hc.tail hf hge) hrest
      rw [hsame] at hle
      refine ⟨hfailed, by omega, fun set' hmem hne0 hnot => ?_⟩
      rcases List.mem_cons.mp hmem with rfl | hmem
      · -- the dirty blocks of this set are all still there
        rw [hdirty hnot] at hle
        omega
      · rw [← hf.setDirty set' (hne set' hmem)] at hne0
        exact hbad set' hmem hne0 fun hok => hnot ((hf.cleanOk_iff (hne set' hmem)).mp hok)
    · rw [cleanSets_of_clean (by omega)] at hrun
      cases hrun
      refine ⟨hc.failed, by omega, fun set' hmem hne0 _ => ?_⟩
      -- nothing is dirty, so this set is not either
      have hle : c.setDirty set' ≤ ((set :: rest).map c.setDirty).sum :=
        List.single_le_sum (fun _ _ => Nat.zero_le _) _ (List.mem_map_of_mem hmem)
      rw [List.map_cons, List.sum_cons] at hle
      omega

/-- The first pass has cleared `EIO_CLEAN_START`, so the next ones do nothing. -/
theorem cleanAll_idle (hmode : cfg.mode = .wb) (hs : s.cleanStart = false) :
    s.cleanAll cfg io = some s := by
  have hnone : ∀ sets, s.cleanSets cfg io sets s.cache = some s.cache := by
    intro sets
    cases sets with
    | nil => rfl
    | cons set rest =>
      rw [cleanSets, if_pos]
      simp [hs]
  rw [cleanAll, if_neg (not_not.mpr hmode), hnone, Option.map_some, ← hs]

/-! ## All passes -/

/-- A write-back cache that is not failed and not shutting down, without `fast_remove`, whose
sets can be cleaned and whose dirty blocks are counted. -/
structure Drainable (cfg : CleanCfg) (s : Draining α) : Prop where
  mode : cfg.mode = .wb
  failed : s.cache.failed = false
  shutdown : s.shutdown = false
  fastRemove : s.fastRemove = false
  ready : ∀ set < cfg.numSets, CleanCache.Ready cfg set s.cache
  counted : s.cache.nrDirty = ((List.range cfg.numSets).map s.cache.setDirty).sum

/-- Every dirty set is cleaned in the first pass. -/
def FirstPassCleans (cfg : CleanCfg) (io : Nat → CleanIo) (s : Draining α) : Prop :=
  ∀ set < cfg.numSets, s.cache.setDirty set ≠ 0 →
    CleanCache.CleanOk cfg (io set) set s.cache.st

/-- With dirty blocks left after a pass, the loop goes on for ever. -/
theorem finishLoop_running {io : Nat → Nat → CleanIo} (hmode : cfg.mode = .wb)
    (hs : s.cleanStart = false) (hfailed : s.cache.failed = false) (hshut : s.shutdown = false)
    (hfast : s.fastRemove = false) (hdirty : 0 < s.cache.nrDirty) :
    ∀ rounds pass, finishLoop cfg io rounds pass s = .running := by
  intro rounds
  induction rounds with
  | zero => exact fun _ => rfl
  | succ rounds ih =>
    intro pass
    rw [finishLoop, if_neg (by simp [hfailed]), if_neg (by simp [hfast]),
      cleanAll_idle hmode hs]
    simp only
    rw [if_pos ⟨by simp [hfast], hdirty, by simp [hshut]⟩]
    exact ih _

theorem Drainable.toClean (h : Drainable cfg s) :
    ToClean cfg (List.range cfg.numSets) s.cache where
  nodup := List.nodup_range
  ready := fun set hmem => h.ready set (List.mem_range.mp hmem)
  failed := h.failed
  counted := h.counted.ge

/-- If the first pass cleans every dirty set, the call returns after it. -/
theorem finishNrdirty_returns {io : Nat → Nat → CleanIo} (h : Drainable cfg s)
    (hstart : s.cleanStart = false) (hok : FirstPassCleans cfg (io 0) s) (rounds : Nat) :
    ∃ s', finishNrdirty cfg io (rounds + 1) s = .returned 0 s' ∧ s'.cache.nrDirty = 0 := by
  obtain ⟨c', hrun, hnr⟩ := cleanSets_all (s := { s with cleanKeep := true, cleanStart := true })
    ⟨rfl, h.shutdown, h.fastRemove⟩ h.toClean fun set hmem hne =>
      hok set (List.mem_range.mp hmem) hne
  have hzero : c'.nrDirty = 0 := by
    rw [hnr, h.counted]
    exact Int.sub_self _
  refine ⟨{ s with cleanKeep := true, cleanStart := false, cache := c' }, ?_, hzero⟩
  rw [finishNrdirty, if_neg (by simp [hstart]), finishLoop, if_neg (by simp [h.failed]),
    if_neg (by simp [h.fastRemove]), cleanAll, if_neg (not_not.mpr h.mode), hrun, Option.map_some]
  simp only [hzero]
  rw [if_neg (by omega), finishEnd, if_neg (by simp [h.shutdown, finishNrdirtyRetryCount])]

/-- If not, it does not return: an assertion of a clean fails, or it loops. -/
theorem finishNrdirty_not_returned {io : Nat → Nat → CleanIo} (h : Drainable cfg s)
    (hbad : ¬ (s.cleanStart = false ∧ FirstPassCleans cfg (io 0) s)) (rounds : Nat) (ret : Int)
    (s' : Draining α) : finishNrdirty cfg io rounds s ≠ .returned ret s' := by
  rw [finishNrdirty]
  split
  · exact nofun
  · next hstart =>
    -- some set stays dirty in the first pass
    have hset : ∃ set < cfg.numSets, s.cache.setDirty set ≠ 0 ∧
        ¬ CleanCache.CleanOk cfg (io 0 set) set s.cache.st := by
      by_contra hall
      push Not at hall
      exact hbad ⟨by simpa using hstart, hall⟩
    obtain ⟨set, hlt, hne, hnot⟩ := hset
    cases rounds with
    | zero => exact nofun
    | succ rounds =>
      rw [finishLoop, if_neg (by simp [h.failed]), if_neg (by simp [h.fastRemove]), cleanAll,
        if_neg (not_not.mpr h.mode)]
      cases hrun : cleanSets cfg { s with cleanKeep := true, cleanStart := true } (io 0)
        (List.range cfg.numSets) s.cache with
      | none => exact nofun
      | some c' =>
        obtain ⟨hfailed, -, hdirty⟩ := cleanSets_ge
          (s := { s with cleanKeep := true, cleanStart := true })
          ⟨rfl, h.shutdown, h.fastRemove⟩ h.toClean hrun
        have hpos := hdirty set (List.mem_range.mpr hlt) hne hnot
        simp only [Option.map_some]
        rw [if_pos ⟨by simp [h.fastRemove], hpos, by simp [h.shutdown]⟩,
          finishLoop_running (s := { s with
            cache := c', cleanKeep := true, cleanStart := false })
            h.mode rfl hfailed h.shutdown h.fastRemove hpos]
        exact nofun

/-- `eio_finish_nrdirty` returns just when the first pass cleans every dirty set, and then
with 0 and no dirty block. -/
theorem finishNrdirty_returns_iff (cfg : CleanCfg) (io : Nat → Nat → CleanIo) (s : Draining α)
    (h : Drainable cfg s) :
    ((∃ rounds ret s', finishNrdirty cfg io rounds s = .returned ret s') ↔
      s.cleanStart = false ∧ FirstPassCleans cfg (io 0) s) ∧
    ∀ rounds ret s', finishNrdirty cfg io rounds s = .returned ret s' →
      ret = 0 ∧ s'.cache.nrDirty = 0 := by
  have hcond : ∀ rounds ret s', finishNrdirty cfg io rounds s = .returned ret s' →
      s.cleanStart = false ∧ FirstPassCleans cfg (io 0) s := by
    intro rounds ret s' hret
    by_contra hbad
    exact finishNrdirty_not_returned h hbad rounds ret s' hret
  refine ⟨⟨?_, ?_⟩, ?_⟩
  · rintro ⟨rounds, ret, s', hret⟩
    exact hcond rounds ret s' hret
  · rintro ⟨hstart, hok⟩
    obtain ⟨s', hret, -⟩ := finishNrdirty_returns h hstart hok 0
    exact ⟨1, 0, s', hret⟩
  · intro rounds ret s' hret
    obtain ⟨hstart, hok⟩ := hcond rounds ret s' hret
    cases rounds with
    | zero =>
      rw [finishNrdirty, if_neg (by simp [hstart])] at hret
      cases hret
    | succ rounds =>
      obtain ⟨s₁, hret₁, hzero⟩ := finishNrdirty_returns h hstart hok rounds
      cases hret₁.symm.trans hret
      exact ⟨rfl, hzero⟩

/-- A cache with one dirty block. -/
def oneBlock : Draining Char where
  cache := CleanCache.oneDirty 'a'
  cleanStart := false
  cleanKeep := false
  shutdown := false
  fastRemove := false

theorem oneBlock_drainable (shift : Nat) (hshift : shift ≤ 13) :
    Drainable (CleanCache.sampleCfg shift hshift) oneBlock where
  mode := rfl
  failed := rfl
  shutdown := rfl
  fastRemove := rfl
  ready := by
    intro set hlt
    obtain rfl : set = 0 := Nat.lt_one_iff.mp hlt
    exact CleanCache.oneDirty_ready _ 'a'
  counted := rfl

/-- Without a failure the call returns. -/
theorem finishNrdirty_cleans_block :
    (∃ rounds ret s', finishNrdirty (CleanCache.sampleCfg 5 (by decide))
      (fun _ _ => CleanCache.flawlessIo) rounds oneBlock = .returned ret s') ∧
    ∀ rounds ret s', finishNrdirty (CleanCache.sampleCfg 5 (by decide))
      (fun _ _ => CleanCache.flawlessIo) rounds oneBlock = .returned ret s' →
      ret = 0 ∧ s'.cache.nrDirty = 0 := by
  have h := finishNrdirty_returns_iff (CleanCache.sampleCfg 5 (by decide))
    (fun _ _ => CleanCache.flawlessIo) oneBlock (oneBlock_drainable 5 _)
  refine ⟨h.1.mpr ⟨rfl, fun _ _ _ => ?_⟩, h.2⟩
  exact ⟨CleanCache.sampleCfg_sized 5 _, ⟨by decide, by decide⟩, fun _ _ => rfl, fun _ _ => rfl,
    rfl⟩

/-- The metadata write of the first pass fails, all later I/O succeeds. -/
def failsOnce (pass _set : Nat) : CleanIo :=
  if pass = 0 then { CleanCache.flawlessIo with mdError := -5 } else CleanCache.flawlessIo

/-- One failed write in the first pass, and the call does not return. -/
theorem finishNrdirty_never_returns :
    Drainable (CleanCache.sampleCfg 5 (by decide)) oneBlock ∧
      (∀ pass set, pass ≠ 0 → failsOnce pass set = CleanCache.flawlessIo) ∧
      ¬ ∃ rounds ret s', finishNrdirty (CleanCache.sampleCfg 5 (by decide)) failsOnce rounds
        oneBlock = .returned ret s' := by
  refine ⟨oneBlock_drainable 5 _, fun pass set hne => if_neg hne, ?_⟩
  rintro ⟨rounds, ret, s', hret⟩
  refine finishNrdirty_not_returned (oneBlock_drainable 5 _) ?_ rounds ret s' hret
  rintro ⟨-, hok⟩
  exact absurd (hok 0 (by decide) (by decide)).succeeds.md (by decide)

end Draining
end EnhanceIO
