import EnhanceIO.Geometry

/-!
# The set locks of a bio

`eio_acquire_set_locks` walks over the stretches of `SECTORS_PER_SET` sectors a
bio touches, collects their sets into runs and has `insert_set_seq` merge the runs
into a sorted list; then it takes the read lock of each set of each run.
`SeqsOk` is the order of that list. Runs wrap at the number of sets and at the mask,
so what is inserted are arbitrary overlapping intervals.
-/

namespace EnhanceIO

namespace Geom

variable (g : Geom)

/-! ## Runs of sets -/

/-- `set` lies in one of the runs. -/
def InSeqs (seqs : List (Nat × Nat)) (set : Nat) : Prop :=
  ∃ run ∈ seqs, run.1 ≤ set ∧ set ≤ run.2

theorem inSeqs_nil (set : Nat) : ¬ InSeqs [] set := by
  simp [InSeqs]

theorem inSeqs_cons {run : Nat × Nat} {seqs : List (Nat × Nat)} {set : Nat} :
    InSeqs (run :: seqs) set ↔ (run.1 ≤ set ∧ set ≤ run.2) ∨ InSeqs seqs set := by
  simp [InSeqs]

/-- The runs are not empty, and each ends before the next begins. -/
structure SeqsOk (seqs : List (Nat × Nat)) : Prop where
  le : ∀ run ∈ seqs, run.1 ≤ run.2
  sorted : seqs.Pairwise fun run run' => run.2 < run'.1

theorem SeqsOk.nil : SeqsOk [] := ⟨by simp, .nil⟩

theorem seqsOk_cons {run : Nat × Nat} {seqs : List (Nat × Nat)} :
    SeqsOk (run :: seqs) ↔ run.1 ≤ run.2 ∧ (∀ run' ∈ seqs, run.2 < run'.1) ∧ SeqsOk seqs := by
  constructor
  · intro h
    obtain ⟨hbefore, hsorted⟩ := List.pairwise_cons.mp h.sorted
    exact ⟨h.le _ List.mem_cons_self, hbefore,
      fun run' hmem => h.le run' (List.mem_cons_of_mem _ hmem), hsorted⟩
  · rintro ⟨hle, hbefore, hok⟩
    refine ⟨fun run' hmem => ?_, List.pairwise_cons.mpr ⟨hbefore, hok.sorted⟩⟩
    rcases List.mem_cons.mp hmem with rfl | hmem
    · exact hle
    · exact hok.le run' hmem

/-- `insert_set_seq` puts nothing below a bound that the new run and the old ones
respect. -/
theorem insertSetSeq_lower {lo : Nat} : ∀ {seqs : List (Nat × Nat)} {first last : Nat},
    (∀ run ∈ seqs, lo < run.1) → lo < first → ∀ run ∈ insertSetSeq seqs first last, lo < run.1 := by
  intro seqs
  induction seqs with
  | nil =>
    intro first last _ hfirst run hmem
    rw [insertSetSeq, List.mem_singleton] at hmem
    rw [hmem]
    exact hfirst
  | cons cur rest ih =>
    intro first last hseqs hfirst run hmem
    have hcur : lo < cur.1 := hseqs cur List.mem_cons_self
    have hrest : ∀ run ∈ rest, lo < run.1 := fun run h => hseqs run (List.mem_cons_of_mem _ h)
    rw [insertSetSeq] at hmem
    split at hmem
    · rcases List.mem_cons.mp hmem with rfl | hmem
      · exact hcur
      · exact ih hrest hfirst run hmem
    split at hmem
    · rcases List.mem_cons.mp hmem with rfl | hmem
      · exact hfirst
      · exact hseqs run hmem
    split at hmem
    · rcases List.mem_cons.mp hmem with rfl | hmem
      · exact lt_min hfirst hcur
      · exact hrest run hmem
    · rcases List.mem_cons.mp hmem with rfl | hmem
      · exact lt_min hfirst hcur
      · exact ih hrest (by omega) run hmem

/-- `insert_set_seq` keeps the runs in order. -/
theorem SeqsOk.insertSetSeq : ∀ {seqs : List (Nat × Nat)} {first last : Nat}, SeqsOk seqs →
    first ≤ last → SeqsOk (insertSetSeq seqs first last) := by
  intro seqs
  induction seqs with
  | nil =>
    intro first last _ hle
    exact seqsOk_cons.mpr ⟨hle, by simp, .nil⟩
  | cons cur rest ih =>
    intro first last hok hle
    obtain ⟨hcur, hbefore, hrest⟩ := seqsOk_cons.mp hok
    rw [Geom.insertSetSeq]
    split
    · next hafter => exact seqsOk_cons.mpr ⟨hcur, insertSetSeq_lower hbefore hafter, ih hrest hle⟩
    split
    · next hbelow =>
      refine seqsOk_cons.mpr ⟨hle, fun run hmem => ?_, hok⟩
      rcases List.mem_cons.mp hmem with rfl | hmem
      · exact hbelow
      · have := hbefore run hmem
        simp only at hbelow hcur ⊢
        omega
    split
    · exact seqsOk_cons.mpr ⟨Nat.le_trans (Nat.min_le_right _ _) hcur, hbefore, hrest⟩
    · -- the current run takes what overlaps it; the rest of the new one goes on behind it
      refine seqsOk_cons.mpr ⟨Nat.le_trans (Nat.min_le_right _ _) hcur, ?_, ih hrest ?_⟩
      · exact insertSetSeq_lower hbefore (Nat.lt_succ_self _)
      · omega

/-- ... and adds exactly the sets of the new run. -/
theorem inSeqs_insertSetSeq {set : Nat} : ∀ {seqs : List (Nat × Nat)} {first last : Nat},
    SeqsOk seqs → first ≤ last →
      (InSeqs (insertSetSeq seqs first last) set ↔
        InSeqs seqs set ∨ (first ≤ set ∧ set ≤ last)) := by
  intro seqs
  induction seqs with
  | nil =>
    intro first last _ _
    simp [Geom.insertSetSeq, InSeqs]
  | cons cur rest ih =>
    intro first last hok hle
    obtain ⟨hcur, -, hrest⟩ := seqsOk_cons.mp hok
    rw [Geom.insertSetSeq]
    split
    · rw [inSeqs_cons, inSeqs_cons, ih hrest hle]
      tauto
    split
    · rw [inSeqs_cons, inSeqs_cons]
      tauto
    split
    · rw [inSeqs_cons, inSeqs_cons]
      simp only at hcur ⊢
      constructor
      · rintro (h | h)
        · omega
        · exact .inl (.inr h)
      · rintro ((h | h) | h)
        · left; omega
        · exact .inr h
        · left; omega
    · rw [inSeqs_cons, inSeqs_cons, ih hrest (by omega)]
      simp only at hcur ⊢
      constructor
      · rintro (h | h | h)
        · omega
        · exact .inl (.inr h)
        · right; omega
      · rintro ((h | h) | h)
        · left; omega
        · exact .inr (.inl h)
        · omega

theorem insertions_exact : ∀ {ins seqs : List (Nat × Nat)}, (∀ run ∈ ins, run.1 ≤ run.2) →
    SeqsOk seqs →
      SeqsOk (ins.foldl (fun seqs run => insertSetSeq seqs run.1 run.2) seqs) ∧
      ∀ set, InSeqs (ins.foldl (fun seqs run => insertSetSeq seqs run.1 run.2) seqs) set ↔
        InSeqs seqs set ∨ InSeqs ins set := by
  intro ins
  induction ins with
  | nil =>
    intro seqs _ hok
    exact ⟨hok, fun set => by simp [inSeqs_nil]⟩
  | cons run ins ih =>
    intro seqs hins hok
    have hle : run.1 ≤ run.2 := hins run List.mem_cons_self
    obtain ⟨hok', hmem⟩ := ih (fun r hr => hins r (List.mem_cons_of_mem _ hr))
      (hok.insertSetSeq hle)
    refine ⟨hok', fun set => ?_⟩
    rw [List.foldl_cons, hmem set, inSeqs_insertSetSeq hok hle, inSeqs_cons]
    tauto

/-! ## The sets of a bio -/

theorem SeqsOk.collectSeqs : ∀ {sets : List Nat} {seqs : List (Nat × Nat)} {run : Nat × Nat},
    SeqsOk seqs → run.1 ≤ run.2 → SeqsOk (collectSeqs sets seqs run) := by
  intro sets
  induction sets with
  | nil =>
    intro seqs run hok hle
    exact hok.insertSetSeq hle
  | cons cur rest ih =>
    intro seqs run hok hle
    rw [Geom.collectSeqs]
    split
    · exact ih hok (by simp only; omega)
    · exact ih (hok.insertSetSeq hle) (Nat.le_refl _)

theorem inSeqs_collectSeqs {set : Nat} : ∀ {sets : List Nat} {seqs : List (Nat × Nat)}
    {run : Nat × Nat}, SeqsOk seqs → run.1 ≤ run.2 →
      (InSeqs (collectSeqs sets seqs run) set ↔
        InSeqs seqs set ∨ (run.1 ≤ set ∧ set ≤ run.2) ∨ set ∈ sets) := by
  intro sets
  induction sets with
  | nil =>
    intro seqs run hok hle
    rw [Geom.collectSeqs, inSeqs_insertSetSeq hok hle]
    simp
  | cons cur rest ih =>
    intro seqs run hok hle
    rw [Geom.collectSeqs, List.mem_cons]
    split
    · next hnext =>
      -- the run grows by one set
      rw [ih hok (by simp only; omega)]
      have hgrow : (run.1 ≤ set ∧ set ≤ cur) ↔ (run.1 ≤ set ∧ set ≤ run.2) ∨ set = cur := by
        omega
      simp only [hgrow]
      tauto
    · rw [ih (hok.insertSetSeq hle) (Nat.le_refl _), inSeqs_insertSetSeq hok hle]
      have hone : (cur ≤ set ∧ set ≤ cur) ↔ set = cur := by omega
      simp only [hone]
      tauto

theorem hashBlock_mem_spanSets {sector nsect x : Nat} (hlo : sector ≤ x)
    (hhi : x < sector + nsect) : g.hashBlock x ∈ g.spanSets sector nsect := by
  have hpos := g.sectorsPerSet_pos
  have hdiv : sector / g.sectorsPerSet ≤ x / g.sectorsPerSet := Nat.div_le_div_right hlo
  have hfirst : g.roundSetSector sector ≤ sector := Nat.div_mul_le_self _ _
  simp only [spanSets, List.mem_map, List.mem_range]
  refine ⟨x / g.sectorsPerSet - sector / g.sectorsPerSet, ?_, ?_⟩
  · -- the stretch of `x` starts before the end of the bio
    rw [Nat.lt_iff_add_one_le, Nat.le_div_iff_mul_le hpos, Nat.add_mul, Nat.sub_mul]
    have hx : x / g.sectorsPerSet * g.sectorsPerSet ≤ x := Nat.div_mul_le_self _ _
    have hle := Nat.mul_le_mul_right g.sectorsPerSet hdiv
    simp only [roundSetSector] at hfirst ⊢
    omega
  · apply hashBlock_congr
    rw [roundSetSector, ← Nat.add_mul, Nat.add_sub_cancel' hdiv, Nat.mul_div_cancel _ hpos]

/-- Each set of the span is that of some sector. -/
theorem exists_of_mem_spanSets {sector nsect set : Nat} (hn : 0 < nsect)
    (h : set ∈ g.spanSets sector nsect) :
    ∃ x, sector ≤ x ∧ x < sector + nsect ∧ g.hashBlock x = set := by
  have hpos := g.sectorsPerSet_pos
  simp only [spanSets, List.mem_map, List.mem_range] at h
  obtain ⟨j, hj, rfl⟩ := h
  have hfirst : g.roundSetSector sector ≤ sector := Nat.div_mul_le_self _ _
  have hround := Nat.div_add_mod sector g.sectorsPerSet
  have hmod := Nat.mod_lt sector hpos
  -- the first stretch begins before the bio does
  cases j with
  | zero =>
    refine ⟨sector, Nat.le_refl _, by omega, g.hashBlock_congr ?_⟩
    rw [roundSetSector, Nat.zero_mul, Nat.add_zero, Nat.mul_div_cancel _ hpos]
  | succ j =>
    refine ⟨g.roundSetSector sector + (j + 1) * g.sectorsPerSet, ?_, ?_, rfl⟩
    · rw [roundSetSector, Nat.mul_comm]
      have : g.sectorsPerSet ≤ (j + 1) * g.sectorsPerSet := Nat.le_mul_of_pos_left _ (by omega)
      omega
    · have hle : (j + 1 + 1) * g.sectorsPerSet ≤
          sector + nsect - g.roundSetSector sector + g.sectorsPerSet - 1 :=
        Nat.le_trans (Nat.mul_le_mul_right _ hj) (Nat.div_mul_le_self _ _)
      rw [Nat.add_mul (j + 1) 1] at hle
      omega

/-- `bc_setspan`. -/
def setspan (sector nsect : Nat) : List (Nat × Nat) :=
  match g.spanSets sector nsect with
  | [] => []
  | set :: sets => collectSeqs sets [] (set, set)

/-- The sets of a list of runs, in the order of the two nested loops. -/
def seqSets (seqs : List (Nat × Nat)) : List Nat :=
  seqs.flatMap fun run => List.range' run.1 (run.2 + 1 - run.1)

theorem lockSets_eq (sector nsect : Nat) :
    g.lockSets sector nsect = seqSets (g.setspan sector nsect) := by
  unfold lockSets setspan
  cases g.spanSets sector nsect <;> rfl

theorem mem_seqSets {seqs : List (Nat × Nat)} {set : Nat} :
    set ∈ seqSets seqs ↔ InSeqs seqs set := by
  simp only [seqSets, InSeqs, List.mem_flatMap, List.mem_range'_1]
  constructor
  · rintro ⟨run, hmem, h⟩
    exact ⟨run, hmem, by omega⟩
  · rintro ⟨run, hmem, h⟩
    exact ⟨run, hmem, by omega⟩

/-- Runs in order give sets in order. -/
theorem SeqsOk.seqSets_sorted : ∀ {seqs : List (Nat × Nat)}, SeqsOk seqs →
    (seqSets seqs).Pairwise (· < ·) := by
  intro seqs
  induction seqs with
  | nil => intro _; exact .nil
  | cons run rest ih =>
    intro hok
    obtain ⟨hle, hbefore, hrest⟩ := seqsOk_cons.mp hok
    refine List.pairwise_append.mpr ⟨List.pairwise_lt_range', ih hrest, fun x hx y hy => ?_⟩
    rw [List.mem_range'_1] at hx
    obtain ⟨run', hmem, hy, -⟩ := mem_seqSets.mp hy
    have := hbefore run' hmem
    omega

theorem setspan_ok (sector nsect : Nat) : SeqsOk (g.setspan sector nsect) := by
  unfold setspan
  split
  · exact .nil
  · exact SeqsOk.nil.collectSeqs (Nat.le_refl _)

/-- The locks of a bio are those of the sets of its sectors. -/
theorem mem_lockSets {sector nsect : Nat} (hn : 0 < nsect) {set : Nat} :
    set ∈ g.lockSets sector nsect ↔
      ∃ x, sector ≤ x ∧ x < sector + nsect ∧ g.hashBlock x = set := by
  have hspan : set ∈ g.lockSets sector nsect ↔ set ∈ g.spanSets sector nsect := by
    rw [lockSets_eq, mem_seqSets]
    unfold setspan
    cases g.spanSets sector nsect with
    | nil => simp [inSeqs_nil]
    | cons first sets =>
      have hone : (first ≤ set ∧ set ≤ first) ↔ set = first := by omega
      have hcover : InSeqs (collectSeqs sets [] (first, first)) set ↔ _ :=
        inSeqs_collectSeqs SeqsOk.nil (Nat.le_refl first)
      rw [hcover, List.mem_cons]
      simp [inSeqs_nil, hone]
  rw [hspan]
  constructor
  · exact g.exists_of_mem_spanSets hn
  · rintro ⟨x, hlo, hhi, rfl⟩
    exact g.hashBlock_mem_spanSets hlo hhi

theorem hashBlock_mem_lockSets {sector nsect x : Nat} (hlo : sector ≤ x)
    (hhi : x < sector + nsect) : g.hashBlock x ∈ g.lockSets sector nsect :=
  (g.mem_lockSets (by omega)).mpr ⟨x, hlo, hhi, rfl⟩

/-! ## Taking and releasing the locks -/

/-- `down_read` and `up_read` on the lock of a set, by its number of readers. -/
def downRead (readers : Nat → Nat) (set : Nat) : Nat → Nat :=
  Function.update readers set (readers set + 1)

def upRead (readers : Nat → Nat) (set : Nat) : Nat → Nat :=
  Function.update readers set (readers set - 1)

/-- `eio_acquire_set_locks` when no allocation fails: `bc_setspan` and the readers of
the sets. -/
def acquireSetLocks (sector nsect : Nat) (readers : Nat → Nat) :
    List (Nat × Nat) × (Nat → Nat) :=
  let span := g.setspan sector nsect
  (span, (seqSets span).foldl downRead readers)

/-- `eio_release_io_resources`. -/
def releaseIoResources (span : List (Nat × Nat)) (readers : Nat → Nat) : Nat → Nat :=
  (seqSets span).foldl upRead readers

/-- A loop that changes each of its sets once. -/
theorem foldl_update {f : Nat → Nat} : ∀ {sets : List Nat} {readers : Nat → Nat}, sets.Nodup →
    ∀ set, sets.foldl (fun r s => Function.update r s (f (r s))) readers set =
      if set ∈ sets then f (readers set) else readers set := by
  intro sets
  induction sets with
  | nil => intro readers _ set; simp
  | cons head tail ih =>
    intro readers hnodup set
    obtain ⟨hnot, hnodup⟩ := List.nodup_cons.mp hnodup
    rw [List.foldl_cons, ih hnodup]
    by_cases hset : set = head
    · subst hset
      simp [hnot]
    · simp [hset]

/-- The locks of a bio: taken in ascending order, those of the sets of its sectors
and no others, each once, and given back. -/
structure LocksExact (sector nsect : Nat) : Prop where
  ascending : (g.lockSets sector nsect).Pairwise (· < ·)
  covers : ∀ set, set ∈ g.lockSets sector nsect ↔
    ∃ x, sector ≤ x ∧ x < sector + nsect ∧ g.hashBlock x = set
  taken : ∀ readers, g.acquireSetLocks sector nsect readers =
    (g.setspan sector nsect, fun set =>
      if set ∈ g.lockSets sector nsect then readers set + 1 else readers set)
  released : ∀ readers, releaseIoResources (g.setspan sector nsect) readers = fun set =>
    if set ∈ g.lockSets sector nsect then readers set - 1 else readers set

/-- For every cache and every bio that is not empty the locks are exact; and
`insert_set_seq` keeps its list sorted and disjoint, with the union of all it was
given, for every sequence of insertions. -/
theorem set_locks_exact {sector nsect : Nat} (hn : 0 < nsect) :
    g.LocksExact sector nsect ∧
      ∀ ins : List (Nat × Nat), (∀ run ∈ ins, run.1 ≤ run.2) →
        SeqsOk (ins.foldl (fun seqs run => insertSetSeq seqs run.1 run.2) []) ∧
        ∀ set, InSeqs (ins.foldl (fun seqs run => insertSetSeq seqs run.1 run.2) []) set ↔
          ∃ run ∈ ins, run.1 ≤ set ∧ set ≤ run.2 := by
  have hsorted : (g.lockSets sector nsect).Pairwise (· < ·) := by
    rw [lockSets_eq]
    exact (g.setspan_ok sector nsect).seqSets_sorted
  have hnodup : (seqSets (g.setspan sector nsect)).Nodup := by
    rw [← lockSets_eq]
    exact hsorted.imp Nat.ne_of_lt
  constructor
  · refine ⟨hsorted, fun set => g.mem_lockSets hn, fun readers => ?_, fun readers => ?_⟩
    · rw [lockSets_eq]
      exact Prod.ext rfl (funext fun set => foldl_update (f := (· + 1)) hnodup set)
    · rw [lockSets_eq]
      exact funext fun set => foldl_update (f := (· - 1)) hnodup set
  · intro ins hins
    obtain ⟨hok, hmem⟩ := insertions_exact hins SeqsOk.nil
    refine ⟨hok, fun set => ?_⟩
    rw [hmem]
    simp [InSeqs]

end Geom

/-- A write-back cache of three sets, in front of 64 stretches. -/
def oddCache : Geom :=
  .ofSizes .wb 3 1 3 1024 (by decide)

/-- A bio of seven stretches, longer than the cache: their sets are 0, 1, 2, 0, 0, 1, 2. -/
theorem set_locks_exact_wrapped : 0 < 100 ∧ oddCache.spanSets 8 100 = [0, 1, 2, 0, 0, 1, 2] ∧
    oddCache.lockSets 8 100 = [0, 1, 2] ∧ oddCache.LocksExact 8 100 :=
  ⟨by decide, by decide +kernel, by decide +kernel, (oddCache.set_locks_exact (by decide)).1⟩

end EnhanceIO
