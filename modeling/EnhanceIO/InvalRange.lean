import EnhanceIO.States
import EnhanceIO.Lib.Count

/-!
# Range invalidation

`eio_inval_range` walks a range of source sectors set by set. A round takes the
stretch of the range up to the end of the set the current sector lies in, scans
that set, and goes on at the next set.

`Invalidates` says what a part of the walk did to the map, for the pairs of a
block and a sector it looked at. It holds of one block, is kept by putting two
parts together, and so holds of a scan and of the whole walk.
-/

namespace EnhanceIO

open Sys State

/-! ## The walk -/

/-- The loop of `eio_inval_range` with at most `rounds` rounds, `none` if they are
not enough. `snum` is a 64-bit number. At the last stretch before `2 ^ 64` the end of
the round is 0 in the source; no block of a disk lies there. -/
def Sys.invalRange (g : Geom) : Nat → Nat → Nat → Sys → Option Sys
  | 0, _, iosize, s => if iosize = 0 then some s else none
  | rounds + 1, snum, iosize, s =>
    if iosize = 0 then some s
    else Sys.invalRange g rounds (Sys.invalNext g snum % 2 ^ 64)
      (iosize - Sys.invalInset g snum iosize) (s.invalRound g snum iosize)

namespace State

/-- What the scan makes of the flags of a block that holds part of the range. -/
def afterInval (c : State) : State :=
  if ¬ c.has (blockIoInprog ||| dirty ||| queued) then invalid
  else if ¬ c.has (dirty ||| queued) then c.on queued
  else c

theorem afterInval_of_idle {c : State} (h : c.has (blockIoInprog ||| dirty ||| queued) = false) :
    c.afterInval = invalid := by
  simp [afterInval, h]

theorem afterInval_of_busy : ∀ c : State, c.has blockIoInprog = true → c.has dirty = false →
    c.afterInval = c.on queued := by
  decide +kernel

/-- A block that is dirty, or queued with no I/O, keeps its flags. -/
theorem afterInval_of_kept : ∀ c : State, c.has (blockIoInprog ||| dirty ||| queued) = true →
    ¬ (c.has blockIoInprog = true ∧ c.has dirty = false) → c.afterInval = c := by
  decide +kernel

/-- A second pass over a block that is still valid changes nothing. -/
theorem afterInval_twice : ∀ c : State, c.afterInval.has invalid = false →
    c.afterInval.afterInval = c.afterInval := by
  decide +kernel

theorem has_invalid_on_queued : ∀ c : State, (c.on queued).has invalid = c.has invalid := by
  decide +kernel

theorem ne_invalid_of_has : ∀ c : State, c.has invalid = false → c ≠ invalid := by
  decide +kernel

end State

/-! ## What a part of the walk does -/

namespace Sys

variable (g : Geom) (s : Sys)

/-- A cached block of which the walk looked at a sector; `T i x` says that it looked for
sector `x` at block `i`. -/
def Touched (T : Nat → Nat → Prop) (i : Nat) : Prop :=
  (s.st g i).has invalid = false ∧
    ∃ x, T i x ∧ s.dbn g i ≤ x ∧ x < s.dbn g i + g.blockSize

/-- Block `i` held data in `s` and holds none in `s'`. -/
def droppedIn (s' : Sys) (i : Nat) : Bool :=
  !(s.st g i).has invalid && (s'.st g i).has invalid

theorem countP_droppedIn_self : (List.range g.size).countP (s.droppedIn g s) = 0 := by
  rw [List.countP_eq_zero]
  simp [droppedIn]

end Sys

/-- The walk looked at the pairs `T`, and nothing but the blocks it touched changed. -/
structure Invalidates (g : Geom) (T : Nat → Nat → Prop) (s s' : Sys) : Prop where
  frame : s' = { s with md := s'.md, cachedBlocks := s'.cachedBlocks }
  hit : ∀ i, s.Touched g T i → s'.st g i = (s.st g i).afterInval
  miss : ∀ i, ¬ s.Touched g T i → s'.st g i = s.st g i
  dbn : ∀ i, (s'.st g i).has invalid = false ∨ ¬ s.Touched g T i → s'.dbn g i = s.dbn g i
  cached : s'.cachedBlocks = s.cachedBlocks - (List.range g.size).countP (s.droppedIn g s')

namespace Invalidates

variable {g : Geom} {T T' : Nat → Nat → Prop} {s s' s'' : Sys}

theorem of_untouched (ht : ∀ i, ¬ s.Touched g T i) : Invalidates g T s s where
  frame := rfl
  hit := fun i hi => absurd hi (ht i)
  miss := fun _ _ => rfl
  dbn := fun _ _ => rfl
  cached := by
    rw [countP_droppedIn_self]
    rfl

theorem of_one {i : Nat} (hi : i < g.size) (ht : ∀ j, s.Touched g T j ↔ j = i)
    (hframe : s' = { s with md := s'.md, cachedBlocks := s'.cachedBlocks })
    (hst : ∀ j, s'.st g j = if j = i then (s.st g i).afterInval else s.st g j)
    (hdbn : ∀ j, j ≠ i ∨ (s'.st g i).has invalid = false → s'.dbn g j = s.dbn g j)
    (hcached : s'.cachedBlocks = s.cachedBlocks - ((s'.st g i).has invalid).toNat) :
    Invalidates g T s s' where
  frame := hframe
  hit := by
    intro j hj
    obtain rfl := (ht j).mp hj
    rw [hst, if_pos rfl]
  miss := by
    intro j hj
    rw [hst, if_neg fun hji => hj ((ht j).mpr hji)]
  dbn := by
    rintro j (hv | hj)
    · by_cases hji : j = i
      · subst hji
        exact hdbn j (.inr hv)
      · exact hdbn j (.inl hji)
    · exact hdbn j (.inl fun hji => hj ((ht j).mpr hji))
  cached := by
    have hv := ((ht i).mpr rfl).1
    have hchange := Count.countP_change (p := s.droppedIn g s) (q := s.droppedIn g s')
      List.nodup_range (List.mem_range.mpr hi) (by
        intro j hj
        simp only [droppedIn, hst j, if_neg hj])
    have hself : s.droppedIn g s i = false := by simp [droppedIn, hv]
    have hnow : s.droppedIn g s' i = (s'.st g i).has invalid := by simp [droppedIn, hv]
    rw [hself, hnow, countP_droppedIn_self] at hchange
    rw [hcached]
    simp only [Bool.toNat_false, Nat.zero_add, Nat.add_zero] at hchange
    rw [hchange]

theorem congr (h : Invalidates g T s s') (ht : ∀ i, s.Touched g T i ↔ s.Touched g T' i) :
    Invalidates g T' s s' where
  frame := h.frame
  hit := fun i hi => h.hit i ((ht i).mpr hi)
  miss := fun i hi => h.miss i fun hi' => hi ((ht i).mp hi')
  dbn := fun i hi => h.dbn i (hi.imp_right fun hn hi' => hn ((ht i).mp hi'))
  cached := h.cached

theorem invalid_of_invalid (h : Invalidates g T s s') {i : Nat}
    (hi : (s.st g i).has invalid = true) : (s'.st g i).has invalid = true := by
  rw [h.miss i fun ht => by simp [ht.1] at hi]
  exact hi

theorem touched_or {i : Nat} :
    s.Touched g (fun i x => T i x ∨ T' i x) i ↔ s.Touched g T i ∨ s.Touched g T' i := by
  constructor
  · rintro ⟨hv, x, hx | hx, hin⟩
    · exact .inl ⟨hv, x, hx, hin⟩
    · exact .inr ⟨hv, x, hx, hin⟩
  · rintro (⟨hv, x, hx, hin⟩ | ⟨hv, x, hx, hin⟩)
    · exact ⟨hv, x, .inl hx, hin⟩
    · exact ⟨hv, x, .inr hx, hin⟩

/-- A block the first part left alone is touched by the second as it would have been at
the start. -/
theorem touched_iff (h : Invalidates g T s s') {i : Nat} (hi : ¬ s.Touched g T i) :
    s'.Touched g T' i ↔ s.Touched g T' i := by
  rw [Sys.Touched, Sys.Touched, h.miss i hi, h.dbn i (.inr hi)]

/-- The blocks dropped by two parts together. -/
theorem count_trans (h : Invalidates g T s s') (h' : Invalidates g T' s' s'') :
    (List.range g.size).countP (s.droppedIn g s'') =
      (List.range g.size).countP (s.droppedIn g s') +
        (List.range g.size).countP (s'.droppedIn g s'') := by
  apply Count.countP_split
  · intro i _
    have h1 := h.invalid_of_invalid (i := i)
    have h2 := h'.invalid_of_invalid (i := i)
    simp only [droppedIn]
    cases hs : (s.st g i).has invalid <;> cases hs' : (s'.st g i).has invalid <;>
      simp_all
  · intro i _ hp
    simp only [droppedIn, Bool.and_eq_true] at hp
    simp [droppedIn, hp.2]

theorem trans (h : Invalidates g T s s') (h' : Invalidates g T' s' s'') :
    Invalidates g (fun i x => T i x ∨ T' i x) s s'' where
  frame := by rw [h'.frame, h.frame]
  hit := by
    intro i hi
    by_cases ht : s.Touched g T i
    · by_cases ht' : s'.Touched g T' i
      · -- the second pass finds the block as the first left it
        have hv := ht'.1
        rw [h'.hit i ht', h.hit i ht]
        rw [h.hit i ht] at hv
        exact State.afterInval_twice _ hv
      · rw [h'.miss i ht', h.hit i ht]
    · have ht' : s'.Touched g T' i :=
        (h.touched_iff ht).mpr ((touched_or.mp hi).resolve_left ht)
      rw [h'.hit i ht', h.miss i ht]
  miss := by
    intro i hi
    have ht : ¬ s.Touched g T i := fun ht => hi (touched_or.mpr (.inl ht))
    have ht' : ¬ s'.Touched g T' i := fun ht' =>
      hi (touched_or.mpr (.inr ((h.touched_iff ht).mp ht')))
    rw [h'.miss i ht', h.miss i ht]
  dbn := by
    rintro i (hv | hi)
    · have hv' : (s'.st g i).has invalid = false := by
        by_contra hinv
        have := h'.invalid_of_invalid (i := i) (by simpa using hinv)
        simp [hv] at this
      rw [h'.dbn i (.inl hv), h.dbn i (.inl hv')]
    · have ht : ¬ s.Touched g T i := fun ht => hi (touched_or.mpr (.inl ht))
      have ht' : ¬ s'.Touched g T' i := fun ht' =>
        hi (touched_or.mpr (.inr ((h.touched_iff ht).mp ht')))
      rw [h'.dbn i (.inr ht'), h.dbn i (.inr ht)]
  cached := by rw [h'.cached, h.cached, h.count_trans h', Nat.sub_sub]

end Invalidates

/-! ## The scan of a set -/

namespace Sys

variable {g : Geom} {s : Sys}

/-- A block and a stretch of sectors have one in common. -/
theorem overlap_iff {lo hi d : Nat} (h : lo < hi) :
    (∃ x, (lo ≤ x ∧ x < hi) ∧ d ≤ x ∧ x < d + g.blockSize) ↔
      ¬ (hi ≤ d ∨ d + g.blockSize ≤ lo) := by
  have hpos := g.blockSize_pos
  constructor
  · rintro ⟨x, hx, hd⟩
    omega
  · intro hno
    exact ⟨max lo d, by omega, by omega⟩

theorem invalBlockAt_invalidates {lo hi i : Nat} (h : lo < hi) (hi' : i < g.size) :
    Invalidates g (fun j x => j = i ∧ lo ≤ x ∧ x < hi) s (s.invalBlockAt g lo hi i).1 := by
  -- the block is touched when neither of the two tests of the scan lets it pass
  have htouch : ∀ j, s.Touched g (fun j x => j = i ∧ lo ≤ x ∧ x < hi) j ↔
      j = i ∧ (s.st g i).has invalid = false ∧
        ¬ (hi ≤ s.dbn g i ∨ s.dbn g i + g.blockSize ≤ lo) := by
    intro j
    rw [← overlap_iff h]
    constructor
    · rintro ⟨hv, x, ⟨rfl, hx⟩, hd⟩
      exact ⟨rfl, hv, x, hx, hd⟩
    · rintro ⟨rfl, hv, x, hx, hd⟩
      exact ⟨hv, x, ⟨rfl, hx⟩, hd⟩
  simp only [invalBlockAt]
  split
  · next hinv =>
    refine .of_untouched fun j hj => ?_
    simp [((htouch j).mp hj).2.1] at hinv
  · next hinv =>
    split
    · next hout => exact .of_untouched fun j hj => ((htouch j).mp hj).2.2 hout
    · next hout =>
      have hone : ∀ j, s.Touched g (fun j x => j = i ∧ lo ≤ x ∧ x < hi) j ↔ j = i := by
        intro j
        rw [htouch]
        exact ⟨fun hj => hj.1, fun hj => ⟨hj, by simpa using hinv, hout⟩⟩
      have hne : s.st g i ≠ invalid := State.ne_invalid_of_has _ (by simpa using hinv)
      split
      · -- idle and clean
        next hidle =>
          have hafter := State.afterInval_of_idle (c := s.st g i) (by simpa using hidle)
          refine .of_one hi' hone rfl (by simp [hafter]) ?_ ?_
          · rintro j (hj | hv)
            · exact invalidate_dbn hj
            · simp [State.has, invalid] at hv
          · simp [State.has, invalid]
      · next hbusy =>
        split
        · -- in progress and clean
          next hq =>
            have hafter : (s.st g i).afterInval = (s.st g i).on queued := by
              rw [State.afterInval, if_neg hbusy, if_pos hq]
            have hv : ((s.st g i).on queued).has invalid = false := by
              rw [State.has_invalid_on_queued]
              simpa using hinv
            refine .of_one hi' hone rfl (by simp [hafter]) ?_ ?_
            · intro j _
              by_cases hj : j = i
              · exact setSt_dbn (.inr ⟨State.ne_invalid_of_has _ hv, hne⟩)
              · exact setSt_dbn (.inl hj)
            · simp [hv]
        · next hq =>
          have hafter : (s.st g i).afterInval = s.st g i := by
            rw [State.afterInval, if_neg hbusy, if_neg hq]
          refine .of_one hi' hone rfl ?_ (fun _ _ => rfl) ?_
          · intro j
            rw [hafter]
            split
            · next hj => rw [hj]
            · rfl
          · simp [hinv]

theorem invalLoop_invalidates {lo hi : Nat} (h : lo < hi) :
    ∀ (l : List Nat) (s : Sys), (∀ i ∈ l, i < g.size) →
      Invalidates g (fun j x => j ∈ l ∧ lo ≤ x ∧ x < hi) s (invalLoop g lo hi true s l) := by
  intro l
  induction l with
  | nil =>
    intro s _
    refine .of_untouched fun i hi => ?_
    obtain ⟨_, x, hx, _⟩ := hi
    simp at hx
  | cons i rest ih =>
    intro s hl
    have hone := invalBlockAt_invalidates (s := s) h (hl i List.mem_cons_self)
    have hrest := ih (s.invalBlockAt g lo hi i).1 fun j hj => hl j (List.mem_cons_of_mem i hj)
    have hloop : invalLoop g lo hi true s (i :: rest) =
        invalLoop g lo hi true (s.invalBlockAt g lo hi i).1 rest := by
      simp [invalLoop]
    rw [hloop]
    refine (hone.trans hrest).congr fun j => ?_
    simp only [Touched, List.mem_cons, or_and_right]

/-- A round of the walk scans the set of `snum`. -/
theorem invalRound_invalidates (hsize : g.size < 2 ^ 31) (snum iosize : Nat)
    (hpos : 512 ≤ invalInset g snum iosize) :
    Invalidates g (fun j x => j / g.assoc = g.hashBlock snum ∧ snum ≤ x ∧
      x < snum + invalInset g snum iosize / 512) s (s.invalRound g snum iosize) := by
  have hstart := startIndex_eq (g := g) (by omega) snum
  have hend : g.assoc * g.hashBlock snum + g.assoc ≤ g.size := by
    rw [← Nat.mul_succ]
    exact Nat.mul_le_mul_left _ (g.hashBlock_lt snum)
  have hset : ∀ j, j ∈ List.range' (g.assoc * g.hashBlock snum) g.assoc ↔
      j / g.assoc = g.hashBlock snum := by
    intro j
    rw [List.mem_range'_1]
    exact mem_set_iff _ _
  have hlt : snum < snum + invalInset g snum iosize / 512 := by omega
  have hround : s.invalRound g snum iosize =
      invalLoop g snum (snum + invalInset g snum iosize / 512) true s
        (List.range' (g.assoc * g.hashBlock snum) g.assoc) := by
    have hpos' := g.assoc_pos
    rw [invalRound, invalBlockSetRange, hstart, if_neg (by omega), if_neg (by omega)]
  rw [hround]
  refine (invalLoop_invalidates hlt _ s ?_).congr fun j => ?_
  · intro i hi
    rw [List.mem_range'_1] at hi
    omega
  · simp only [Touched, hset]

/-! ## The whole walk -/

/-- A walk from `snum` on counts its bytes right: a set has fewer than 2^32 bytes, or the
first round takes all there are. -/
def RangeFits (g : Geom) (snum iosize : Nat) : Prop :=
  g.setShift < 23 ∨ invalInset g snum iosize = iosize

instance (snum iosize : Nat) : Decidable (RangeFits g snum iosize) :=
  inferInstanceAs (Decidable (_ ∨ _))

theorem RangeFits.next {snum iosize : Nat} (h : RangeFits g snum iosize) :
    RangeFits g (invalNext g snum % 2 ^ 64) (iosize - invalInset g snum iosize) := by
  rcases h with hshift | hall
  · exact .inl hshift
  · exact .inr (by rw [hall, Nat.sub_self, invalInset, Nat.min_zero])

/-- The bytes of a round are those up to the end of the set. -/
theorem invalInset_eq {snum iosize : Nat} (hfit : RangeFits g snum iosize) :
    invalInset g snum iosize = min ((invalNext g snum - snum) * 512) iosize ∧
      snum < invalNext g snum := by
  have hdiv := Nat.div_add_mod snum g.sectorsPerSet
  have hmod := Nat.mod_lt snum g.sectorsPerSet_pos
  have hnext : invalNext g snum = g.sectorsPerSet * (snum / g.sectorsPerSet) + g.sectorsPerSet := by
    rw [invalNext, Nat.mul_comm, Nat.mul_succ]
  refine ⟨?_, by omega⟩
  rcases hfit with hshift | hall
  · have hle : g.sectorsPerSet ≤ 2 ^ 22 := by
      rw [g.sectorsPerSet_eq]
      exact Nat.pow_le_pow_right (by omega) (by omega)
    rw [invalInset, Nat.mod_eq_of_lt (by omega)]
  · have hcut := Nat.mod_le ((invalNext g snum - snum) * 512) (2 ^ 32)
    rw [hall]
    rw [invalInset] at hall
    omega

/-- The stretch of a sector ends within 64 bits. -/
theorem invalNext_le {snum : Nat} (h : snum < 2 ^ 64) : invalNext g snum ≤ 2 ^ 64 := by
  have hdvd : g.sectorsPerSet ∣ 2 ^ 64 := by
    rw [g.sectorsPerSet_eq]
    exact pow_dvd_pow 2 (by have := g.sectorsPerSet_lt; simp only [Geom.setShift]; omega)
  obtain ⟨n, hn⟩ := hdvd
  have hlt : snum / g.sectorsPerSet < n := by
    rw [Nat.div_lt_iff_lt_mul g.sectorsPerSet_pos, Nat.mul_comm, ← hn]
    exact h
  rw [invalNext, hn, Nat.mul_comm]
  exact Nat.mul_le_mul_left _ hlt

/-- Sectors of the stretch of `snum` from there on are in its set. -/
theorem hashBlock_of_lt_invalNext {snum x : Nat} (hlo : snum ≤ x) (hhi : x < invalNext g snum) :
    g.hashBlock x = g.hashBlock snum := by
  apply g.hashBlock_congr
  apply Nat.le_antisymm
  · rw [← Nat.lt_succ_iff, Nat.div_lt_iff_lt_mul g.sectorsPerSet_pos]
    exact hhi
  · exact Nat.div_le_div_right hlo

/-- Sector `x` is one of the `nsect` sectors from `iosector` on. -/
def InRange (iosector nsect x : Nat) : Prop := ∃ k < nsect, x = (iosector + k) % 2 ^ 64

/-- A range is the sectors of its first round and those of the rest. -/
theorem inRange_round {snum iosize n x : Nat} (hs : snum < 2 ^ 64) (hdvd : 512 ∣ iosize)
    (hlt : snum < invalNext g snum) (hn : n = min ((invalNext g snum - snum) * 512) iosize) :
    InRange snum (iosize / 512) x ↔ (snum ≤ x ∧ x < snum + n / 512) ∨
      InRange (invalNext g snum % 2 ^ 64) ((iosize - n) / 512) x := by
  have hend := invalNext_le (g := g) hs
  obtain ⟨m, rfl⟩ := hdvd
  generalize invalNext g snum = snext at *
  constructor
  · rintro ⟨k, hk, rfl⟩
    by_cases hin : k < n / 512
    · left
      rw [Nat.mod_eq_of_lt (by omega)]
      omega
    · right
      refine ⟨k - n / 512, by omega, ?_⟩
      rw [Nat.mod_add_mod]
      congr 1
      omega
  · rintro (hx | ⟨k, hk, rfl⟩)
    · exact ⟨x - snum, by omega, by rw [Nat.mod_eq_of_lt] <;> omega⟩
    · refine ⟨k + n / 512, by omega, ?_⟩
      rw [Nat.mod_add_mod]
      congr 1
      omega

theorem invalRange_invalidates (hsize : g.size < 2 ^ 31) :
    ∀ (rounds snum iosize : Nat) (s : Sys), RangeFits g snum iosize → snum < 2 ^ 64 →
      512 ∣ iosize → iosize / 512 ≤ rounds → ∃ s', invalRange g rounds snum iosize s = some s' ∧
        Invalidates g (fun j x => j / g.assoc = g.hashBlock x ∧ InRange snum (iosize / 512) x)
          s s' := by
  intro rounds
  induction rounds with
  | zero =>
    intro snum iosize s _ _ hdvd hle
    have h0 : iosize = 0 := by omega
    refine ⟨s, by rw [invalRange, if_pos h0], .of_untouched fun i hi => ?_⟩
    obtain ⟨_, x, ⟨_, k, hk, _⟩, _⟩ := hi
    omega
  | succ rounds ih =>
    intro snum iosize s hfit hs hdvd hle
    by_cases h0 : iosize = 0
    · refine ⟨s, by rw [invalRange, if_pos h0], .of_untouched fun i hi => ?_⟩
      obtain ⟨_, x, ⟨_, k, hk, _⟩, _⟩ := hi
      omega
    · obtain ⟨hn, hlt⟩ := invalInset_eq hfit
      have hround := invalRound_invalidates (s := s) hsize snum iosize (by omega)
      obtain ⟨s', hs', hrest⟩ := ih (invalNext g snum % 2 ^ 64)
        (iosize - invalInset g snum iosize) (s.invalRound g snum iosize) hfit.next
        (Nat.mod_lt _ (by decide)) (by omega) (by omega)
      refine ⟨s', by rw [invalRange, if_neg h0, hs'], (hround.trans hrest).congr fun j => ?_⟩
      have hpair : ∀ x, (j / g.assoc = g.hashBlock snum ∧ snum ≤ x ∧
            x < snum + invalInset g snum iosize / 512) ∨
          (j / g.assoc = g.hashBlock x ∧ InRange (invalNext g snum % 2 ^ 64)
            ((iosize - invalInset g snum iosize) / 512) x) ↔
          j / g.assoc = g.hashBlock x ∧ InRange snum (iosize / 512) x := by
        intro x
        rw [inRange_round hs hdvd hlt hn, and_or_left]
        apply or_congr_left
        constructor
        · rintro ⟨hj, hlo, hhi⟩
          rw [hashBlock_of_lt_invalNext hlo (by omega)]
          exact ⟨hj, hlo, hhi⟩
        · rintro ⟨hj, hlo, hhi⟩
          rw [hashBlock_of_lt_invalNext hlo (by omega)] at hj
          exact ⟨hj, hlo, hhi⟩
      simp only [Touched, hpair]

end Sys

/-! ## What is left of a range -/

/-- A map of blocks in order: each block is valid or invalid, and a valid one is in the set
of the sector it holds. -/
structure MapOk (g : Geom) (s : Sys) : Prop where
  either : ∀ i, (s.st g i).has invalid = !(s.st g i).has valid
  placed : ∀ i, (s.st g i).has valid = true → Placed g i (s.dbn g i)

theorem State.allowed_either : ∀ c ∈ allowed, c.has invalid = !c.has valid := by
  decide +kernel

/-- The map of every state the driver reaches is in order. -/
theorem Reachable.mapOk {g : Geom} {P : Sys → Act → Prop} {s : Sys} (h : Reachable g P s) :
    MapOk g s where
  either := fun i => State.allowed_either _ (h.inv.blk.allowed i)
  placed := fun _ hv => h.inv.blk.placed hv

/-- Block `i` is valid and holds one of the `iosize / 512` sectors from `iosector` on. -/
def Sys.Overlaps (g : Geom) (s : Sys) (iosector iosize i : Nat) : Prop :=
  (s.st g i).has valid = true ∧ ∃ k < iosize / 512,
    s.dbn g i ≤ (iosector + k) % 2 ^ 64 ∧ (iosector + k) % 2 ^ 64 < s.dbn g i + g.blockSize

/-- The sectors of a block are in the set of the block. -/
theorem Placed.hashBlock_eq {g : Geom} {i d x : Nat} (h : Placed g i d) (hlo : d ≤ x)
    (hhi : x < d + g.blockSize) : i / g.assoc = g.hashBlock x := by
  have hpos := g.blockSize_pos
  have hround : g.roundSector x = d := by
    have hd : d / g.blockSize * g.blockSize = d := h.aligned
    rw [Geom.roundSector]
    have hquot : x / g.blockSize = d / g.blockSize := by
      apply Nat.le_antisymm
      · rw [← Nat.lt_succ_iff, Nat.div_lt_iff_lt_mul hpos, Nat.succ_mul, hd]
        exact hhi
      · exact Nat.div_le_div_right hlo
    rw [hquot, hd]
  rw [← h.inSet, ← hround, g.hashBlock_roundSector]

theorem MapOk.touched_iff {g : Geom} {s : Sys} (h : MapOk g s) (iosector iosize i : Nat) :
    s.Touched g (fun j x => j / g.assoc = g.hashBlock x ∧
      Sys.InRange iosector (iosize / 512) x) i ↔ s.Overlaps g iosector iosize i := by
  have hvalid : (s.st g i).has invalid = false ↔ (s.st g i).has valid = true := by
    rw [h.either]
    simp
  rw [Sys.Touched, hvalid, Sys.Overlaps]
  constructor
  · rintro ⟨hv, x, ⟨_, k, hk, rfl⟩, hin⟩
    exact ⟨hv, k, hk, hin⟩
  · rintro ⟨hv, k, hk, hin⟩
    exact ⟨hv, _, ⟨(h.placed i hv).hashBlock_eq hin.1 hin.2, k, hk, rfl⟩, hin⟩

/-- The outcome of a range invalidation: an overlapping block that is clean and idle is
dropped, one with I/O in progress that is not dirty gets `QUEUED`, and nothing else changes
but the count of cached blocks, which goes down by one for each block dropped, to 0 at
the least. -/
structure RangeInvalidated (g : Geom) (iosector iosize : Nat) (s s' : Sys) : Prop where
  dropped : ∀ i, s.Overlaps g iosector iosize i →
    (s.st g i).has (blockIoInprog ||| dirty ||| queued) = false →
    s'.st g i = invalid
  queued : ∀ i, s.Overlaps g iosector iosize i → (s.st g i).has blockIoInprog = true →
    (s.st g i).has dirty = false →
    s'.st g i = (s.st g i).on queued ∧ s'.dbn g i = s.dbn g i
  kept : ∀ i, ¬ (s.Overlaps g iosector iosize i ∧
      ((s.st g i).has (blockIoInprog ||| dirty ||| State.queued) = false ∨
        (s.st g i).has blockIoInprog = true ∧ (s.st g i).has dirty = false)) →
    s'.st g i = s.st g i ∧ s'.dbn g i = s.dbn g i
  cached : s'.cachedBlocks = s.cachedBlocks -
    (List.range g.size).countP fun i =>
      (s.st g i).has valid && (s'.st g i).has invalid
  frame : s' = { s with md := s'.md, cachedBlocks := s'.cachedBlocks }

theorem Invalidates.rangeInvalidated {g : Geom} {s s' : Sys} {iosector iosize : Nat}
    (hok : MapOk g s) (h : Invalidates g (fun j x => j / g.assoc = g.hashBlock x ∧
      Sys.InRange iosector (iosize / 512) x) s s') : RangeInvalidated g iosector iosize s s' where
  dropped := by
    intro i hi hidle
    rw [h.hit i ((hok.touched_iff _ _ i).mpr hi), State.afterInval_of_idle hidle]
  queued := by
    intro i hi hio hd
    have hst : s'.st g i = (s.st g i).on queued := by
      rw [h.hit i ((hok.touched_iff _ _ i).mpr hi), State.afterInval_of_busy _ hio hd]
    refine ⟨hst, h.dbn i (.inl ?_)⟩
    rw [hst, State.has_invalid_on_queued, hok.either, hi.1]
    rfl
  kept := by
    intro i hi
    by_cases hin : s.Overlaps g iosector iosize i
    · -- the scan saw the block and left its flags alone
      have hno := fun hcase => hi ⟨hin, hcase⟩
      have hst : s'.st g i = s.st g i := by
        rw [h.hit i ((hok.touched_iff _ _ i).mpr hin)]
        exact State.afterInval_of_kept _ (by simpa using fun hidle => hno (.inl hidle))
          fun hbusy => hno (.inr hbusy)
      refine ⟨hst, h.dbn i (.inl ?_)⟩
      rw [hst, hok.either, hin.1]
      rfl
    · have hin' := fun ht => hin ((hok.touched_iff _ _ i).mp ht)
      exact ⟨h.miss i hin', h.dbn i (.inr hin')⟩
  cached := by
    rw [h.cached]
    congr 2
    funext i
    rw [droppedIn, hok.either]
    simp
  frame := h.frame

/-- A range of sectors is invalidated in as many rounds as it has sectors. -/
theorem invalRange_invalidates_range {g : Geom} (hshift : g.consecutiveShift + g.blockShift < 23)
    (hsize : g.size < 2 ^ 31) {s : Sys} (hok : MapOk g s) (iosector iosize : Nat)
    (hsector : iosector < 2 ^ 64) (hdvd : 512 ∣ iosize) :
    ∀ rounds, iosize / 512 ≤ rounds → ∃ s', Sys.invalRange g rounds iosector iosize s = some s' ∧
      RangeInvalidated g iosector iosize s s' := by
  intro rounds hrounds
  obtain ⟨s', hs', hinv⟩ :=
    invalRange_invalidates hsize rounds iosector iosize s (.inl hshift) hsector hdvd hrounds
  exact ⟨s', hs', hinv.rangeInvalidated hok⟩

/-- A cache whose first block holds the first sectors of the disk. -/
def Sys.oneBlock (g : Geom) : Sys := (Sys.init g).setSt g 0 valid

theorem Sys.oneBlock_st (g : Geom) (i : Nat) :
    (Sys.oneBlock g).st g i = if i = 0 then valid else invalid := by
  rw [oneBlock, setSt_st]
  congr 1
  exact Meta.stateGet_create

theorem Sys.oneBlock_dbn (g : Geom) : (Sys.oneBlock g).dbn g 0 = 0 := by
  have hassoc := g.assoc_pos.ne
  simp only [oneBlock, dbn, setSt, init, Meta.create, Meta.stateSet, Meta.dbnGet]
  split
  · simp
  · simp [Meta.expandDbn, Geom.expandBits, hassoc]

theorem Sys.oneBlock_mapOk {g : Geom} (h : 0 < g.diskSize) : MapOk g (Sys.oneBlock g) where
  either := by
    intro i
    rw [oneBlock_st]
    split <;> decide
  placed := by
    intro i hv
    rw [oneBlock_st] at hv
    split at hv
    · next hi =>
      subst hi
      rw [oneBlock_dbn]
      refine ⟨by simp [Geom.roundSector], ?_, h⟩
      simp [Geom.hashBlock, Geom.dbnToSet_eq, g.numSets_pos.ne']
    · exact absurd hv (by decide)

theorem invalRange_drops_first : ∃ s',
    Sys.invalRange smallCache 8 0 4096 (Sys.oneBlock smallCache) = some s' ∧
      RangeInvalidated smallCache 0 4096 (Sys.oneBlock smallCache) s' ∧
      (Sys.oneBlock smallCache).st smallCache 0 = valid ∧
      s'.st smallCache 0 = invalid := by
  obtain ⟨s', hs', hr⟩ := invalRange_invalidates_range (g := smallCache) (by decide) (by decide)
    (oneBlock_mapOk (by decide)) 0 4096 (by decide) (by decide) 8 (by decide)
  have hvalid := oneBlock_st smallCache 0
  rw [if_pos rfl] at hvalid
  refine ⟨s', hs', hr, hvalid, hr.dropped 0 ⟨by rw [hvalid]; decide, 0, by decide, ?_⟩ ?_⟩
  · rw [oneBlock_dbn]
    decide
  · rw [hvalid]
    decide

end EnhanceIO
