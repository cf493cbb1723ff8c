import EnhanceIO.BlockLru
import EnhanceIO.Lookup

/-!
# Replacement policies and `eio_lookup`

`eio_fifo.c`, `eio_rand.c` and, with the lists of `BlockLru`, `eio_lru.c`: which block of a
set is given up, and which blocks of a set are chosen for cleaning. The rest of the driver
model takes the victim of a policy as given; `eioLookup` is the lookup with the search the
policy makes, and `eioLookup_victim` says that the one is an instance of the other.
-/

namespace EnhanceIO

open State

/-- `sp_cache_set` of the FIFO policy, by set number. -/
structure Fifo where
  fifoNext : Nat → Nat
  cleanNext : Nat → Nat

/-- A replacement policy, with what it keeps of a cache. -/
inductive Policy where
  | fifo (f : Fifo)
  | lru (l : BlockLru)
  | rand (random : Nat)

/-- The state of the blocks and the sectors they hold. -/
structure BlockMap where
  st : Nat → State
  dbn : Nat → Nat

/-- The index after `i` in the set that starts at `start`, around its end. -/
def nextInSet (start assoc i : Nat) : Nat := if i + 1 = start + assoc then start else i + 1

/-! ## The search for a victim -/

namespace Fifo

/-- `eio_fifo_cache_sets_init`, in the memory `vmalloc` gave. The products are unsigned
ints. -/
def cacheSetsInit (assoc numSets : Nat) (f : Fifo) : Fifo :=
  (List.range (intRounds numSets)).foldl (fun f i =>
    { f with
      fifoNext := Function.update f.fifoNext i (i * assoc % 2 ^ 32)
      cleanNext := Function.update f.cleanNext i (i * assoc % 2 ^ 32) }) f

/-- The loop of `eio_fifo_find_reclaim_dbn` with `slots` rounds left: the victim and where
the loop stopped; `none` if an assertion on the index fails. -/
def reclaimScan (st : Nat → State) (start assoc : Nat) : Nat → Nat → Option (Option Nat × Nat)
  | 0, i => some (none, i)
  | slots + 1, i =>
    if ¬ (start ≤ i ∧ i < start + assoc) then none
    else if st i = valid then some (some i, i)
    else reclaimScan st start assoc slots (nextInSet start assoc i)

/-- `eio_fifo_find_reclaim_dbn`. -/
def findReclaimDbn (f : Fifo) (assoc : Nat) (st : Nat → State) (start : Nat) :
    Option (Option Nat × Fifo) :=
  let set := start / assoc
  (reclaimScan st start assoc assoc (f.fifoNext set)).map fun (victim, i) =>
    (victim, { f with fifoNext := Function.update f.fifoNext set (nextInSet start assoc i) })

end Fifo

/-- The loop of `eio_rand_find_reclaim_dbn` with `slots` rounds left: the victim and the
counter afterwards. -/
def randScan (st : Nat → State) (start assoc : Nat) : Nat → Nat → Option Nat × Nat
  | 0, random => (none, random)
  | slots + 1, random =>
    let idx := random % assoc
    let random := (random + 1) % 2 ^ 32
    if st (start + idx) = valid then (some (start + idx), random)
    else randScan st start assoc slots random

namespace Policy

/-- `eio_find_reclaim_dbn`. -/
def findReclaimDbn (pol : Policy) (assoc : Nat) (st : Nat → State) (start : Nat) :
    Option (Option Nat × Policy) :=
  match pol with
  | .fifo f => (f.findReclaimDbn assoc st start).map fun (victim, f) => (victim, .fifo f)
  | .lru l => (l.findReclaimDbn assoc st start).map fun (victim, l) => (victim, .lru l)
  | .rand random =>
    let (victim, random) := randScan st (start / assoc * assoc) assoc assoc random
    some (victim, .rand random)

/-- `eio_policy_reclaim_lru_movetail`. -/
def reclaimLruMovetail (pol : Policy) (assoc i : Nat) : Policy :=
  match pol with
  | .lru l => .lru (l.movetail assoc i)
  | pol => pol

end Policy

/-! ## `eio_lookup` -/

/-- What `eio_lookup` reads of a cache; `hash` is `hash_block`. -/
structure SetLayout where
  assoc : Nat
  numSets : Nat
  blockSize : Nat
  hash : Nat → Nat
  assoc_pow : ∃ shift, assoc = 2 ^ shift
  hash_lt : ∀ dbn, hash dbn < numSets
  size_lt : assoc * numSets < 2 ^ 31

namespace SetLayout

theorem assoc_pos (c : SetLayout) : 0 < c.assoc := by
  obtain ⟨shift, hshift⟩ := c.assoc_pow
  rw [hshift]
  exact Nat.two_pow_pos shift

theorem assoc_le (c : SetLayout) : c.assoc ≤ 2 ^ 32 := by
  have hpos := Nat.lt_of_le_of_lt (Nat.zero_le _) (c.hash_lt 0)
  have hle := Nat.le_mul_of_pos_right c.assoc hpos
  have hsize := c.size_lt
  omega

/-- `EIO_ROUND_SECTOR`. -/
def roundSector (c : SetLayout) (sector : Nat) : Nat := sector / c.blockSize * c.blockSize

/-- First index of the set of a sector; the product is an unsigned int. -/
def start (c : SetLayout) (sector : Nat) : Nat :=
  c.assoc * c.hash (c.roundSector sector) % 2 ^ 32

end SetLayout

namespace BlockMap

/-- `find_valid_dbn`. -/
def findValidDbn (m : BlockMap) (assoc dbn start : Nat) : Option Nat :=
  (List.range' start assoc).find? fun i => (m.st i).has valid && m.dbn i == dbn

/-- `find_invalid_dbn`. -/
def findInvalidDbn (m : BlockMap) (assoc start : Nat) : Option Nat :=
  (List.range' start assoc).find? fun i => m.st i == invalid

/-- `eio_lookup`: the answer, and the policy with the moves the lookup made. -/
def eioLookup (m : BlockMap) (c : SetLayout) (pol : Policy) (sector : Nat) :
    Option (Lookup × Policy) :=
  let dbn := c.roundSector sector
  let start := c.start sector
  match m.findValidDbn c.assoc dbn start with
  | some i =>
    some (.valid i,
      if (m.st i).has blockIoInprog then pol else pol.reclaimLruMovetail c.assoc i)
  | none =>
    match m.findInvalidDbn c.assoc start with
    | some i => some (.invalid i, pol.reclaimLruMovetail c.assoc i)
    | none =>
      (pol.findReclaimDbn c.assoc m.st start).map fun (victim, pol) =>
        (victim.elim .none .valid, pol)

end BlockMap

/-! ## The order of a search -/

/-- The indices of a set in circular order from `i`. -/
def circular (start assoc i : Nat) : List Nat :=
  List.range' i (start + assoc - i) ++ List.range' start (i - start)

/-- The indices a random search of `slots` rounds visits. -/
def randVisits (start assoc slots random : Nat) : List Nat :=
  (List.range slots).map fun k => start + (random + k) % 2 ^ 32 % assoc

section
variable {start assoc i : Nat} (st : Nat → State)

theorem nextInSet_mem (h : start ≤ i ∧ i < start + assoc) :
    start ≤ nextInSet start assoc i ∧ nextInSet start assoc i < start + assoc := by
  rw [nextInSet]
  split <;> omega

theorem mem_circular (h : start ≤ i ∧ i < start + assoc) {x : Nat} :
    x ∈ circular start assoc i ↔ start ≤ x ∧ x < start + assoc := by
  rw [circular, List.mem_append, List.mem_range'_1, List.mem_range'_1]
  omega

theorem circular_nodup (h : start ≤ i ∧ i < start + assoc) : (circular start assoc i).Nodup := by
  refine List.nodup_append.mpr ⟨List.nodup_range', List.nodup_range', fun x hx y hy => ?_⟩
  rw [List.mem_range'_1] at hx hy
  omega

theorem length_circular (h : start ≤ i ∧ i < start + assoc) :
    (circular start assoc i).length = assoc := by
  rw [circular, List.length_append, List.length_range', List.length_range']
  omega

/-- A step of the pointer turns the order by one. -/
theorem circular_next (h : start ≤ i ∧ i < start + assoc) :
    ∃ rest, circular start assoc i = i :: rest ∧
      circular start assoc (nextInSet start assoc i) = rest ++ [i] := by
  refine ⟨List.range' (i + 1) (start + assoc - i - 1) ++ List.range' start (i - start), ?_, ?_⟩
  · have hlen : start + assoc - i = (start + assoc - i - 1) + 1 := by omega
    rw [circular, hlen, List.range'_succ]
    rfl
  · rw [circular, nextInSet]
    split
    · next hend =>
      have hnone : start + assoc - i - 1 = 0 := by omega
      have hlen : start + assoc - start = (i - start) + 1 := by omega
      have hlast : start + 1 * (i - start) = i := by omega
      rw [hnone, Nat.sub_self, hlen, List.range'_concat, hlast]
      simp
    · next hin =>
      have hlen : i + 1 - start = (i - start) + 1 := by omega
      have hlast : start + 1 * (i - start) = i := by omega
      rw [hlen, List.range'_concat, hlast, List.append_assoc, Nat.sub_sub]

/-- A loop of `n` rounds visits the first `n` indices of the circular order. -/
theorem take_circular {n : Nat} (h : start ≤ i ∧ i < start + assoc) (hn : n + 1 ≤ assoc) :
    (circular start assoc i).take (n + 1) =
      i :: (circular start assoc (nextInSet start assoc i)).take n := by
  obtain ⟨rest, hcur, hnext⟩ := circular_next h
  have hlen := length_circular h
  rw [hcur, List.length_cons] at hlen
  rw [hcur, hnext, List.take_succ_cons, List.take_append_of_le_length (by omega)]

/-- The FIFO search stops in the set, at the first victim in circular order. -/
theorem Fifo.reclaimScan_eq : ∀ (slots : Nat) {i : Nat}, slots ≤ assoc →
    start ≤ i ∧ i < start + assoc → ∃ j, (start ≤ j ∧ j < start + assoc) ∧
      Fifo.reclaimScan st start assoc slots i =
        some (((circular start assoc i).take slots).find? fun x => st x = valid, j) := by
  intro slots
  induction slots with
  | zero =>
    intro i _ hi
    exact ⟨i, hi, rfl⟩
  | succ slots ih =>
    intro i hslots hi
    rw [take_circular hi hslots, Fifo.reclaimScan, if_neg (not_not.mpr hi)]
    by_cases hst : st i = valid
    · exact ⟨i, hi, by simp [hst]⟩
    · obtain ⟨j, hj, hscan⟩ := ih (by omega) (nextInSet_mem hi)
      refine ⟨j, hj, ?_⟩
      rw [if_neg hst, hscan, List.find?_cons_of_neg (by simpa using hst)]

/-- The random search visits `slots` indices of the set in a row. -/
theorem randScan_eq (start assoc : Nat) : ∀ (slots : Nat) {random : Nat}, random < 2 ^ 32 →
    (randScan st start assoc slots random).1 =
        (randVisits start assoc slots random).find? (fun x => st x = valid) ∧
      (randScan st start assoc slots random).2 < 2 ^ 32 := by
  intro slots
  induction slots with
  | zero =>
    intro random hr
    exact ⟨rfl, hr⟩
  | succ slots ih =>
    intro random hr
    have hnext : (random + 1) % 2 ^ 32 < 2 ^ 32 := Nat.mod_lt _ (by decide)
    have hrest : randVisits start assoc (slots + 1) random =
        (start + random % assoc) :: randVisits start assoc slots ((random + 1) % 2 ^ 32) := by
      rw [randVisits, List.range_succ_eq_map, List.map_cons, List.map_map, Nat.add_zero,
        Nat.mod_eq_of_lt hr]
      congr 1
      apply List.map_congr_left
      intro k _
      show start + (random + (k + 1)) % 2 ^ 32 % assoc = _
      rw [Nat.mod_add_mod, Nat.add_assoc, Nat.add_comm 1 k]
    rw [hrest, randScan]
    by_cases hst : st (start + random % assoc) = valid
    · simpa [hst] using hnext
    · simp only [hst, if_false]
      rw [List.find?_cons_of_neg (by simpa using hst)]
      exact ih hnext

/-- The counter wraps at a multiple of the associativity, so that the random search visits
every block. -/
theorem mem_randVisits {random x : Nat} (hpow : ∃ shift, assoc = 2 ^ shift)
    (hassoc : assoc ≤ 2 ^ 32) :
    x ∈ randVisits start assoc assoc random ↔ start ≤ x ∧ x < start + assoc := by
  obtain ⟨shift, rfl⟩ := hpow
  have hshift : shift ≤ 32 := (Nat.pow_le_pow_iff_right (by decide)).mp hassoc
  have hpos : 0 < 2 ^ shift := Nat.two_pow_pos shift
  have hmod : ∀ n, n % 2 ^ 32 % 2 ^ shift = n % 2 ^ shift :=
    fun n => Nat.mod_mod_of_dvd n (Nat.pow_dvd_pow 2 hshift)
  simp only [randVisits, hmod, List.mem_map, List.mem_range]
  constructor
  · rintro ⟨k, -, rfl⟩
    have := Nat.mod_lt (random + k) hpos
    omega
  · rintro ⟨hlo, hhi⟩
    -- the round in which the counter points to `x`
    refine ⟨(x - start + (2 ^ shift - random % 2 ^ shift)) % 2 ^ shift, Nat.mod_lt _ hpos, ?_⟩
    have hr := Nat.mod_lt random hpos
    have hsum : (random + (x - start + (2 ^ shift - random % 2 ^ shift))) % 2 ^ shift =
        x - start := by
      have heq : random + (x - start + (2 ^ shift - random % 2 ^ shift)) =
          (x - start) + 2 ^ shift * (random / 2 ^ shift + 1) := by
        have := Nat.div_add_mod random (2 ^ shift)
        rw [Nat.mul_add, Nat.mul_one]
        omega
      rw [heq, Nat.add_mul_mod_self_left, Nat.mod_eq_of_lt (by omega)]
    rw [Nat.add_mod_mod, hsum]
    omega

end

/-! ## Policies in good order -/

/-- Index `i` belongs to the set that starts at `start`. -/
def InSet (start assoc i : Nat) : Prop := start ≤ i ∧ i < start + assoc

/-- What a policy keeps of a set is in order: the FIFO pointer named is inside of it, the LRU
list is one of all its blocks, with block numbers that are no null pointers, and the random
counter is a 32-bit number. -/
def Policy.Ok (pointer : Fifo → Nat → Nat) (assoc set : Nat) : Policy → Prop
  | .fifo f => InSet (set * assoc) assoc (pointer f set)
  | .lru l => assoc ≤ lruNull ∧ ∃ xs : List (Fin assoc), l.Describes set xs ∧
      xs.Perm (List.finRange assoc)
  | .rand random => random < 2 ^ 32

section
variable {pointer : Fifo → Nat → Nat} {assoc set : Nat} {pol : Policy}

/-- A move of a block keeps the lists of two blocks or more. -/
theorem BlockLru.ok_movetail {l : BlockLru} (h : (Policy.lru l).Ok pointer assoc set)
    (htwo : 2 ≤ assoc) (i : Fin assoc) {set' : Nat} (h' : (Policy.lru l).Ok pointer assoc set') :
    (Policy.lru (l.movetail assoc (blk set i))).Ok pointer assoc set' := by
  obtain ⟨hassoc, xs, hxs, hperm⟩ := h
  obtain ⟨hmine, hperm', hothers⟩ := hxs.movetail hperm hassoc htwo i
  by_cases hne : set' = set
  · subst hne
    exact ⟨hassoc, _, hmine, hperm'⟩
  · obtain ⟨-, ys, hys, hpermy⟩ := h'
    exact ⟨hassoc, ys, hys.same (hothers set' hne), hpermy⟩

theorem Policy.Ok.reclaimLruMovetail (h : pol.Ok pointer assoc set)
    (htwo : ∀ l, pol = .lru l → 2 ≤ assoc) {i : Nat} (hi : InSet (set * assoc) assoc i)
    {set' : Nat} (h' : pol.Ok pointer assoc set') :
    (pol.reclaimLruMovetail assoc i).Ok pointer assoc set' := by
  cases pol with
  | fifo f => exact h'
  | rand random => exact h'
  | lru l =>
    obtain ⟨hlo, hhi⟩ := hi
    have hblk : i = BlockLru.blk set (⟨i - set * assoc, by omega⟩ : Fin assoc) := by
      show i = set * assoc + (i - set * assoc)
      omega
    rw [hblk]
    exact BlockLru.ok_movetail h (htwo l rfl) _ h'

/-- The policy goes through all blocks of the set, in the order given, and takes the first
one whose state is exactly `VALID`. -/
structure Policy.Searches (pol : Policy) (assoc set : Nat) (st : Nat → State)
    (order : List Nat) (pol' : Policy) : Prop where
  answer : pol.findReclaimDbn assoc st (set * assoc) =
    some (order.find? (fun x => st x = valid), pol')
  all : ∀ x, x ∈ order ↔ InSet (set * assoc) assoc x
  visits : order.length = assoc
  fifo : ∀ f, pol = .fifo f → order = circular (set * assoc) assoc (f.fifoNext set)
  ok : (∀ l, pol = .lru l → 2 ≤ assoc) → ∀ set', pol.Ok Fifo.fifoNext assoc set' →
    pol'.Ok Fifo.fifoNext assoc set'

theorem Fifo.searches {f : Fifo} (h : (Policy.fifo f).Ok Fifo.fifoNext assoc set)
    (hpos : 0 < assoc) (st : Nat → State) :
    ∃ order pol', (Policy.fifo f).Searches assoc set st order pol' := by
  obtain ⟨j, hj, hscan⟩ := Fifo.reclaimScan_eq st assoc (Nat.le_refl assoc) h
  rw [List.take_of_length_le (Nat.le_of_eq (length_circular h))] at hscan
  refine ⟨circular (set * assoc) assoc (f.fifoNext set),
    .fifo { f with
      fifoNext := Function.update f.fifoNext set (nextInSet (set * assoc) assoc j) },
    ?_, fun x => mem_circular h, length_circular h, ?_, ?_⟩
  · rw [Policy.findReclaimDbn, Fifo.findReclaimDbn, Nat.mul_div_cancel _ hpos, hscan]
    rfl
  · intro f' hf
    cases hf
    rfl
  · intro _ set' hset'
    show InSet (set' * assoc) assoc (Function.update f.fifoNext set _ set')
    rw [Function.update_apply]
    split
    · next heq =>
      rw [heq]
      exact nextInSet_mem hj
    · exact hset'

/-- The blocks of a list of all numbers of the set. -/
theorem BlockLru.mem_blks {xs : List (Fin assoc)} (hperm : xs.Perm (List.finRange assoc))
    {x : Nat} : x ∈ xs.map (blk set) ↔ InSet (set * assoc) assoc x := by
  rw [List.mem_map]
  constructor
  · rintro ⟨i, -, rfl⟩
    exact ⟨Nat.le_add_right _ _, Nat.add_lt_add_left i.isLt _⟩
  · rintro ⟨hlo, hhi⟩
    refine ⟨⟨x - set * assoc, by omega⟩, hperm.mem_iff.mpr (List.mem_finRange _), ?_⟩
    show set * assoc + (x - set * assoc) = x
    omega

theorem BlockLru.searches {l : BlockLru} (h : (Policy.lru l).Ok Fifo.fifoNext assoc set)
    (hpos : 0 < assoc) (st : Nat → State) :
    ∃ order pol', (Policy.lru l).Searches assoc set st order pol' := by
  obtain ⟨hassoc, xs, hxs, hperm⟩ := id h
  obtain ⟨L, his, hholds⟩ := hxs.holds hperm hassoc
  have hfind := findReclaimDbn_eq st hassoc his hholds hpos
  have hmap : (xs.find? fun i => st (blk set i) = valid).map (blk set) =
      (xs.map (blk set)).find? fun x => st x = valid := by
    rw [List.find?_map]
    rfl
  rw [hmap] at hfind
  generalize hv : (xs.map (blk set)).find? (fun x => st x = valid) = v at hfind
  refine ⟨xs.map (blk set), .lru (v.elim l (l.movetail assoc)), ?_, fun x => mem_blks hperm, ?_,
    by simp, ?_⟩
  · rw [Policy.findReclaimDbn, hfind, hv]
    rfl
  · rw [List.length_map, hperm.length_eq, List.length_finRange]
  · intro htwo set' hset'
    cases v with
    | none => exact hset'
    | some x =>
      obtain ⟨i, -, rfl⟩ := List.mem_map.mp (List.mem_of_find?_eq_some hv)
      exact ok_movetail h (htwo l rfl) i hset'

theorem Policy.Ok.searches (h : pol.Ok Fifo.fifoNext assoc set)
    (hpow : ∃ shift, assoc = 2 ^ shift) (hassoc : assoc ≤ 2 ^ 32) (st : Nat → State) :
    ∃ order pol', pol.Searches assoc set st order pol' := by
  have hpos : 0 < assoc := by
    obtain ⟨shift, rfl⟩ := hpow
    exact Nat.two_pow_pos shift
  cases pol with
  | fifo f => exact Fifo.searches h hpos st
  | lru l => exact BlockLru.searches h hpos st
  | rand random =>
    obtain ⟨hscan, hlt⟩ := randScan_eq st (set * assoc) assoc assoc h
    refine ⟨randVisits (set * assoc) assoc assoc random,
      .rand (randScan st (set * assoc) assoc assoc random).2, ?_,
      fun x => mem_randVisits hpow hassoc, by simp [randVisits], by simp, fun _ _ _ => hlt⟩
    rw [Policy.findReclaimDbn, Nat.mul_div_cancel _ hpos, ← hscan]

end

/-! ## What the lookup answers -/

namespace BlockMap

variable (m : BlockMap) (c : SetLayout) (sector : Nat)

/-- Block `i` of the set holds the sector. -/
def Hit (i : Nat) : Prop :=
  InSet (c.start sector) c.assoc i ∧ (m.st i).has valid ∧ m.dbn i = c.roundSector sector

/-- Block `i` of the set has the state given, with no other flag. -/
def Idle (st : State) (i : Nat) : Prop := InSet (c.start sector) c.assoc i ∧ m.st i = st

/-- The answer of the lookup: the block that holds the sector, otherwise a free block,
otherwise a clean block with no other flag, and `-1` only if there is none of them. -/
structure Finds (pol : Policy) (answer : Lookup) (pol' : Policy) : Prop where
  hit : ∀ i, m.Hit c sector i → answer = .valid i
  free : (∀ i, ¬ m.Hit c sector i) → (∃ i, m.Idle c sector invalid i) →
    ∃ i, answer = .invalid i ∧ m.Idle c sector invalid i
  victim : (∀ i, ¬ m.Hit c sector i) → (∀ i, ¬ m.Idle c sector invalid i) →
    (∃ i, m.Idle c sector valid i) →
    ∃ i, answer = .valid i ∧ m.Idle c sector valid i
  nothing : answer = .none ↔ (∀ i, ¬ m.Hit c sector i) ∧
    (∀ i, ¬ m.Idle c sector invalid i) ∧ ∀ i, ¬ m.Idle c sector valid i
  fifo : (∀ i, ¬ m.Hit c sector i) → (∀ i, ¬ m.Idle c sector invalid i) →
    ∀ f, pol = .fifo f → answer = ((circular (c.start sector) c.assoc
      (f.fifoNext (c.hash (c.roundSector sector)))).find?
        (fun i => m.st i = valid)).elim .none .valid
  ok : (∀ l, pol = .lru l → 2 ≤ c.assoc) → ∀ set, pol.Ok Fifo.fifoNext c.assoc set →
    pol'.Ok Fifo.fifoNext c.assoc set

variable {m c sector}

theorem findValidDbn_eq_none_iff :
    m.findValidDbn c.assoc (c.roundSector sector) (c.start sector) = none ↔
      ∀ i, ¬ m.Hit c sector i := by
  simp only [findValidDbn, List.find?_eq_none, List.mem_range'_1, Hit, InSet, Bool.and_eq_true,
    beq_iff_eq, not_and, and_imp]

theorem findInvalidDbn_eq_none_iff :
    m.findInvalidDbn c.assoc (c.start sector) = none ↔
      ∀ i, ¬ m.Idle c sector invalid i := by
  simp only [findInvalidDbn, List.find?_eq_none, List.mem_range'_1, Idle, InSet, beq_iff_eq,
    not_and, and_imp]

theorem hit_of_findValidDbn {i : Nat}
    (h : m.findValidDbn c.assoc (c.roundSector sector) (c.start sector) = some i) :
    m.Hit c sector i := by
  have hfound := List.find?_some h
  rw [Bool.and_eq_true, beq_iff_eq] at hfound
  exact ⟨List.mem_range'_1.mp (List.mem_of_find?_eq_some h), hfound⟩

theorem idle_of_findInvalidDbn {i : Nat}
    (h : m.findInvalidDbn c.assoc (c.start sector) = some i) :
    m.Idle c sector invalid i := by
  have hfound := List.find?_some h
  exact ⟨List.mem_range'_1.mp (List.mem_of_find?_eq_some h), by simpa using hfound⟩

section
variable {pol : Policy} {i : Nat}

theorem eioLookup_of_valid
    (hvalid : m.findValidDbn c.assoc (c.roundSector sector) (c.start sector) = some i) :
    m.eioLookup c pol sector = some (.valid i,
      if (m.st i).has blockIoInprog then pol else pol.reclaimLruMovetail c.assoc i) := by
  simp only [eioLookup, hvalid]

theorem eioLookup_of_free
    (hvalid : m.findValidDbn c.assoc (c.roundSector sector) (c.start sector) = none)
    (hfree : m.findInvalidDbn c.assoc (c.start sector) = some i) :
    m.eioLookup c pol sector = some (.invalid i, pol.reclaimLruMovetail c.assoc i) := by
  simp only [eioLookup, hvalid, hfree]

theorem eioLookup_of_full
    (hvalid : m.findValidDbn c.assoc (c.roundSector sector) (c.start sector) = none)
    (hfree : m.findInvalidDbn c.assoc (c.start sector) = none) :
    m.eioLookup c pol sector = (pol.findReclaimDbn c.assoc m.st (c.start sector)).map
      fun (victim, pol) => (victim.elim .none .valid, pol) := by
  simp only [eioLookup, hvalid, hfree]

end

theorem start_eq : c.start sector = c.hash (c.roundSector sector) * c.assoc := by
  have hlt := Nat.mul_lt_mul_of_pos_left (c.hash_lt (c.roundSector sector)) c.assoc_pos
  have hsize := c.size_lt
  rw [SetLayout.start, Nat.mod_eq_of_lt (by omega), Nat.mul_comm]

/-- With no block for the sector and no free one, the answer is the policy's. -/
theorem finds_of_searches {pol pol' : Policy} {order : List Nat}
    (hmiss : ∀ i, ¬ m.Hit c sector i) (hfull : ∀ i, ¬ m.Idle c sector invalid i)
    (h : pol.Searches c.assoc (c.hash (c.roundSector sector)) m.st order pol') :
    m.Finds c sector pol
      ((order.find? fun i => m.st i = valid).elim .none .valid) pol' := by
  have hall : ∀ i, i ∈ order ↔ InSet (c.start sector) c.assoc i := by
    rw [start_eq]
    exact h.all
  have hfifo : ∀ f, pol = .fifo f → order = circular (c.start sector) c.assoc
      (f.fifoNext (c.hash (c.roundSector sector))) := by
    rw [start_eq]
    exact h.fifo
  have hnone : order.find? (fun i => m.st i = valid) = none ↔
      ∀ i, ¬ m.Idle c sector valid i := by
    simp only [List.find?_eq_none, hall, Idle, decide_eq_true_eq, not_and]
  refine ⟨fun i hi => absurd hi (hmiss i), fun _ ⟨i, hi⟩ => absurd hi (hfull i), ?_, ?_, ?_, h.ok⟩
  · rintro - - ⟨j, hj⟩
    rcases hfind : order.find? (fun i => m.st i = valid) with _ | i
    · exact absurd hj (hnone.mp hfind j)
    · refine ⟨i, rfl, (hall i).mp (List.mem_of_find?_eq_some hfind), ?_⟩
      simpa using List.find?_some hfind
  · rw [← hnone]
    rcases order.find? (fun i => m.st i = valid) with _ | i
    · exact iff_of_true rfl ⟨hmiss, hfull, rfl⟩
    · exact iff_of_false nofun nofun
  · intro _ _ f hf
    rw [hfifo f hf]

/-- `eio_lookup` finds a block whenever one of the set is usable: with any policy in order,
in any set with at most one valid block for a sector. The searches end, after at most one
visit to each block of the set. -/
theorem eioLookup_finds (m : BlockMap) (c : SetLayout) (pol : Policy) (sector : Nat)
    (hpol : pol.Ok Fifo.fifoNext c.assoc (c.hash (c.roundSector sector)))
    (huniq : ∀ i j, InSet (c.start sector) c.assoc i → InSet (c.start sector) c.assoc j →
      (m.st i).has valid → (m.st j).has valid → m.dbn i = m.dbn j → i = j) :
    ∃ answer pol', m.eioLookup c pol sector = some (answer, pol') ∧
      m.Finds c sector pol answer pol' := by
  have hset : ∀ i, InSet (c.start sector) c.assoc i →
      InSet (c.hash (c.roundSector sector) * c.assoc) c.assoc i := by
    rw [start_eq]
    exact fun i hi => hi
  rcases hvalid : m.findValidDbn c.assoc (c.roundSector sector) (c.start sector) with _ | i
  · have hmiss := findValidDbn_eq_none_iff.mp hvalid
    rcases hfree : m.findInvalidDbn c.assoc (c.start sector) with _ | i
    · have hfull := findInvalidDbn_eq_none_iff.mp hfree
      obtain ⟨order, pol', hsearch⟩ := hpol.searches c.assoc_pow c.assoc_le m.st
      refine ⟨_, pol', ?_, finds_of_searches hmiss hfull hsearch⟩
      rw [eioLookup_of_full hvalid hfree, start_eq, hsearch.answer]
      rfl
    · have hi := idle_of_findInvalidDbn hfree
      refine ⟨_, _, eioLookup_of_free hvalid hfree, ?_⟩
      refine ⟨fun j hj => absurd hj (hmiss j), fun _ _ => ⟨i, rfl, hi⟩,
        fun _ hfull => absurd hi (hfull i), ?_, fun _ hfull => absurd hi (hfull i), ?_⟩
      · exact iff_of_false nofun fun hno => hno.2.1 i hi
      · exact fun htwo set hok => hpol.reclaimLruMovetail htwo (hset i hi.1) hok
  · have hi := hit_of_findValidDbn hvalid
    refine ⟨_, _, eioLookup_of_valid hvalid, ?_⟩
    refine ⟨?_, fun hmiss => absurd hi (hmiss i), fun hmiss => absurd hi (hmiss i), ?_,
      fun hmiss => absurd hi (hmiss i), ?_⟩
    · intro j hj
      rw [huniq i j hi.1 hj.1 hi.2.1 hj.2.1 (hi.2.2.trans hj.2.2.symm)]
    · exact iff_of_false nofun fun hno => hno.1 i hi
    · intro htwo set hok
      split
      · exact hok
      · exact hpol.reclaimLruMovetail htwo (hset i hi.1) hok

/-- One set of two blocks: the first is dirty, and the FIFO pointer is at it. -/
theorem eioLookup_finds_clean :
    ∃ c : SetLayout, ∃ m : BlockMap, ∃ f : Fifo, ∃ pol',
      m.st 0 = alreadyDirty ∧ f.fifoNext 0 = 0 ∧
      m.eioLookup c (.fifo f) 16 = some (.valid 1, pol') ∧
      m.Finds c 16 (.fifo f) (.valid 1) pol' := by
  let c : SetLayout := ⟨2, 1, 8, fun _ => 0, ⟨1, rfl⟩, fun _ => by decide, by decide⟩
  let m : BlockMap := ⟨fun i => if i = 0 then alreadyDirty else valid, fun i => 8 * i⟩
  let f : Fifo := ⟨fun _ => 0, fun _ => 0⟩
  obtain ⟨answer, pol', hlook, hfinds⟩ := eioLookup_finds m c (.fifo f) 16
    (by show 0 ≤ 0 ∧ 0 < 2; decide)
    (by intro i j _ _ _ _ hdbn; exact Nat.eq_of_mul_eq_mul_left (by decide) hdbn)
  have hanswer : answer = .valid 1 := by
    have hval : (m.eioLookup c (.fifo f) 16).map Prod.fst = some (.valid 1) := by decide
    rw [hlook] at hval
    exact Option.some.inj hval
  subst hanswer
  exact ⟨c, m, f, pol', rfl, rfl, hlook, hfinds⟩

end BlockMap

/-! ## The lookup of the driver model -/

/-- The layout of a cache with fewer than 2^31 blocks. -/
def Geom.layout (g : Geom) (hsize : g.size < 2 ^ 31) : SetLayout where
  assoc := g.assoc
  numSets := g.numSets
  blockSize := g.blockSize
  hash := g.hashBlock
  assoc_pow := ⟨g.consecutiveShift, rfl⟩
  hash_lt := g.hashBlock_lt
  size_lt := hsize

/-- The block states of the driver model. -/
def Sys.blockMap (s : Sys) (g : Geom) : BlockMap := ⟨s.st g, s.dbn g⟩

/-- The lookup of the driver model, at the victim of a policy in order. -/
theorem eioLookup_victim (g : Geom) (hsize : g.size < 2 ^ 31) (s : Sys) {pol : Policy}
    {sector : Nat} (hpol : pol.Ok Fifo.fifoNext g.assoc (g.hashBlock (g.roundSector sector))) :
    ∃ victim, s.VictimOk g sector victim ∧
      ((s.blockMap g).eioLookup (g.layout hsize) pol sector).map Prod.fst =
        some (s.lookup g sector victim) := by
  have hstart : Sys.startIndex g (g.hashBlock (g.roundSector sector)) =
      g.hashBlock (g.roundSector sector) * g.assoc := BlockMap.start_eq (c := g.layout hsize)
  obtain ⟨order, pol', hsearch⟩ :=
    hpol.searches (g.layout hsize).assoc_pow (g.layout hsize).assoc_le (s.st g)
  refine ⟨order.find? fun i => s.st g i = valid, ?_, ?_⟩
  · intro i hi
    rw [hstart]
    obtain ⟨hlo, hhi⟩ := (hsearch.all i).mp (List.mem_of_find?_eq_some hi)
    exact ⟨hlo, hhi, by simpa using List.find?_some hi⟩
  · rcases hvalid : s.findValidDbn g (g.roundSector sector)
        (Sys.startIndex g (g.hashBlock (g.roundSector sector))) with _ | i
    · rcases hfree : s.findInvalidDbn g
          (Sys.startIndex g (g.hashBlock (g.roundSector sector))) with _ | i
      · have hanswer : (s.blockMap g).eioLookup (g.layout hsize) pol sector =
            ((some (order.find? (fun i => s.st g i = valid), pol') : Option _).map
              fun (victim, pol) => (victim.elim .none .valid, pol)) := by
          rw [← hsearch.answer, ← hstart]
          exact BlockMap.eioLookup_of_full (m := s.blockMap g) (c := g.layout hsize) hvalid hfree
        rw [hanswer]
        simp only [Sys.lookup, hvalid, hfree]
        rcases order.find? (fun i => s.st g i = valid) with _ | i <;> rfl
      · rw [BlockMap.eioLookup_of_free (m := s.blockMap g) (c := g.layout hsize) hvalid hfree]
        simp only [Sys.lookup, hvalid, hfree]
        rfl
    · rw [BlockMap.eioLookup_of_valid (m := s.blockMap g) (c := g.layout hsize) hvalid]
      simp only [Sys.lookup, hvalid]
      rfl

/-- The two blocks of set 0 are valid, for the sectors from 0 and from 32 on. -/
def BlockLru.fullSet : Sys :=
  { Sys.init fourBlocks with
    md := ((Meta.create fourBlocks).stateSet fourBlocks 0 valid).stateSet fourBlocks 1
      valid |>.dbnSet fourBlocks 0 0 |>.dbnSet fourBlocks 1 32 }

/-- The FIFO pointer is at block 1, so that it makes room for the sectors from 64 on. -/
theorem eioLookup_victim_fifo : ∃ victim,
    BlockLru.fullSet.VictimOk BlockLru.fourBlocks 64 victim ∧
      BlockLru.fullSet.lookup BlockLru.fourBlocks 64 victim = .valid 1 ∧
      ((BlockLru.fullSet.blockMap BlockLru.fourBlocks).eioLookup
        (BlockLru.fourBlocks.layout (by decide)) (.fifo ⟨fun _ => 1, fun _ => 0⟩) 64).map
          Prod.fst = some (.valid 1) := by
  have hpol : (Policy.fifo ⟨fun _ => 1, fun _ => 0⟩).Ok Fifo.fifoNext BlockLru.fourBlocks.assoc
      (BlockLru.fourBlocks.hashBlock (BlockLru.fourBlocks.roundSector 64)) := by
    show 0 ≤ 1 ∧ 1 < 2
    decide
  obtain ⟨victim, hok, hlook⟩ :=
    eioLookup_victim BlockLru.fourBlocks (by decide) BlockLru.fullSet hpol
  have hval : ((BlockLru.fullSet.blockMap BlockLru.fourBlocks).eioLookup
      (BlockLru.fourBlocks.layout (by decide)) (.fifo ⟨fun _ => 1, fun _ => 0⟩) 64).map
        Prod.fst = some (.valid 1) := by decide
  exact ⟨victim, hok, Option.some.inj (hlook.symm.trans hval), hval⟩

end EnhanceIO
