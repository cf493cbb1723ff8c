import EnhanceIO.Lib.Count
import EnhanceIO.Lib.Run

/-!
# Completion of an I/O of several bios

`eio_async_io`, `eio_sync_io` and `eio_dec_count` of `eio_ttc.c`. The context of an I/O
counts one reference for each bio that has been submitted and not completed, and one for the
submitter. The dispatch never returns an error, so the branch that waits for the bios and
frees the context after one is dead and left out.
-/

namespace EnhanceIO

/-- Where a bio of the I/O is. `eio_dec_count` first stores the error of the bio, then drops
its reference. -/
inductive BioPc where
  | unbuilt
  | counted
  | flight
  | stored
  | ended
  deriving DecidableEq, Repr

/-- The bio has a reference to the context. -/
def BioPc.holds : BioPc → Bool
  | .counted | .flight | .stored => true
  | .unbuilt | .ended => false

/-- `struct eio_context`, with where its bios are. `next` is the bio the dispatch is at;
`fired` are the values of `error` at the calls of the callback, or when the event was
completed; `ret` is what `eio_sync_io` returned. -/
structure IoContext where
  count : Nat
  error : Int
  bio : Nat → BioPc
  status : Nat → Int
  next : Nat
  dropped : Bool
  fired : List Int
  ret : Option Int

/-- What happens next. `endio` is the entry of `eio_endio`, with the error of the bio. -/
inductive IoAct where
  | inc
  | submit
  | endio (k : Nat) (error : Int)
  | dec (k : Nat)
  | drop
  | wait

namespace IoContext

/-- The context when the dispatch starts. -/
def start : IoContext :=
  { count := 1, error := 0, bio := fun _ => .unbuilt, status := fun _ => 0, next := 0,
    dropped := false, fired := [], ret := none }

/-- `atomic_dec_and_test` and what follows in `eio_dec_count`. -/
def decCount (s : IoContext) : IoContext :=
  let count := (s.count + (2 ^ 32 - 1)) % 2 ^ 32
  { s with count, fired := if count = 0 then s.fired ++ [s.error] else s.fired }

/-- A step of the I/O, of `n` bios. -/
def step (n : Nat) (sync : Bool) (s : IoContext) : IoAct → Option IoContext
  | .inc =>
    if s.next < n ∧ s.bio s.next = .unbuilt then
      some { s with
        count := (s.count + 1) % 2 ^ 32
        bio := Function.update s.bio s.next .counted }
    else none
  | .submit =>
    if s.bio s.next = .counted then
      some { s with bio := Function.update s.bio s.next .flight, next := s.next + 1 }
    else none
  | .endio k error =>
    if s.bio k = .flight then
      some { s with
        bio := Function.update s.bio k .stored
        status := Function.update s.status k error
        error := if error ≠ 0 then error else s.error }
    else none
  | .dec k =>
    if s.bio k = .stored then
      some (decCount { s with bio := Function.update s.bio k .ended })
    else none
  | .drop =>
    if s.next = n ∧ s.dropped = false then some (decCount { s with dropped := true }) else none
  | .wait =>
    -- `wait_for_completion`, then `ret = io.error` if it is set
    if sync ∧ s.dropped ∧ s.fired ≠ [] ∧ s.ret = none then some { s with ret := some s.error }
    else none

/-- The states of the runs of an I/O of `n` bios. -/
abbrev Reachable (n : Nat) (sync : Bool) : IoContext → Prop :=
  Run.Reach (step n sync) (fun _ _ => True) start

/-! ## References -/

/-- The references of the bios. -/
def held (n : Nat) (bio : Nat → BioPc) : Nat := (List.range n).countP fun k => (bio k).holds

theorem held_update (bio : Nat → BioPc) {n k : Nat} (pc : BioPc) (hk : k < n) :
    held n (Function.update bio k pc) + (bio k).holds.toNat = held n bio + pc.holds.toNat := by
  have hchange := Count.countP_change (p := fun k => (bio k).holds)
    (q := fun j => (Function.update bio k pc j).holds) (a := k) List.nodup_range
    (List.mem_range.mpr hk) (fun j hj => by rw [Function.update_of_ne hj])
  rwa [Function.update_self] at hchange

theorem held_le (n : Nat) (bio : Nat → BioPc) : held n bio ≤ n := by
  have := List.countP_le_length (p := fun k => (bio k).holds) (l := List.range n)
  rwa [List.length_range] at this

theorem held_pos {n k : Nat} {bio : Nat → BioPc} (hk : k < n) (h : (bio k).holds = true) :
    0 < held n bio :=
  List.countP_pos_iff.mpr ⟨k, List.mem_range.mpr hk, h⟩

/-- Where bio `k` may be when the dispatch is at bio `next`. -/
def Placed (n next k : Nat) (pc : BioPc) : Prop :=
  (k < next ∧ (pc = .flight ∨ pc = .stored ∨ pc = .ended)) ∨ (next ≤ k ∧ pc = .unbuilt) ∨
    (k = next ∧ k < n ∧ pc = .counted)

/-- What holds between the steps of an I/O. -/
structure Inv (n : Nat) (s : IoContext) : Prop where
  count : s.count = held n s.bio + (!s.dropped).toNat
  next_le : s.next ≤ n
  dropped : s.dropped = true → s.next = n
  placed : ∀ k, Placed n s.next k (s.bio k)
  status : ∀ k, s.bio k = .stored ∨ s.bio k = .ended ∨ s.status k = 0
  error : s.error ≠ 0 ↔ ∃ k < n, s.status k ≠ 0
  fired : s.fired = if s.count = 0 then [s.error] else []
  ret : ∀ e ∈ s.ret, s.count = 0 ∧ e = s.error

theorem decCount_eq {s : IoContext} (hpos : 0 < s.count) (hlt : s.count < 2 ^ 32) :
    s.decCount = { s with
      count := s.count - 1
      fired := if s.count - 1 = 0 then s.fired ++ [s.error] else s.fired } := by
  have hcount : (s.count + (2 ^ 32 - 1)) % 2 ^ 32 = s.count - 1 := by omega
  rw [decCount, hcount]

namespace Inv

variable {n k : Nat} {s : IoContext}

theorem start : Inv n start where
  count := by simp [IoContext.start, held, BioPc.holds]
  next_le := Nat.zero_le n
  dropped := nofun
  placed := fun k => .inr (.inl ⟨Nat.zero_le k, rfl⟩)
  status := fun _ => .inr (.inr rfl)
  error := by simp [IoContext.start]
  fired := rfl
  ret := nofun

section
variable (h : Inv n s)
include h

theorem lt_of_holds (hk : (s.bio k).holds = true) : k < n := by
  rcases h.placed k with ⟨hlt, -⟩ | ⟨-, hpc⟩ | ⟨-, hlt, -⟩
  · exact Nat.lt_of_lt_of_le hlt h.next_le
  · rw [hpc] at hk
    exact Bool.noConfusion hk
  · exact hlt

theorem count_lt (hn : n < 2 ^ 31) : s.count + 1 < 2 ^ 32 := by
  have hle := held_le n s.bio
  have hone := Bool.toNat_le (!s.dropped)
  rw [h.count]
  omega

theorem count_pos (hk : (s.bio k).holds = true) : 0 < s.count := by
  have hheld := held_pos (h.lt_of_holds hk) hk
  rw [h.count]
  omega

theorem count_pos_of_kept (hkept : s.dropped = false) : 0 < s.count := by
  rw [h.count, hkept]
  exact Nat.succ_pos _

theorem fired_nil (hpos : 0 < s.count) : s.fired = [] := by
  rw [h.fired, if_neg hpos.ne']

theorem ret_none (hpos : 0 < s.count) : s.ret = none := by
  rw [Option.eq_none_iff_forall_not_mem]
  intro e he
  exact hpos.ne' (h.ret e he).1

theorem inc (hn : n < 2 ^ 31) (hnext : s.next < n) (hbio : s.bio s.next = .unbuilt) : Inv n { s with
      count := (s.count + 1) % 2 ^ 32
      bio := Function.update s.bio s.next .counted } := by
  have hkept : s.dropped = false := by
    rcases hd : s.dropped with _ | _
    · rfl
    · exact absurd (h.dropped hd) hnext.ne
  have hpos := h.count_pos_of_kept hkept
  rw [Nat.mod_eq_of_lt (h.count_lt hn)]
  refine ⟨?_, h.next_le, h.dropped, ?_, ?_, h.error, ?_, ?_⟩
  · have hcount := h.count
    have hheld := held_update s.bio .counted hnext
    rw [hbio] at hheld
    simp only [BioPc.holds, Bool.toNat_true, Bool.toNat_false] at hheld ⊢
    omega
  · refine (Function.forall_update_iff _ _).mpr ⟨.inr (.inr ⟨rfl, hnext, rfl⟩), ?_⟩
    exact fun j _ => h.placed j
  · refine (Function.forall_update_iff _ fun j pc => pc = _ ∨ pc = _ ∨ s.status j = 0).mpr
      ⟨.inr (.inr ?_), fun j _ => h.status j⟩
    simpa [hbio] using h.status s.next
  · rw [if_neg (Nat.succ_ne_zero _)]
    exact h.fired_nil hpos
  · intro e he
    exact absurd he (by simp [h.ret_none hpos])

theorem submit (hbio : s.bio s.next = .counted) :
    Inv n { s with bio := Function.update s.bio s.next .flight, next := s.next + 1 } := by
  have hnext : s.next < n := h.lt_of_holds (by rw [hbio]; rfl)
  have hpos : 0 < s.count := h.count_pos (by rw [hbio]; rfl)
  refine ⟨?_, hnext, ?_, ?_, ?_, h.error, h.fired, h.ret⟩
  · have hcount := h.count
    have hheld := held_update s.bio .flight hnext
    rw [hbio] at hheld
    simp only [BioPc.holds, Bool.toNat_true] at hheld ⊢
    omega
  · intro hd
    exact absurd (h.dropped hd) hnext.ne
  · refine (Function.forall_update_iff _ _).mpr
      ⟨.inl ⟨Nat.lt_succ_self _, .inl rfl⟩, fun j hj => ?_⟩
    rcases h.placed j with ⟨hlt, hpc⟩ | ⟨hle, hpc⟩ | ⟨heq, -⟩
    · exact .inl ⟨Nat.lt_succ_of_lt hlt, hpc⟩
    · exact .inr (.inl ⟨Nat.lt_of_le_of_ne hle (Ne.symm hj), hpc⟩)
    · exact absurd heq hj
  · refine (Function.forall_update_iff _ fun j pc => pc = _ ∨ pc = _ ∨ s.status j = 0).mpr
      ⟨.inr (.inr ?_), fun j _ => h.status j⟩
    simpa [hbio] using h.status s.next

theorem endio (hbio : s.bio k = .flight) (error : Int) : Inv n { s with
      bio := Function.update s.bio k .stored
      status := Function.update s.status k error
      error := if error ≠ 0 then error else s.error } := by
  have hk : k < n := h.lt_of_holds (by rw [hbio]; rfl)
  have hpos : 0 < s.count := h.count_pos (by rw [hbio]; rfl)
  have hclear : s.status k = 0 := by simpa [hbio] using h.status k
  refine ⟨?_, h.next_le, h.dropped, ?_, ?_, ?_, ?_, ?_⟩
  · have hcount := h.count
    have hheld := held_update s.bio .stored hk
    rw [hbio] at hheld
    simp only [BioPc.holds, Bool.toNat_true] at hheld ⊢
    omega
  · refine (Function.forall_update_iff _ _).mpr ⟨?_, fun j _ => h.placed j⟩
    rcases h.placed k with ⟨hlt, -⟩ | ⟨-, hpc⟩ | ⟨-, -, hpc⟩
    · exact .inl ⟨hlt, .inr (.inl rfl)⟩
    · exact absurd (hbio.symm.trans hpc) nofun
    · exact absurd (hbio.symm.trans hpc) nofun
  · intro j
    by_cases hj : j = k
    · exact .inl (by simp [hj])
    · simpa [Function.update_of_ne hj] using h.status j
  · -- the last error stored stays unless another one comes
    by_cases herror : error = 0
    · have hsame : Function.update s.status k 0 = s.status := by
        rw [← hclear, Function.update_eq_self]
      simp only [herror, hsame, ne_eq, not_true_eq_false, if_false]
      exact h.error
    · simp only [ne_eq, herror, not_false_eq_true, if_true, true_iff]
      exact ⟨k, hk, by simpa using herror⟩
  · rw [if_neg hpos.ne']
    exact h.fired_nil hpos
  · intro e he
    exact absurd he (by simp [h.ret_none hpos])

/-- A reference goes, that of a bio or that of the submitter. With the last one the I/O
fires. -/
theorem released (hn : n < 2 ^ 31) {bio : Nat → BioPc} {dropped : Bool}
    (hcount : s.count = held n bio + (!dropped).toNat + 1)
    (hdropped : dropped = true → s.next = n) (hplaced : ∀ j, Placed n s.next j (bio j))
    (hstatus : ∀ j, bio j = .stored ∨ bio j = .ended ∨ s.status j = 0) :
    Inv n (decCount { s with bio := bio, dropped := dropped }) := by
  have hpos : 0 < s.count := by omega
  have hlt : s.count < 2 ^ 32 := Nat.lt_of_succ_lt (h.count_lt hn)
  rw [decCount_eq (s := { s with bio := bio, dropped := dropped }) hpos hlt]
  refine ⟨?_, h.next_le, hdropped, hplaced, hstatus, h.error, ?_, ?_⟩
  · show s.count - 1 = held n bio + (!dropped).toNat
    omega
  · simp only [h.fired_nil hpos, List.nil_append]
  · intro e he
    exact absurd he (by simp [h.ret_none hpos])

theorem dec (hn : n < 2 ^ 31) (hbio : s.bio k = .stored) :
    Inv n (decCount { s with bio := Function.update s.bio k .ended }) := by
  have hk : k < n := h.lt_of_holds (by rw [hbio]; rfl)
  apply h.released hn
  · have hcount := h.count
    have hheld := held_update s.bio .ended hk
    rw [hbio] at hheld
    simp only [BioPc.holds, Bool.toNat_true, Bool.toNat_false] at hheld
    omega
  · exact h.dropped
  · refine (Function.forall_update_iff _ _).mpr ⟨?_, fun j _ => h.placed j⟩
    rcases h.placed k with ⟨hlt, -⟩ | ⟨-, hpc⟩ | ⟨-, -, hpc⟩
    · exact .inl ⟨hlt, .inr (.inr rfl)⟩
    · exact absurd (hbio.symm.trans hpc) nofun
    · exact absurd (hbio.symm.trans hpc) nofun
  · exact (Function.forall_update_iff _ fun j pc => pc = _ ∨ pc = _ ∨ s.status j = 0).mpr
      ⟨.inr (.inl rfl), fun j _ => h.status j⟩

theorem drop (hn : n < 2 ^ 31) (hnext : s.next = n) (hkept : s.dropped = false) :
    Inv n (decCount { s with dropped := true }) := by
  apply h.released hn _ (fun _ => hnext) h.placed h.status
  have hcount := h.count
  rw [hkept] at hcount
  simpa using hcount

theorem wait (hfired : s.fired ≠ []) : Inv n { s with ret := some s.error } := by
  refine ⟨h.count, h.next_le, h.dropped, h.placed, h.status, h.error, h.fired, ?_⟩
  intro e he
  rw [Option.mem_some_iff] at he
  refine ⟨?_, he.symm⟩
  apply Nat.eq_zero_of_not_pos
  intro hpos
  exact hfired (h.fired_nil hpos)

theorem step {sync : Bool} {a : IoAct} {s' : IoContext} (hn : n < 2 ^ 31)
    (hs : s.step n sync a = some s') : Inv n s' := by
  cases a <;> simp only [IoContext.step, Option.ite_none_right_eq_some] at hs
  case inc =>
    obtain ⟨⟨hnext, hbio⟩, hs⟩ := hs
    rw [← Option.some.inj hs]
    exact h.inc hn hnext hbio
  case submit =>
    obtain ⟨hbio, hs⟩ := hs
    rw [← Option.some.inj hs]
    exact h.submit hbio
  case endio k error =>
    obtain ⟨hbio, hs⟩ := hs
    rw [← Option.some.inj hs]
    exact h.endio hbio error
  case dec k =>
    obtain ⟨hbio, hs⟩ := hs
    rw [← Option.some.inj hs]
    exact h.dec hn hbio
  case drop =>
    obtain ⟨⟨hnext, hkept⟩, hs⟩ := hs
    rw [← Option.some.inj hs]
    exact h.drop hn hnext hkept
  case wait =>
    obtain ⟨⟨-, -, hfired, -⟩, hs⟩ := hs
    rw [← Option.some.inj hs]
    exact h.wait hfired

end

end Inv

theorem Reachable.inv {n : Nat} {sync : Bool} {s : IoContext} (hn : n < 2 ^ 31)
    (h : Reachable n sync s) : Inv n s :=
  h.invariant Inv.start fun hinv _ hs => hinv.step hn hs

/-! ## Completion -/

/-- All bios have been submitted and have completed, and the submitter is done with them. -/
def Finished (n : Nat) (s : IoContext) : Prop :=
  s.dropped = true ∧ s.next = n ∧ ∀ k < n, s.bio k = .ended

theorem Inv.finished_iff {n : Nat} {s : IoContext} (h : Inv n s) :
    Finished n s ↔ s.count = 0 := by
  constructor
  · rintro ⟨hdropped, -, hended⟩
    have hheld : held n s.bio = 0 := by
      apply List.countP_eq_zero.mpr
      intro k hk
      rw [hended k (List.mem_range.mp hk)]
      exact Bool.false_ne_true
    rw [h.count, hheld, hdropped]
    rfl
  · intro hzero
    have hdropped : s.dropped = true := by
      rcases hd : s.dropped with _ | _
      · exact absurd hzero (h.count_pos_of_kept hd).ne'
      · rfl
    refine ⟨hdropped, h.dropped hdropped, fun k hk => ?_⟩
    have hidle : (s.bio k).holds = false := by
      rcases hholds : (s.bio k).holds with _ | _
      · rfl
      · exact absurd hzero (h.count_pos hholds).ne'
    rcases h.placed k with ⟨-, hpc | hpc | hpc⟩ | ⟨hle, -⟩ | ⟨-, -, hpc⟩
    · rw [hpc] at hidle
      exact Bool.noConfusion hidle
    · rw [hpc] at hidle
      exact Bool.noConfusion hidle
    · exact hpc
    · have := h.dropped hdropped
      omega
    · rw [hpc] at hidle
      exact Bool.noConfusion hidle

/-- What a multi-bio I/O promises in each state: at most one callback or completed event,
and one exactly if all bios have been submitted and completed and the submitter has dropped
its reference; until then something can still happen; and the error reported, to the callback
or by `eio_sync_io`, tells whether a bio failed. -/
structure CompletesOnce (n : Nat) (sync : Bool) (s : IoContext) : Prop where
  once : s.fired.length ≤ 1
  fires : s.fired ≠ [] ↔ Finished n s
  live : ¬ Finished n s → ∃ a s', s.step n sync a = some s'
  error : ∀ e ∈ s.fired, e ≠ 0 ↔ ∃ k < n, s.status k ≠ 0
  ret : ∀ e ∈ s.ret, Finished n s ∧ (e ≠ 0 ↔ ∃ k < n, s.status k ≠ 0)

theorem Inv.live {n : Nat} {s : IoContext} (h : Inv n s) (sync : Bool) (hnot : ¬ Finished n s) :
    ∃ a s', s.step n sync a = some s' := by
  by_cases hbusy : ∃ k, (s.bio k).holds = true
  · obtain ⟨k, hk⟩ := hbusy
    rcases h.placed k with ⟨-, hpc | hpc | hpc⟩ | ⟨-, hpc⟩ | ⟨hnext, -, hpc⟩
    · exact ⟨.endio k 0, _, if_pos hpc⟩
    · exact ⟨.dec k, _, if_pos hpc⟩
    · rw [hpc] at hk
      exact Bool.noConfusion hk
    · rw [hpc] at hk
      exact Bool.noConfusion hk
    · rw [hnext] at hpc
      exact ⟨.submit, _, if_pos hpc⟩
  · -- no bio has a reference: the dispatch goes on, or the submitter still has its own
    rcases Nat.lt_or_eq_of_le h.next_le with hlt | hend
    · rcases h.placed s.next with ⟨hself, -⟩ | ⟨-, hpc⟩ | ⟨-, -, hpc⟩
      · exact absurd hself (Nat.lt_irrefl _)
      · exact ⟨.inc, _, if_pos ⟨hlt, hpc⟩⟩
      · exact absurd ⟨s.next, by rw [hpc]; rfl⟩ hbusy
    · rcases hd : s.dropped with _ | _
      · exact ⟨.drop, _, if_pos ⟨hend, hd⟩⟩
      · have hheld : held n s.bio = 0 :=
          List.countP_eq_zero.mpr fun k _ hk => hbusy ⟨k, hk⟩
        apply absurd (h.finished_iff.mpr _) hnot
        rw [h.count, hheld, hd]
        rfl

/-- Every run of an I/O of `n` bios, synchronous or not, completes once. The number of bios of
a dispatch is an int: `Tiles.bios_le`. -/
theorem io_completes_once (n : Nat) (hn : n < 2 ^ 31) (sync : Bool) (s : IoContext)
    (h : Reachable n sync s) : CompletesOnce n sync s := by
  have hinv := h.inv hn
  have hfired := hinv.fired
  refine ⟨?_, ?_, hinv.live sync, ?_, ?_⟩
  · rw [hfired]
    split <;> simp
  · rw [hinv.finished_iff, hfired]
    split <;> simp [*]
  · intro e he
    rw [hfired] at he
    split at he
    · rw [List.mem_singleton.mp he]
      exact hinv.error
    · exact absurd he List.not_mem_nil
  · intro e he
    obtain ⟨hzero, hsame⟩ := hinv.ret e he
    rw [hsame]
    exact ⟨hinv.finished_iff.mpr hzero, hinv.error⟩

/-- Two bios of a synchronous I/O; the first fails while the second is still being built. -/
theorem io_completes_once_failed :
    ∃ s, Reachable 2 true s ∧ s.fired = [-5] ∧ s.ret = some (-5) ∧ CompletesOnce 2 true s := by
  obtain ⟨s, hs, hfired, hret⟩ : ∃ s, Reachable 2 true s ∧ s.fired = [-5] ∧ s.ret = some (-5) :=
    Run.Reach.of_run (fun _ _ => true) (fun _ _ _ => trivial)
      [.inc, .submit, .endio 0 (-5), .inc, .dec 0, .submit, .drop, .endio 1 0, .dec 1, .wait]
      (by decide)
  exact ⟨s, hs, hfired, hret, io_completes_once 2 (by decide) true s hs⟩

end IoContext

end EnhanceIO
