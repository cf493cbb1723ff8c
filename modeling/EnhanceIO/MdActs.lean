import EnhanceIO.Acts

/-!
# What an act does to a metadata update

`MdMove` says what becomes of the `mdupdate_request` attached to a set:
`eio_enq_mdupdate` attaches it or joins it, `eio_do_mdupdate` starts it, it goes on as
its pages are written, and `eio_post_mdupdate` detaches or re-arms it. `WaitMove` says
what becomes of an ebio that waits for one, and `Act.finds` in which state an act
finds the ebio it works on.
-/

namespace EnhanceIO

open State Sys

section
variable {g : Geom} {s s' t : Sys} {a : Act} {b set : Nat} {e : EbId}

/-! ## The ebio an act works on -/

/-- The states in which an act finds the ebio it works on. -/
def Act.finds : Act → EbSt → Prop
  | .peek _ _, st => st = .new
  | .cachedRead _ _, st | .uwLock _, st | .cwLock _, st | .cwFail _, st | .readDone _, st
  | .readfill _, st => st = .peeked
  | .uwSubmit _ _, st => st = .ucIssue
  | .cwSubmit _ _, st => st = .cwIssue
  | .flag _, st => st = .peeked ∨ (∃ ssd, st = .uc ssd false) ∨ st = .ucLost false
  | .readfillSubmit _ _, st => st = .fillIssue ∨ st = .dirtyIssue
  | .ssdSector _ _ _, st | .ssdDone _ _ _, st => Sys.EbSt.atSsd st = true
  | .ebEndio _ _, st => st = .done
  | .reread _ _ _, st => st = .readFail
  | .rereadSector _ _ _, st | .rereadDone _ _ _, st => st = .reread
  | _, _ => False

theorem Sys.ebioAt_eq_some {k : Nat} (h : s.ebioAt b k = some e) :
    e = (b, k) ∧ k < (s.req b).segs.length := by
  obtain ⟨hk, heq⟩ := Option.ite_none_right_eq_some.mp h
  exact ⟨(Option.some.inj heq).symm, hk⟩

/-- `eio_map` stands at an ebio that the act has to deal with next. -/
theorem Live.finds_pc (hl : Live g s) {k : Nat} (hk : k < (s.req b).segs.length)
    (hpc : (s.bio b).pc = .peek k ∧ (∃ v, a = .peek b v) ∨
      (s.bio b).pc = .cachedRead k ∧ (∃ r, a = .cachedRead b r) ∨
      (s.bio b).pc = .uwLock k ∧ a = .uwLock b ∨
      (s.bio b).pc = .uwSubmit k ∧ (∃ r, a = .uwSubmit b r) ∨
      (s.bio b).pc = .cwLock k ∧ a = .cwLock b ∨
      (s.bio b).pc = .cwSubmit k ∧ (∃ r, a = .cwSubmit b r) ∨
      (∃ err, (s.bio b).pc = .cwFail k err) ∧ a = .cwFail b) :
    a.finds (s.ebio (b, k)).st := by
  have hat := (hl.bio b).at_ k hk
  rcases hpc with ⟨hp, v, rfl⟩ | ⟨hp, r, rfl⟩ | ⟨hp, rfl⟩ | ⟨hp, r, rfl⟩ | ⟨hp, rfl⟩ |
    ⟨hp, r, rfl⟩ |
    ⟨⟨err, hp⟩, rfl⟩ <;> simp only [hp, stage, Nat.lt_irrefl, if_false, if_true] at hat
  · exact hat.2
  all_goals exact hat.1

theorem Live.finds_main (hl : Live g s) {k : Nat} (hk : k < (s.req b).segs.length)
    (hmain : (∃ inv err, (s.bio b).main = .flag k inv err) ∧ a = .flag b ∨
      (s.bio b).main = .readDone k ∧ a = .readDone b ∨
      (s.bio b).main = .readfill k ∧ a = .readfill b ∨
      (s.bio b).main = .readfillIssue k ∧ ∃ r, a = .readfillSubmit b r) :
    a.finds (s.ebio (b, k)).st := by
  have hat := (hl.bio b).at_ k hk
  have hne : (s.bio b).main ≠ .none := by
    rcases hmain with ⟨⟨inv, err, hm⟩, -⟩ | ⟨hm, -⟩ | ⟨hm, -⟩ | ⟨hm, -⟩ <;> simp [hm]
  rw [stage_issued ((hl.bio b).issued hne)] at hat
  rcases hmain with ⟨⟨inv, err, hm⟩, rfl⟩ | ⟨hm, rfl⟩ | ⟨hm, rfl⟩ | ⟨hm, r, rfl⟩ <;>
    simp only [hm, mainStage, Nat.lt_irrefl, if_false, if_true] at hat
  · cases hdir : (s.req b).dir <;> rw [hdir] at hat
    · exact .inl hat.1
    · rcases hat with ⟨h, -⟩ | ⟨h, -⟩ | ⟨h, -⟩
      · exact .inr (.inl ⟨true, h⟩)
      · exact .inr (.inl ⟨false, h⟩)
      · exact .inr (.inr h)
  · exact hat.1
  · exact hat.1
  · rcases hat with ⟨h, -⟩ | ⟨h, -⟩
    · exact .inl h
    · exact .inr h

/-- An act finds the ebio it works on where it expects it. -/
theorem Live.finds (hl : Live g s) (hs : s.act g a = some s') (ht : a.touched s = some e) :
    a.finds (s.ebio e).st := by
  cases a <;> simp only [Act.touched, reduceCtorEq] at ht
  case peek | cachedRead | uwLock | cwLock | cwFail =>
    simp only [act, stepPeek, stepCachedRead, stepUwLock, stepCwLock,
      stepCwFail] at hs
    split at hs <;> try cases hs
    next hpc =>
      rw [hpc] at ht
      obtain ⟨rfl, hk⟩ := ebioAt_eq_some ht
      exact hl.finds_pc hk (by simp [hpc])
  case uwSubmit b r | cwSubmit b r =>
    simp only [act, stepUwSubmit, stepCwSubmit] at hs
    split at hs <;> try cases hs
    next k hpc =>
      rw [hpc] at ht
      cases ht
      have hp := (hl.bio b).pc
      rw [hpc] at hp
      refine hl.finds_pc ?_ (by simp [hpc])
      first | exact hp.2.2.2 | exact hp.2.2.2.2.2
  case flag | readDone | readfill =>
    simp only [act, stepFlag, stepReadDone, stepReadfill] at hs
    split at hs <;> try cases hs
    next hmain =>
      rw [hmain] at ht
      obtain ⟨rfl, hk⟩ := ebioAt_eq_some ht
      exact hl.finds_main hk (by simp [hmain])
  case readfillSubmit b r =>
    simp only [act, stepReadfillSubmit] at hs
    split at hs <;> try cases hs
    next k hmain =>
      rw [hmain] at ht
      cases ht
      have hm := (hl.bio b).mainOk (by simp [hmain])
      rw [hmain] at hm
      exact hl.finds_main hm.2.2 (by simp [hmain])
  case ssdSector =>
    cases ht
    simp only [act, stepSsdSector] at hs
    split at hs
    · cases hs
    · exact (Option.ite_none_right_eq_some.mp hs).1.1
  case ssdDone =>
    cases ht
    exact (Option.ite_none_right_eq_some.mp hs).1.1
  case ebEndio b k =>
    cases ht
    simp only [act, stepEbEndio] at hs
    split at hs
    · cases hs
    · next htodo =>
      show (s.ebio (b, k)).st = .done
      by_contra hst
      have hlive := (((hl.bio b).ebs k).live hst).1
      rw [htodo] at hlive
      cases hlive
  case reread | rereadSector | rereadDone =>
    cases ht
    simp only [act, stepReread, stepRereadSector, stepRereadDone] at hs
    have hguard := (Option.ite_none_right_eq_some.mp hs).1
    first | exact hguard | exact hguard.1

theorem Act.finds.not_waiting {st : EbSt} (h : a.finds st) : st.waiting = false := by
  by_contra hw
  have hst : st = .mdList ∨ st = .mdPend ∨ st = .mdProg := by
    cases st <;> simp [EbSt.waiting] at hw ⊢
  -- no act looks for an ebio in one of these states
  rcases hst with rfl | rfl | rfl <;> cases a <;> simp [Act.finds, Sys.EbSt.atSsd] at h

theorem Act.finds.of_done (h : a.finds .done) : ∃ b k, a = .ebEndio b k := by
  cases a <;> simp_all [Act.finds, Sys.EbSt.atSsd]

/-! ## `eio_enq_mdupdate` -/

/-- What is left when the ebios `l` have joined request `r` of the set. -/
structure Joined (s t : Sys) (set : Nat) (l : List EbId) (r : MdReq) : Prop where
  frame : t = { s with ebio := t.ebio, mdreq := t.mdreq }
  mdreq : t.mdreq =
    Function.update s.mdreq set (some { r with pending := l.reverse ++ r.pending })
  ebio : ∀ e, t.ebio e = if e ∈ l then { s.ebio e with st := .mdPend } else s.ebio e

/-- One ebio joins request `r` of the set. -/
@[simps]
def Sys.join (s : Sys) (set : Nat) (r : MdReq) (e : EbId) : Sys :=
  { s.updEb e fun eb => { eb with st := .mdPend } with
    mdreq := Function.update s.mdreq set (some { r with pending := e :: r.pending }) }

theorem Sys.enqOne_join {r : MdReq} (hr : s.mdreq set = some r) :
    Sys.enqOne set s e = s.join set r e := by
  have hmap : (s.updEb e fun eb => { eb with st := .mdPend }).mdreq set = some r := hr
  simp only [enqOne, hmap, updMd, Option.map_some]
  rfl

/-- The first ebio of a set without a request takes one from its bio. -/
theorem Sys.enqOne_attach (hr : s.mdreq set = none) (hstock : (s.bio e.1).mdreqs ≠ 0) :
    Sys.enqOne set s e =
      (s.updBio e.1 fun bc => { bc with mdreqs := bc.mdreqs - 1 }).join set MdReq.init e := by
  have hnone : (s.updEb e fun eb => { eb with st := .mdPend }).mdreq set = none := hr
  simp only [enqOne, hnone, updEb_bio, if_neg hstock]
  rfl

theorem Joined.cons {l : List EbId} {r : MdReq}
    (h : Joined (s.join set r e) t set l { r with pending := e :: r.pending }) :
    Joined s t set (e :: l) r := by
  refine ⟨?_, ?_, ?_⟩
  · rw [h.frame]
    rfl
  · rw [h.mdreq]
    simp [join]
  · intro e'
    rw [h.ebio e']
    by_cases hmem : e' ∈ l <;> by_cases he : e' = e <;> simp [hmem, he]

/-- Once the set has a request, the loop only lengthens `pending_mdlist`. -/
theorem Joined.loop : ∀ {l : List EbId} {s : Sys} {r : MdReq}, s.mdreq set = some r →
    Joined s (l.foldl (Sys.enqOne set) s) set l r := by
  intro l
  induction l with
  | nil =>
    intro s r hr
    refine ⟨rfl, ?_, by simp⟩
    simp [← hr]
  | cons e l ih =>
    intro s r hr
    rw [List.foldl_cons, enqOne_join hr]
    apply Joined.cons
    exact ih (by simp)

/-- The request an ebio joins: the one attached to the set, or a new one. -/
def Sys.joins (s : Sys) (set : Nat) : MdReq := (s.mdreq set).getD MdReq.init

/-- The first group of `bc_mdlist` has been handed over: `group` are its ebios, all of
one set, and `rest` is what stays on the list. -/
structure EnqGroup (g : Geom) (s : Sys) (b : Nat) (s' : Sys) (set : Nat)
    (group rest : List Nat) : Prop where
  list : (s.bio b).mdlist = group ++ rest
  ne : group ≠ []
  sets : ∀ j ∈ group, s.setOf g (b, j) = set
  next : ∀ j ∈ rest.head?, s.setOf g (b, j) ≠ set
  frame : s' = { s with bio := s'.bio, ebio := s'.ebio, mdreq := s'.mdreq }
  mdreq : s'.mdreq = Function.update s.mdreq set (some { s.joins set with
    pending := (group.map fun j => (b, j)).reverse ++ (s.joins set).pending })
  ebio : ∀ e, s'.ebio e =
    if e ∈ group.map (fun j => (b, j)) then { s.ebio e with st := .mdPend } else s.ebio e
  bio : s'.bio = Function.update s.bio b { s.bio b with
    mdlist := rest
    enq := rest ≠ []
    mdreqs := (s.bio b).mdreqs - if s.mdreq set = none then 1 else 0 }

/-- The loop over a group, which may have to attach a request with its first ebio. -/
theorem Sys.enqGroup_joined {l : List EbId} (hb : e.1 = b)
    (hstock : s.mdreq set = none → (s.bio b).mdreqs ≠ 0) :
    Joined (s.updBio b fun bc =>
        { bc with mdreqs := bc.mdreqs - if s.mdreq set = none then 1 else 0 })
      ((e :: l).foldl (enqOne set) s) set (e :: l) (s.joins set) := by
  cases hr : s.mdreq set with
  | some r =>
    have hid : (s.updBio b fun bc => { bc with mdreqs := bc.mdreqs - 0 }) = s := updBio_id s b
    simp only [joins, hr, reduceCtorEq, if_false, Option.getD_some, hid]
    exact Joined.loop hr
  | none =>
    subst hb
    rw [List.foldl_cons, enqOne_attach hr (hstock hr), joins, hr]
    apply Joined.cons
    exact Joined.loop (by simp)

theorem EnqGroup.of_loop {group rest : List Nat} {f : Bio → Bio}
    (hlist : (s.bio b).mdlist = group ++ rest) (hne : group ≠ [])
    (hsets : ∀ j ∈ group, s.setOf g (b, j) = set)
    (hnext : ∀ j ∈ rest.head?, s.setOf g (b, j) ≠ set)
    (hstock : s.mdreq set = none → (s.bio b).mdreqs ≠ 0)
    (hf : f (s.bio b) = { s.bio b with mdlist := rest, enq := rest ≠ [] }) :
    EnqGroup g s b ((group.map fun j => (b, j)).foldl (enqOne set) (s.updBio b f)) set
      group rest := by
  obtain ⟨k, l, rfl⟩ : ∃ k l, group = k :: l := List.exists_cons_of_ne_nil hne
  have hreqs : ((s.updBio b f).bio b).mdreqs = (s.bio b).mdreqs := by simp [hf]
  obtain ⟨hframe, hmd, heb⟩ := @enqGroup_joined (s.updBio b f) b set (b, k)
    (l.map fun j => (b, j)) rfl (by rw [hreqs]; exact hstock)
  refine ⟨hlist, hne, hsets, hnext, ?_, hmd, heb, ?_⟩
  · rw [List.map_cons, hframe]
    rfl
  · rw [List.map_cons, hframe]
    simp [updBio, hf]

/-- `eio_enq_mdupdate` on a bio that has a request left for the first set of its list. -/
theorem Sys.act_enqMd (hs : s.act g (.enqMd b) = some s') (hne : (s.bio b).mdlist ≠ [])
    (hstock : ∀ k ∈ (s.bio b).mdlist.head?, s.mdreq (s.setOf g (b, k)) = none →
      (s.bio b).mdreqs ≠ 0) :
    ∃ set group rest, EnqGroup g s b s' set group rest := by
  simp only [act, stepEnqMd] at hs
  obtain ⟨-, rfl⟩ := Option.ite_some_none_eq_some.mp hs
  simp only [enqMdupdate]
  split
  · next hnil => exact absurd hnil hne
  · next k tail hlist =>
    have happ := List.prefix_iff_eq_append.mp (List.takeWhile_prefix
      (fun j => decide (s.setOf g (b, j) = s.setOf g (b, k))) (l := (s.bio b).mdlist))
    have hdrop := List.append_cancel_left (List.takeWhile_append_dropWhile.trans happ.symm)
    refine ⟨_, _, _, EnqGroup.of_loop happ.symm ?_ ?_ ?_ (hstock k (by rw [hlist]; rfl)) rfl⟩
    · rw [hlist, List.takeWhile_cons]
      simp
    · intro j hj
      have hset := List.mem_takeWhile_imp hj
      exact of_decide_eq_true hset
    · intro j hj
      rw [← hdrop] at hj
      have hset := List.head?_dropWhile_not
        (fun j => decide (s.setOf g (b, j) = s.setOf g (b, k))) (s.bio b).mdlist
      rw [hj] at hset
      have hneq : s.setOf g (b, j) ≠ s.setOf g (b, k) := by simpa using hset
      exact hneq

/-! ## `eio_do_mdupdate` and `eio_post_mdupdate` -/

/-- A loop that updates each ebio of a list without repetitions. -/
theorem Sys.foldl_updEb_ebio (f : Ebio → Ebio) : ∀ {l : List EbId}, l.Nodup →
    ∀ (s : Sys) (e : EbId),
    (l.foldl (fun s e => s.updEb e f) s).ebio e = if e ∈ l then f (s.ebio e) else s.ebio e := by
  intro l
  induction l with
  | nil =>
    intro _ s e
    simp
  | cons e' l ih =>
    intro hnodup s e
    obtain ⟨hnot, hnodup⟩ := List.nodup_cons.mp hnodup
    rw [List.foldl_cons, ih hnodup]
    by_cases he : e = e'
    · subst he
      simp [hnot]
    · simp [he]

theorem Sys.foldl_updEb_mdreq (f : Ebio → Ebio) (l : List EbId) (s : Sys) :
    (l.foldl (fun s e => s.updEb e f) s).mdreq = s.mdreq :=
  Run.foldl_rest (f := fun s e => s.updEb e f) (fun _ (t : Sys) => t.mdreq = s.mdreq)
    (fun _ _ _ ht => ht) rfl

/-- The request as `eio_do_mdupdate` starts it. -/
def Sys.mdStarted (g : Geom) (s : Sys) (set : Nat) (r : MdReq) : MdReq :=
  { r with
    phase := .submit 0
    pending := []
    inprog := r.pending
    holdcount := 1
    error := 0
    image := s.mdImage g set r.pending
    bits := fun page sector => decide (∃ e ∈ r.pending,
      s.mdPos g set e / 256 = page ∧ s.mdPos g set e % 256 / 32 = sector)
    page := fun _ => .idle
    xfer := fun _ _ => false }

/-- `eio_do_mdupdate` takes the waiting ebios over, or stops at an assertion. -/
theorem Sys.act_doMd (hl : Live g s) (hs : s.act g (.doMd set) = some s') :
    ∃ r, s.mdreq set = some r ∧ r.phase = .queued ∧
      ((∃ x, x ≠ .enqMdupdate ∧ s' = s.fail x) ∨
        s'.mdreq = Function.update s.mdreq set (some (s.mdStarted g set r)) ∧
        (∀ e, s'.ebio e = if e ∈ r.pending then { s.ebio e with st := .mdProg } else s.ebio e) ∧
        s'.bug = s.bug) := by
  simp only [act, stepDoMd] at hs
  split at hs
  · next r hr =>
    obtain ⟨hph, rfl⟩ := Option.ite_some_none_eq_some.mp hs
    refine ⟨r, hr, hph, ?_⟩
    have hnodup : r.pending.Nodup := by simpa [pending, hr] using hl.md.pendNodup set
    simp only [doMdupdate]
    split
    · exact .inl ⟨.mdPages, by simp, rfl⟩
    split
    · exact .inl ⟨.doMdupdate, by simp, rfl⟩
    split
    · exact .inl ⟨.mdIndex, by simp, rfl⟩
    · refine .inr ⟨?_, ?_, ?_⟩
      · rw [updMd, foldl_updEb_mdreq, hr]
        rfl
      · intro e
        exact foldl_updEb_ebio _ hnodup s e
      · exact Run.foldl_rest (f := fun s e => s.updEb e fun eb => { eb with st := .mdProg })
          (fun _ (t : Sys) => t.bug = s.bug) (fun _ _ _ ht => ht) rfl
  · cases hs

theorem PostLoop.ebio {l : List EbId} {err : Int} {s₀ : Sys} (h : PostLoop g s₀ set (e :: l) s) :
    (Sys.postOne g set err s e).ebio = Function.update s.ebio e ((s.ebio e).endio err) := by
  have hst : (s.ebio e).st = .mdProg := ((h.lists.prog set e).mp (by simp)).1
  obtain ⟨-, i, ho⟩ := h.bios.waiting (e := e) (by rw [hst]; rfl)
  have hc := h.blk.dirtying ho
  simp only [postOne, ho.1, Option.getD_some, hc, ne_eq, not_true_eq_false, if_false]
  split <;> rfl

/-- `eio_post_mdupdate` ends the ebios of the update. -/
theorem Sys.act_postMd (h : Inv g s) (hbug : s.bug = none) (hs : s.act g (.postMd set) = some s') :
    ∃ r, s.mdreq set = some r ∧ r.phase = .post ∧
      s'.mdreq = Function.update s.mdreq set
        (if r.pending = [] then none else some { r with inprog := [], phase := .queued }) ∧
      (∀ e, s'.ebio e = if e ∈ r.inprog then (s.ebio e).endio r.error else s.ebio e) ∧
      s'.bug = s.bug := by
  have hl := h.live hbug
  simp only [act, stepPostMd] at hs
  split at hs
  · next r hr =>
    obtain ⟨hph, rfl⟩ := Option.ite_some_none_eq_some.mp hs
    have hinprog : s.inprog set = r.inprog := by simp [inprog, hr]
    have hnodup : r.inprog.Nodup := hinprog ▸ hl.md.progNodup set
    -- of the ebios of the update, those that are not in `l` have been ended
    have hloop := Run.foldl_rest (f := postOne g set r.error)
      (fun l t => PostLoop g s set l t ∧ l.Nodup ∧ (∀ e ∈ l, e ∈ r.inprog) ∧ ∀ e, t.ebio e =
        if e ∈ r.inprog ∧ e ∉ l then (s.ebio e).endio r.error else s.ebio e)
      ?_ (l := r.inprog) (b := s) ⟨⟨⟨rfl, rfl, rfl⟩, h.blk, hl.toBios, ?_⟩, hnodup, fun _ => id, ?_⟩
    · obtain ⟨hpost, -, -, heb⟩ := hloop
      refine ⟨r, hr, hph, ?_, fun e => ?_, hpost.frame.2.2⟩
      · rw [postMdupdate, hpost.frame.2.1]
      · have heb := heb e
        simpa [postMdupdate] using heb
    · rintro e l t ⟨hpost, hnodup, hmem, heb⟩
      obtain ⟨hnot, hnodup⟩ := List.nodup_cons.mp hnodup
      refine ⟨hpost.step, hnodup, fun e' he' => hmem e' (List.mem_cons_of_mem _ he'), ?_⟩
      intro e'
      rw [hpost.ebio]
      by_cases he : e' = e
      · subst he
        simp [heb e', hnot, hmem e' List.mem_cons_self]
      · simp [he, heb e']
    · rw [← hinprog, Function.update_eq_self]
      exact hl.md.toMdLists
    · simp
  · cases hs

/-! ## Acts on no request -/

/-- A new bio, the cleans, the invalidations and the loss of the SSD leave the metadata
updates and the ebios alone. -/
theorem Sys.act_still (ha : a.bio = none) (hmd : a.isMd = false) (hs : s.act g a = some s') :
    s'.mdreq = s.mdreq ∧ s'.ebio = s.ebio := by
  cases act_other ha hs with
  | map h =>
    cases a <;> cases h
    obtain rfl := stepMap_eq_some hs
    exact ⟨rfl, rfl⟩
  | update h => rw [hmd] at h; cases h
  | clean _ h => rw [h.frame]; exact ⟨rfl, rfl⟩
  | inval _ h => rw [MdFrame] at h; rw [h]; exact ⟨rfl, rfl⟩
  | suspend h =>
    subst h
    obtain ⟨-, hs⟩ := Option.ite_none_left_eq_some.mp hs
    cases hs
    exact ⟨rfl, rfl⟩

/-! ## Every act -/

/-- `eio_enq_mdupdate` has something to hand over, and a request for it if the set
needs one. -/
structure Sys.Stocked (g : Geom) (s : Sys) (b : Nat) : Prop where
  some_left : (s.bio b).enq = true → (s.bio b).mdlist ≠ []
  req_left : (s.bio b).enq = true → ∀ k ∈ (s.bio b).mdlist.head?,
    s.mdreq (s.setOf g (b, k)) = none → (s.bio b).mdreqs ≠ 0

theorem Sys.Stocked.act (h : s.Stocked g b) (hs : s.act g (.enqMd b) = some s') :
    ∃ set group rest, EnqGroup g s b s' set group rest := by
  have henq : (s.bio b).enq = true := (Option.ite_none_right_eq_some.mp hs).1
  exact act_enqMd hs (h.some_left henq) (h.req_left henq)

/-- What becomes of the request of a set. -/
inductive MdMove (g : Geom) (s : Sys) (set : Nat) : Act → Option MdReq → Option MdReq → Prop
  | same {a : Act} {o : Option MdReq} : MdMove g s set a o o
  /-- ebios of a bio join the request, or come with a new one -/
  | join {b : Nat} {l : List EbId} {o : Option MdReq} : l ≠ [] →
      (∀ e ∈ l, e.1 = b ∧ e.2 ∈ (s.bio b).mdlist ∧ s.setOf g e = set) →
      MdMove g s set (.enqMd b) o (some { o.getD MdReq.init with
        pending := l ++ (o.getD MdReq.init).pending })
  | start {r : MdReq} : r.phase = .queued →
      MdMove g s set (.doMd set) (some r) (some (s.mdStarted g set r))
  | issue {r : MdReq} {p : Nat} {refused : Int} : r.phase = .submit p → p < Sys.mdPages g →
      r.hasBits p = true →
      MdMove g s set (.mdSubmit set refused) (some r) (some
        { r with
          phase := .submit (p + 1)
          holdcount := r.holdcount + 1
          error := if refused ≠ 0 ∧ r.error = 0 then refused else r.error
          page := if refused = 0 then Function.update r.page p .inflight else r.page })
  | skip {r : MdReq} {p : Nat} {refused : Int} : r.phase = .submit p → r.hasBits p = false →
      MdMove g s set (.mdSubmit set refused) (some r) (some { r with phase := .submit (p + 1) })
  | issued {r : MdReq} {p : Nat} {refused : Int} : r.phase = .submit p → Sys.mdPages g ≤ p →
      MdMove g s set (.mdSubmit set refused) (some r) (some
        { r with
          phase := if r.holdcount - 1 = 0 then .post else .wait
          holdcount := r.holdcount - 1 })
  | sector {r : MdReq} {p q : Nat} : r.page p = .inflight →
      MdMove g s set (.mdSector set p q) (some r) (some
        { r with xfer := Function.update r.xfer p (Function.update (r.xfer p) q true) })
  | done {r : MdReq} {p : Nat} {err : Int} : r.page p = .inflight →
      MdMove g s set (.mdDone set p err) (some r) (some
        { r with
          page := Function.update r.page p .done
          error := if err ≠ 0 ∧ r.error = 0 then err else r.error
          holdcount := r.holdcount - 1
          phase := if r.holdcount - 1 = 0 then .post else r.phase })
  | post {r : MdReq} : r.phase = .post →
      MdMove g s set (.postMd set) (some r)
        (if r.pending = [] then none else some { r with inprog := [], phase := .queued })

/-- An update of the request of set `set'`, seen from set `set`. -/
theorem MdMove.of_update {set' : Nat} {o : Option MdReq}
    (hs : s'.mdreq = Function.update s.mdreq set' o)
    (h : MdMove g s set' a (s.mdreq set') o) : MdMove g s set a (s.mdreq set) (s'.mdreq set) := by
  rw [hs]
  by_cases hset : set = set'
  · subst hset
    rw [Function.update_self]
    exact h
  · rw [Function.update_of_ne hset]
    exact .same

theorem Sys.act_mdMove (h : Inv g s) (hbug : s.bug = none) (hstock : ∀ b, s.Stocked g b)
    (hs : s.act g a = some s') (set : Nat) : MdMove g s set a (s.mdreq set) (s'.mdreq set) := by
  have hl := h.live hbug
  cases hb : a.bio with
  | some b =>
    by_cases henq : a = .enqMd b
    · subst henq
      obtain ⟨set', group, rest, hg⟩ := (hstock b).act hs
      refine .of_update hg.mdreq (.join ?_ ?_)
      · simpa using hg.ne
      · intro e he
        obtain ⟨j, hj, rfl⟩ := List.mem_map.mp (List.mem_reverse.mp he)
        refine ⟨rfl, ?_, hg.sets j hj⟩
        rw [hg.list]
        exact List.mem_append_left _ hj
    · rw [(act_moved h.blk hb henq hs).mdreq]
      exact .same
  | none =>
    cases hmd : a.isMd with
    | false =>
      rw [(act_still hb hmd hs).1]
      exact .same
    | true =>
      cases a <;> simp only [Act.isMd, Bool.false_eq_true] at hmd
      case doMd set' =>
        obtain ⟨r, hr, hph, ⟨x, -, rfl⟩ | ⟨hreq, -⟩⟩ := act_doMd hl hs
        · exact .same
        · refine .of_update hreq ?_
          rw [hr]
          exact .start hph
      case postMd set' =>
        obtain ⟨r, hr, hph, hreq, -⟩ := act_postMd h hbug hs
        refine .of_update hreq ?_
        rw [hr]
        exact .post hph
      case mdSubmit set' refused =>
        simp only [act, stepMdSubmit] at hs
        split at hs
        · next r hr =>
          split at hs <;> cases hs
          next p hph =>
          simp only [mdSubmit]
          split
          · next hp =>
            split
            · next hbits =>
              refine .of_update rfl ?_
              rw [hr]
              exact .issue hph hp hbits
            · next hbits =>
              refine .of_update rfl ?_
              rw [hr]
              exact .skip hph (by simpa using hbits)
          · next hp =>
            refine .of_update rfl ?_
            rw [hr]
            exact .issued hph (Nat.le_of_not_lt hp)
        · cases hs
      case mdSector set' p q =>
        simp only [act, stepMdSector] at hs
        split at hs
        · next r hr =>
          obtain ⟨⟨hpage, -, -⟩, rfl⟩ := Option.ite_some_none_eq_some.mp hs
          refine .of_update rfl ?_
          show MdMove g s set' _ (s.mdreq set') ((s.mdreq set').map _)
          rw [hr]
          exact .sector hpage
        · cases hs
      case mdDone set' p err =>
        simp only [act, stepMdDone] at hs
        split at hs
        · next r hr =>
          obtain ⟨⟨hpage, -⟩, rfl⟩ := Option.ite_some_none_eq_some.mp hs
          refine .of_update rfl ?_
          rw [hr]
          exact .done hpage
        · cases hs

/-! ## The fate of an ebio -/

/-- What an act does to ebio `e`: nothing, or it works on the ebio of a bio, or it moves
one that waits for a metadata update. -/
inductive EbFate (g : Geom) (s s' : Sys) (e : EbId) : Act → Prop
  | same {a : Act} : s'.ebio e = s.ebio e → EbFate g s s' e a
  | work {a : Act} : a.touched s = some e → a.finds (s.ebio e).st → EbFate g s s' e a
  | pend : (s.ebio e).st = .mdList → s'.ebio e = { s.ebio e with st := .mdPend } →
      EbFate g s s' e (.enqMd e.1)
  | prog : (s.ebio e).st = .mdPend → s'.ebio e = { s.ebio e with st := .mdProg } →
      EbFate g s s' e (.doMd (s.setOf g e))
  | post {r : MdReq} : (s.ebio e).st = .mdProg → s.mdreq (s.setOf g e) = some r →
      s'.ebio e = (s.ebio e).endio r.error → EbFate g s s' e (.postMd (s.setOf g e))

theorem Sys.act_ebFate (h : Inv g s) (hbug : s.bug = none) (hstock : ∀ b, s.Stocked g b)
    (hs : s.act g a = some s') (e : EbId) : EbFate g s s' e a := by
  have hl := h.live hbug
  cases hb : a.bio with
  | some b =>
    by_cases henq : a = .enqMd b
    · subst henq
      obtain ⟨set, group, rest, hg⟩ := (hstock b).act hs
      have heb := hg.ebio e
      split at heb
      · next hmem =>
        obtain ⟨j, hj, rfl⟩ := List.mem_map.mp hmem
        refine .pend ((hl.md.list b j).mp ?_) heb
        rw [hg.list]
        exact List.mem_append_left _ hj
      · exact .same heb
    · by_cases htouch : a.touched s = some e
      · exact .work htouch (hl.finds hs htouch)
      · exact .same ((act_moved h.blk hb henq hs).rest e htouch)
  | none =>
    cases hmd : a.isMd with
    | false =>
      refine .same ?_
      rw [(act_still hb hmd hs).2]
    | true =>
      cases a <;> simp only [Act.isMd, Bool.false_eq_true] at hmd
      case doMd set =>
        obtain ⟨r, hr, -, ⟨x, -, rfl⟩ | ⟨-, heb, -⟩⟩ := act_doMd hl hs
        · exact .same rfl
        · have heb := heb e
          split at heb
          · next hmem =>
            have hpend : e ∈ s.pending set := by simpa [pending, hr] using hmem
            obtain ⟨hst, rfl⟩ := (hl.md.pend set e).mp hpend
            exact .prog hst heb
          · exact .same heb
      case postMd set =>
        obtain ⟨r, hr, -, -, heb, -⟩ := act_postMd h hbug hs
        have heb := heb e
        split at heb
        · next hmem =>
          have hprog : e ∈ s.inprog set := by simpa [inprog, hr] using hmem
          obtain ⟨hst, rfl⟩ := (hl.md.prog set e).mp hprog
          exact .post hst hr heb
        · exact .same heb
      case mdSubmit =>
        simp only [act, stepMdSubmit] at hs
        split at hs
        · split at hs <;> cases hs
          simp only [mdSubmit]
          split
          · split <;> exact .same rfl
          · exact .same rfl
        · cases hs
      all_goals
        simp only [act, stepMdSector, stepMdDone] at hs
        split at hs
        · split at hs <;> cases hs
          exact .same rfl
        · cases hs

/-- An ebio that has been ended is not touched again, but to carry its end out. -/
theorem Sys.act_done (h : Inv g s) (hbug : s.bug = none) (hstock : ∀ b, s.Stocked g b)
    (hs : s.act g a = some s') (hd : (s.ebio e).st = .done) :
    s'.ebio e = s.ebio e ∨ s'.ebio e = { s.ebio e with
      todo := (s.ebio e).todo.tail
      ended := (s.ebio e).ended + 1 } ∧ (s.ebio e).todo ≠ [] := by
  cases act_ebFate h hbug hstock hs e with
  | same heb => exact .inl heb
  | work htouch hfinds =>
    rw [hd] at hfinds
    obtain ⟨b, k, rfl⟩ := hfinds.of_done
    cases htouch
    simp only [act, stepEbEndio] at hs
    split at hs
    · cases hs
    · next htodo =>
      cases hs
      refine .inr ⟨?_, by simp [htodo]⟩
      simp [ebEndio, bcPut]
  | pend hst | prog hst | post hst => rw [hd] at hst; cases hst

end
end EnhanceIO
