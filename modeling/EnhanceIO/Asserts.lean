import EnhanceIO.Acts

/-!
# Which assertion an act can fail

Each act runs through a few functions of the driver, and each of these asserts a few
things. `Act.asserts` lists them; whatever the state, no act fails any other assertion.
-/

namespace EnhanceIO

open Sys

/-- The assertions on the way of an act. -/
def Act.asserts : Act → List Bug
  | .invalMap _ | .invalMain _ | .inval _ _ => [.invalIndex]
  | .peek _ _ => [.readPeek, .writePeek, .dbnSet]
  | .cachedRead _ _ | .uwSubmit _ _ | .cwFail _ => [.noBlock]
  | .uwLock _ => [.uncachedWrite]
  | .cwLock _ => [.noBlock, .cachedWriteMode, .cachedWrite]
  | .cwSubmit _ _ => [.noBlock, .cachedWrite]
  | .hddDone _ _ | .readDone _ => [.uncachedReadDone]
  | .flag _ => [.flagAbios, .invalIndex]
  | .readfill _ => [.blockDbn, .doReadfill]
  | .ssdDone _ _ _ => [.postIoCallback, .blockDbn, .mdWrite]
  | .reread _ _ _ => [.ssderrorDiskread]
  | .enqMd _ => [.enqMdupdate]
  | .doMd _ => [.mdPages, .doMdupdate, .mdIndex]
  | .postMd _ => [.postMdupdate]
  | .cleanStart _ _ => [.cleanBvecs]
  | .cleanWriteDone _ => [.mdPages]
  | .cleanFinish => [.nrDirty]
  | _ => []

/-- Between `s` and `s'` at most an assertion of `l` has failed. -/
def Fails (s s' : Sys) (l : List Bug) : Prop := s'.bug = s.bug ∨ ∃ x ∈ l, s'.bug = some x

namespace Fails

variable {s s' t : Sys} {l : List Bug}

theorem none (h : s'.bug = s.bug) : Fails s s' l := .inl h

theorem one {x : Bug} (hx : x ∈ l) (h : s'.bug = some x) : Fails s s' l := .inr ⟨x, hx, h⟩

theorem updBio (h : Fails s t l) (b : Nat) (f : Bio → Bio) : Fails s (t.updBio b f) l := h

/-- A loop, each round of which fails at most an assertion of `l`. -/
theorem foldl {α : Type*} {f : Sys → α → Sys} (hf : ∀ t x, Fails t (f t x) l) (xs : List α) :
    Fails s (xs.foldl f s) l := by
  refine Run.foldl_rest (fun _ t => Fails s t l) (fun x _ t ht => ?_) (.inl rfl)
  rcases hf t x with h | h
  · rw [Fails, h]
    exact ht
  · exact .inr h

end Fails

section
variable {g : Geom} {s s' : Sys} {a : Act} {e : EbId}

/-! ## The functions -/

theorem Sys.invalBlockSetRange_fails (set lo size : Nat) (multiblk : Bool) :
    Fails s (s.invalBlockSetRange g set lo size multiblk) [.invalIndex] := by
  simp only [invalBlockSetRange]
  split
  · exact .one (by simp) rfl
  split
  · exact .none rfl
  · exact .none (invalLoop_bug ..)

theorem Sys.readPeekFill_fails (i : Nat) (fresh : Bool) :
    Fails s (s.readPeekFill g e i fresh).1 [.readPeek, .writePeek, .dbnSet] := by
  simp only [readPeekFill, recycle]
  repeat' split
  all_goals first | exact .one (by simp) rfl | exact .none rfl

theorem Sys.readPeek_fails (victim : Option Nat) :
    Fails s (s.readPeek g e victim).1 [.readPeek, .writePeek, .dbnSet] := by
  simp only [readPeek]
  repeat' split
  all_goals
    first | exact .one (by simp) rfl | exact .none rfl | exact readPeekFill_fails _ _

theorem Sys.writePeekRecycle_fails (i : Nat) (fresh : Bool) :
    Fails s (s.writePeekRecycle g e i fresh).1 [.readPeek, .writePeek, .dbnSet] := by
  simp only [writePeekRecycle, countMdwait, recycle]
  repeat' split
  all_goals first | exact .one (by simp) rfl | exact .none rfl

theorem Sys.writePeek_fails (victim : Option Nat) :
    Fails s (s.writePeek g e victim).1 [.readPeek, .writePeek, .dbnSet] := by
  simp only [writePeek, countMdwait]
  repeat' split
  all_goals
    first | exact .one (by simp) rfl | exact .none rfl | exact writePeekRecycle_fails _ _

theorem Sys.flagBlock_fails (i : Nat) (inv : Bool) :
    Fails s (s.flagBlock g e i inv) [.flagAbios, .invalIndex] := by
  simp only [flagBlock]
  repeat' split
  all_goals first | exact .one (by simp) rfl | exact .none rfl

theorem Sys.flagAbio_fails (inv : Bool) :
    Fails s (s.flagAbio g e inv) [.flagAbios, .invalIndex] := by
  simp only [flagAbio]
  split
  · split
    · exact .one (by simp) rfl
    · exact flagBlock_fails _ _
  split
  · exact .one (by simp) rfl
  split
  · rcases invalBlockSetRange_fails (g := g) (s := s) _ _ _ _ with h | ⟨x, hx, h⟩
    · exact .none h
    · exact .one (List.mem_cons_of_mem _ hx) h
  · exact .none rfl

theorem Sys.setPostState_bug (i : Nat) (err : Int) : (s.setPostState g i err).bug = s.bug := by
  simp only [setPostState]
  split <;> rfl

theorem Sys.postWrite_fails (i : Nat) (err : Int) :
    Fails s (s.postWrite g e i err) [.postIoCallback, .blockDbn, .mdWrite] := by
  simp only [postWrite]
  repeat' split
  all_goals first | exact .one (by simp) rfl | exact .none (setPostState_bug _ _)

theorem Sys.postRead_fails (i : Nat) (err : Int) :
    Fails s (s.postRead g e i err) [.postIoCallback, .blockDbn, .mdWrite] := by
  simp only [postRead]
  repeat' split
  all_goals first | exact .one (by simp) rfl | exact .none (setPostState_bug _ _)

theorem Sys.writeCacheDone_fails (i : Nat) (err : Int) :
    Fails s (s.writeCacheDone g e i err) [.postIoCallback, .blockDbn, .mdWrite] := by
  simp only [writeCacheDone, mdWrite]
  repeat' split
  all_goals
    first | exact .one (by simp) rfl | exact .none rfl | exact postWrite_fails i err

theorem Sys.readCacheDone_fails (i : Nat) (err : Int) :
    Fails s (s.readCacheDone g e i err) [.postIoCallback, .blockDbn, .mdWrite] := by
  simp only [readCacheDone]
  repeat' split
  all_goals
    first | exact .one (by simp) rfl | exact .none rfl | exact postRead_fails i err

theorem Sys.readFillDone_fails (i : Nat) (err : Int) :
    Fails s (s.readFillDone g e i err) [.postIoCallback, .blockDbn, .mdWrite] := by
  simp only [readFillDone]
  repeat' split
  all_goals
    first | exact .one (by simp) rfl | exact .none rfl | exact postRead_fails i err

theorem Sys.readfillLock_fails : Fails s (s.readfillLock g e) [.blockDbn, .doReadfill] := by
  simp only [readfillLock]
  repeat' split
  all_goals first | exact .one (by simp) rfl | exact .none rfl

theorem Sys.giveUp_bug {i : Nat} (err : Int) : (s.giveUp g e i err).bug = s.bug := by
  simp only [giveUp]
  split <;> rfl

theorem Sys.enqMdupdate_fails {b : Nat} : Fails s (s.enqMdupdate g b) [.enqMdupdate] := by
  simp only [enqMdupdate]
  split
  · exact .none rfl
  · refine Fails.foldl (s := s.updBio b _) (fun t e => ?_) _
    simp only [enqOne]
    split
    · exact .none rfl
    split
    · exact .one (by simp) rfl
    · exact .none rfl

theorem Sys.doMdupdate_fails {set : Nat} {r : MdReq} :
    Fails s (s.doMdupdate g set r) [.mdPages, .doMdupdate, .mdIndex] := by
  simp only [doMdupdate]
  split
  · exact .one (by simp) rfl
  split
  · exact .one (by simp) rfl
  split
  · exact .one (by simp) rfl
  · exact Fails.foldl (f := fun s e => s.updEb e fun eb => { eb with st := .mdProg })
      (fun _ _ => .none rfl) r.pending

theorem Sys.postMdupdate_fails {set : Nat} {r : MdReq} :
    Fails s (s.postMdupdate g set r) [.postMdupdate] := by
  refine Fails.foldl (f := postOne g set r.error) (fun t e => ?_) r.inprog
  simp only [postOne]
  split
  · exact .one (by simp) rfl
  · split <;> exact .none rfl

theorem Sys.cleanStart_fails {set : Nat} {sel : List Nat} :
    Fails s (s.cleanStart g set sel) [.cleanBvecs] := by
  simp only [cleanStart]
  split
  · exact .one (by simp) rfl
  · exact Fails.foldl (f := fun s i => s.setSt g i State.cleanInprog) (fun _ _ => .none rfl) sel

theorem Sys.cleanFinish_fails {set : Nat} {err : Int} :
    Fails s (s.cleanFinish g set err) [.nrDirty] := by
  refine Fails.foldl (f := cleanOne g set err) (fun t i => ?_) _
  simp only [cleanOne]
  split
  · exact .none rfl
  split
  · exact .one (by simp) rfl
  · exact .none rfl

/-! ## The acts -/

theorem Sys.act_fails (hs : s.act g a = some s') : Fails s s' a.asserts := by
  cases a
  case map =>
    obtain rfl := stepMap_eq_some hs
    exact .none rfl
  case invalMap | invalMain =>
    simp only [act, stepInvalMap, stepInvalMain] at hs
    split at hs
    · split at hs <;> cases hs
      · exact .none rfl
      · exact .updBio (invalBlockSetRange_fails _ _ _ _) _ _
    · cases hs
  case inval =>
    cases hs
    exact invalBlockSetRange_fails _ _ _ _
  case peek b victim =>
    simp only [act, stepPeek] at hs
    split at hs
    · split at hs <;> cases hs
      cases hdir : (s.req b).dir
      · exact .updBio (readPeek_fails victim) _ _
      · exact .updBio (writePeek_fails victim) _ _
    · cases hs
  case cachedRead =>
    simp only [act, stepCachedRead] at hs
    split at hs
    · split at hs
      · obtain ⟨-, rfl⟩ := Option.ite_some_none_eq_some.mp hs
        split
        · exact .one (by simp [Act.asserts]) rfl
        split
        · exact .none rfl
        · exact .updBio (.none (giveUp_bug _)) _ _
      · cases hs
        exact .none rfl
    · cases hs
  case cwFail =>
    simp only [act, stepCwFail] at hs
    split at hs
    · split at hs <;> cases hs
      · split
        · exact .one (by simp [Act.asserts]) rfl
        · exact .updBio (.none (giveUp_bug _)) _ _
      · exact .none rfl
    · cases hs
  case flag =>
    simp only [act, stepFlag] at hs
    split at hs
    · split at hs <;> cases hs
      · exact .updBio (flagAbio_fails _) _ _
      · exact .none rfl
    · cases hs
  case readfill =>
    simp only [act, stepReadfill] at hs
    split at hs
    · split at hs <;> cases hs
      · exact .updBio readfillLock_fails _ _
      · exact .none rfl
    · cases hs
  case ssdDone =>
    obtain ⟨-, hs⟩ := Option.ite_none_right_eq_some.mp hs
    split at hs
    · cases hs
      exact .one (by simp [Act.asserts]) rfl
    · split at hs <;> cases hs
      · exact readCacheDone_fails _ _
      · exact readFillDone_fails _ _
      · exact writeCacheDone_fails _ _
  case enqMd =>
    obtain ⟨-, rfl⟩ := Option.ite_some_none_eq_some.mp hs
    exact enqMdupdate_fails
  case doMd =>
    simp only [act, stepDoMd] at hs
    split at hs
    · split at hs <;> cases hs
      exact doMdupdate_fails
    · cases hs
  case postMd =>
    simp only [act, stepPostMd] at hs
    split at hs
    · split at hs <;> cases hs
      exact postMdupdate_fails
    · cases hs
  case cleanStart =>
    obtain ⟨-, rfl⟩ := Option.ite_some_none_eq_some.mp hs
    exact cleanStart_fails
  case cleanFinish =>
    simp only [act, stepCleanFinish] at hs
    split at hs
    · split at hs <;> cases hs
      exact cleanFinish_fails
    · cases hs
  -- the others have no loop: every way through them fails one assertion or none
  all_goals
    simp only [act, stepHddDone, stepLock, stepDispatch, stepUwLock, uncachedWriteLock,
      stepUwSubmit, uncachedWriteRefuse, stepCwAlloc, stepCwLock, cachedWriteLock,
      stepCwSubmit, cachedWriteRefuse, stepDiskIo, stepPut, stepHddSector,
      stepReadDone, readDoneAbio, stepReadfillStart, stepReadfillSubmit,
      readfillRefuse, stepMainEndio, stepSsdSector, stepEbEndio, stepReread,
      rereadAccept, stepRereadSector, stepRereadDone, stepMdSubmit, mdSubmit,
      stepMdSector, stepMdDone, stepCleanReadSector, stepCleanReadDone,
      stepCleanWriteSector, stepCleanWriteDone, cleanWriteDone,
      stepCleanMdSector, stepCleanMdDone] at hs
    repeat' split at hs
    all_goals cases hs
    all_goals first
      | exact .one (by simp [Act.asserts]) rfl
      | refine .none ?_; simp; done
      | exact .none rfl

end
end EnhanceIO
