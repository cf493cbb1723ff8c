import EnhanceIO.Preserve.Clean

/-!
# What an act does to a bio

Every act but the arrival of a bio, the metadata updates and the cleans belongs
to one bio, and leaves the other bios and the state of the cache as a whole alone
(`Beside`). `BioMove` says what becomes of the container of that bio, field by field:
the thread goes on in `eio_map`, the HDD I/O is issued, goes on or completes, a
reference is given back. `BioFate` is what any act does to any bio.
-/

namespace EnhanceIO

open Sys

/-- The bio an act belongs to. -/
def Act.bio : Act → Option Nat
  | .lock b | .invalMap b | .peek b _ | .dispatch b | .cachedRead b _ | .uwLock b | .uwSubmit b _
  | .cwAlloc b _ | .cwLock b | .cwSubmit b _ | .cwFail b | .diskIo b _ | .put b | .hddSector b _
  | .hddDone b _ | .invalMain b | .flag b | .readDone b | .readfillStart b | .readfill b
  | .readfillSubmit b _ | .mainEndio b | .ssdSector b _ _ | .ssdDone b _ _ | .ebEndio b _
  | .reread b _ _ | .rereadSector b _ _ | .rereadDone b _ _ | .enqMd b => some b
  | _ => none

/-- No I/O named by the label fails, and no submission is refused. -/
def Act.ok : Act → Bool
  | .cachedRead _ err | .uwSubmit _ err | .cwAlloc _ err | .cwSubmit _ err | .diskIo _ err
  | .hddDone _ err | .readfillSubmit _ err | .ssdDone _ _ err | .reread _ _ err
  | .rereadDone _ _ err | .mdSubmit _ err | .mdDone _ _ err | .cleanReadDone err
  | .cleanWriteDone err | .cleanMdDone err => err = 0
  | _ => true

/-- A bio arrives. -/
def Act.isMap : Act → Bool
  | .map _ _ _ _ => true
  | _ => false

/-- A clean goes on. -/
def Act.isClean : Act → Bool
  | .cleanReadSector _ _ | .cleanReadDone _ | .cleanWriteSector _ _ | .cleanWriteDone _
  | .cleanMdSector _ | .cleanMdDone _ | .cleanFinish => true
  | _ => false

/-- The label is a step of a bio, of a metadata update or of a running clean: no
clean begins, and nothing comes from the proc file system or the device layer. -/
def Act.isIo : Act → Bool
  | .cleanStart _ _ | .inval _ _ | .suspend => false
  | _ => true

/-- Who acts for a bio. -/
inductive Part where
  /-- the thread in `eio_map` -/
  | thread
  /-- the HDD I/O and what follows its completion -/
  | main
  /-- the SSD I/O of an ebio, its second read from the HDD and its end -/
  | ebio
  /-- `eio_enq_mdupdate` -/
  | update
  /-- nobody: the act belongs to no bio -/
  | other
  deriving DecidableEq

def Act.part : Act → Part
  | .lock _ | .invalMap _ | .peek _ _ | .dispatch _ | .cachedRead _ _ | .uwLock _ | .uwSubmit _ _
  | .cwAlloc _ _ | .cwLock _ | .cwSubmit _ _ | .cwFail _ | .diskIo _ _ | .put _ => .thread
  | .hddSector _ _ | .hddDone _ _ | .invalMain _ | .flag _ | .readDone _ | .readfillStart _
  | .readfill _ | .readfillSubmit _ _ | .mainEndio _ => .main
  | .ssdSector _ _ _ | .ssdDone _ _ _ | .ebEndio _ _ | .reread _ _ _ | .rereadSector _ _ _
  | .rereadDone _ _ _ => .ebio
  | .enqMd _ => .update
  | _ => .other

/-- `s'` differs from `s` at most in the blocks, the devices, the ebios, the metadata
updates, bio `b` and a failed assertion. -/
def Beside (s s' : Sys) (b : Nat) : Prop :=
  s' = { s with
    md := s'.md
    cachedBlocks := s'.cachedBlocks
    bio := Function.update s.bio b (s'.bio b)
    ebio := s'.ebio
    mdreq := s'.mdreq
    hdd := s'.hdd
    ssd := s'.ssd
    bug := s'.bug }

namespace Beside

variable {s s' : Sys} {b b' : Nat} {e : EbId}

theorem refl (s : Sys) (b : Nat) : Beside s s b := by
  simp [Beside]

theorem of_ebFrame (h : EbFrame s s' e) (b : Nat) : Beside s s' b := by
  have hbio := h.bio
  rw [EbFrame] at h
  rw [Beside, hbio, Function.update_eq_self, h]

theorem updBio (h : Beside s s' b) (f : Bio → Bio) : Beside s (s'.updBio b f) b := by
  rw [Beside] at h ⊢
  rw [h]
  simp [Sys.updBio]

theorem updEb (h : Beside s s' b) (f : Ebio → Ebio) : Beside s (s'.updEb e f) b := by
  rw [Beside] at h ⊢
  rw [h]
  simp [Sys.updEb]

theorem fail (h : Beside s s' b) (x : Bug) : Beside s (s'.fail x) b := by
  rw [Beside] at h ⊢
  rw [h]
  simp [Sys.fail]

theorem setMdreq (h : Beside s s' b) (m : Nat → Option MdReq) :
    Beside s { s' with mdreq := m } b := by
  rw [Beside] at h ⊢
  rw [h]
  simp

theorem bio_ne (h : Beside s s' b) (hb : b' ≠ b) : s'.bio b' = s.bio b' := by
  rw [h]
  simp [hb]

theorem req (h : Beside s s' b) : s'.req = s.req := by rw [h]
theorem clean (h : Beside s s' b) : s'.clean = s.clean := by rw [h]
theorem degraded (h : Beside s s' b) : s'.degraded = s.degraded := by rw [h]
theorem nrDirty (h : Beside s s' b) : s'.nrDirty = s.nrDirty := by rw [h]

end Beside

/-- A thread is in `eio_map` with the bio. -/
def MapPc.running : MapPc → Bool
  | .absent | .done => false
  | _ => true

/-- What the HDD I/O and the end of the bio have left in the container. -/
structure Bio.SameIo (bc bc' : Bio) : Prop where
  holdcount : bc'.holdcount = bc.holdcount
  error : bc'.error = bc.error
  main : bc'.main = bc.main
  mainIotype : bc'.mainIotype = bc.mainIotype
  hddError : bc'.hddError = bc.hddError
  endio : bc'.endio = bc.endio

/-- How the completion of the HDD I/O goes on: the error is handed down. `n` is the number
of ebios. -/
inductive MainMove (g : Geom) (n : Nat) : MainPc → MainPc → Prop
  | inval {snum iosize : Nat} {err : Int} : iosize ≠ 0 →
      MainMove g n (.inval snum iosize err)
        (.inval (Sys.invalNext g snum) (iosize - Sys.invalInset g snum iosize) err)
  | invalidated {snum iosize : Nat} {err : Int} :
      MainMove g n (.inval snum iosize err) (.flag 0 true err)
  | flag {k : Nat} {inv : Bool} {err : Int} : k < n →
      MainMove g n (.flag k inv err) (.flag (k + 1) inv err)
  | flagged {k : Nat} {inv : Bool} {err : Int} : MainMove g n (.flag k inv err) (.endio err)
  | readDone {k : Nat} : k < n → MainMove g n (.readDone k) (.readDone (k + 1))
  | readEnd {k : Nat} : MainMove g n (.readDone k) (.endio 0)
  | fillStart : MainMove g n .readfillQ (.readfill 0)
  | fillIssue {k : Nat} : k < n → MainMove g n (.readfill k) (.readfillIssue k)
  | fill {k : Nat} : k < n → MainMove g n (.readfill k) (.readfill (k + 1))
  | fillSubmit {k : Nat} : MainMove g n (.readfillIssue k) (.readfill (k + 1))
  | fillEnd {k : Nat} : MainMove g n (.readfill k) (.endio 0)

/-- How the thread goes on with a path of `eio_map`; `n` is the number of ebios. -/
inductive PathMove (g : Geom) (n : Nat) : MapPc → MapPc → Prop
  | inval {snum iosize : Nat} : iosize ≠ 0 →
      PathMove g n (.inval snum iosize)
        (.inval (Sys.invalNext g snum) (iosize - Sys.invalInset g snum iosize))
  | invalidated {snum iosize : Nat} : PathMove g n (.inval snum iosize) .diskIo
  | cachedRead {k : Nat} : k < n → PathMove g n (.cachedRead k) (.cachedRead (k + 1))
  | cachedReadEnd {k : Nat} : n ≤ k → PathMove g n (.cachedRead k) .put
  | uwMiss {k : Nat} : k < n → PathMove g n (.uwLock k) (.uwLock (k + 1))
  | uwLock {k : Nat} : k < n → PathMove g n (.uwLock k) (.uwSubmit k)
  | uwSubmit {k : Nat} : PathMove g n (.uwSubmit k) (.uwLock (k + 1))
  | uwEnd {k : Nat} : n ≤ k → PathMove g n (.uwLock k) .diskIo
  | cwLock {k : Nat} : k < n → PathMove g n (.cwLock k) (.cwSubmit k)
  | cwSubmit {k : Nat} : PathMove g n (.cwSubmit k) (.cwLock (k + 1))
  | cwEnd {k : Nat} : n ≤ k → PathMove g n (.cwLock k) .put
  | cwRefuse {err : Int} : err ≠ 0 → PathMove g n .cwAlloc (.cwFail 0 err)
  | cwFail {k : Nat} {err : Int} : k < n → PathMove g n (.cwFail k err) (.cwFail (k + 1) err)
  | cwFailEnd {k : Nat} {err : Int} : n ≤ k → PathMove g n (.cwFail k err) .put

/-- The container of bio `b` after an act of the bio, field by field. -/
inductive BioMove (g : Geom) (s : Sys) (b : Nat) : Act → Bio → Prop
  | lock {set : Nat} {rest : List Nat} : (s.bio b).pc = .lock (set :: rest) →
      BioMove g s b (.lock b)
        { s.bio b with locks := set :: (s.bio b).locks, pc := .lock rest }
  | enter : (s.bio b).pc = .lock [] →
      BioMove g s b (.lock b)
        { s.bio b with pc := Sys.enterPc g (s.req b).forced (s.req b).sector (s.req b).nsect }
  | peek {k : Nat} {victim : Option Nat} {dir : IoDir} {mdwait : Int} {hit : Bool} :
      (s.bio b).pc = .peek k → k < (s.req b).segs.length →
      dir = (s.bio b).bcDir ∨ dir = .uncachedReadAndReadfill →
      BioMove g s b (.peek b victim)
        { s.bio b with
          bcDir := dir
          mdwait := mdwait
          pc := .peek (k + 1)
          uc := (s.bio b).uc || !hit }
  | dispatch : (s.bio b).pc = .peek (s.req b).segs.length →
      BioMove g s b (.dispatch b) (Sys.dispatchBio (s.req b).dir (s.bio b))
  | alloc : (s.bio b).pc = .cwAlloc →
      BioMove g s b (.cwAlloc b 0)
        { s.bio b with mdreqs := (s.bio b).locks.length, pc := .cwLock 0 }
  | path {a : Act} {pc : MapPc} : PathMove g (s.req b).segs.length (s.bio b).pc pc →
      a.part = .thread → BioMove g s b a { s.bio b with pc := pc }
  /-- `eio_uncached_write` is refused on a dirty block -/
  | refuse {k i : Nat} {err : Int} : err ≠ 0 → (s.bio b).pc = .uwSubmit k →
      (s.ebio (b, k)).index = some i → s.st g i = State.alreadyDirty →
      BioMove g s b (.uwSubmit b err) { s.bio b with error := err, pc := .uwLock (k + 1) }
  | disk {refused : Int} : (s.bio b).pc = .diskIo →
      BioMove g s b (.diskIo b refused)
        { s.bio b with
          holdcount := (s.bio b).holdcount + 1
          mainIotype := if (s.req b).forced then IoType.mainIo ||| IoType.inval else IoType.mainIo
          main := if refused = 0 then .inflight
            else .inval (s.req b).sector ((s.req b).nsect * 512) refused
          mainXfer := fun _ => false
          pc := .put }
  | put : (s.bio b).pc = .put →
      BioMove g s b (.put b) (Bio.put g s.now { s.bio b with pc := .done })
  | hddDone {err : Int} : (s.bio b).main = .inflight →
      BioMove g s b (.hddDone b err)
        { s.bio b with hddError := some err, main := s.hddDonePc (s.req b) (s.bio b) err }
  | main {a : Act} {main : MainPc} :
      MainMove g (s.req b).segs.length (s.bio b).main main → a.part = .main →
      BioMove g s b a { s.bio b with main := main }
  | mainEndio {err : Int} : (s.bio b).main = .endio err →
      BioMove g s b (.mainEndio b)
        (Bio.put g s.now
          { s.bio b with
            main := .done
            error := Sys.propagate (s.bio b).mainIotype err (s.bio b).error })
  | ebEndio {k : Nat} {err : Int} : (s.ebio (b, k)).todo.head? = some err →
      BioMove g s b (.ebEndio b k)
        (Bio.put g s.now
          { s.bio b with error := Sys.propagate (s.ebio (b, k)).iotype err (s.bio b).error })
  /-- a sector is transferred -/
  | xfer {a : Act} {mainXfer : Nat → Bool} {buf : Nat → Tag} :
      mainXfer = (s.bio b).mainXfer ∧ a.part = .ebio ∨
        (∃ x, s.Covers b x ∧ (s.bio b).mainXfer x = false ∧
          mainXfer = Function.update (s.bio b).mainXfer x true) ∧
        (s.bio b).main = .inflight ∧ a.part = .main →
      BioMove g s b a { s.bio b with mainXfer := mainXfer, buf := buf }
  | mdWrite {k : Nat} {before : List Nat} : 0 < (s.bio b).mdwait →
      before = (s.bio b).mdlist.takeWhile (fun j => s.setOf g (b, j) ≤ s.setOf g (b, k)) →
      BioMove g s b (.ssdDone b k 0)
        { s.bio b with
          mdlist := before ++ k :: (s.bio b).mdlist.drop before.length
          mdwait := (s.bio b).mdwait - 1
          enq := (s.bio b).mdwait - 1 = 0 }
  | enq {group rest : List Nat} {mdreqs : Nat} : (s.bio b).mdlist = group ++ rest →
      mdreqs ≤ (s.bio b).mdreqs →
      BioMove g s b (.enqMd b)
        { s.bio b with mdlist := rest, enq := rest ≠ [], mdreqs := mdreqs }
  /-- the container is left as it is -/
  | same {a : Act} : a.part = .ebio ∨ (∃ err, a = .hddDone b err) → BioMove g s b a (s.bio b)

/-- Ebio `k` of bio `b`, unless a loop over the ebios has come to its end. -/
def Sys.ebioAt (s : Sys) (b k : Nat) : Option EbId :=
  if k < (s.req b).segs.length then some (b, k) else none

/-- The ebio an act of a bio works on: the one its label names, or the one at which the
thread or the completion of the HDD I/O stands. -/
def Act.touched (s : Sys) : Act → Option EbId
  | .peek b _ | .cachedRead b _ | .uwLock b | .cwLock b | .cwFail b =>
    match (s.bio b).pc with
    | .peek k | .cachedRead k | .uwLock k | .cwLock k | .cwFail k _ => s.ebioAt b k
    | _ => none
  | .uwSubmit b _ | .cwSubmit b _ =>
    match (s.bio b).pc with
    | .uwSubmit k | .cwSubmit k => some (b, k)
    | _ => none
  | .flag b | .readDone b | .readfill b =>
    match (s.bio b).main with
    | .flag k _ _ | .readDone k | .readfill k => s.ebioAt b k
    | _ => none
  | .readfillSubmit b _ =>
    match (s.bio b).main with
    | .readfillIssue k => some (b, k)
    | _ => none
  | .ssdSector b k _ | .ssdDone b k _ | .ebEndio b k | .reread b k _ | .rereadSector b k _
  | .rereadDone b k _ => some (b, k)
  | _ => none

/-- What an act of bio `b` does, but for `eio_enq_mdupdate`: it leaves the metadata
updates and the other bios alone, works on one ebio, and its container moves on. -/
structure Moved (g : Geom) (s : Sys) (b : Nat) (a : Act) (s' : Sys) : Prop where
  beside : Beside s s' b
  move : BioMove g s b a (s'.bio b)
  mdreq : s'.mdreq = s.mdreq
  rest : ∀ e, a.touched s ≠ some e → s'.ebio e = s.ebio e

section
variable {g : Geom} {s s' t : Sys} {b : Nat} {e : EbId} {a : Act} {f : Bio → Bio} {bc : Bio}

/-! ## Every act of a bio -/

theorem dispatchBio_sameIo (dir : Dir) (bc : Bio) : bc.SameIo (Sys.dispatchBio dir bc) := by
  simp only [dispatchBio]
  split <;> exact ⟨rfl, rfl, rfl, rfl, rfl, rfl⟩

theorem Moved.of_ebio (ht : EbFrame s t e) (he : a.touched s = some e)
    (hm : BioMove g s b a (f (s.bio b))) : Moved g s b a (t.updBio b f) where
  beside := (Beside.of_ebFrame ht b).updBio f
  move := by
    rw [updBio_bio, Function.update_self, ht.bio]
    exact hm
  mdreq := ht.mdreq
  rest := fun e' hne => ht.ebio_ne fun heq => hne (heq ▸ he)

theorem Moved.of_blocks (ht : MdFrame s t) (hm : BioMove g s b a (f (s.bio b))) :
    Moved g s b a (t.updBio b f) where
  beside := (Beside.of_ebFrame (ht.ebFrame (b, 0)) b).updBio f
  move := by
    rw [updBio_bio, Function.update_self, ht.bio]
    exact hm
  mdreq := (ht.ebFrame (b, 0)).mdreq
  rest := fun _ _ => by rw [updBio_ebio, ht.ebio]

theorem Moved.of_same (ht : EbFrame s t e) (he : a.touched s = some e)
    (ha : a.part = .ebio) : Moved g s b a t where
  beside := Beside.of_ebFrame ht b
  move := by
    rw [ht.bio]
    exact .same (.inl ha)
  mdreq := ht.mdreq
  rest := fun e' hne => ht.ebio_ne fun heq => hne (heq ▸ he)

theorem MdFrame.fail (s : Sys) (x : Bug) : MdFrame s (s.fail x) := rfl

theorem EbFrame.recycle (s : Sys) (e : EbId) (i : Nat) (c : State) (d : Nat) (fresh : Bool) :
    EbFrame s (s.recycle g i c d fresh) e := by
  cases fresh <;> simp [EbFrame, Sys.recycle, Sys.setSt, Sys.setDbn]

theorem EbFrame.peekMiss (h : EbFrame s t e) (iotype : IoType) :
    EbFrame s (t.peekMiss e iotype) e := h.updEb _

theorem EbFrame.peekTake (h : EbFrame s t e) (i : Nat) (role : Role) :
    EbFrame s (t.peekTake e i role) e := h.updEb _

/-- What a peek leaves in the container: `bc_dir` and `bc_mdwait`. -/
def PeekNoted (s s' : Sys) (e : EbId) : Prop :=
  ∃ t f dir mdwait, EbFrame s t e ∧ s' = t.updBio e.1 f ∧
    f (s.bio e.1) = { s.bio e.1 with bcDir := dir, mdwait := mdwait } ∧
    (dir = (s.bio e.1).bcDir ∨ dir = .uncachedReadAndReadfill)

theorem EbFrame.peekNoted (h : EbFrame s t e) : PeekNoted s t e :=
  ⟨t, id, (s.bio e.1).bcDir, (s.bio e.1).mdwait, h, by simp [updBio], rfl, .inl rfl⟩

theorem EbFrame.countMdwait (h : EbFrame s t e) : PeekNoted s (t.countMdwait g e false) e := by
  simp only [Sys.countMdwait]
  split
  · exact ⟨t, _, (s.bio e.1).bcDir, (s.bio e.1).mdwait + 1, h, rfl, rfl, .inl rfl⟩
  · exact h.peekNoted

theorem EbFrame.noteReadfill (h : EbFrame s t e) :
    PeekNoted s (t.updBio e.1 fun bc => { bc with bcDir := .uncachedReadAndReadfill }) e :=
  ⟨t, _, .uncachedReadAndReadfill, (s.bio e.1).mdwait, h, rfl, rfl, .inr rfl⟩

/-- A peek works on its ebio and a block, and notes what it found in the container. -/
theorem Sys.peekDir_noted (hblk : BlkInv g s) {victim : Option Nat}
    (hv : s.VictimOk g (s.seg e).sector victim) (dir : Dir) :
    PeekNoted s (s.peekDir g dir e victim).1 e := by
  have hrefl := EbFrame.refl s e
  cases dir with
  | read =>
    have hp := readPeek_spec hblk hv
    simp only [peekDir]
    generalize s.readPeek g e victim = r at hp
    cases hp with
    | nofit => exact (hrefl.fail _).peekNoted
    | miss => exact (hrefl.peekMiss _).peekNoted
    | dirty => exact ((hrefl.peekTake _ _).updEb _).noteReadfill
    | hit => exact ((hrefl.setSt _ _).peekTake _ _).peekNoted
    | fill => exact ((EbFrame.recycle s e _ _ _ _).peekTake _ _).noteReadfill
  | write =>
    have hp := writePeek_spec hblk hv
    simp only [peekDir]
    generalize s.writePeek g e victim = r at hp
    cases hp with
    | nofit => exact (hrefl.fail _).peekNoted
    | miss => exact (hrefl.peekMiss _).peekNoted
    | dirty => exact (hrefl.peekTake _ _).peekNoted
    | partly => exact ((hrefl.setSt _ _).peekTake _ _).peekNoted
    | whole => exact ((hrefl.setSt _ _).peekTake _ _).countMdwait
    | recycled => exact ((EbFrame.recycle s e _ _ _ _).peekTake _ _).countMdwait

theorem Sys.act_moved_map (hblk : BlkInv g s) (hs : s.act g a = some s')
    (ha : a = .lock b ∨ a = .invalMap b ∨ (∃ v, a = .peek b v) ∨ a = .dispatch b) :
    Moved g s b a s' := by
  rcases ha with rfl | rfl | ⟨v, rfl⟩ | rfl
  · simp only [act, stepLock] at hs
    split at hs
    · next hpc =>
      cases hs
      exact Moved.of_blocks (.refl s) (.enter hpc)
    · next hpc =>
      split at hs
      · cases hs
      · cases hs
        exact Moved.of_blocks (.refl s) (.lock hpc)
    · cases hs
  · simp only [act, stepInvalMap] at hs
    split at hs
    · next hpc =>
      split at hs
      · cases hs
        exact Moved.of_blocks (.refl s) (.path (hpc ▸ .invalidated) rfl)
      · next hne =>
        cases hs
        exact Moved.of_blocks (invalBlockSetRange_invals g s _ _ _ _).frame
          (.path (hpc ▸ .inval hne) rfl)
    · cases hs
  · simp only [act, stepPeek] at hs
    split at hs
    · next k hpc =>
      split at hs
      · next hk =>
        cases hs
        obtain ⟨t, f, dir, n, ht, heq, hf, hdir⟩ := peekDir_noted hblk hk.2 (s.req b).dir
        rw [heq, updBio_updBio]
        refine Moved.of_ebio ht (by simp [Act.touched, ebioAt, hpc, hk.1]) ?_
        rw [hf]
        exact .peek hpc hk.1 hdir
      · cases hs
    · cases hs
  · simp only [act, stepDispatch] at hs
    obtain ⟨hpc, rfl⟩ := Option.ite_some_none_eq_some.mp hs
    exact Moved.of_blocks (.refl s) (.dispatch hpc)

/-- The paths `eio_map` takes after the peeks. -/
theorem Sys.act_moved_path (hs : s.act g a = some s')
    (ha : (∃ r, a = .cachedRead b r) ∨ a = .uwLock b ∨ (∃ r, a = .cwAlloc b r) ∨ a = .cwLock b ∨
      (∃ r, a = .cwSubmit b r) ∨ a = .cwFail b) :
    Moved g s b a s' := by
  rcases ha with ⟨r, rfl⟩ | rfl | ⟨r, rfl⟩ | rfl | ⟨r, rfl⟩ | rfl
  · simp only [act, stepCachedRead] at hs
    split at hs
    · next k hpc =>
      split at hs
      · next hk =>
        have htouch : Act.touched s (.cachedRead b r) = some (b, k) := by
          simp [Act.touched, ebioAt, hpc, hk]
        have hmove : PathMove g (s.req b).segs.length (s.bio b).pc (.cachedRead (k + 1)) :=
          hpc ▸ .cachedRead hk
        split at hs <;> cases hs
        split
        · exact Moved.of_blocks (.fail s _) (.path hmove rfl)
        · split
          · exact Moved.of_ebio cachedReadAccept_frame htouch (.path hmove rfl)
          · exact Moved.of_ebio (giveUp_frame _) htouch (.path hmove rfl)
      · next hk =>
        cases hs
        exact Moved.of_blocks (.refl s) (.path (hpc ▸ .cachedReadEnd (Nat.le_of_not_lt hk)) rfl)
    · cases hs
  · simp only [act, stepUwLock] at hs
    split at hs
    · next k hpc =>
      split at hs <;> cases hs
      · next hk =>
        refine Moved.of_ebio uncachedWriteLock_frame (by simp [Act.touched, ebioAt, hpc, hk])
          (.path ?_ rfl)
        rw [hpc]
        split
        · exact .uwMiss hk
        · exact .uwLock hk
      · next hk => exact Moved.of_blocks (.refl s) (.path (hpc ▸ .uwEnd (Nat.le_of_not_lt hk)) rfl)
    · cases hs
  · simp only [act, stepCwAlloc] at hs
    split at hs
    · next hpc =>
      cases hs
      refine Moved.of_blocks (.refl s) ?_
      split
      · next hr =>
        subst hr
        exact .alloc hpc
      · next hr => exact .path (hpc ▸ .cwRefuse hr) rfl
    · cases hs
  · simp only [act, stepCwLock] at hs
    split at hs
    · next k hpc =>
      split at hs <;> cases hs
      · next hk =>
        split
        · exact Moved.of_blocks (.fail s _) (.path (hpc ▸ .cwLock hk) rfl)
        · exact Moved.of_ebio cachedWriteLock_frame (by simp [Act.touched, ebioAt, hpc, hk])
            (.path (hpc ▸ .cwLock hk) rfl)
      · next hk => exact Moved.of_blocks (.refl s) (.path (hpc ▸ .cwEnd (Nat.le_of_not_lt hk)) rfl)
    · cases hs
  · simp only [act, stepCwSubmit] at hs
    split at hs
    · next k hpc =>
      have htouch : Act.touched s (.cwSubmit b r) = some (b, k) := by simp [Act.touched, hpc]
      split at hs <;> cases hs
      split
      · exact Moved.of_blocks (.fail s _) (.path (hpc ▸ .cwSubmit) rfl)
      · split
        · exact Moved.of_ebio cachedWriteAccept_frame htouch (.path (hpc ▸ .cwSubmit) rfl)
        · exact Moved.of_ebio (cachedWriteRefuse_frame _) htouch (.path (hpc ▸ .cwSubmit) rfl)
    · cases hs
  · simp only [act, stepCwFail] at hs
    split at hs
    · next k err hpc =>
      split at hs <;> cases hs
      · next hk =>
        split
        · exact Moved.of_blocks (.fail s _) (.path (hpc ▸ .cwFail hk) rfl)
        · exact Moved.of_ebio (giveUp_frame _) (by simp [Act.touched, ebioAt, hpc, hk])
            (.path (hpc ▸ .cwFail hk) rfl)
      · next hk =>
        exact Moved.of_blocks (.refl s) (.path (hpc ▸ .cwFailEnd (Nat.le_of_not_lt hk)) rfl)
    · cases hs

/-- The submission of `eio_uncached_write`, `eio_disk_io` and the last `bc_put`. -/
theorem Sys.act_moved_issue (hs : s.act g a = some s')
    (ha : (∃ r, a = .uwSubmit b r) ∨ (∃ r, a = .diskIo b r) ∨ a = .put b) :
    Moved g s b a s' := by
  rcases ha with ⟨r, rfl⟩ | ⟨r, rfl⟩ | rfl
  · simp only [act, stepUwSubmit] at hs
    split at hs
    · next k hpc =>
      have htouch : Act.touched s (.uwSubmit b r) = some (b, k) := by simp [Act.touched, hpc]
      split at hs <;> cases hs
      split
      · exact Moved.of_blocks (.fail s _) (.path (hpc ▸ .uwSubmit) rfl)
      · next hi =>
        split
        · exact Moved.of_ebio uncachedWriteAccept_frame htouch (.path (hpc ▸ .uwSubmit) rfl)
        · next herr =>
          have hssd := (EbFrame.refl s (b, k)).updEb fun eb => { eb with ssdError := some r }
          simp only [uncachedWriteRefuse]
          split
          · next hdirty =>
            refine ⟨(((Beside.of_ebFrame hssd b).updBio _).updEb _).updBio _, ?_, ?_, ?_⟩
            · simp only [updBio_bio, updEb_bio, Function.update_self]
              exact .refuse herr hpc hi hdirty
            · funext r
              simp only [updBio_mdreq, updEb_mdreq]
            · intro e he
              have hne : e ≠ (b, k) := fun heq => he (heq ▸ htouch)
              simp [hne]
          · exact Moved.of_ebio ((hssd.invalidate _).updEb _) htouch (.path (hpc ▸ .uwSubmit) rfl)
    · cases hs
  · simp only [act, stepDiskIo] at hs
    split at hs
    · next hpc =>
      cases hs
      exact Moved.of_blocks (.refl s) (.disk hpc)
    · cases hs
  · simp only [act, stepPut] at hs
    split at hs
    · next hpc =>
      cases hs
      rw [bcPut_eq, updBio_updBio]
      exact Moved.of_blocks (.refl s) (.put hpc)
    · cases hs

/-- The HDD I/O and what follows its completion. -/
theorem Sys.act_moved_main (hs : s.act g a = some s')
    (ha : (∃ x, a = .hddSector b x) ∨ (∃ r, a = .hddDone b r) ∨ a = .invalMain b ∨ a = .flag b ∨
      a = .readDone b ∨ a = .readfillStart b ∨ a = .readfill b ∨ (∃ r, a = .readfillSubmit b r) ∨
      a = .mainEndio b) :
    Moved g s b a s' := by
  rcases ha with ⟨x, rfl⟩ | ⟨r, rfl⟩ | rfl | rfl | rfl | rfl | rfl | ⟨r, rfl⟩ | rfl
  · simp only [act, stepHddSector] at hs
    obtain ⟨⟨hmain, hx, hfirst⟩, hs⟩ := Option.ite_none_right_eq_some.mp hs
    split at hs <;> cases hs
    · refine ⟨?_, ?_, rfl, fun _ _ => rfl⟩
      · simp [Beside, updBio]
      · simp only [updBio_bio, Function.update_self]
        exact .xfer (.inr ⟨⟨x, hx, hfirst, rfl⟩, hmain, rfl⟩)
    · rw [updBio_updBio]
      exact Moved.of_blocks (.refl s) (.xfer (.inr ⟨⟨x, hx, hfirst, rfl⟩, hmain, rfl⟩))
  · simp only [act, stepHddDone] at hs
    obtain ⟨⟨hmain, -⟩, hs⟩ := Option.ite_none_right_eq_some.mp hs
    split at hs <;> cases hs
    · exact ⟨(Beside.refl s b).fail _, .same (.inr ⟨r, rfl⟩), rfl, fun _ _ => rfl⟩
    · exact Moved.of_blocks (.refl s) (.hddDone hmain)
  · simp only [act, stepInvalMain] at hs
    split at hs
    · next hmain =>
      split at hs <;> cases hs
      · exact Moved.of_blocks (.refl s) (.main (hmain ▸ .invalidated) rfl)
      · next hne =>
        exact Moved.of_blocks (invalBlockSetRange_invals g s _ _ _ _).frame
          (.main (hmain ▸ .inval hne) rfl)
    · cases hs
  · simp only [act, stepFlag] at hs
    split at hs
    · next k _ _ hmain =>
      split at hs <;> cases hs
      · next hk =>
        exact Moved.of_ebio (flagAbio_frame _) (by simp [Act.touched, ebioAt, hmain, hk])
          (.main (hmain ▸ .flag hk) rfl)
      · exact Moved.of_blocks (.refl s) (.main (hmain ▸ .flagged) rfl)
    · cases hs
  · simp only [act, stepReadDone] at hs
    split at hs
    · next k hmain =>
      split at hs <;> cases hs
      · next hk =>
        exact Moved.of_ebio readDoneAbio_frame (by simp [Act.touched, ebioAt, hmain, hk])
          (.main (hmain ▸ .readDone hk) rfl)
      · exact Moved.of_blocks (.refl s) (.main (hmain ▸ .readEnd) rfl)
    · cases hs
  · simp only [act, stepReadfillStart] at hs
    split at hs
    · next hmain =>
      cases hs
      exact Moved.of_blocks (.refl s) (.main (hmain ▸ .fillStart) rfl)
    · cases hs
  · simp only [act, stepReadfill] at hs
    split at hs
    · next k hmain =>
      split at hs <;> cases hs
      · next hk =>
        refine Moved.of_ebio readfillLock_frame (by simp [Act.touched, ebioAt, hmain, hk])
          (.main ?_ rfl)
        rw [hmain]
        split
        · exact .fillIssue hk
        · exact .fill hk
      · exact Moved.of_blocks (.refl s) (.main (hmain ▸ .fillEnd) rfl)
    · cases hs
  · simp only [act, stepReadfillSubmit] at hs
    split at hs
    · next k hmain =>
      have htouch : Act.touched s (.readfillSubmit b r) = some (b, k) := by
        simp [Act.touched, hmain]
      split at hs <;> cases hs
      split
      · exact Moved.of_ebio readfillAccept_frame htouch (.main (hmain ▸ .fillSubmit) rfl)
      · exact Moved.of_ebio (readfillRefuse_frame _) htouch (.main (hmain ▸ .fillSubmit) rfl)
    · cases hs
  · simp only [act, stepMainEndio] at hs
    split at hs
    · next hmain =>
      cases hs
      rw [mainEndio, bcPut_eq, updBio_updBio]
      exact Moved.of_blocks (.refl s) (.mainEndio hmain)
    · cases hs

theorem Sys.mdWrite_moved {k : Nat} : Moved g s b (.ssdDone b k 0) (s.mdWrite g (b, k)) := by
  simp only [mdWrite]
  split
  · exact Moved.of_same ((EbFrame.refl s (b, k)).fail _) rfl rfl
  · next hwait =>
    rw [← updEb_updBio]
    exact Moved.of_ebio ((EbFrame.refl s (b, k)).updEb _) rfl (.mdWrite (by omega) rfl)

theorem Sys.writeCacheDone_moved {i k : Nat} (err : Int) :
    Moved g s b (.ssdDone b k err) (s.writeCacheDone g (b, k) i err) := by
  by_cases hmd : err = 0 ∧ s.st g i = State.dirtyInprog
  · obtain ⟨rfl, hst⟩ := hmd
    simp only [writeCacheDone, hst, and_self, if_true]
    split
    · exact Moved.of_same ((EbFrame.refl s (b, k)).fail _) rfl rfl
    · split
      · exact Moved.of_same ((EbFrame.refl s (b, k)).fail _) rfl rfl
      · exact mdWrite_moved
  · exact Moved.of_same (writeCacheDone_frame err hmd) rfl rfl

/-- In the loop of `eio_enq_mdupdate` the container only loses requests. -/
theorem Sys.enqOne_bio (set : Nat) (s₀ s : Sys) (e : EbId) (he : e.1 = b) {l : List Nat} {x : Bool}
    (h : Beside s₀ s b ∧ ∃ n ≤ (s₀.bio b).mdreqs,
      s.bio b = { s₀.bio b with mdlist := l, enq := x, mdreqs := n }) :
    Beside s₀ (enqOne set s e) b ∧ ∃ n ≤ (s₀.bio b).mdreqs,
      (enqOne set s e).bio b = { s₀.bio b with mdlist := l, enq := x, mdreqs := n } := by
  subst he
  obtain ⟨hb, n, hn, heq⟩ := h
  simp only [enqOne]
  split
  · exact ⟨(hb.updEb _).setMdreq _, n, hn, heq⟩
  · split
    · exact ⟨(hb.updEb _).fail _, n, hn, heq⟩
    · refine ⟨((hb.updEb _).updBio _).setMdreq _, n - 1, by omega, ?_⟩
      simp [heq]

theorem Sys.enqGroup_move (set : Nat) {group rest : List Nat}
    (hlist : (s.bio b).mdlist = group ++ rest)
    (hf : f (s.bio b) = { s.bio b with mdlist := rest, enq := rest ≠ [] }) :
    Beside s ((group.map fun j => (b, j)).foldl (enqOne set) (s.updBio b f)) b ∧
      BioMove g s b (.enqMd b)
        (((group.map fun j => (b, j)).foldl (enqOne set) (s.updBio b f)).bio b) := by
  have hloop := Run.foldl_rest (f := enqOne set)
    (fun es t => (∀ e ∈ es, e.1 = b) ∧ Beside s t b ∧ ∃ n ≤ (s.bio b).mdreqs,
      t.bio b = { s.bio b with mdlist := rest, enq := rest ≠ [], mdreqs := n })
    (fun e es t ht => ⟨fun e' he' => ht.1 e' (List.mem_cons_of_mem _ he'),
      enqOne_bio _ s t e (ht.1 e (by simp)) ht.2⟩)
    (l := group.map fun j => (b, j)) (b := s.updBio b f) ?_
  · obtain ⟨-, hbeside, n, hn, heq⟩ := hloop
    refine ⟨hbeside, ?_⟩
    rw [heq]
    exact .enq hlist hn
  · refine ⟨?_, (Beside.refl s b).updBio _, (s.bio b).mdreqs, Nat.le_refl _, by simp [hf]⟩
    intro e he
    obtain ⟨j, -, rfl⟩ := List.mem_map.mp he
    rfl

theorem Sys.act_move_enq (hs : s.act g (.enqMd b) = some s') :
    Beside s s' b ∧ BioMove g s b (.enqMd b) (s'.bio b) := by
  simp only [act, stepEnqMd] at hs
  obtain ⟨-, rfl⟩ := Option.ite_some_none_eq_some.mp hs
  simp only [enqMdupdate]
  split
  · next hnil =>
    refine ⟨(Beside.refl s b).updBio _, ?_⟩
    rw [updBio_bio, Function.update_self]
    have := @BioMove.enq g s b [] [] _ hnil (Nat.le_refl _)
    simpa [hnil] using this
  · exact enqGroup_move _ (List.prefix_iff_eq_append.mp (List.takeWhile_prefix _)).symm rfl

/-- The SSD I/O of an ebio, its end, and the second read from the HDD. -/
theorem Sys.act_moved_ssd (hs : s.act g a = some s')
    (ha : (∃ k x, a = .ssdSector b k x) ∨ (∃ k r, a = .ssdDone b k r) ∨ (∃ k, a = .ebEndio b k) ∨
      (∃ k r, a = .reread b k r) ∨ (∃ k x, a = .rereadSector b k x) ∨
        ∃ k r, a = .rereadDone b k r) :
    Moved g s b a s' := by
  rcases ha with ⟨k, x, rfl⟩ | ⟨k, r, rfl⟩ | ⟨k, rfl⟩ | ⟨k, r, rfl⟩ | ⟨k, x, rfl⟩ | ⟨k, r, rfl⟩
  · have hxfer := (EbFrame.refl s (b, k)).updEb fun eb =>
      { eb with xfer := Function.update eb.xfer x true }
    simp only [act, stepSsdSector] at hs
    split at hs
    · cases hs
    · split at hs
      · split at hs <;> cases hs
        · exact Moved.of_ebio hxfer rfl (.xfer (.inl ⟨rfl, rfl⟩))
        · refine ⟨?_, .same (.inl rfl), rfl, fun e he => hxfer.ebio_ne fun heq => he (heq ▸ rfl)⟩
          simp [Beside, updEb]
      · cases hs
  · simp only [act, stepSsdDone] at hs
    obtain ⟨-, hs⟩ := Option.ite_none_right_eq_some.mp hs
    split at hs
    · cases hs
      exact Moved.of_same ((EbFrame.refl s (b, k)).fail _) rfl rfl
    · split at hs <;> cases hs
      · exact Moved.of_same (readCacheDone_frame r) rfl rfl
      · exact Moved.of_same (readFillDone_frame r) rfl rfl
      · exact writeCacheDone_moved r
  · simp only [act, stepEbEndio] at hs
    split at hs
    · cases hs
    · next htodo =>
      cases hs
      rw [ebEndio, bcPut_eq, updBio_updBio]
      refine Moved.of_ebio ((EbFrame.refl s (b, k)).updEb _) rfl (.ebEndio ?_)
      rw [htodo]
      rfl
  · simp only [act, stepReread] at hs
    obtain ⟨-, hs⟩ := Option.ite_none_right_eq_some.mp hs
    have hrefl := EbFrame.refl s (b, k)
    split at hs
    · cases hs
      exact Moved.of_same (hrefl.fail _) rfl rfl
    · split at hs
      · cases hs
        exact Moved.of_same rereadAccept_frame rfl rfl
      · split at hs <;> cases hs
        · exact Moved.of_same (hrefl.fail _) rfl rfl
        · exact Moved.of_same ((hrefl.invalidate _).endEb _) rfl rfl
  · simp only [act, stepRereadSector] at hs
    obtain ⟨-, rfl⟩ := Option.ite_some_none_eq_some.mp hs
    exact Moved.of_ebio ((EbFrame.refl s (b, k)).updEb _) rfl (.xfer (.inl ⟨rfl, rfl⟩))
  · simp only [act, stepRereadDone] at hs
    obtain ⟨-, hs⟩ := Option.ite_none_right_eq_some.mp hs
    split at hs <;> cases hs
    exact Moved.of_same (((EbFrame.refl s (b, k)).invalidate _).endEb _) rfl rfl

/-- Every act of a bio but `eio_enq_mdupdate`. -/
theorem Sys.act_moved (hblk : BlkInv g s) (ha : a.bio = some b) (henq : a ≠ .enqMd b)
    (hs : s.act g a = some s') : Moved g s b a s' := by
  cases a <;> simp only [Act.bio, Option.some.injEq, reduceCtorEq] at ha <;> subst ha
  case lock | invalMap | peek | dispatch => exact act_moved_map hblk hs (by simp)
  case cachedRead | uwLock | cwAlloc | cwLock | cwSubmit | cwFail =>
    exact act_moved_path hs (by simp)
  case uwSubmit | diskIo | put => exact act_moved_issue hs (by simp)
  case hddSector | hddDone | invalMain | flag | readDone | readfillStart | readfill | readfillSubmit
     | mainEndio => exact act_moved_main hs (by simp)
  case enqMd => exact absurd rfl henq
  all_goals exact act_moved_ssd hs (by simp)

/-- Every act of a bio. -/
theorem Sys.act_move (hblk : BlkInv g s) (ha : a.bio = some b) (hs : s.act g a = some s') :
    Beside s s' b ∧ BioMove g s b a (s'.bio b) := by
  by_cases henq : a = .enqMd b
  · subst henq
    exact act_move_enq hs
  · have hmoved := act_moved hblk ha henq hs
    exact ⟨hmoved.beside, hmoved.move⟩

/-! ## The other acts -/

/-- A step of a metadata update. -/
def Act.isMd : Act → Bool
  | .doMd _ | .mdSubmit _ _ | .mdSector _ _ _ | .mdDone _ _ _ | .postMd _ => true
  | _ => false

/-- A metadata update leaves the bios, the cleans and the data alone. -/
def UpdateFrame (s s' : Sys) : Prop :=
  s' = { s with
    md := s'.md
    cachedBlocks := s'.cachedBlocks
    setNrDirty := s'.setNrDirty
    nrDirty := s'.nrDirty
    ebio := s'.ebio
    mdreq := s'.mdreq
    mdDisk := s'.mdDisk
    bug := s'.bug }

theorem UpdateFrame.trans (h : UpdateFrame s t) (h' : UpdateFrame t s') : UpdateFrame s s' := by
  rw [UpdateFrame] at h h' ⊢
  rw [h', h]

theorem UpdateFrame.foldl {α : Type*} {f : Sys → α → Sys} (hf : ∀ s x, UpdateFrame s (f s x))
    (l : List α) (s : Sys) : UpdateFrame s (l.foldl f s) :=
  Run.foldl_rest (fun _ t => UpdateFrame s t) (fun x _ t ht => ht.trans (hf t x)) rfl

theorem Sys.postOne_frame (set : Nat) (err : Int) (s : Sys) (e : EbId) :
    UpdateFrame s (s.postOne g set err e) := by
  simp only [postOne]
  split
  · rfl
  · split <;> rfl

theorem Sys.act_md (ha : a.isMd = true) (hs : s.act g a = some s') : UpdateFrame s s' := by
  cases a <;> simp only [Act.isMd, Bool.false_eq_true] at ha
  case doMd set =>
    simp only [act, stepDoMd] at hs
    split at hs
    · split at hs <;> cases hs
      simp only [doMdupdate]
      split
      · rfl
      split
      · rfl
      split
      · rfl
      · exact (UpdateFrame.foldl (f := fun s e => s.updEb e fun eb => { eb with st := .mdProg })
          (fun _ _ => rfl) _ s).trans rfl
    · cases hs
  case postMd set =>
    simp only [act, stepPostMd] at hs
    split at hs
    · split at hs <;> cases hs
      exact (UpdateFrame.foldl (postOne_frame _ _) _ s).trans rfl
    · cases hs
  case mdSubmit set r =>
    simp only [act, stepMdSubmit] at hs
    split at hs
    · split at hs <;> cases hs
      simp only [mdSubmit]
      split
      · split <;> rfl
      · rfl
    · cases hs
  all_goals
    simp only [act, stepMdSector, stepMdDone] at hs
    split at hs
    · split at hs <;> cases hs
      rfl
    · cases hs

/-- A clean leaves the bios, the ebios and the metadata updates alone, and makes no block
dirty. -/
structure CleanFrame (s s' : Sys) : Prop where
  frame : s' = { s with
    md := s'.md
    setNrDirty := s'.setNrDirty
    nrDirty := s'.nrDirty
    clean := s'.clean
    hdd := s'.hdd
    mdDisk := s'.mdDisk
    bug := s'.bug }
  nrDirty : s'.nrDirty ≤ s.nrDirty

theorem CleanFrame.trans (h : CleanFrame s t) (h' : CleanFrame t s') : CleanFrame s s' := by
  refine ⟨?_, h'.nrDirty.trans h.nrDirty⟩
  rw [h'.frame, h.frame]

theorem CleanFrame.foldl {α : Type*} {f : Sys → α → Sys} (hf : ∀ s x, CleanFrame s (f s x))
    (l : List α) (s : Sys) : CleanFrame s (l.foldl f s) :=
  Run.foldl_rest (fun _ t => CleanFrame s t) (fun x _ t ht => ht.trans (hf t x))
    ⟨rfl, Int.le_refl _⟩

theorem Sys.cleanOne_frame (set : Nat) (err : Int) (s : Sys) (i : Nat) :
    CleanFrame s (s.cleanOne g set err i) := by
  simp only [cleanOne]
  split
  · exact ⟨rfl, Int.le_refl _⟩
  · split
    · exact ⟨rfl, Int.le_refl _⟩
    · exact ⟨rfl, Int.sub_le_self _ (by decide)⟩

theorem Sys.act_clean (ha : a.isClean = true ∨ ∃ set sel, a = .cleanStart set sel)
    (hs : s.act g a = some s') : CleanFrame s s' := by
  cases a <;> simp only [Act.isClean, Bool.false_eq_true, reduceCtorEq, exists_false, or_self] at ha
  case cleanStart set sel =>
    obtain ⟨-, rfl⟩ := Option.ite_some_none_eq_some.mp hs
    simp only [cleanStart]
    split
    · exact ⟨rfl, Int.le_refl _⟩
    · exact (CleanFrame.foldl (f := fun s i => s.setSt g i State.cleanInprog)
        (fun _ _ => ⟨rfl, Int.le_refl _⟩) sel s).trans ⟨rfl, Int.le_refl _⟩
  case cleanWriteDone err =>
    simp only [act, stepCleanWriteDone] at hs
    split at hs
    · split at hs <;> cases hs
      simp only [cleanWriteDone]
      split
      · exact ⟨rfl, Int.le_refl _⟩
      · split <;> exact ⟨rfl, Int.le_refl _⟩
    · cases hs
  case cleanFinish =>
    simp only [act, stepCleanFinish] at hs
    split at hs
    · split at hs <;> cases hs
      exact (CleanFrame.foldl (cleanOne_frame _ _) _ s).trans ⟨rfl, Int.le_refl _⟩
    · cases hs
  all_goals
    simp only [act, stepCleanReadSector, stepCleanReadDone, stepCleanWriteSector,
      stepCleanMdSector, stepCleanMdDone] at hs
    split at hs
    · split at hs <;> cases hs
      exact ⟨rfl, Int.le_refl _⟩
    · cases hs

/-- The acts that belong to no bio: one arrives, a metadata update or a clean goes on, a range
is invalidated from outside, or the SSD is gone. -/
inductive OtherAct (s s' : Sys) (a : Act) : Prop
  | map : a.isMap = true → OtherAct s s' a
  | update : a.isMd = true → UpdateFrame s s' → OtherAct s s' a
  | clean : a.isClean = true ∨ (∃ set sel, a = .cleanStart set sel) → CleanFrame s s' →
      OtherAct s s' a
  | inval {snum iosize : Nat} : a = .inval snum iosize → MdFrame s s' → OtherAct s s' a
  | suspend : a = .suspend → OtherAct s s' a

theorem Sys.act_other (ha : a.bio = none) (hs : s.act g a = some s') : OtherAct s s' a := by
  cases a <;> simp only [Act.bio, reduceCtorEq] at ha
  case map => exact .map rfl
  case inval snum iosize =>
    refine .inval rfl ?_
    cases hs
    exact (invalBlockSetRange_invals g s (g.hashBlock snum) snum
      (invalInset g snum iosize) true).frame
  case suspend => exact .suspend rfl
  case cleanStart set sel => exact .clean (.inr ⟨set, sel, rfl⟩) (act_clean (.inr ⟨_, _, rfl⟩) hs)
  case doMd | mdSubmit | mdSector | mdDone | postMd => exact .update rfl (act_md rfl hs)
  all_goals exact .clean (.inl rfl) (act_clean (.inl rfl) hs)

/-- What the metadata updates, the cleans and the invalidations leave alone. -/
structure Apart (s s' : Sys) : Prop where
  bio : s'.bio = s.bio
  req : s'.req = s.req
  nbio : s'.nbio = s.nbio
  rdonly : s'.rdonly = s.rdonly
  degraded : s'.degraded = s.degraded

theorem Sys.act_apart (ha : a.bio = none) (hmap : a.isMap = false) (hsus : a ≠ .suspend)
    (hs : s.act g a = some s') : Apart s s' := by
  cases act_other ha hs with
  | map h => rw [hmap] at h; cases h
  | update _ h => rw [UpdateFrame] at h; rw [h]; exact ⟨rfl, rfl, rfl, rfl, rfl⟩
  | clean _ h => rw [h.frame]; exact ⟨rfl, rfl, rfl, rfl, rfl⟩
  | inval _ h => rw [MdFrame] at h; rw [h]; exact ⟨rfl, rfl, rfl, rfl, rfl⟩
  | suspend h => exact absurd h hsus

theorem Sys.act_clean_eq (hblk : BlkInv g s) (hio : a.isIo = true) (hclean : a.isClean = false)
    (hs : s.act g a = some s') : s'.clean = s.clean := by
  cases hb : a.bio with
  | some b => exact (act_move hblk hb hs).1.clean
  | none =>
    cases act_other hb hs with
    | map h =>
      cases a <;> cases h
      obtain ⟨-, hs⟩ := Option.ite_none_left_eq_some.mp hs
      obtain ⟨-, rfl⟩ := Option.ite_some_none_eq_some.mp hs
      rfl
    | update _ h => rw [UpdateFrame] at h; rw [h]
    | clean h =>
      rcases h with h | ⟨set, sel, rfl⟩
      · rw [hclean] at h
        cases h
      · cases hio
    | inval h => rw [h] at hio; cases hio
    | suspend h => rw [h] at hio; cases hio

/-! ## Properties of one bio -/

theorem Sys.stepMap_eq_some {dir : Dir} {sector nsect : Nat} {keep : Bool}
    (hs : s.stepMap g dir sector nsect keep = some s') :
    { s with
      nbio := s.nbio + 1
      req := Function.update s.req s.nbio (s.newReq g dir sector nsect)
      bio := Function.update s.bio s.nbio (s.newBio g (s.newReq g dir sector nsect) keep) } =
        s' := by
  obtain ⟨-, hs⟩ := Option.ite_none_left_eq_some.mp hs
  obtain ⟨-, hs⟩ := Option.ite_none_right_eq_some.mp hs
  exact Option.some.inj hs

/-- What an act does to bio `b`. -/
inductive BioFate (g : Geom) (s s' : Sys) (a : Act) (b : Nat) : Prop
  | same : s'.req b = s.req b → s'.bio b = s.bio b → BioFate g s s' a b
  | new {dir : Dir} {sector nsect : Nat} {keep : Bool} : a = .map dir sector nsect keep →
      b = s.nbio → s'.req b = s.newReq g dir sector nsect →
      s'.bio b = s.newBio g (s.newReq g dir sector nsect) keep → BioFate g s s' a b
  | move : a.bio = some b → s'.req b = s.req b → BioMove g s b a (s'.bio b) → BioFate g s s' a b

theorem Sys.act_fate (hblk : BlkInv g s) (hs : s.act g a = some s') (b : Nat) :
    BioFate g s s' a b := by
  cases hb : a.bio with
  | some b' =>
    obtain ⟨hbeside, hmove⟩ := act_move hblk hb hs
    by_cases hne : b = b'
    · subst hne
      exact .move hb (by rw [hbeside.req]) hmove
    · exact .same (by rw [hbeside.req]) (hbeside.bio_ne hne)
  | none =>
    cases a
    case map =>
      obtain rfl := stepMap_eq_some hs
      by_cases hne : b = s.nbio
      · exact .new rfl hne (by simp [hne]) (by simp [hne])
      · exact .same (by simp [hne]) (by simp [hne])
    case suspend =>
      obtain ⟨-, hs⟩ := Option.ite_none_left_eq_some.mp hs
      cases hs
      exact .same rfl rfl
    all_goals
      have hapart := act_apart hb rfl (by simp) hs
      exact .same (by rw [hapart.req]) (by rw [hapart.bio])

/-- What holds of a bio before and when it arrives, and after each of its own steps,
holds of every bio in every state reached: the steps of others do not matter. -/
theorem Reachable.bio_invariant {P : Sys → Act → Prop} {Q : Req → Bio → Prop}
    (habsent : Q Req.absent Bio.absent)
    (hnew : ∀ (s : Sys) (dir : Dir) (sector nsect : Nat) (keep : Bool),
      Q (s.newReq g dir sector nsect) (s.newBio g (s.newReq g dir sector nsect) keep))
    (hstep : ∀ {s : Sys} {b : Nat} {a : Act} {bc : Bio}, Inv g s → s.bug = none → P s a →
      Q (s.req b) (s.bio b) → BioMove g s b a bc → Q (s.req b) bc)
    (h : Reachable g P s) (b : Nat) : Q (s.req b) (s.bio b) := by
  let Held : Sys → Prop := fun s => ∀ b, Q (s.req b) (s.bio b)
  have hinit : Held (init g) := fun _ => habsent
  refine Run.Reach.invariant_with (fun hr => Reachable.inv hr) hinit ?_ h b
  intro s t a hinv _ hq hp hs b
  obtain ⟨hbug, s', hact, rfl⟩ := of_step hs
  show Q (s'.req b) (s'.bio b)
  cases act_fate hinv.blk hact b with
  | same hreq hbio => exact hreq ▸ hbio ▸ hq b
  | new _ _ hreq hbio => exact hreq ▸ hbio ▸ hnew s _ _ _ _
  | move _ hreq hmove => exact hreq ▸ hstep hinv hbug hp (hq b) hmove

end

end EnhanceIO
