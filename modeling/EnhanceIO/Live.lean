import EnhanceIO.Peek

/-!
# The invariant of a running driver

`BioOk` is the invariant of one bio: where its ebios are, which references are
held on its container, whether it has been ended, which set locks it has.
`MdOk` ties the ebios that wait for a metadata update to the lists they are on.
`Live` is the invariant of the whole driver as long as no assertion has failed;
together with the invariant of the blocks it is `Inv`.
-/

namespace EnhanceIO

open State

/-! ## Requests -/

structure ReqOk (g : Geom) (r : Req) : Prop where
  disk : r.sector + r.nsect ≤ g.diskSize
  cut : r.segs = if r.forced then [] else (g.split r.sector r.nsect).getD []
  wb : g.mode = .wb → r.forced = false

namespace ReqOk

variable {g : Geom} {r : Req}

theorem absent (g : Geom) : ReqOk g Req.absent where
  disk := by simp [Req.absent]
  cut := by simp [Req.absent, Geom.split, Geom.splitLoop]
  wb := fun _ => rfl

theorem segs_forced (h : ReqOk g r) (hf : r.forced = true) : r.segs = [] := by
  rw [h.cut, if_pos hf]

theorem segs_split (h : ReqOk g r) (hne : r.segs ≠ []) :
    g.split r.sector r.nsect = some r.segs := by
  have hcut := h.cut
  split at hcut
  · exact absurd hcut hne
  · cases hs : g.split r.sector r.nsect with
    | none => simp [hs] at hcut; exact absurd hcut hne
    | some segs => simpa [hs] using hcut.symm

theorem segOk (h : ReqOk g r) {k : Nat} {seg : Seg} (hk : r.segs[k]? = some seg) : SegOk g seg := by
  have hmem : seg ∈ r.segs := List.mem_of_getElem? hk
  have hs := h.segs_split (List.ne_nil_of_mem hmem)
  obtain ⟨⟨hpos, hfit⟩, hlo, hhi⟩ := g.splitLoop_within hs seg hmem
  have hdisk := h.disk
  exact ⟨hpos, hfit, by omega⟩

end ReqOk

/-! ## Positions -/

/-- Past the peeks. -/
def MapPc.late : MapPc → Bool
  | .absent | .lock _ | .inval _ _ | .spin | .peek _ => false
  | _ => true

/-- What the position of the HDD I/O says. A bio without one is served from the
cache alone. -/
def MainOk (g : Geom) (r : Req) (bc : Bio) : MainPc → Prop
  | .none => r.forced = false ∧ bc.uc = false ∧ (r.dir = .write → g.mode = .wb)
  | .inflight | .inval _ _ _ | .endio _ | .done => r.forced = false → bc.uc = true
  | .flag _ inv _ => (r.forced = false → bc.uc = true) ∧ (r.dir = .read → inv = true)
  | .readDone _ => bc.uc = true ∧ r.dir = .read ∧ bc.bcDir = .uncachedRead
  | .readfillQ | .readfill _ => bc.uc = true ∧ r.dir = .read
  | .readfillIssue k => bc.uc = true ∧ r.dir = .read ∧ k < r.segs.length

/-- What the position of `eio_map` says. -/
def PcOk (g : Geom) (r : Req) (bc : Bio) : MapPc → Prop
  | .absent => bc = Bio.absent ∧ r = Req.absent
  | .lock _ => bc.main = .none ∧ g.mode = .wb
  | .inval _ _ => bc.main = .none ∧ r.forced = true
  | .spin => bc.main = .none
  | .peek _ => bc.main = .none ∧ r.forced = false ∧ (r.dir = .write → bc.uc = false → g.mode = .wb)
  | .cachedRead _ => bc.main = .none ∧ r.forced = false ∧ bc.uc = false ∧ r.dir = .read
  | .uwLock _ => bc.main = .none ∧ bc.uc = true ∧ r.dir = .write
  | .uwSubmit k => bc.main = .none ∧ bc.uc = true ∧ r.dir = .write ∧ k < r.segs.length
  | .cwAlloc | .cwLock _ | .cwFail _ _ =>
    bc.main = .none ∧ r.forced = false ∧ bc.uc = false ∧ r.dir = .write ∧ g.mode = .wb
  | .cwSubmit k =>
    bc.main = .none ∧ r.forced = false ∧ bc.uc = false ∧ r.dir = .write ∧ g.mode = .wb ∧
      k < r.segs.length
  | .diskIo => bc.main = .none ∧ (r.forced = false → bc.uc = true)
  | .put | .done => MainOk g r bc bc.main

/-! ## References -/

/-- The reference of the thread in `eio_map`. -/
def mapRef : MapPc → Int
  | .absent | .done => 0
  | _ => 1

/-- The reference of the HDD I/O. -/
def mainRef : MainPc → Int
  | .none | .done => 0
  | _ => 1

/-- Ebios whose `eb_endio` has not been carried out. -/
def openEbios (n : Nat) (eb : Nat → Ebio) : Nat :=
  (List.range n).countP fun k => (eb k).ended = 0

/-! ## One bio -/

/-- `bc_dir` of a read: a block to fill or a dirty block is met exactly if the
bio needs the read-fill worker. -/
def DirOk (r : Req) (bc : Bio) (eb : Nat → Ebio) : Prop :=
  r.dir = .read → r.forced = false → bc.pc ≠ .absent →
    bc.bcDir = .uncachedReadAndReadfill ∨
      (bc.bcDir = .uncachedRead ∧ ∀ k, (eb k).role = .miss ∨ (eb k).role = .hit) ∨
      (bc.bcDir = .cachedRead ∧ bc.uc = false ∧ bc.pc.late = true)

/-- The set locks of a bio that has not been ended. -/
def Locked (g : Geom) (r : Req) (bc : Bio) : Prop :=
  g.mode = .wb → bc.pc ≠ .absent → bc.endio = [] → ∀ set ∈ g.lockSets r.sector r.nsect,
    set ∈ bc.locks ∨ ∃ rest, bc.pc = .lock rest ∧ set ∈ rest

structure BioOk (g : Geom) (r : Req) (bc : Bio) (eb : Nat → Ebio) : Prop where
  ebs : ∀ k, EbOk (eb k)
  beyond : ∀ k, r.segs.length ≤ k → eb k = Ebio.init
  at_ : ∀ k < r.segs.length, (stage r.dir bc.uc bc.pc bc.main k).Ok (eb k).role (eb k).st
  full : ∀ k seg, r.segs[k]? = some seg →
    (eb k).role = .fill ∨ ((eb k).role = .wr ∧ bc.uc = false) → seg.nsect = g.blockSize
  pc : PcOk g r bc bc.pc
  dir : DirOk r bc eb
  iotype : bc.main ≠ .none →
    bc.mainIotype = if r.forced then IoType.mainIo ||| IoType.inval else IoType.mainIo
  hold : bc.holdcount = mapRef bc.pc + mainRef bc.main + openEbios r.segs.length eb
  notEnded : bc.holdcount ≠ 0 → bc.endio = [] ∧ bc.ended = none
  isEnded : bc.holdcount = 0 → bc.pc ≠ .absent → bc.endio.length = 1 ∧ bc.ended.isSome
  locked : Locked g r bc

theorem BioOk.absent (g : Geom) : BioOk g Req.absent Bio.absent fun _ => Ebio.init where
  ebs := fun _ => EbOk.init
  beyond := fun _ _ => rfl
  at_ := by simp [Req.absent]
  full := by simp [Req.absent]
  pc := ⟨rfl, rfl⟩
  dir := fun _ _ h => absurd rfl h
  iotype := fun h => absurd rfl h
  hold := by simp [Bio.absent, Req.absent, mapRef, mainRef, openEbios]
  notEnded := fun _ => ⟨rfl, rfl⟩
  isEnded := fun _ h => absurd rfl h
  locked := fun _ h => absurd rfl h

/-! ## Metadata updates -/

namespace Sys

/-- The set of an ebio. -/
def setOf (g : Geom) (s : Sys) (e : EbId) : Nat := g.hashBlock (s.seg e).sector

@[simp] theorem updEb_setOf (g : Geom) (s : Sys) (e e' : EbId) (fe : Ebio → Ebio) :
    (s.updEb e fe).setOf g e' = s.setOf g e' := rfl

/-- The ebios waiting for the next, and in the current, metadata update of a set. -/
def pending (s : Sys) (set : Nat) : List EbId := (s.mdreq set).elim [] (·.pending)
def inprog (s : Sys) (set : Nat) : List EbId := (s.mdreq set).elim [] (·.inprog)

end Sys

/-- `ls` are the ebios waiting in their bio, `ps` and `qs` those waiting for the
next and in the current metadata update of a set. -/
structure MdLists (g : Geom) (s : Sys) (ls : Nat → List Nat) (ps qs : Nat → List EbId) : Prop where
  list : ∀ b k, k ∈ ls b ↔ (s.ebio (b, k)).st = .mdList
  listNodup : ∀ b, (ls b).Nodup
  pend : ∀ set e, e ∈ ps set ↔ (s.ebio e).st = .mdPend ∧ s.setOf g e = set
  pendNodup : ∀ set, (ps set).Nodup
  prog : ∀ set e, e ∈ qs set ↔ (s.ebio e).st = .mdProg ∧ s.setOf g e = set
  progNodup : ∀ set, (qs set).Nodup
  /-- `eio_do_mdupdate` has found the block among those of the set -/
  inSet : ∀ e, (s.ebio e).st = .mdProg → (s.ebio e).index.getD 0 / g.assoc = s.setOf g e

/-- A metadata update exists as long as an ebio waits for it. -/
structure MdReq.Ok (r : MdReq) : Prop where
  queued : r.phase = .queued → r.inprog = []
  busy : r.pending ≠ [] ∨ r.inprog ≠ []

structure MdOk (g : Geom) (s : Sys) : Prop
    extends MdLists g s (fun b => (s.bio b).mdlist) s.pending s.inprog where
  reqs : ∀ set r, s.mdreq set = some r → r.Ok

/-! ## The driver -/

/-- All bios are as they should be. -/
structure Bios (g : Geom) (s : Sys) : Prop where
  req : ∀ b, ReqOk g (s.req b)
  bio : ∀ b, BioOk g (s.req b) (s.bio b) fun k => s.ebio (b, k)
  absent : ∀ b, s.nbio ≤ b → (s.bio b).pc = .absent
  cleaning : ∀ c, s.clean = some c → ∀ b, c.set ∉ (s.bio b).locks
  degraded : g.mode = .wb → s.degraded = false

structure Live (g : Geom) (s : Sys) : Prop extends Bios g s where
  md : MdOk g s

/-- The invariant: blocks are protected, no assertion on the flags of a block
has failed, and unless another one has, the driver runs as it should. -/
structure Inv (g : Geom) (s : Sys) : Prop where
  blk : BlkInv g s
  bug : ∀ x, s.bug = some x → x.excluded = false
  live : s.bug = none → Live g s

section
variable {g : Geom} {md : Meta} {hdd : Nat → Tag} {ssd : Nat → Nat → Tag} {mdDisk : Nat → MdEntry}

theorem Live.created : Live g (Sys.created g md hdd ssd mdDisk) where
  req := fun _ => ReqOk.absent g
  bio := fun _ => BioOk.absent g
  absent := fun _ _ => rfl
  md := by
    refine ⟨⟨?_, ?_, ?_, ?_, ?_, ?_, ?_⟩, ?_⟩ <;>
      simp [Sys.created, Sys.init, Bio.absent, Ebio.init, Sys.pending, Sys.inprog]
  cleaning := by simp [Sys.created, Sys.init]
  degraded := fun _ => rfl

theorem Inv.created (h : (Sys.created g md hdd ssd mdDisk).Loaded g) :
    Inv g (Sys.created g md hdd ssd mdDisk) where
  blk := .created h
  bug := by simp [Sys.created, Sys.init]
  live := fun _ => .created

end

theorem Inv.init (g : Geom) : Inv g (Sys.init g) := by
  rw [← Sys.created_create g]
  exact .created (by rw [Sys.created_create g]; exact .init g)

/-! ## Steps that stay within one bio -/

/-- `s'` differs from `s` at most in the blocks, the devices, ebio `e` and its
bio, and a failed assertion. -/
structure Local (s s' : Sys) (e : EbId) : Prop where
  req : s'.req = s.req
  nbio : s'.nbio = s.nbio
  mdreq : s'.mdreq = s.mdreq
  clean : s'.clean = s.clean
  degraded : s'.degraded = s.degraded
  bio : ∀ b ≠ e.1, s'.bio b = s.bio b
  ebio : ∀ e' ≠ e, s'.ebio e' = s.ebio e'

namespace Local

variable {s s' s'' : Sys} {e : EbId}

theorem refl (s : Sys) (e : EbId) : Local s s e :=
  ⟨rfl, rfl, rfl, rfl, rfl, fun _ _ => rfl, fun _ _ => rfl⟩

theorem updBio (h : Local s s' e) (fb : Bio → Bio) : Local s (s'.updBio e.1 fb) e :=
  ⟨h.req, h.nbio, h.mdreq, h.clean, h.degraded, fun b hb => by simpa [hb] using h.bio b hb, h.ebio⟩

theorem updEb (h : Local s s' e) (fe : Ebio → Ebio) : Local s (s'.updEb e fe) e :=
  ⟨h.req, h.nbio, h.mdreq, h.clean, h.degraded, h.bio,
    fun e' he => by simpa [he] using h.ebio e' he⟩

theorem peekMiss (h : Local s s' e) (t : IoType) : Local s (s'.peekMiss e t) e := h.updEb _

theorem peekTake (h : Local s s' e) (i : Nat) (role : Role) : Local s (s'.peekTake e i role) e :=
  h.updEb _

theorem setSt (h : Local s s' e) (g : Geom) (i : Nat) (c : State) : Local s (s'.setSt g i c) e :=
  ⟨h.req, h.nbio, h.mdreq, h.clean, h.degraded, h.bio, h.ebio⟩

theorem recycle (h : Local s s' e) (g : Geom) (i : Nat) (c : State) (d : Nat) (fresh : Bool) :
    Local s (s'.recycle g i c d fresh) e := by
  cases fresh <;> exact ⟨h.req, h.nbio, h.mdreq, h.clean, h.degraded, h.bio, h.ebio⟩

theorem trans (h : Local s s' e) (h' : Local s' s'' e) : Local s s'' e where
  req := h'.req.trans h.req
  nbio := h'.nbio.trans h.nbio
  mdreq := h'.mdreq.trans h.mdreq
  clean := h'.clean.trans h.clean
  degraded := h'.degraded.trans h.degraded
  bio := fun b hb => (h'.bio b hb).trans (h.bio b hb)
  ebio := fun e' he => (h'.ebio e' he).trans (h.ebio e' he)

theorem seg (h : Local s s' e) (e' : EbId) : s'.seg e' = s.seg e' := by
  simp only [Sys.seg, h.req]

end Local

theorem EbFrame.toLocal {s s' : Sys} {e : EbId} (h : EbFrame s s' e) : Local s s' e where
  req := h.req
  nbio := h.nbio
  mdreq := h.mdreq
  clean := h.clean
  degraded := by rw [h]
  bio := fun b _ => by rw [h.bio]
  ebio := fun _ he => h.ebio_ne he

theorem MdFrame.toLocal {s s' : Sys} (h : MdFrame s s') (e : EbId) : Local s s' e :=
  (h.ebFrame e).toLocal

/-- Waiting for a metadata update. -/
def EbSt.waiting : EbSt → Bool
  | .mdList | .mdPend | .mdProg => true
  | _ => false

theorem MdOk.of_local {g : Geom} {s s' : Sys} {e : EbId} (h : MdOk g s) (l : Local s s' e)
    (hlist : (s'.bio e.1).mdlist = (s.bio e.1).mdlist)
    (hst : (s.ebio e).st.waiting = false) (hst' : (s'.ebio e).st.waiting = false) : MdOk g s' := by
  have hmd : ∀ b, (s'.bio b).mdlist = (s.bio b).mdlist := by
    intro b
    by_cases hb : b = e.1
    · rw [hb, hlist]
    · rw [l.bio b hb]
  have hiff : ∀ e' st, st.waiting = true → ((s'.ebio e').st = st ↔ (s.ebio e').st = st) := by
    intro e' st hw
    by_cases he : e' = e
    · subst he
      constructor <;> rintro rfl
      · rw [hw] at hst'
        cases hst'
      · rw [hw] at hst
        cases hst
    · rw [l.ebio e' he]
  have hset : ∀ e', s'.setOf g e' = s.setOf g e' := fun e' => by
    simp only [Sys.setOf, l.seg]
  refine ⟨⟨?_, ?_, ?_, ?_, ?_, ?_, ?_⟩, ?_⟩
  · intro b k
    rw [hmd, h.list, hiff _ _ rfl]
  · intro b
    rw [hmd]
    exact h.listNodup b
  · intro set e'
    rw [Sys.pending, l.mdreq, hiff _ _ rfl, hset]
    exact h.pend set e'
  · intro set
    rw [Sys.pending, l.mdreq]
    exact h.pendNodup set
  · intro set e'
    rw [Sys.inprog, l.mdreq, hiff _ _ rfl, hset]
    exact h.prog set e'
  · intro set
    rw [Sys.inprog, l.mdreq]
    exact h.progNodup set
  · intro e' hprog
    have hne : e' ≠ e := by
      rintro rfl
      rw [hprog] at hst'
      cases hst'
    rw [l.ebio e' hne] at hprog ⊢
    rw [hset]
    exact h.inSet e' hprog
  · intro set r hr
    rw [l.mdreq] at hr
    exact h.reqs set r hr

/-- The container goes on; `eio_map` or the HDD I/O has let go of `d` references,
which are not yet given back. -/
structure Quiet (d : Int) (bc bc' : Bio) : Prop where
  holdcount : bc'.holdcount = bc.holdcount
  endio : bc'.endio = bc.endio
  ended : bc'.ended = bc.ended
  locks : bc'.locks = bc.locks
  uc : bc'.uc = bc.uc
  bcDir : bc'.bcDir = bc.bcDir
  mainIotype : bc'.mainIotype = bc.mainIotype
  refs : mapRef bc'.pc + mainRef bc'.main + d = mapRef bc.pc + mainRef bc.main
  main : bc'.main ≠ .none → bc.main ≠ .none
  late : bc.pc.late = true → bc'.pc.late = true
  pc : bc.pc ≠ .absent ∧ ∀ rest, bc.pc = .lock rest → rest = []

theorem openEbios_congr {n : Nat} {eb eb' : Nat → Ebio} (h : ∀ k, (eb' k).ended = (eb k).ended) :
    openEbios n eb' = openEbios n eb := by
  simp only [openEbios, h]

theorem PcOk.congr {g : Geom} {r : Req} {bc bc' : Bio} {pc : MapPc} (h : PcOk g r bc pc)
    (hne : pc ≠ .absent) (hmain : bc'.main = bc.main) (huc : bc'.uc = bc.uc)
    (hdir : bc'.bcDir = bc.bcDir) : PcOk g r bc' pc := by
  have hmo : ∀ m, MainOk g r bc m → MainOk g r bc' m := by
    intro m hm
    cases m <;> simpa only [MainOk, huc, hdir] using hm
  cases pc
  case absent => exact absurd rfl hne
  case put | done =>
    show MainOk g r bc' bc'.main
    rw [hmain]
    exact hmo _ h
  all_goals simpa only [PcOk, hmain, huc] using h

section
variable {g : Geom} {r : Req} {bc bc₁ bc' : Bio} {eb eb' : Nat → Ebio} {d : Int}

/-- The bio goes on. Whatever happens to the references is left to the caller. -/
theorem BioOk.carry (h : BioOk g r bc eb) (q : Quiet d bc bc₁) (hok : ∀ k, EbOk (eb' k))
    (hbeyond : ∀ k, r.segs.length ≤ k → eb' k = Ebio.init)
    (hrole : ∀ k, (eb' k).role = (eb k).role ∨ (eb' k).role = .miss)
    (hat : ∀ k < r.segs.length, (stage r.dir bc.uc bc₁.pc bc₁.main k).Ok (eb' k).role (eb' k).st)
    (hpc : PcOk g r bc' bc'.pc)
    (hsame : bc'.uc = bc₁.uc ∧ bc'.bcDir = bc₁.bcDir ∧ bc'.mainIotype = bc₁.mainIotype ∧
      bc'.pc = bc₁.pc ∧ bc'.main = bc₁.main)
    (hlocks : bc'.endio = [] → bc₁.endio = [] ∧ bc'.locks = bc₁.locks)
    (hhold : bc'.holdcount = mapRef bc'.pc + mainRef bc'.main + openEbios r.segs.length eb')
    (hnot : bc'.holdcount ≠ 0 → bc'.endio = [] ∧ bc'.ended = none)
    (his : bc'.holdcount = 0 → bc'.endio.length = 1 ∧ bc'.ended.isSome) : BioOk g r bc' eb' := by
  obtain ⟨huc, hdir, hiot, hpc', hmain⟩ := hsame
  constructor
  case ebs => exact hok
  case beyond => exact hbeyond
  case at_ =>
    rw [huc, q.uc, hpc', hmain]
    exact hat
  case full =>
    intro k seg hk hfull
    rw [huc, q.uc] at hfull
    rcases hrole k with hr | hr
    · rw [hr] at hfull
      exact h.full k seg hk hfull
    · rw [hr] at hfull
      simp at hfull
  case pc => exact hpc
  case dir =>
    intro hd hf _
    rw [hdir, huc, hpc', q.bcDir, q.uc]
    rcases h.dir hd hf q.pc.1 with h1 | ⟨h1, h2⟩ | ⟨h1, h2, h3⟩
    · exact .inl h1
    · refine .inr (.inl ⟨h1, fun k => ?_⟩)
      rcases hrole k with hr | hr
      · rw [hr]
        exact h2 k
      · exact .inl hr
    · exact .inr (.inr ⟨h1, h2, q.late h3⟩)
  case iotype =>
    intro hm
    rw [hiot, q.mainIotype]
    exact h.iotype (q.main (hmain ▸ hm))
  case hold => exact hhold
  case notEnded => exact hnot
  case isEnded => exact fun h0 _ => his h0
  case locked =>
    intro hm _ he set hset
    obtain ⟨he₁, hl₁⟩ := hlocks he
    rw [hl₁, q.locks]
    rw [q.endio] at he₁
    rcases h.locked hm q.pc.1 he₁ set hset with hl | ⟨rest, hrest, hin⟩
    · exact .inl hl
    · rw [q.pc.2 rest hrest] at hin
      simp at hin

theorem BioOk.go (h : BioOk g r bc eb) (q : Quiet 0 bc bc') (hok : ∀ k, EbOk (eb' k))
    (hbeyond : ∀ k, r.segs.length ≤ k → eb' k = Ebio.init)
    (hended : ∀ k, (eb' k).ended = (eb k).ended)
    (hrole : ∀ k, (eb' k).role = (eb k).role ∨ (eb' k).role = .miss)
    (hat : ∀ k < r.segs.length, (stage r.dir bc.uc bc'.pc bc'.main k).Ok (eb' k).role (eb' k).st)
    (hpc : PcOk g r bc' bc'.pc) : BioOk g r bc' eb' := by
  have hh := h.hold
  have hr := q.refs
  refine h.carry q hok hbeyond hrole hat hpc ⟨rfl, rfl, rfl, rfl, rfl⟩
    (fun he => ⟨he, rfl⟩) ?_ ?_ ?_
  · rw [q.holdcount, openEbios_congr hended]
    omega
  · rw [q.holdcount, q.endio, q.ended]
    exact h.notEnded
  · rw [q.holdcount, q.endio, q.ended]
    exact fun h0 => h.isEnded h0 q.pc.1

theorem mapRef_nonneg (pc : MapPc) : 0 ≤ mapRef pc := by
  cases pc <;> simp [mapRef]

theorem mainRef_nonneg (m : MainPc) : 0 ≤ mainRef m := by
  cases m <;> simp [mainRef]

/-- `bc_put` on the container. -/
def Bio.put (g : Geom) (now : Nat) (bc : Bio) : Bio :=
  if bc.holdcount - 1 = 0 then
    { bc with
      holdcount := 0
      locks := if g.mode = .wb then [] else bc.locks
      mdreqs := if g.mode = .wb then 0 else bc.mdreqs
      endio := bc.endio ++ [bc.error]
      ended := some now }
  else { bc with holdcount := bc.holdcount - 1 }

theorem Sys.bcPut_eq (g : Geom) (s : Sys) (b : Nat) :
    s.bcPut g b = s.updBio b (Bio.put g s.now) := rfl

/-- A reference is given back; with the last one the bio is ended. -/
theorem BioOk.put (h : BioOk g r bc eb) (now : Nat) (q : Quiet d bc bc₁) (hne : bc₁.pc ≠ .absent)
    (hopen : (openEbios r.segs.length eb : Int) + d = openEbios r.segs.length eb' + 1)
    (hok : ∀ k, EbOk (eb' k)) (hbeyond : ∀ k, r.segs.length ≤ k → eb' k = Ebio.init)
    (hrole : ∀ k, (eb' k).role = (eb k).role ∨ (eb' k).role = .miss)
    (hat : ∀ k < r.segs.length, (stage r.dir bc.uc bc₁.pc bc₁.main k).Ok (eb' k).role (eb' k).st)
    (hpc : PcOk g r bc₁ bc₁.pc) : BioOk g r (Bio.put g now bc₁) eb' := by
  have hh := h.hold
  have hr := q.refs
  have hpos : bc.holdcount ≠ 0 := by
    have h1 := mapRef_nonneg bc₁.pc
    have h2 := mainRef_nonneg bc₁.main
    omega
  obtain ⟨he, hn⟩ := h.notEnded hpos
  have hcount := q.holdcount
  by_cases hlast : bc₁.holdcount - 1 = 0
  · simp only [Bio.put, hlast, if_true]
    refine h.carry q hok hbeyond hrole hat (hpc.congr hne rfl rfl rfl) ⟨rfl, rfl, rfl, rfl, rfl⟩
      (by simp) ?_ (by simp) (by simp [q.endio, he])
    dsimp only
    omega
  · simp only [Bio.put, hlast, if_false]
    refine h.carry q hok hbeyond hrole hat (hpc.congr hne rfl rfl rfl) ⟨rfl, rfl, rfl, rfl, rfl⟩
      (fun h0 => ⟨h0, rfl⟩) ?_ (fun _ => by simp [q.endio, q.ended, he, hn])
      (fun h0 => absurd h0 hlast)
    dsimp only
    omega

end

section
variable {g : Geom} {s s' s₀ s₁ : Sys} {e : EbId}

/-- A step within one bio: what is left to show is about that bio. -/
theorem Bios.of_local (h : Bios g s) (l : Local s s' e)
    (hbio : BioOk g (s.req e.1) (s'.bio e.1) fun k => s'.ebio (e.1, k))
    (hpc : (s.bio e.1).pc ≠ .absent)
    (hlock : ∀ c, s.clean = some c → c.set ∉ (s'.bio e.1).locks) : Bios g s' where
  req := fun b => l.req ▸ h.req b
  bio := fun b => by
    rw [l.req]
    by_cases hb : b = e.1
    · rw [hb]
      exact hbio
    · have heb : (fun k => s'.ebio (b, k)) = fun k => s.ebio (b, k) := by
        funext k
        exact l.ebio _ fun he => hb (by rw [← he])
      rw [l.bio b hb, heb]
      exact h.bio b
  absent := fun b hb => by
    rw [l.nbio] at hb
    have hne : b ≠ e.1 := by
      rintro rfl
      exact hpc (h.absent _ hb)
    rw [l.bio b hne]
    exact h.absent b hb
  cleaning := fun c hc b => by
    rw [l.clean] at hc
    by_cases hb : b = e.1
    · rw [hb]
      exact hlock c hc
    · rw [l.bio b hb]
      exact h.cleaning c hc b
  degraded := fun hm => l.degraded ▸ h.degraded hm

theorem Live.of_local (h : Live g s) (l : Local s s' e)
    (hbio : BioOk g (s.req e.1) (s'.bio e.1) fun k => s'.ebio (e.1, k))
    (hpc : (s.bio e.1).pc ≠ .absent) (hmd : MdOk g s')
    (hlock : ∀ c, s.clean = some c → c.set ∉ (s'.bio e.1).locks) : Live g s' :=
  ⟨h.toBios.of_local l hbio hpc hlock, hmd⟩

/-- A function has handled ebio `e`, and `eio_map` or the HDD I/O of its bio may
have moved on. -/
theorem BioOk.handled {P : Role → EbSt → Prop} {bc' : Bio}
    (h : BioOk g (s.req e.1) (s.bio e.1) fun k => s.ebio (e.1, k))
    (heb₀ : s₀.ebio e = s.ebio e) (hne : ∀ e' ≠ e, s₁.ebio e' = s.ebio e')
    (hh : Handled g s₀ s₁ e P) (hk : e.2 < (s.req e.1).segs.length)
    (hnew : (s.ebio e).st ≠ .new) (q : Quiet 0 (s.bio e.1) bc')
    (hat : ∀ r st, P r st →
      (stage (s.req e.1).dir (s.bio e.1).uc bc'.pc bc'.main e.2).Ok r st)
    (hoth : ∀ j < (s.req e.1).segs.length, j ≠ e.2 →
      stage (s.req e.1).dir (s.bio e.1).uc bc'.pc bc'.main j =
        stage (s.req e.1).dir (s.bio e.1).uc (s.bio e.1).pc (s.bio e.1).main j)
    (hpc : PcOk g (s.req e.1) bc' bc'.pc) :
    BioOk g (s.req e.1) bc' fun k => s₁.ebio (e.1, k) := by
  have hne' : ∀ j, j ≠ e.2 → s₁.ebio (e.1, j) = s.ebio (e.1, j) := fun j hj =>
    hne _ fun he => hj (by rw [← he])
  refine h.go q ?_ ?_ ?_ ?_ ?_ hpc
  · intro j
    by_cases hj : j = e.2
    · exact hj ▸ hh.ok
    · exact (hne' j hj).symm ▸ h.ebs j
  · intro j hj
    exact (hne' j (by omega)).trans (h.beyond j hj)
  · intro j
    by_cases hj : j = e.2
    · subst hj
      exact hh.ended.trans (by rw [heb₀])
    · exact congrArg Ebio.ended (hne' j hj)
  · intro j
    by_cases hj : j = e.2
    · subst hj
      rcases hh.role with hr | hr | hr
      · exact .inl (hr.trans (by rw [heb₀]))
      · exact .inr hr
      · exact absurd (heb₀ ▸ hr) hnew
    · exact .inl (congrArg Ebio.role (hne' j hj))
  · intro j hj
    by_cases hje : j = e.2
    · subst hje
      exact hat _ _ hh.at_
    · rw [hoth j hj hje, hne' j hje]
      exact h.at_ j hj

end

/-! ## What the invariant does not speak about -/

/-- `s'` differs from `s` at most in the devices and the clock. -/
def DevFrame (s s' : Sys) : Prop :=
  s' = { s with
    hdd := s'.hdd
    ssd := s'.ssd
    mdDisk := s'.mdDisk
    now := s'.now }

theorem Live.devices {g : Geom} {s s' : Sys} (h : Live g s) (hf : DevFrame s s') : Live g s' := by
  rw [hf]
  exact
    { req := h.req
      bio := h.bio
      absent := h.absent
      md := ⟨⟨h.md.list, h.md.listNodup, h.md.pend, h.md.pendNodup, h.md.prog, h.md.progNodup,
        h.md.inSet⟩,
        h.md.reqs⟩
      cleaning := h.cleaning
      degraded := h.degraded }

theorem Inv.devices {g : Geom} {s s' : Sys} (h : Inv g s) (hf : DevFrame s s') : Inv g s' where
  blk := h.blk.congr (by rw [hf]; rfl) (by rw [hf]) (by rw [hf])
  bug := by
    have hb : s'.bug = s.bug := by rw [hf]
    rw [hb]
    exact h.bug
  live := by
    have hb : s'.bug = s.bug := by rw [hf]
    rw [hb]
    exact fun hn => (h.live hn).devices hf

/-! ## Steps as the driver takes them -/

section
variable {g : Geom} {s s₀ s₁ : Sys} {e : EbId} {fb : Bio → Bio}

theorem Inv.of_live {s' : Sys} (hblk : BlkInv g s') (hbug : s'.bug = none) (hlive : Live g s') :
    Inv g s' :=
  ⟨hblk, by simp [hbug], fun _ => hlive⟩

theorem Inv.of_sound {s' : Sys} (hblk : BlkInv g s') (hbug : s.bug = none) (hs : Sound s s')
    (hlive : Live g s') : Inv g s' := by
  refine ⟨hblk, fun x hx => ?_, fun _ => hlive⟩
  rcases hs with h | ⟨y, h, hy⟩
  · rw [h, hbug] at hx
    cases hx
  · rw [h] at hx
    cases hx
    exact hy

theorem Inv.of_fail (hblk : BlkInv g s) {x : Bug} (hx : x.excluded = false) : Inv g (s.fail x) where
  blk := hblk.congr rfl rfl rfl
  bug := fun y hy => by
    obtain rfl : x = y := by simpa using hy
    exact hx
  live := fun h => by simp at h

theorem Inv.of_fail_updBio {b : Nat} {f : Bio → Bio} (hblk : BlkInv g s) {x : Bug}
    (hx : x.excluded = false) : Inv g ((s.fail x).updBio b f) :=
  .of_fail (s := s.updBio b f) (hblk.congr rfl rfl rfl) hx

/-- The step of a function that handles ebio `e`, after which `eio_map` or the
completion of the HDD I/O moves on. -/
theorem Inv.ebio {P : Role → EbSt → Prop} (h : Live g s) (hbug : s.bug = none)
    (hb₀ : BlkInv g s₀) (heb₀ : s₀.ebio e = s.ebio e) (hs₀ : Sound s s₀)
    (hf : EbFrame s s₁ e) (hh : Handled g s₀ s₁ e P)
    (hk : e.2 < (s.req e.1).segs.length) (hnew : (s.ebio e).st ≠ .new)
    (hw : (s.ebio e).st.waiting = false) (hw' : ∀ r st, P r st → st.waiting = false)
    (q : Quiet 0 (s.bio e.1) (fb (s.bio e.1)))
    (hlist : (fb (s.bio e.1)).mdlist = (s.bio e.1).mdlist)
    (hat : ∀ r st, P r st → (stage (s.req e.1).dir (s.bio e.1).uc (fb (s.bio e.1)).pc
      (fb (s.bio e.1)).main e.2).Ok r st)
    (hoth : ∀ j < (s.req e.1).segs.length, j ≠ e.2 →
      stage (s.req e.1).dir (s.bio e.1).uc (fb (s.bio e.1)).pc (fb (s.bio e.1)).main j =
        stage (s.req e.1).dir (s.bio e.1).uc (s.bio e.1).pc (s.bio e.1).main j)
    (hpc : PcOk g (s.req e.1) (fb (s.bio e.1)) (fb (s.bio e.1)).pc) :
    Inv g (s₁.updBio e.1 fb) := by
  have hbc : (s₁.updBio e.1 fb).bio e.1 = fb (s.bio e.1) := by simp [hf.bio]
  have hsnd : Sound s (s₁.updBio e.1 fb) := by
    rw [Sound, Sys.updBio_bug, hh.bug]
    exact hs₀
  refine .of_sound ((hh.how.blk hb₀).congr rfl rfl rfl) hbug hsnd ?_
  have l : Local s (s₁.updBio e.1 fb) e := hf.toLocal.updBio fb
  refine h.of_local l ?_ q.pc.1 (h.md.of_local l (by rw [hbc, hlist]) hw (hw' _ _ hh.at_)) ?_
  · rw [hbc]
    show BioOk g (s.req e.1) (fb (s.bio e.1)) fun k => s₁.ebio (e.1, k)
    exact (h.bio e.1).handled heb₀ (fun _ => hf.ebio_ne) hh hk hnew q hat hoth hpc
  · rw [hbc, q.locks]
    exact fun c hc => h.cleaning c hc e.1

/-- A range invalidation, after which the container moves on. -/
theorem Inv.invals (h : Live g s) (hblk : BlkInv g s) (hbug : s.bug = none) {b : Nat}
    (hi : Invals g s s₁) (q : Quiet 0 (s.bio b) (fb (s.bio b)))
    (hlist : (fb (s.bio b)).mdlist = (s.bio b).mdlist)
    (hat : ∀ k < (s.req b).segs.length, (stage (s.req b).dir (s.bio b).uc (fb (s.bio b)).pc
      (fb (s.bio b)).main k).Ok (s.ebio (b, k)).role (s.ebio (b, k)).st)
    (hpc : PcOk g (s.req b) (fb (s.bio b)) (fb (s.bio b)).pc) : Inv g (s₁.updBio b fb) := by
  have hbc : (s₁.updBio b fb).bio b = fb (s.bio b) := by simp [hi.frame.bio]
  have heb : (s₁.updBio b fb).ebio = s.ebio := hi.frame.ebio
  have l : Local s (s₁.updBio b fb) (b, (s.req b).segs.length) :=
    (hi.frame.toLocal (b, (s.req b).segs.length)).updBio fb
  have hw : (s.ebio (b, (s.req b).segs.length)).st.waiting = false := by
    rw [(h.bio b).beyond _ (Nat.le_refl _)]
    rfl
  refine .of_sound ((hi.blk hblk).congr rfl rfl rfl) hbug hi.bug (h.of_local l ?_ q.pc.1
    (h.md.of_local l (by rw [hbc, hlist]) hw (by rw [heb]; exact hw)) ?_)
  · rw [hbc]
    simp only [heb]
    exact (h.bio b).go q (h.bio b).ebs (h.bio b).beyond (fun _ => rfl) (fun _ => .inl rfl) hat hpc
  · rw [hbc, q.locks]
    exact fun c hc => h.cleaning c hc b

/-- A step in which only the container of a bio moves on. -/
theorem Inv.container (h : Live g s) (hblk : BlkInv g s) (hbug : s.bug = none) {b : Nat}
    (q : Quiet 0 (s.bio b) (fb (s.bio b))) (hlist : (fb (s.bio b)).mdlist = (s.bio b).mdlist)
    (hat : ∀ k < (s.req b).segs.length, (stage (s.req b).dir (s.bio b).uc (fb (s.bio b)).pc
      (fb (s.bio b)).main k).Ok (s.ebio (b, k)).role (s.ebio (b, k)).st)
    (hpc : PcOk g (s.req b) (fb (s.bio b)) (fb (s.bio b)).pc) : Inv g (s.updBio b fb) :=
  .invals h hblk hbug (.refl g s) q hlist hat hpc

theorem Inv.bio (h : Live g s) (hblk : BlkInv g s) (hbug : s.bug = none) {b : Nat}
    (hbio : BioOk g (s.req b) (fb (s.bio b)) fun k => s.ebio (b, k))
    (hpc : (s.bio b).pc ≠ .absent) (hlist : (fb (s.bio b)).mdlist = (s.bio b).mdlist)
    (hlock : ∀ c, s.clean = some c → c.set ∉ (fb (s.bio b)).locks) : Inv g (s.updBio b fb) := by
  have hbc : (s.updBio b fb).bio b = fb (s.bio b) := by simp
  have l : Local s (s.updBio b fb) (b, (s.req b).segs.length) :=
    (Local.refl s (b, (s.req b).segs.length)).updBio fb
  have hw : (s.ebio (b, (s.req b).segs.length)).st.waiting = false := by
    rw [(h.bio b).beyond _ (Nat.le_refl _)]
    rfl
  refine .of_live (hblk.congr rfl rfl rfl) hbug (h.of_local l ?_ hpc
    (h.md.of_local l (by rw [hbc, hlist]) hw hw) (by rw [hbc]; exact hlock))
  rw [hbc]
  exact hbio

end

end EnhanceIO
