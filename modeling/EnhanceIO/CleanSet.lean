import EnhanceIO.CleanSelect
import EnhanceIO.Dispatch
import EnhanceIO.MdPages
import EnhanceIO.Lib.Writes

/-!
# Cleaning a set

`eio_clean_set`, from the choice of the blocks to the release of the lock, with the transfers
that its I/O makes between the devices and the preallocated segments. The function holds the
lock of the set for writing, so it is modelled as one sequential step; the devices serve the
transfers of a phase in any order, and any I/O may fail.
-/

namespace EnhanceIO

open State

/-! ## Segments and I/O -/

/-- `IO_BVEC_COUNT`. -/
def ioBvecCount (iosize blockSize : Nat) : Nat :=
  let count := (iosize + 4095) / 4096
  if blockSize = 4 then count * 2 else count

/-- A segment that `eio_alloc_wb_bvecs` sets up; `page k` is the `k`-th page it allocates. -/
def wbBvec (page : Nat → Nat) (blockSize i : Nat) : IoVec :=
  if blockSize = 4 then
    if i % 2 = 0 then ⟨page (i / 2), 0, 512 * blockSize⟩
    else ⟨page (i / 2), 4096 - 512 * blockSize, 512 * blockSize⟩
  else ⟨page i, 0, 4096⟩

/-- `eio_alloc_wb_bvecs`. -/
def allocWbBvecs (page : Nat → Nat) (max blockSize : Nat) : List IoVec :=
  (List.range max).map (wbBvec page blockSize)

/-- What `eio_clean_set` reads of a cache and does not change. -/
structure CleanCfg extends Geom where
  mdStartSect : Nat
  mdSectors : Nat
  devStartSect : Nat
  dirtySetLowThreshold : Nat
  page : Nat → Nat
  page_inj : Function.Injective page
  mdPage : Nat → Nat
  low_le : dirtySetLowThreshold ≤ 100

namespace CleanCfg

variable (cfg : CleanCfg)

/-- `clean_dbvecs`, as `eio_allocate_wb_resources` makes it. -/
def cleanDbvecs : List IoVec :=
  allocWbBvecs cfg.page (ioBvecCount (cfg.blockSize * cfg.assoc * 512)
    cfg.blockSize) cfg.blockSize

/-- `clean_mdpages`. -/
def cleanMdpages : List Nat := (List.range (mdPageCount cfg.assoc)).map cfg.mdPage

/-- The segments of `total` blocks of the set from block `blkindex` on; `none` if
`setup_bio_vecs` knows nothing of the block size, or the number of segments is zero. -/
def bvecs (blkindex total : Nat) : Option (List IoVec) :=
  (setupBioVecs blkindex cfg.blockSize total).bind fun (first, nrBvecs) =>
    if nrBvecs = 0 then none else some ((cfg.cleanDbvecs.drop first).take nrBvecs)

end CleanCfg

/-- How the devices serve the I/O of a clean: what they take into a bio, in which order they
do the transfers of a phase, and which I/Os fail, the reads and writes by their first block. Of
an I/O that fails, some transfers may be missing; `mdTorn` are the metadata after a failed
write of them. -/
structure CleanIo where
  addPage : AddPage
  fresh : ∀ bios v, addPage bios [] v = true
  serve : List Transfer → List Transfer
  serve_perm : ∀ l, (serve l).Perm l
  readError : Nat → Int
  writeError : Nat → Int
  mdError : Int
  lost : Transfer → Bool
  mdTorn : MdDev

/-- An I/O of a phase. -/
structure CleanReq where
  region : IoRegion
  hddio : Bool
  bvecs : List IoVec
  error : Int

namespace CleanIo

variable (io : CleanIo) (cfg : CleanCfg)

/-- The transfers of the I/Os of a phase; `none` if an assertion of the dispatch fails. -/
def issue : List CleanReq → Option (List Transfer)
  | [] => some []
  | r :: reqs =>
    (dispatchIo io.addPage r.bvecs.length r.region cfg.devStartSect r.hddio r.bvecs).bind
      fun bios =>
        let transfers := bios.flatMap SubBio.transfers
        (issue reqs).map fun rest =>
          (if r.error = 0 then transfers else transfers.filter fun t => !io.lost t) ++ rest

end CleanIo

/-- `sio_error` after a phase. -/
def sioError (reqs : List CleanReq) : Int :=
  reqs.foldl (fun error r => if r.error ≠ 0 then r.error else error) 0

/-! ## The runs of step 4 -/

/-- The end of the run of marked blocks that goes on at `j`, with `left` blocks of the set
left. -/
def runEnd (st : Nat → State) : Nat → Nat → Nat
  | 0, j => j
  | left + 1, j => if st j = cleanInprog then runEnd st left (j + 1) else j

/-- The runs of step 4, as first block and number of blocks. After a run the loop goes on
behind the block that ended it. -/
def runs (st : Nat → State) (endIndex : Nat) : Nat → Nat → List (Nat × Nat)
  | 0, _ => []
  | rounds + 1, i =>
    if i < endIndex then
      if st i = cleanInprog then
        let j := runEnd st (endIndex - i) i
        (i, j - i) :: runs st endIndex rounds (j + 1)
      else runs st endIndex rounds (i + 1)
    else []

/-- The runs of marked blocks of a set. -/
def setRuns (cfg : CleanCfg) (set : Nat) (st : Nat → State) : List (Nat × Nat) :=
  runs st (set * cfg.assoc + cfg.assoc) cfg.assoc (set * cfg.assoc)

/-! ## The cache -/

/-- What `eio_clean_set` changes. `touched` are the sets handed to `eio_touch_set_lru`. -/
structure CleanCache (α : Type*) where
  st : Nat → State
  dbn : Nat → Nat
  pol : Option Policy
  setDirty : Nat → Nat
  nrDirty : Int
  wlocked : Nat → Bool
  cleanFlags : Nat → Bool
  touched : List Nat
  failed : Bool
  autocleanCrossed : Bool
  ssd : Nat → α
  hdd : Nat → α
  mem : MemUnit → α
  mdPages : MdMem
  md : MdDev

namespace CleanCache

variable {α : Type*} (cfg : CleanCfg) (io : CleanIo) (set : Nat) (c : CleanCache α)

/-- From `err_out1` on. -/
def errOut1 (force : Bool) : CleanCache α :=
  { c with
    cleanFlags := if force then c.cleanFlags else Function.update c.cleanFlags set false
    touched := if c.setDirty set ≠ 0 then c.touched ++ [set] else c.touched }

/-- From `err_out2` on. -/
def errOut2 (force : Bool) : CleanCache α :=
  errOut1 set { c with wlocked := Function.update c.wlocked set false } force

/-- Step 3 of a whole clean: the loop over the set. -/
def markWhole (m : Marking) (i : Nat) : Marking :=
  if m.st i = alreadyDirty then
    ⟨Function.update m.st i cleanInprog, m.nrWrites + 1⟩
  else m

/-- Step 3: the blocks to clean are marked. -/
def select (whole : Bool) : Option (Marking × Option Policy) :=
  if whole then
    some ((List.range' (set * cfg.assoc) cfg.assoc).foldl markWhole ⟨c.st, 0⟩, c.pol)
  else
    getSetblksToClean c.pol cfg.assoc cfg.dirtySetLowThreshold set (c.setDirty set) c.st

/-- The read of a run. -/
def readReq (run : Nat × Nat) : Option CleanReq :=
  (cfg.bvecs (run.1 - set * cfg.assoc) run.2).map fun bvecs =>
    { region := ⟨run.1 * cfg.blockSize + cfg.mdSectors, run.2 * cfg.blockSize⟩
      hddio := false
      bvecs
      error := io.readError run.1 }

/-- The write of a block. -/
def writeReq (i : Nat) : Option CleanReq :=
  (cfg.bvecs (i - set * cfg.assoc) 1).map fun bvecs =>
    { region := ⟨c.dbn i, cfg.blockSize⟩
      hddio := true
      bvecs
      error := io.writeError i }

/-- The marked blocks, in the order of the loops. -/
def markedBlocks : List Nat :=
  (List.range' (set * cfg.assoc) cfg.assoc).filter fun i => c.st i = cleanInprog

/-- Step 4: the marked blocks are read from the SSD, run by run. -/
def readPhase : Option (CleanCache α × Int) :=
  ((setRuns cfg set c.st).mapM (readReq cfg io set)).bind fun reqs =>
    (io.issue cfg reqs).map fun transfers =>
      ({ c with mem := Writes.store ((io.serve transfers).map fun t => (t.2, c.ssd t.1)) c.mem },
        sioError reqs)

/-- Step 5: they are written to the HDD, block by block. -/
def writePhase : Option (CleanCache α × Int) :=
  ((c.markedBlocks cfg set).mapM (c.writeReq cfg io set)).bind fun reqs =>
    (io.issue cfg reqs).map fun transfers =>
      ({ c with hdd := Writes.store ((io.serve transfers).map fun t => (t.1, c.mem t.2)) c.hdd },
        sioError reqs)

/-- Step 6: the metadata of the set are written. -/
def mdPhase : Option (CleanCache α × Int) :=
  let block : Nat → MdEntry := fun i => ⟨c.dbn i, c.st i⟩
  (cleanWrite cfg.mdStartSect cfg.assoc set block c.mdPages).bind fun w =>
    (dispatchIoPages io.addPage cfg.cleanMdpages.length w.region cfg.devStartSect false
      cfg.cleanMdpages).map fun _ =>
        ({ c with
            mdPages := (cleanPages cfg.assoc set block c.mdPages).pages
            md := if io.mdError = 0 then MdIo.apply c.md w else io.mdTorn },
          io.mdError)

/-- Steps 4 to 6, up to the first error. -/
def cleanData : Option (CleanCache α × Int) :=
  (c.readPhase cfg io set).bind fun (c, error) =>
    if error ≠ 0 then some (c, error)
    else
      (c.writePhase cfg io set).bind fun (c, error) =>
        if error ≠ 0 then some (c, error) else c.mdPhase cfg io set

/-- A round of step 7; `none` if the assertion on `nr_dirty` fails. -/
def finishOne (error : Int) (c : CleanCache α) (i : Nat) : Option (CleanCache α) :=
  if c.st i = cleanInprog then
    if error ≠ 0 then some { c with st := Function.update c.st i alreadyDirty }
    else if ¬ 0 < c.setDirty set then none
    else
      some { c with
        st := Function.update c.st i valid
        setDirty := Function.update c.setDirty set (c.setDirty set - 1)
        nrDirty := c.nrDirty - 1 }
  else some c

/-- Step 7. -/
def finish (error : Int) : Option (CleanCache α) :=
  (List.range' (set * cfg.assoc) cfg.assoc).foldlM (finishOne set error) c

/-- `eio_clean_set`; `none` if an assertion fails. -/
def cleanSet (whole force : Bool) : Option (CleanCache α) :=
  if c.failed then some (errOut1 set c force)
  else if c.setDirty set = 0 then some (errOut1 set c force)
  else if !force && c.autocleanCrossed then
    some (errOut1 set { c with touched := c.touched ++ [set] } force)
  else
    let c := { c with wlocked := Function.update c.wlocked set true }
    if c.setDirty set = 0 then some (errOut2 set c force)
    else
      (c.select cfg set whole).bind fun (m, pol) =>
        let c := { c with st := m.st, pol }
        if m.nrWrites = 0 then some (errOut2 set c force)
        else
          (c.cleanData cfg io set).bind fun (c, error) =>
            (finish cfg set c error).map fun c => errOut2 set c force

end CleanCache

/-! ## The segments are one stretch of memory -/

/-- The place of the `n`-th 512 bytes of the pages. -/
def CleanCfg.unitAt (cfg : CleanCfg) (n : Nat) : MemUnit := (cfg.page (n / 8), 512 * (n % 8))

theorem CleanCfg.unitAt_inj (cfg : CleanCfg) {m n : Nat} (h : cfg.unitAt m = cfg.unitAt n) :
    m = n := by
  obtain ⟨hpage, hoffset⟩ := Prod.mk.inj h
  have := cfg.page_inj hpage
  omega

theorem flatMap_range' (q : Nat) : ∀ n a : Nat,
    (List.range' a n).flatMap (fun i => List.range' (i * q) q) = List.range' (a * q) (n * q) := by
  intro n
  induction n with
  | zero =>
    intro a
    simp
  | succ n ih =>
    intro a
    rw [List.range'_succ, List.flatMap_cons, ih, Nat.succ_mul, Nat.succ_mul, Nat.add_comm (n * q)]
    exact List.range'_append_1

/-- The block sizes the segments are made for. -/
def CleanCfg.Sized (cfg : CleanCfg) : Prop :=
  cfg.blockSize = 4 ∨ cfg.blockSize = 8 ∨ cfg.blockSize = 16

/-- The sectors of a segment and the segments of a block. -/
def CleanCfg.vecSectors (cfg : CleanCfg) : Nat := if cfg.blockSize = 4 then 4 else 8
def CleanCfg.blockVecs (cfg : CleanCfg) : Nat := if cfg.blockSize = 16 then 2 else 1

namespace CleanCfg

variable {cfg : CleanCfg}

theorem Sized.blockSize_eq (h : cfg.Sized) :
    cfg.blockVecs * cfg.vecSectors = cfg.blockSize := by
  rw [blockVecs, vecSectors]
  rcases h with h | h | h <;> simp [h]

theorem bvLen_eq (cfg : CleanCfg) (i : Nat) :
    (wbBvec cfg.page cfg.blockSize i).bvLen = 512 * cfg.vecSectors := by
  rw [wbBvec, vecSectors]
  split
  · next hsize =>
    split <;> simp [hsize]
  · rfl

theorem units_eq (cfg : CleanCfg) (i : Nat) :
    (wbBvec cfg.page cfg.blockSize i).units =
      (List.range' (i * cfg.vecSectors) cfg.vecSectors).map cfg.unitAt := by
  rw [IoVec.units, bvLen_eq, Nat.mul_div_cancel_left _ (by decide), List.range'_eq_map_range,
    List.map_map]
  apply List.map_congr_left
  intro k hk
  rw [List.mem_range] at hk
  show _ = cfg.unitAt (i * cfg.vecSectors + k)
  rw [wbBvec, unitAt]
  rw [vecSectors] at hk ⊢
  split
  · next hsize =>
    -- two segments to a page
    rw [if_pos hsize] at hk
    have hpage : (i * 4 + k) / 8 = i / 2 := by omega
    split
    · next heven => rw [hpage, show 512 * ((i * 4 + k) % 8) = 512 * k by omega, Nat.zero_add]
    · next hodd =>
      rw [hpage, hsize, show 512 * ((i * 4 + k) % 8) = 4096 - 512 * 4 + 512 * k by omega]
  · next hsize =>
    rw [if_neg hsize] at hk
    rw [show (i * 8 + k) / 8 = i by omega, show 512 * ((i * 8 + k) % 8) = 512 * k by omega,
      Nat.zero_add]

/-- There are enough segments for all blocks of a set. -/
theorem Sized.length_cleanDbvecs (h : cfg.Sized) :
    cfg.assoc * cfg.blockVecs ≤ cfg.cleanDbvecs.length := by
  rw [cleanDbvecs, allocWbBvecs, List.length_map, List.length_range, ioBvecCount, blockVecs]
  rcases h with h | h | h <;> simp only [h] <;> simp <;> omega

/-- The segments of some blocks of the set. -/
theorem Sized.bvecs_eq (h : cfg.Sized) {blkindex total : Nat} (hpos : 0 < total)
    (hle : blkindex + total ≤ cfg.assoc) :
    cfg.bvecs blkindex total = some ((List.range' (blkindex * cfg.blockVecs)
      (total * cfg.blockVecs)).map (wbBvec cfg.page cfg.blockSize)) := by
  have hsetup : setupBioVecs blkindex cfg.blockSize total =
      some (blkindex * cfg.blockVecs, total * cfg.blockVecs) := by
    rw [setupBioVecs, blockVecs]
    rcases h with h | h | h <;> simp [h]
  have hvecs : 0 < cfg.blockVecs := by
    rw [blockVecs]
    split <;> decide
  have hlen := h.length_cleanDbvecs
  rw [cleanDbvecs, allocWbBvecs, List.length_map, List.length_range] at hlen
  have hend : (blkindex + total) * cfg.blockVecs ≤ cfg.assoc * cfg.blockVecs :=
    Nat.mul_le_mul_right _ hle
  rw [Nat.add_mul] at hend
  rw [bvecs, hsetup, Option.bind_some]
  simp only
  rw [if_neg (Nat.mul_pos hpos hvecs).ne', cleanDbvecs, allocWbBvecs, ← List.map_drop,
    ← List.map_take]
  congr 2
  apply List.ext_getElem
  · simp only [List.length_take, List.length_drop, List.length_range, List.length_range']
    omega
  · intro k _ _
    simp

theorem Sized.bvecs_units (h : cfg.Sized) (blkindex total : Nat) :
    ((List.range' (blkindex * cfg.blockVecs) (total * cfg.blockVecs)).map
      (wbBvec cfg.page cfg.blockSize)).flatMap IoVec.units =
      (List.range' (blkindex * cfg.blockSize) (total * cfg.blockSize)).map
        cfg.unitAt := by
  rw [List.flatMap_map]
  simp only [units_eq]
  rw [← List.map_flatMap, flatMap_range', Nat.mul_assoc, Nat.mul_assoc, h.blockSize_eq]

theorem Sized.justEnough (h : cfg.Sized) {blkindex total : Nat} (hpos : 0 < total)
    (hle : blkindex + total ≤ cfg.assoc) :
    JustEnough ((List.range' (blkindex * cfg.blockVecs) (total * cfg.blockVecs)).map
      (wbBvec cfg.page cfg.blockSize)) (total * cfg.blockSize) := by
  have hvecs : 0 < cfg.blockVecs ∧ cfg.blockVecs ≤ 2 := by
    rw [blockVecs]
    split <;> decide
  have hsectors : 0 < cfg.vecSectors ∧ cfg.vecSectors < 2 ^ 23 := by
    rw [vecSectors]
    split <;> decide
  have hassoc : cfg.assoc ≤ 2 ^ 13 := Nat.pow_le_pow_right (by decide) cfg.assoc_le
  have hmany : total * cfg.blockVecs ≤ 2 ^ 13 * 2 := Nat.mul_le_mul (by omega) hvecs.2
  have hlength : ((List.range' (blkindex * cfg.blockVecs) (total * cfg.blockVecs)).map
      (wbBvec cfg.page cfg.blockSize)).length = total * cfg.blockVecs := by
    rw [List.length_map, List.length_range']
  have hcount : total * cfg.blockSize = total * cfg.blockVecs * cfg.vecSectors := by
    rw [Nat.mul_assoc, h.blockSize_eq]
  rw [hcount]
  apply JustEnough.of_len hlength (Nat.mul_pos hpos hvecs.1) (by omega) _ hsectors.1 hsectors.2
  intro v hv
  obtain ⟨i, -, rfl⟩ := List.mem_map.mp hv
  exact cfg.bvLen_eq i

end CleanCfg

/-! ## A phase of I/O -/

/-- The place of sector 0 on the device of an I/O. -/
def CleanCfg.shift (cfg : CleanCfg) (hddio : Bool) : Nat := if hddio then cfg.devStartSect else 0

/-- The transfers of an I/O that succeeds. -/
def CleanReq.transfers (cfg : CleanCfg) (r : CleanReq) : List Transfer :=
  transfersAt (r.region.sector + cfg.shift r.hddio)
    ((r.bvecs.flatMap IoVec.units).take r.region.count)

theorem CleanIo.issue_eq (io : CleanIo) (cfg : CleanCfg) : ∀ {reqs : List CleanReq},
    (∀ r ∈ reqs, JustEnough r.bvecs r.region.count) →
    ∃ transfers, io.issue cfg reqs = some transfers ∧
      transfers ⊆ reqs.flatMap (CleanReq.transfers cfg) ∧
      ((∀ r ∈ reqs, r.error = 0) → transfers = reqs.flatMap (CleanReq.transfers cfg)) := by
  intro reqs
  induction reqs with
  | nil =>
    intro _
    exact ⟨[], rfl, List.Subset.refl _, fun _ => rfl⟩
  | cons r reqs ih =>
    intro henough
    obtain ⟨rest, hrest, hsub, hall⟩ := ih fun r' hr' => henough r' (List.mem_cons_of_mem _ hr')
    obtain ⟨bios, hbios, htransfers, -⟩ := dispatchIo_tiles io.fresh
      (henough r List.mem_cons_self) cfg.devStartSect r.hddio (Nat.le_refl _)
    refine ⟨_, by rw [CleanIo.issue, hbios, Option.bind_some, hrest]; rfl, ?_, fun herror => ?_⟩
    · rw [htransfers, List.flatMap_cons]
      refine List.append_subset.mpr ⟨List.subset_append_of_subset_left _ ?_,
        List.subset_append_of_subset_right _ hsub⟩
      split
      · exact List.Subset.refl _
      · exact List.filter_subset_self _
    rw [if_pos (herror r List.mem_cons_self), htransfers,
      hall fun r' hr' => herror r' (List.mem_cons_of_mem _ hr')]
    rfl

/-- Once an error is stored, there is one. -/
theorem foldl_error_iff : ∀ (reqs : List CleanReq) (e : Int),
    reqs.foldl (fun error r => if r.error ≠ 0 then r.error else error) e = 0 ↔
      e = 0 ∧ ∀ r ∈ reqs, r.error = 0 := by
  intro reqs
  induction reqs with
  | nil =>
    intro e
    simp
  | cons r reqs ih =>
    intro e
    rw [List.foldl_cons, ih, List.forall_mem_cons]
    by_cases hr : r.error = 0
    · simp [hr]
    · simp [hr]

theorem sioError_eq_zero_iff {reqs : List CleanReq} :
    sioError reqs = 0 ↔ ∀ r ∈ reqs, r.error = 0 := by
  rw [sioError, foldl_error_iff]
  exact and_iff_right rfl

theorem mapM_eq_some {α β : Type*} {f : α → Option β} {g : α → β} : ∀ {l : List α},
    (∀ x ∈ l, f x = some (g x)) → l.mapM f = some (l.map g) := by
  intro l
  induction l with
  | nil =>
    intro _
    rfl
  | cons x l ih =>
    intro h
    rw [List.mapM_cons, h x List.mem_cons_self, ih fun y hy => h y (List.mem_cons_of_mem _ hy)]
    rfl

/-- A run ends at the end of the set or at a block that is not marked. -/
theorem runEnd_spec (st : Nat → State) : ∀ left j : Nat, j ≤ runEnd st left j ∧
    runEnd st left j ≤ j + left ∧
    (runEnd st left j = j + left ∨ st (runEnd st left j) ≠ cleanInprog) := by
  intro left
  induction left with
  | zero =>
    intro j
    exact ⟨Nat.le_refl j, Nat.le_refl j, .inl rfl⟩
  | succ left ih =>
    intro j
    rw [runEnd]
    split
    · obtain ⟨hlo, hhi, hend⟩ := ih (j + 1)
      refine ⟨by omega, by omega, hend.imp_left fun heq => by omega⟩
    · next hst => exact ⟨Nat.le_refl j, Nat.le_add_right _ _, .inr hst⟩

theorem runEnd_lt {st : Nat → State} {left i : Nat} (hleft : 0 < left)
    (hst : st i = cleanInprog) :
    i < runEnd st left i := by
  obtain ⟨n, rfl⟩ := Nat.exists_eq_succ_of_ne_zero hleft.ne'
  rw [runEnd, if_pos hst]
  exact (runEnd_spec st n (i + 1)).1

theorem runs_within (st : Nat → State) (endIndex : Nat) : ∀ (rounds i : Nat),
    ∀ run ∈ runs st endIndex rounds i, i ≤ run.1 ∧ 0 < run.2 ∧ run.1 + run.2 ≤ endIndex := by
  intro rounds
  induction rounds with
  | zero =>
    intro i run hrun
    exact absurd hrun List.not_mem_nil
  | succ rounds ih =>
    intro i run hrun
    rw [runs] at hrun
    split at hrun
    · next hlt =>
      split at hrun
      · next hst =>
        have hpos := runEnd_lt (Nat.sub_pos_of_lt hlt) hst
        have hle := (runEnd_spec st (endIndex - i) i).2.1
        rcases List.mem_cons.mp hrun with rfl | hlater
        · refine ⟨Nat.le_refl i, ?_, ?_⟩ <;> simp only <;> omega
        · obtain ⟨hlo, hrest⟩ := ih _ run hlater
          exact ⟨by omega, hrest⟩
      · obtain ⟨hlo, hrest⟩ := ih _ run hrun
        exact ⟨by omega, hrest⟩
    · exact absurd hrun List.not_mem_nil

theorem runs_cover (st : Nat → State) (endIndex : Nat) : ∀ (rounds i : Nat),
    endIndex ≤ i + rounds → ∀ x, i ≤ x → x < endIndex → st x = cleanInprog →
    ∃ run ∈ runs st endIndex rounds i, run.1 ≤ x ∧ x < run.1 + run.2 := by
  intro rounds
  induction rounds with
  | zero =>
    intro i hrounds x hlo hhi
    omega
  | succ rounds ih =>
    intro i hrounds x hlo hhi hx
    rw [runs, if_pos (by omega)]
    split
    · next hst =>
      have hpos := runEnd_lt (Nat.sub_pos_of_lt (Nat.lt_of_le_of_lt hlo hhi)) hst
      obtain ⟨-, hle, hend⟩ := runEnd_spec st (endIndex - i) i
      by_cases hin : x < runEnd st (endIndex - i) i
      · refine ⟨_, List.mem_cons_self, hlo, ?_⟩
        simp only
        omega
      · -- the block that ended the run is not marked
        have hne : x ≠ runEnd st (endIndex - i) i := by
          rintro heq
          rcases hend with hend | hend
          · omega
          · exact hend (heq ▸ hx)
        obtain ⟨run, hrun, hmem⟩ := ih (runEnd st (endIndex - i) i + 1) (by omega) x
          (by omega) hhi hx
        exact ⟨run, List.mem_cons_of_mem _ hrun, hmem⟩
    · next hst =>
      have hne : x ≠ i := by
        rintro rfl
        exact hst hx
      exact ih (i + 1) (by omega) x (by omega) hhi hx

namespace CleanCache

variable {α : Type*} {cfg : CleanCfg} {io : CleanIo} {set : Nat} {c : CleanCache α}

/-- The I/O of `total` blocks of the set from block `blkindex` on. -/
def blockReq (cfg : CleanCfg) (blkindex total sector : Nat) (hddio : Bool) (error : Int) :
    CleanReq where
  region := ⟨sector, total * cfg.blockSize⟩
  hddio := hddio
  bvecs := (List.range' (blkindex * cfg.blockVecs) (total * cfg.blockVecs)).map
    (wbBvec cfg.page cfg.blockSize)
  error := error

/-- It transfers the sectors in order, to or from the memory of the blocks. -/
theorem mem_blockReq (h : cfg.Sized) {blkindex total sector : Nat} {hddio : Bool} {error : Int}
    {t : Transfer} :
    t ∈ (blockReq cfg blkindex total sector hddio error).transfers cfg ↔
      ∃ k < total * cfg.blockSize,
        t = ((sector + cfg.shift hddio + k) % 2 ^ 64,
          cfg.unitAt (blkindex * cfg.blockSize + k)) := by
  have htake : (((List.range' (blkindex * cfg.blockVecs) (total * cfg.blockVecs)).map
      (wbBvec cfg.page cfg.blockSize)).flatMap IoVec.units).take
        (total * cfg.blockSize) =
      (List.range' (blkindex * cfg.blockSize) (total * cfg.blockSize)).map
        cfg.unitAt := by
    rw [h.bvecs_units, List.take_of_length_le]
    simp
  simp only [CleanReq.transfers, blockReq]
  rw [htake, transfersAt, List.mem_mapIdx]
  constructor
  · rintro ⟨k, hk, rfl⟩
    simp only [List.length_map, List.length_range'] at hk
    refine ⟨k, hk, ?_⟩
    simp
  · rintro ⟨k, hk, rfl⟩
    refine ⟨k, by simpa using hk, ?_⟩
    simp

theorem blockReq_justEnough (h : cfg.Sized) {blkindex total : Nat} (hpos : 0 < total)
    (hle : blkindex + total ≤ cfg.assoc) (sector : Nat) (hddio : Bool) (error : Int) :
    JustEnough (blockReq cfg blkindex total sector hddio error).bvecs
      (blockReq cfg blkindex total sector hddio error).region.count :=
  h.justEnough hpos hle

/-- A run of marked blocks lies in the set. -/
theorem setRuns_within {run : Nat × Nat} (hrun : run ∈ setRuns cfg set c.st) :
    set * cfg.assoc ≤ run.1 ∧ 0 < run.2 ∧
      run.1 + run.2 ≤ set * cfg.assoc + cfg.assoc :=
  runs_within _ _ _ _ run hrun

theorem slot_eq {i j : Nat} (blockSize : Nat) (h : i ≤ j) :
    j * blockSize = (j - i) * blockSize + i * blockSize := by
  rw [← Nat.add_mul, Nat.sub_add_cancel h]

/-- Step 4. If no read fails, the memory of a marked block has what the SSD has in its slot. -/
theorem readPhase_spec (h : cfg.Sized) (io : CleanIo) (set : Nat) (c : CleanCache α) :
    ∃ mem error, c.readPhase cfg io set = some ({ c with mem := mem }, error) ∧
      (error = 0 ↔ ∀ run ∈ setRuns cfg set c.st, io.readError run.1 = 0) ∧
      (error = 0 → ∀ i, InSet (set * cfg.assoc) cfg.assoc i →
        c.st i = cleanInprog → ∀ k < cfg.blockSize,
        mem (cfg.unitAt ((i - set * cfg.assoc) * cfg.blockSize + k)) =
          c.ssd ((i * cfg.blockSize + cfg.mdSectors + k) % 2 ^ 64)) := by
  let req : Nat × Nat → CleanReq := fun run =>
    blockReq cfg (run.1 - set * cfg.assoc) run.2 (run.1 * cfg.blockSize + cfg.mdSectors)
      false (io.readError run.1)
  have hreqs : (setRuns cfg set c.st).mapM (readReq cfg io set) =
      some ((setRuns cfg set c.st).map req) := by
    apply mapM_eq_some
    intro run hrun
    obtain ⟨hlo, hpos, hhi⟩ := setRuns_within hrun
    rw [readReq, h.bvecs_eq hpos (by omega)]
    rfl
  have henough : ∀ r ∈ (setRuns cfg set c.st).map req, JustEnough r.bvecs r.region.count := by
    intro r hr
    obtain ⟨run, hrun, rfl⟩ := List.mem_map.mp hr
    obtain ⟨hlo, hpos, hhi⟩ := setRuns_within hrun
    exact blockReq_justEnough h hpos (by omega) _ _ _
  obtain ⟨transfers, hissue, -, hall⟩ := io.issue_eq cfg henough
  have herror : sioError ((setRuns cfg set c.st).map req) = 0 ↔
      ∀ run ∈ setRuns cfg set c.st, io.readError run.1 = 0 := by
    rw [sioError_eq_zero_iff, List.forall_mem_map]
    rfl
  refine ⟨_, _, by rw [readPhase, hreqs, Option.bind_some, hissue]; rfl, herror, ?_⟩
  intro hzero i hi hst k hk
  have htransfers := hall (sioError_eq_zero_iff.mp hzero)
  -- a transfer to this piece of memory comes from the same place of the slot
  have hmem : ∀ t, t ∈ io.serve transfers ↔
      ∃ run ∈ setRuns cfg set c.st, t ∈ (req run).transfers cfg := by
    intro t
    rw [(io.serve_perm transfers).mem_iff, htransfers, List.flatMap_map, List.mem_flatMap]
  apply Writes.store_of_agree
  · intro w hw heq
    obtain ⟨t, ht, rfl⟩ := List.mem_map.mp hw
    obtain ⟨run, hrun, htr⟩ := (hmem t).mp ht
    obtain ⟨hlo, hpos, hhi⟩ := setRuns_within hrun
    obtain ⟨k', hk', rfl⟩ := (mem_blockReq h).mp htr
    have hplace := cfg.unitAt_inj heq
    have hfirst := slot_eq cfg.blockSize hlo
    have hslot := slot_eq cfg.blockSize hi.1
    simp only [CleanCfg.shift, Bool.false_eq_true, if_false, Nat.add_zero]
    congr 2
    omega
  · obtain ⟨run, hrun, hlo, hhi⟩ := runs_cover _ _ _ _ (Nat.le_refl _) i hi.1 hi.2 hst
    obtain ⟨hstart, -, -⟩ := setRuns_within hrun
    have hbound : (i - run.1 + 1) * cfg.blockSize ≤ run.2 * cfg.blockSize :=
      Nat.mul_le_mul_right _ (by omega)
    have hfirst := slot_eq cfg.blockSize hstart
    have hslot := slot_eq cfg.blockSize hi.1
    have hoff := slot_eq cfg.blockSize hlo
    rw [Nat.succ_mul] at hbound
    refine .inl ⟨_, List.mem_map_of_mem ((hmem _).mpr ⟨run, hrun,
      (mem_blockReq h).mpr ⟨(i - run.1) * cfg.blockSize + k, by omega, rfl⟩⟩), ?_⟩
    show cfg.unitAt _ = cfg.unitAt _
    congr 1
    omega

/-- The blocks hold different blocks of the source device. -/
structure DbnsOk (cfg : CleanCfg) (dbn : Nat → Nat) (P : Nat → Prop) : Prop where
  dvd : ∀ i, P i → cfg.blockSize ∣ dbn i
  lt : ∀ i, P i → dbn i < 2 ^ 64
  inj : ∀ i j, P i → P j → dbn i = dbn j → i = j

/-- A sector of the device belongs to one of them only. -/
theorem DbnsOk.sector_inj (h : cfg.Sized) {dbn : Nat → Nat} {P : Nat → Prop}
    (hdbn : DbnsOk cfg dbn P) {i j : Nat} (hi : P i) (hj : P j) {k k' shift : Nat}
    (hk : k < cfg.blockSize) (hk' : k' < cfg.blockSize)
    (heq : (dbn i + shift + k) % 2 ^ 64 = (dbn j + shift + k') % 2 ^ 64) : i = j ∧ k = k' := by
  obtain ⟨m, hm⟩ := hdbn.dvd i hi
  obtain ⟨n, hn⟩ := hdbn.dvd j hj
  have hilt := hdbn.lt i hi
  have hjlt := hdbn.lt j hj
  have hsame : dbn i + k = dbn j + k' := by
    rcases h with hb | hb | hb <;> rw [hb] at hm hn hk hk' <;> omega
  have hblock : dbn i = dbn j := by
    rcases h with hb | hb | hb <;> rw [hb] at hm hn hk hk' <;> omega
  exact ⟨hdbn.inj i j hi hj hblock, by omega⟩

theorem mem_markedBlocks {i : Nat} : i ∈ c.markedBlocks cfg set ↔
    InSet (set * cfg.assoc) cfg.assoc i ∧ c.st i = cleanInprog := by
  rw [markedBlocks, List.mem_filter, List.mem_range'_1, decide_eq_true_iff]
  rfl

/-- A sector of the HDD where none of the blocks is. -/
def Elsewhere (cfg : CleanCfg) (c : CleanCache α) (P : Nat → Prop) (x : Nat) : Prop :=
  ∀ i, P i → ∀ k < cfg.blockSize, (c.dbn i + cfg.devStartSect + k) % 2 ^ 64 ≠ x

/-- Step 5. If no write fails, the HDD has the memory of each marked block at its place. Nothing
else of it has changed. -/
theorem writePhase_spec (h : cfg.Sized) (io : CleanIo) (set : Nat) (c : CleanCache α)
    (hdbn : DbnsOk cfg c.dbn fun i => i ∈ c.markedBlocks cfg set) :
    ∃ hdd error, c.writePhase cfg io set = some ({ c with hdd := hdd }, error) ∧
      (error = 0 ↔ ∀ i ∈ c.markedBlocks cfg set, io.writeError i = 0) ∧
      (∀ x, c.Elsewhere cfg (· ∈ c.markedBlocks cfg set) x → hdd x = c.hdd x) ∧
      (error = 0 → ∀ i ∈ c.markedBlocks cfg set, ∀ k < cfg.blockSize,
          hdd ((c.dbn i + cfg.devStartSect + k) % 2 ^ 64) =
            c.mem (cfg.unitAt ((i - set * cfg.assoc) * cfg.blockSize + k))) := by
  let req : Nat → CleanReq := fun i =>
    blockReq cfg (i - set * cfg.assoc) 1 (c.dbn i) true (io.writeError i)
  have hset : ∀ i ∈ c.markedBlocks cfg set, i - set * cfg.assoc + 1 ≤ cfg.assoc := by
    intro i hi
    obtain ⟨⟨hlo, hhi⟩, -⟩ := mem_markedBlocks.mp hi
    omega
  have hreqs : (c.markedBlocks cfg set).mapM (c.writeReq cfg io set) =
      some ((c.markedBlocks cfg set).map req) := by
    apply mapM_eq_some
    intro i hi
    rw [writeReq, h.bvecs_eq Nat.one_pos (hset i hi)]
    simp only [req, blockReq, Option.map_some, Nat.one_mul]
  have henough : ∀ r ∈ (c.markedBlocks cfg set).map req, JustEnough r.bvecs r.region.count := by
    intro r hr
    obtain ⟨i, hi, rfl⟩ := List.mem_map.mp hr
    exact blockReq_justEnough h Nat.one_pos (hset i hi) _ _ _
  obtain ⟨transfers, hissue, hsub, hall⟩ := io.issue_eq cfg henough
  have herror : sioError ((c.markedBlocks cfg set).map req) = 0 ↔
      ∀ i ∈ c.markedBlocks cfg set, io.writeError i = 0 := by
    rw [sioError_eq_zero_iff, List.forall_mem_map]
    rfl
  have hmem : ∀ t, t ∈ ((c.markedBlocks cfg set).map req).flatMap (CleanReq.transfers cfg) ↔
      ∃ i ∈ c.markedBlocks cfg set, ∃ k < cfg.blockSize,
        t = ((c.dbn i + cfg.devStartSect + k) % 2 ^ 64,
          cfg.unitAt ((i - set * cfg.assoc) * cfg.blockSize + k)) := by
    intro t
    rw [List.flatMap_map, List.mem_flatMap]
    simp only [req, mem_blockReq h, Nat.one_mul]
    rfl
  refine ⟨_, _, by rw [writePhase, hreqs, Option.bind_some, hissue]; rfl, herror, ?_, ?_⟩
  · intro x hx
    apply Writes.store_other
    intro w hw
    obtain ⟨t, ht, rfl⟩ := List.mem_map.mp hw
    obtain ⟨i, hi, k, hk, rfl⟩ := (hmem t).mp (hsub ((io.serve_perm transfers).mem_iff.mp ht))
    exact hx i hi k hk
  · intro hzero i hi k hk
    have hserved : ∀ t, t ∈ io.serve transfers ↔ _ := fun t =>
      ((io.serve_perm transfers).mem_iff.trans
        (by rw [hall (sioError_eq_zero_iff.mp hzero)])).trans (hmem t)
    apply Writes.store_of_agree
    · intro w hw heq
      obtain ⟨t, ht, rfl⟩ := List.mem_map.mp hw
      obtain ⟨j, hj, k', hk', rfl⟩ := (hserved t).mp ht
      obtain ⟨rfl, rfl⟩ := hdbn.sector_inj h hj hi hk' hk heq
      rfl
    · exact .inl ⟨_, List.mem_map_of_mem ((hserved _).mpr ⟨i, hi, k, hk, rfl⟩), rfl⟩

/-- The metadata of a set fit one or two pages, and fill a sector. -/
def MdFits (cfg : CleanCfg) : Prop := 32 ≤ cfg.assoc ∧ cfg.assoc ≤ 512

theorem MdFits.cases (h : MdFits cfg) : cfg.assoc = 32 ∨ cfg.assoc = 64 ∨
    cfg.assoc = 128 ∨ cfg.assoc = 256 ∨ cfg.assoc = 512 := by
  have hpow : cfg.assoc = 2 ^ cfg.consecutiveShift := rfl
  have hlo : 5 ≤ cfg.consecutiveShift :=
    (Nat.pow_le_pow_iff_right (by decide : 1 < 2)).mp (hpow ▸ h.1)
  have hhi : cfg.consecutiveShift ≤ 9 :=
    (Nat.pow_le_pow_iff_right (by decide : 1 < 2)).mp (hpow ▸ h.2)
  have hshift : cfg.consecutiveShift = 5 ∨ cfg.consecutiveShift = 6 ∨
      cfg.consecutiveShift = 7 ∨ cfg.consecutiveShift = 8 ∨
      cfg.consecutiveShift = 9 := by omega
  rw [hpow]
  rcases hshift with h | h | h | h | h <;> simp [h]

theorem MdFits.justEnough (h : MdFits cfg) :
    JustEnough (cfg.cleanMdpages.map pageVec) (toSector (cfg.assoc * 16)) := by
  have hlen : ∀ v ∈ cfg.cleanMdpages.map pageVec, v.bvLen = 4096 := by
    intro v hv
    obtain ⟨p, -, rfl⟩ := List.mem_map.mp hv
    rfl
  have hcount : (cfg.cleanMdpages.map pageVec).length = mdPageCount cfg.assoc := by
    rw [List.length_map, CleanCfg.cleanMdpages, List.length_map, List.length_range]
  have hshort : totalLen (cfg.cleanMdpages.map pageVec).dropLast =
      (mdPageCount cfg.assoc - 1) * 4096 := by
    rw [totalLen_of_len fun v hv => hlen v ((List.dropLast_sublist _).subset hv),
      List.length_dropLast, hcount]
  have hall : totalLen (cfg.cleanMdpages.map pageVec) = mdPageCount cfg.assoc * 4096 := by
    rw [totalLen_of_len hlen, hcount]
  refine ⟨?_, ?_, ?_, ?_, ?_⟩
  · intro v hv
    rw [hlen v hv]
    decide
  · intro v hv
    rw [hlen v hv]
    decide
  · rw [hcount]
    rcases h.cases with h | h | h | h | h <;> rw [h] <;> decide
  · rw [hshort]
    rcases h.cases with h | h | h | h | h <;> rw [h] <;> decide
  · rw [hall]
    rcases h.cases with h | h | h | h | h <;> rw [h] <;> decide

/-- Step 6, for the sets whose metadata fit. -/
theorem mdPhase_eq (h : MdFits cfg) (io : CleanIo) (set : Nat) (c : CleanCache α) :
    ∃ mdPages md, c.mdPhase cfg io set =
      some ({ c with mdPages := mdPages, md := md }, io.mdError) := by
  have hpages : mdPageCount cfg.assoc ≤ 2 := by
    rcases h.cases with h | h | h | h | h <;> rw [h] <;> decide
  have henough : JustEnough (cfg.cleanMdpages.map pageVec)
      (IoRegion.mk (cfg.mdStartSect + set * cfg.assoc / 32)
        (toSector (cfg.assoc * 16))).count := h.justEnough
  obtain ⟨bios, hbios, -⟩ := dispatchIo_tiles io.fresh henough cfg.devStartSect false
    (Nat.le_of_eq (List.length_map pageVec))
  simp only [mdPhase, cleanWrite, if_neg (not_not.mpr hpages), Option.bind_some, dispatchIoPages,
    hbios, Option.map_some]
  exact ⟨_, _, rfl⟩

/-- With fewer blocks the metadata are no whole sector, and the write of none leaves a page;
with more they do not fit two pages. -/
theorem mdPhase_none (h : ¬ MdFits cfg) (io : CleanIo) (set : Nat) (c : CleanCache α) :
    c.mdPhase cfg io set = none := by
  have hpos := cfg.assoc_pos
  by_cases hpages : mdPageCount cfg.assoc ≤ 2
  · have hassoc : cfg.assoc < 32 := by
      have hle : cfg.assoc ≤ 512 := by
        rw [mdPageCount] at hpages
        omega
      apply Nat.lt_of_not_le
      intro hlo
      exact h ⟨hlo, hle⟩
    have hone : mdPageCount cfg.assoc = 1 := by
      rw [mdPageCount]
      omega
    have hzero : toSector (cfg.assoc * 16) = 0 := by
      rw [toSector]
      omega
    have hlist : cfg.cleanMdpages = [cfg.mdPage 0] := by
      rw [CleanCfg.cleanMdpages, hone]
      rfl
    simp only [mdPhase, cleanWrite, if_neg (not_not.mpr hpages), Option.bind_some, hzero, hlist,
      dispatchIoPages, List.map_cons, dispatchIo_of_empty, Option.map_none]
  · simp only [mdPhase, cleanWrite, if_pos hpages, Option.bind_none]

/-- The I/Os of a clean that reads some runs and writes some blocks do not fail. -/
structure Succeeds (io : CleanIo) (reads : List (Nat × Nat)) (P : Nat → Prop) : Prop where
  read : ∀ run ∈ reads, io.readError run.1 = 0
  write : ∀ i, P i → io.writeError i = 0
  md : io.mdError = 0

/-- The HDD has at the place of each of the blocks what the SSD has in its slot. -/
def Copied (cfg : CleanCfg) (c : CleanCache α) (hdd : Nat → α) (P : Nat → Prop) : Prop :=
  ∀ i, P i → ∀ k < cfg.blockSize,
    hdd ((c.dbn i + cfg.devStartSect + k) % 2 ^ 64) =
      c.ssd ((i * cfg.blockSize + cfg.mdSectors + k) % 2 ^ 64)

/-- Steps 4 to 6. -/
theorem cleanData_spec (h : cfg.Sized) (hmd : MdFits cfg) (io : CleanIo) (set : Nat)
    (c : CleanCache α) (hdbn : DbnsOk cfg c.dbn fun i => i ∈ c.markedBlocks cfg set) :
    ∃ mem hdd mdPages md error, c.cleanData cfg io set =
        some ({ c with mem := mem, hdd := hdd, mdPages := mdPages, md := md }, error) ∧
      (error = 0 ↔ Succeeds io (setRuns cfg set c.st) fun i => i ∈ c.markedBlocks cfg set) ∧
      (∀ x, c.Elsewhere cfg (fun i => i ∈ c.markedBlocks cfg set) x → hdd x = c.hdd x) ∧
      (error = 0 → Copied cfg c hdd fun i => i ∈ c.markedBlocks cfg set) := by
  obtain ⟨mem, rerror, hread, hreads, hmem⟩ := readPhase_spec h io set c
  by_cases hr : rerror = 0
  · obtain ⟨hdd, werror, hwrite, hwrites, hother, hhdd⟩ :=
      writePhase_spec h io set { c with mem := mem } hdbn
    by_cases hw : werror = 0
    · obtain ⟨mdPages, md, hlast⟩ := mdPhase_eq hmd io set { c with mem := mem, hdd := hdd }
      refine ⟨mem, hdd, mdPages, md, io.mdError, ?_, ?_, hother, ?_⟩
      · rw [cleanData, hread, Option.bind_some]
        simp only [hr, ne_eq, not_true_eq_false, if_false]
        rw [hwrite, Option.bind_some]
        simp only [hw, not_true_eq_false, if_false]
        exact hlast
      · exact ⟨fun hzero => ⟨hreads.mp hr, hwrites.mp hw, hzero⟩, fun hok => hok.md⟩
      · intro _ i hi k hk
        obtain ⟨hin, hst⟩ := mem_markedBlocks.mp hi
        exact (hhdd hw i hi k hk).trans (hmem hr i hin hst k hk)
    · refine ⟨mem, hdd, c.mdPages, c.md, werror, ?_, ?_, hother, fun hzero => absurd hzero hw⟩
      · rw [cleanData, hread, Option.bind_some]
        simp only [hr, ne_eq, not_true_eq_false, if_false]
        rw [hwrite, Option.bind_some]
        simp only [hw, not_false_eq_true, if_true]
      · exact iff_of_false hw fun hok => hw (hwrites.mpr hok.write)
  · refine ⟨mem, c.hdd, c.mdPages, c.md, rerror, ?_, ?_, fun _ _ => rfl,
      fun hzero => absurd hzero hr⟩
    · rw [cleanData, hread, Option.bind_some]
      simp only [ne_eq, hr, not_false_eq_true, if_true]
    · exact iff_of_false hr fun hok => hr (hreads.mpr hok.read)

/-- With metadata that do not fit, I/O without an error ends in an assertion. -/
theorem cleanData_none (h : cfg.Sized) (hmd : ¬ MdFits cfg) (io : CleanIo) (set : Nat)
    (c : CleanCache α) (hdbn : DbnsOk cfg c.dbn fun i => i ∈ c.markedBlocks cfg set)
    (hok : Succeeds io (setRuns cfg set c.st) fun i => i ∈ c.markedBlocks cfg set) :
    c.cleanData cfg io set = none := by
  obtain ⟨mem, rerror, hread, hreads, -⟩ := readPhase_spec h io set c
  obtain ⟨hdd, werror, hwrite, hwrites, -, -⟩ :=
    writePhase_spec h io set { c with mem := mem } hdbn
  rw [cleanData, hread, Option.bind_some]
  simp only [hreads.mpr hok.read, ne_eq, not_true_eq_false, if_false]
  rw [hwrite, Option.bind_some]
  simp only [hwrites.mpr hok.write, not_true_eq_false, if_false]
  exact mdPhase_none hmd io set _

/-! ## Steps 3 and 7 -/

/-- The states when the blocks of a list in state `a` have gone to state `b`. -/
def retag (st : Nat → State) (blocks : List Nat) (a b : State) (i : Nat) : State :=
  if i ∈ blocks ∧ st i = a then b else st i

/-- The number of blocks of a list in state `a`. -/
def tagged (st : Nat → State) (blocks : List Nat) (a : State) : Nat :=
  blocks.countP fun i => st i = a

section
variable {st : Nat → State} {i : Nat} {a b : State}

theorem retag_nil : retag st [] a b = st := by
  ext1 i
  exact if_neg fun hmem => List.not_mem_nil hmem.1

theorem retag_cons (blocks : List Nat) (hst : st i = a) (hb : b ≠ a) :
    retag (Function.update st i b) blocks a b = retag st (i :: blocks) a b := by
  ext1 j
  by_cases hj : j = i
  · subst hj
    rw [retag, retag, Function.update_self, if_neg fun h => hb h.2,
      if_pos ⟨List.mem_cons_self, hst⟩]
  · have hmem : j ∈ i :: blocks ↔ j ∈ blocks := by simp [hj]
    simp only [retag, Function.update_of_ne hj, hmem]

theorem retag_cons_other (blocks : List Nat) (hst : st i ≠ a) :
    retag st (i :: blocks) a b = retag st blocks a b := by
  ext1 j
  by_cases hj : j = i
  · subst hj
    rw [retag, retag, if_neg fun h => hst h.2, if_neg fun h => hst h.2]
  · have hmem : j ∈ i :: blocks ↔ j ∈ blocks := by simp [hj]
    simp only [retag, hmem]

theorem tagged_cons (blocks : List Nat) (hst : st i = a) :
    tagged st (i :: blocks) a = tagged st blocks a + 1 := by
  simp [tagged, hst]

theorem tagged_cons_other (blocks : List Nat) (hst : st i ≠ a) :
    tagged st (i :: blocks) a = tagged st blocks a := by
  simp [tagged, hst]

theorem tagged_update (st : Nat → State) (a b : State) {blocks : List Nat} (hi : i ∉ blocks) :
    tagged (Function.update st i b) blocks a = tagged st blocks a := by
  apply List.countP_congr
  intro j hj
  have hne : j ≠ i := by
    rintro rfl
    exact hi hj
  rw [Function.update_of_ne hne]

end

/-- A whole clean marks all blocks that are `VALID | DIRTY`. -/
theorem foldl_markWhole : ∀ {blocks : List Nat} (m : Marking), blocks.Nodup →
    blocks.foldl markWhole m =
      ⟨retag m.st blocks alreadyDirty cleanInprog,
        m.nrWrites + tagged m.st blocks alreadyDirty⟩ := by
  intro blocks
  induction blocks with
  | nil =>
    intro m _
    rw [retag_nil]
    rfl
  | cons i blocks ih =>
    intro m hnodup
    obtain ⟨hi, hrest⟩ := List.nodup_cons.mp hnodup
    rw [List.foldl_cons, markWhole]
    by_cases hst : m.st i = alreadyDirty
    · rw [if_pos hst, ih _ hrest, retag_cons blocks hst (by decide), tagged_update _ _ _ hi,
        tagged_cons blocks hst, Nat.add_right_comm, Nat.add_assoc]
    · rw [if_neg hst, ih _ hrest, retag_cons_other blocks hst, tagged_cons_other blocks hst]

/-- After an error the marked blocks are dirty again. -/
theorem foldlM_finishOne_error {error : Int} (herror : error ≠ 0) (set : Nat) :
    ∀ (blocks : List Nat) (c : CleanCache α), blocks.foldlM (finishOne set error) c =
      some { c with st := retag c.st blocks cleanInprog alreadyDirty } := by
  intro blocks
  induction blocks with
  | nil =>
    intro c
    rw [retag_nil]
    rfl
  | cons i blocks ih =>
    intro c
    rw [List.foldlM_cons, finishOne]
    by_cases hst : c.st i = cleanInprog
    · rw [if_pos hst, if_pos herror, ← retag_cons blocks hst (by decide)]
      exact ih _
    · rw [if_neg hst, retag_cons_other blocks hst]
      exact ih c

/-- Without one they become valid, and both counters drop for each. -/
theorem foldlM_finishOne_ok (set : Nat) : ∀ {blocks : List Nat} (c : CleanCache α),
    blocks.Nodup → tagged c.st blocks cleanInprog ≤ c.setDirty set →
    blocks.foldlM (finishOne set 0) c =
      some { c with
        st := retag c.st blocks cleanInprog valid
        setDirty := Function.update c.setDirty set
          (c.setDirty set - tagged c.st blocks cleanInprog)
        nrDirty := c.nrDirty - tagged c.st blocks cleanInprog } := by
  intro blocks
  induction blocks with
  | nil =>
    intro c _ _
    simp only [retag_nil, tagged, List.countP_nil, Nat.sub_zero, Function.update_eq_self,
      Nat.cast_zero, Int.sub_zero]
    rfl
  | cons i blocks ih =>
    intro c hnodup hle
    obtain ⟨hi, hrest⟩ := List.nodup_cons.mp hnodup
    rw [List.foldlM_cons, finishOne]
    by_cases hst : c.st i = cleanInprog
    · have hsame := tagged_update c.st cleanInprog valid hi
      have htagged := tagged_cons blocks hst
      rw [htagged] at hle
      rw [if_pos hst, if_neg (fun h => h rfl), if_neg (not_not.mpr (by omega))]
      show blocks.foldlM (finishOne set 0) _ = _
      rw [ih _ hrest (by simp only [hsame, Function.update_self]; omega)]
      simp only [hsame, htagged, Function.update_self, Function.update_idem,
        retag_cons blocks hst (by decide : valid ≠ cleanInprog)]
      congr 2
      · congr 1
        omega
      · omega
    · have htagged := tagged_cons_other blocks hst
      rw [htagged] at hle
      rw [if_neg hst, retag_cons_other blocks hst, htagged]
      exact ih c hrest hle

/-! ## The whole clean -/

/-- A set that `eio_clean_set` may be called for: the states are those a block can have, none
is being cleaned, the dirty ones are counted and hold different blocks of the source, and the
policy is in order. -/
structure Ready (cfg : CleanCfg) (set : Nat) (c : CleanCache α) : Prop where
  allowed : ∀ i, InSet (set * cfg.assoc) cfg.assoc i → c.st i ∈ State.allowed
  idle : ∀ i, InSet (set * cfg.assoc) cfg.assoc i → c.st i ≠ cleanInprog
  setDirty : c.setDirty set = dirtyBlocks cfg.assoc set c.st
  dbn : DbnsOk cfg c.dbn fun i =>
    InSet (set * cfg.assoc) cfg.assoc i ∧ c.st i = alreadyDirty
  pol : ∀ p ∈ c.pol, p.Ok Fifo.cleanNext cfg.assoc set
  unlocked : c.wlocked set = false

/-- The blocks step 3 selects. -/
structure Chosen (cfg : CleanCfg) (set : Nat) (c : CleanCache α) (whole : Bool)
    (blocks : Finset Nat) : Prop where
  mem : ∀ i ∈ blocks, InSet (set * cfg.assoc) cfg.assoc i ∧ c.st i = alreadyDirty
  all : whole = true → ∀ i, i ∈ blocks ↔
    InSet (set * cfg.assoc) cfg.assoc i ∧ c.st i = alreadyDirty
  part : whole = false → blocks.card =
    c.setDirty set - cfg.dirtySetLowThreshold * cfg.assoc / 100

theorem select_spec (hc : Ready cfg set c) (whole : Bool) :
    ∃ m pol blocks, c.select cfg set whole = some (m, pol) ∧ m.st = withMarks c.st blocks ∧
      m.nrWrites = blocks.card ∧ Chosen cfg set c whole blocks := by
  cases whole with
  | false =>
    have hassoc : cfg.assoc ≤ 2 ^ 13 := Nat.pow_le_pow_right (by decide) cfg.assoc_le
    obtain ⟨m, pol, hsel, hwrites, ⟨blocks, hcard, hblocks⟩, -, -⟩ :=
      getSetblksToClean_selects hassoc cfg.low_le hc.allowed hc.setDirty hc.pol
    refine ⟨m, pol, blocks, ?_, hblocks.st_eq, hwrites.trans hcard.symm, ?_, nofun, ?_⟩
    · rw [select, if_neg Bool.false_ne_true, hsel]
    · exact fun i hi => ⟨hblocks.mem i hi, hblocks.dirty i hi⟩
    · exact fun _ => hcard
  | true =>
    have hnodup := List.nodup_range' (s := set * cfg.assoc) (n := cfg.assoc)
    let blocks := (List.range' (set * cfg.assoc) cfg.assoc).filter fun i =>
      c.st i = alreadyDirty
    have hmem : ∀ i, i ∈ blocks.toFinset ↔
        InSet (set * cfg.assoc) cfg.assoc i ∧ c.st i = alreadyDirty := by
      intro i
      rw [List.mem_toFinset, List.mem_filter, List.mem_range'_1, decide_eq_true_iff]
      rfl
    have hsel : c.select cfg set true =
        some ((List.range' (set * cfg.assoc) cfg.assoc).foldl markWhole ⟨c.st, 0⟩,
          c.pol) := by
      rw [select, if_pos rfl]
    have hfold := foldl_markWhole ⟨c.st, 0⟩ hnodup
    rw [hfold] at hsel
    refine ⟨_, c.pol, blocks.toFinset, hsel, ?_, ?_, fun i hi => (hmem i).mp hi, fun _ => hmem,
      nofun⟩
    · ext1 i
      rw [withMarks]
      by_cases hi : i ∈ blocks.toFinset
      · rw [if_pos hi]
        obtain ⟨hin, hst⟩ := (hmem i).mp hi
        exact if_pos ⟨List.mem_range'_1.mpr hin, hst⟩
      · rw [if_neg hi]
        exact if_neg fun h => hi ((hmem i).mpr ⟨List.mem_range'_1.mp h.1, h.2⟩)
    · rw [List.toFinset_card_of_nodup (hnodup.filter _), ← List.countP_eq_length_filter]
      exact Nat.zero_add _

section
variable {blocks : Finset Nat} {whole : Bool}

theorem Ready.marked_iff (hc : Ready cfg set c) {i : Nat}
    (hi : InSet (set * cfg.assoc) cfg.assoc i) :
    withMarks c.st blocks i = cleanInprog ↔ i ∈ blocks := by
  rw [withMarks]
  split
  · next hmem => exact iff_of_true rfl hmem
  · next hmem => exact iff_of_false (hc.idle i hi) hmem

/-- When they go to another state, the other blocks are as before. -/
theorem Chosen.retag_eq (hc : Ready cfg set c) (h : Chosen cfg set c whole blocks) (b : State) :
    retag (withMarks c.st blocks) (List.range' (set * cfg.assoc) cfg.assoc)
      cleanInprog b = fun i => if i ∈ blocks then b else c.st i := by
  ext1 i
  by_cases hmem : i ∈ blocks
  · have hin := (h.mem i hmem).1
    rw [if_pos hmem]
    exact if_pos ⟨List.mem_range'_1.mpr hin, (hc.marked_iff hin).mpr hmem⟩
  · rw [if_neg hmem, retag, if_neg]
    · exact if_neg hmem
    · rintro ⟨hlist, hst⟩
      exact hmem ((hc.marked_iff (List.mem_range'_1.mp hlist)).mp hst)

theorem Chosen.tagged_eq (hc : Ready cfg set c) (h : Chosen cfg set c whole blocks) :
    tagged (withMarks c.st blocks) (List.range' (set * cfg.assoc) cfg.assoc)
      cleanInprog = blocks.card := by
  have hfilter : (List.range' (set * cfg.assoc) cfg.assoc).filter
      (fun i => withMarks c.st blocks i = cleanInprog) =
      (List.range' (set * cfg.assoc) cfg.assoc).filter (fun i => i ∈ blocks) := by
    apply List.filter_congr
    intro i hi
    rw [decide_eq_decide]
    exact hc.marked_iff (List.mem_range'_1.mp hi)
  have hfinset : ((List.range' (set * cfg.assoc) cfg.assoc).filter
      (fun i => i ∈ blocks)).toFinset = blocks := by
    ext i
    rw [List.mem_toFinset, List.mem_filter, decide_eq_true_iff, List.mem_range'_1]
    exact and_iff_right_of_imp fun hmem => (h.mem i hmem).1
  rw [tagged, List.countP_eq_length_filter, hfilter,
    ← List.toFinset_card_of_nodup (List.Nodup.filter _ List.nodup_range'), hfinset]

theorem Chosen.card_le (hc : Ready cfg set c) (h : Chosen cfg set c whole blocks) :
    blocks.card ≤ c.setDirty set := by
  have hsub : blocks ⊆ ((List.range' (set * cfg.assoc) cfg.assoc).filter
      (fun i => c.st i = alreadyDirty)).toFinset := by
    intro i hi
    obtain ⟨hin, hst⟩ := h.mem i hi
    rw [List.mem_toFinset, List.mem_filter, decide_eq_true_iff, List.mem_range'_1]
    exact ⟨hin, hst⟩
  calc blocks.card
      ≤ _ := Finset.card_le_card hsub
    _ ≤ _ := List.toFinset_card_le _
    _ = dirtyBlocks cfg.assoc set c.st := by rw [dirtyBlocks, List.countP_eq_length_filter]
    _ = c.setDirty set := hc.setDirty.symm

/-- The cache when step 4 starts. -/
def marking (c : CleanCache α) (set : Nat) (blocks : Finset Nat) (pol : Option Policy) :
    CleanCache α :=
  { c with
    wlocked := Function.update c.wlocked set true
    st := withMarks c.st blocks
    pol := pol }

/-- What a clean that chose some blocks leaves: with all I/O done, they are valid, their data
are on the HDD, already when the loop that makes them valid starts, and the counters have
dropped; after a failed I/O they are dirty again and the counters as before. All else of the
cache that the I/O path reads stays: the other blocks, sectors and sets, and the SSD. -/
structure Cleaned (cfg : CleanCfg) (io : CleanIo) (set : Nat) (c : CleanCache α)
    (blocks : Finset Nat) (c' : CleanCache α) : Prop where
  valid : Succeeds io (setRuns cfg set (withMarks c.st blocks)) (· ∈ blocks) →
    ∀ i ∈ blocks, c'.st i = valid
  copied : Succeeds io (setRuns cfg set (withMarks c.st blocks)) (· ∈ blocks) →
    Copied cfg c c'.hdd (· ∈ blocks)
  before : Succeeds io (setRuns cfg set (withMarks c.st blocks)) (· ∈ blocks) → blocks.Nonempty →
    ∃ mid, (c.marking set blocks c'.pol).cleanData cfg io set = some (mid, 0) ∧
      (∀ i ∈ blocks, mid.st i = cleanInprog) ∧ mid.hdd = c'.hdd
  others : ∀ i, i ∉ blocks → c'.st i = c.st i
  dropped : Succeeds io (setRuns cfg set (withMarks c.st blocks)) (· ∈ blocks) →
    c'.setDirty set + blocks.card = c.setDirty set ∧ c'.nrDirty + blocks.card = c.nrDirty
  restored : ¬ Succeeds io (setRuns cfg set (withMarks c.st blocks)) (· ∈ blocks) →
    (∀ i ∈ blocks, c'.st i = alreadyDirty) ∧ c'.setDirty set = c.setDirty set ∧
      c'.nrDirty = c.nrDirty
  settled : ∀ i, InSet (set * cfg.assoc) cfg.assoc i → c'.st i ≠ cleanInprog
  unlocked : c'.wlocked set = false
  otherSets : ∀ set', set' ≠ set →
    c'.setDirty set' = c.setDirty set' ∧ c'.wlocked set' = c.wlocked set'
  otherSectors : ∀ x, c.Elsewhere cfg (· ∈ blocks) x → c'.hdd x = c.hdd x
  dbn : c'.dbn = c.dbn
  ssd : c'.ssd = c.ssd

/-- A clean that marks nothing. -/
theorem Cleaned.nothing (hc : Ready cfg set c) {c' : CleanCache α} (hst : c'.st = c.st)
    (hset : c'.setDirty = c.setDirty) (hnr : c'.nrDirty = c.nrDirty)
    (hlock : c'.wlocked set = false) (hlocks : ∀ set' ≠ set, c'.wlocked set' = c.wlocked set')
    (hdata : c'.hdd = c.hdd ∧ c'.dbn = c.dbn ∧ c'.ssd = c.ssd) :
    Cleaned cfg io set c ∅ c' := by
  refine ⟨by simp, nofun, by simp, fun i _ => by rw [hst], ?_, ?_, ?_, hlock, ?_,
    fun x _ => by rw [hdata.1], hdata.2.1, hdata.2.2⟩
  · intro _
    simp [hset, hnr]
  · intro _
    exact ⟨by simp, by rw [hset], hnr⟩
  · intro i hi
    rw [hst]
    exact hc.idle i hi
  · intro set' hne
    exact ⟨by rw [hset], hlocks set' hne⟩

theorem Ready.chosen_empty (hc : Ready cfg set c) (hzero : c.setDirty set = 0) :
    Chosen cfg set c whole ∅ := by
  have hnone := List.countP_eq_zero.mp (hc.setDirty.symm.trans hzero)
  refine ⟨by simp, fun _ i => ?_, fun _ => by simp [hzero]⟩
  refine iff_of_false (by simp) ?_
  rintro ⟨hin, hst⟩
  exact hnone i (List.mem_range'_1.mpr hin) (decide_eq_true hst)

theorem Chosen.markedBlocks_eq (hc : Ready cfg set c) (h : Chosen cfg set c whole blocks)
    (pol : Option Policy) :
    (fun i => i ∈ (c.marking set blocks pol).markedBlocks cfg set) = (· ∈ blocks) := by
  ext i
  rw [mem_markedBlocks]
  constructor
  · rintro ⟨hin, hst⟩
    exact (hc.marked_iff hin).mp hst
  · intro hmem
    have hin := (h.mem i hmem).1
    exact ⟨hin, (hc.marked_iff hin).mpr hmem⟩

theorem Chosen.dbnsOk (hc : Ready cfg set c) (h : Chosen cfg set c whole blocks) :
    DbnsOk cfg c.dbn (· ∈ blocks) where
  dvd i hi := hc.dbn.dvd i (h.mem i hi)
  lt i hi := hc.dbn.lt i (h.mem i hi)
  inj i j hi hj := hc.dbn.inj i j (h.mem i hi) (h.mem j hj)

theorem settled_of_if (hc : Ready cfg set c) {st : Nat → State} {b : State}
    (hst : st = fun i => if i ∈ blocks then b else c.st i) (hb : b ≠ cleanInprog) (i : Nat)
    (hin : InSet (set * cfg.assoc) cfg.assoc i) : st i ≠ cleanInprog := by
  rw [hst]
  simp only
  split
  · exact hb
  · exact hc.idle i hin

/-- From step 4 on. -/
theorem finish_spec (h : cfg.Sized) (hmd : MdFits cfg) (io : CleanIo) (hc : Ready cfg set c)
    (hblocks : Chosen cfg set c whole blocks) (pol : Option Policy) (force : Bool) :
    ∃ c', (((c.marking set blocks pol).cleanData cfg io set).bind fun (c, error) =>
        (finish cfg set c error).map fun c => errOut2 set c force) = some c' ∧
      Cleaned cfg io set c blocks c' := by
  have hdbn := hblocks.dbnsOk hc
  have htagged := hblocks.tagged_eq hc
  have hcard := hblocks.card_le hc
  rw [← hblocks.markedBlocks_eq hc pol] at hdbn
  obtain ⟨mem, hdd, mdPages, md, error, hdata, herror, hother, hcopied⟩ :=
    cleanData_spec h hmd io set (c.marking set blocks pol) hdbn
  rw [hblocks.markedBlocks_eq hc] at herror hother hcopied
  have hlocks : ∀ set' ≠ set, Function.update (Function.update c.wlocked set true) set false set' =
      c.wlocked set' := by
    intro set' hne
    rw [Function.update_of_ne hne, Function.update_of_ne hne]
  by_cases hzero : error = 0
  · subst hzero
    have hok := herror.mp rfl
    have hfinish := foldlM_finishOne_ok set { c.marking set blocks pol with
      mem := mem, hdd := hdd, mdPages := mdPages, md := md } List.nodup_range'
      (htagged ▸ hcard : tagged (withMarks c.st blocks)
        (List.range' (set * cfg.assoc) cfg.assoc) cleanInprog ≤ c.setDirty set)
    refine ⟨_, by rw [hdata, Option.bind_some]; simp only [finish]; rw [hfinish]; rfl, ?_⟩
    have hst := hblocks.retag_eq hc valid
    refine ⟨fun _ i hi => ?_, fun _ => hcopied rfl, fun _ _ => ⟨_, hdata, fun i hi => ?_, rfl⟩,
      fun i hi => ?_, fun _ => ?_, fun hnot => absurd hok hnot, fun i hin => ?_, ?_, ?_, hother,
      rfl, rfl⟩
    · exact (congrFun hst i).trans (if_pos hi)
    · exact if_pos hi
    · exact (congrFun hst i).trans (if_neg hi)
    · show Function.update c.setDirty set (c.setDirty set - tagged (withMarks c.st blocks)
          (List.range' (set * cfg.assoc) cfg.assoc) cleanInprog) set +
            blocks.card = c.setDirty set ∧
        c.nrDirty - (tagged (withMarks c.st blocks)
          (List.range' (set * cfg.assoc) cfg.assoc) cleanInprog : Nat) +
            blocks.card = c.nrDirty
      rw [Function.update_self, htagged]
      omega
    · exact settled_of_if hc hst (by decide) i hin
    · exact Function.update_self ..
    · intro set' hne
      exact ⟨Function.update_of_ne hne _ _, hlocks set' hne⟩
  · have hfail : ¬ Succeeds io _ _ := fun hok => hzero (herror.mpr hok)
    have hfinish := foldlM_finishOne_error hzero set
      (List.range' (set * cfg.assoc) cfg.assoc) { c.marking set blocks pol with
        mem := mem, hdd := hdd, mdPages := mdPages, md := md }
    refine ⟨_, by rw [hdata, Option.bind_some]; simp only [finish]; rw [hfinish]; rfl, ?_⟩
    have hst := hblocks.retag_eq hc alreadyDirty
    refine ⟨fun hok => absurd hok hfail, fun hok => absurd hok hfail,
      fun hok => absurd hok hfail, fun i hi => ?_, fun hok => absurd hok hfail,
      fun _ => ⟨fun i hi => ?_, rfl, rfl⟩, fun i hin => ?_, ?_,
      fun set' hne => ⟨rfl, hlocks set' hne⟩, hother, rfl, rfl⟩
    · exact (congrFun hst i).trans (if_neg hi)
    · exact (congrFun hst i).trans (if_pos hi)
    · exact settled_of_if hc hst (by decide) i hin
    · exact Function.update_self ..

/-- The cleans that go beyond the first checks choose blocks; the others leave the set alone. -/
def Goes (c : CleanCache α) (force : Bool) : Prop :=
  c.failed = false ∧ (force = true ∨ c.autocleanCrossed = false)

theorem select_locked (w : Nat → Bool) (whole : Bool) :
    select cfg set { c with wlocked := w } whole = select cfg set c whole := rfl

theorem cleanSet_of_select (io : CleanIo) {force : Bool} (hgoes : c.Goes force)
    (hdirty : c.setDirty set ≠ 0) {m : Marking} {pol : Option Policy}
    (hsel : c.select cfg set whole = some (m, pol)) (hst : m.st = withMarks c.st blocks) :
    c.cleanSet cfg io set whole force =
      if m.nrWrites = 0 then some (errOut2 set (c.marking set blocks pol) force)
      else ((c.marking set blocks pol).cleanData cfg io set).bind fun (c, error) =>
        (finish cfg set c error).map fun c => errOut2 set c force := by
  have hpost : ¬ (!force && c.autocleanCrossed) = true := by
    rcases hgoes.2 with hforce | hcrossed
    · simp [hforce]
    · simp [hcrossed]
  rw [cleanSet, if_neg (by simp [hgoes.1]), if_neg hdirty, if_neg hpost]
  simp only
  rw [if_neg hdirty, select_locked, hsel, Option.bind_some]
  simp only [hst, marking]

theorem cleanSet_spec (h : cfg.Sized) (hmd : MdFits cfg) (io : CleanIo) (hc : Ready cfg set c)
    (whole force : Bool) :
    ∃ c' blocks, c.cleanSet cfg io set whole force = some c' ∧
      (c.Goes force → Chosen cfg set c whole blocks) ∧ (¬ c.Goes force → blocks = ∅) ∧
      Cleaned cfg io set c blocks c' := by
  by_cases hfailed : c.failed = true
  · refine ⟨errOut1 set c force, ∅, by rw [cleanSet, if_pos hfailed], ?_, fun _ => rfl,
      .nothing hc rfl rfl rfl hc.unlocked (fun _ _ => rfl) ⟨rfl, rfl, rfl⟩⟩
    rintro ⟨hf, -⟩
    exact absurd (hfailed.symm.trans hf) nofun
  · by_cases hzero : c.setDirty set = 0
    · exact ⟨errOut1 set c force, ∅, by rw [cleanSet, if_neg hfailed, if_pos hzero],
        fun _ => hc.chosen_empty hzero, fun _ => rfl,
        .nothing hc rfl rfl rfl hc.unlocked (fun _ _ => rfl) ⟨rfl, rfl, rfl⟩⟩
    · by_cases hpost : (!force && c.autocleanCrossed) = true
      · refine ⟨errOut1 set { c with touched := c.touched ++ [set] } force, ∅,
          by rw [cleanSet, if_neg hfailed, if_neg hzero, if_pos hpost], ?_, fun _ => rfl,
          .nothing hc rfl rfl rfl hc.unlocked (fun _ _ => rfl) ⟨rfl, rfl, rfl⟩⟩
        rintro ⟨-, hgo⟩
        rcases hgo with hgo | hgo <;> simp [hgo] at hpost
      · have hgoes : c.Goes force := by
          refine ⟨by simpa using hfailed, ?_⟩
          cases force <;> simp_all
        obtain ⟨m, pol, blocks, hsel, hst, hwrites, hblocks⟩ := select_spec hc whole
        have hrun := cleanSet_of_select io hgoes hzero hsel hst
        by_cases hnone : m.nrWrites = 0
        · have hempty : blocks = ∅ := Finset.card_eq_zero.mp (hwrites.symm.trans hnone)
          refine ⟨_, blocks, by rw [hrun, if_pos hnone], fun _ => hblocks,
            fun hnot => absurd hgoes hnot, ?_⟩
          have hsame : withMarks c.st ∅ = c.st := by
            ext1 i
            exact if_neg (Finset.notMem_empty i)
          rw [hempty]
          refine .nothing hc hsame rfl rfl (Function.update_self ..) (fun set' hne => ?_)
            ⟨rfl, rfl, rfl⟩
          exact (Function.update_of_ne hne _ _).trans (Function.update_of_ne hne _ _)
        · obtain ⟨c', hc', hcleaned⟩ := finish_spec h hmd io hc hblocks pol force
          exact ⟨c', blocks, by rw [hrun, if_neg hnone, hc'], fun _ => hblocks,
            fun hnot => absurd hgoes hnot, hcleaned⟩

end

/-- If the metadata do not fit, a clean of a whole dirty set whose I/O succeeds ends in an
assertion. -/
theorem cleanSet_crashes (h : cfg.Sized) (hmd : ¬ MdFits cfg) (hc : Ready cfg set c)
    {force : Bool} (hgoes : c.Goes force) (hdirty : c.setDirty set ≠ 0) (io : CleanIo)
    (hio : (∀ i, io.readError i = 0) ∧ (∀ i, io.writeError i = 0) ∧ io.mdError = 0) :
    c.cleanSet cfg io set true force = none := by
  obtain ⟨m, pol, blocks, hsel, hst, hwrites, hblocks⟩ := select_spec hc true
  have hsome : m.nrWrites ≠ 0 := by
    obtain ⟨i, hi, hdirty⟩ := List.countP_pos_iff.mp
      (Nat.pos_of_ne_zero (hc.setDirty ▸ hdirty))
    have hmem := (hblocks.all rfl i).mpr ⟨List.mem_range'_1.mp hi, of_decide_eq_true hdirty⟩
    rw [hwrites]
    exact Finset.card_ne_zero_of_mem hmem
  have hdbn := hblocks.dbnsOk hc
  rw [← hblocks.markedBlocks_eq hc pol] at hdbn
  have hdata := cleanData_none h hmd io set (c.marking set blocks pol) hdbn
    ⟨fun run _ => hio.1 run.1, fun i _ => hio.2.1 i, hio.2.2⟩
  rw [cleanSet_of_select io hgoes hdirty hsel hst, if_neg hsome, hdata, Option.bind_none]

/-- A cache with one dirty block, the first one. -/
def oneDirty (a : α) : CleanCache α where
  st := fun i => if i = 0 then alreadyDirty else invalid
  dbn := fun _ => 0
  pol := none
  setDirty := fun set => if set = 0 then 1 else 0
  nrDirty := 1
  wlocked := fun _ => false
  cleanFlags := fun _ => false
  touched := []
  failed := false
  autocleanCrossed := false
  ssd := fun _ => a
  hdd := fun _ => a
  mem := fun _ => a
  mdPages := fun _ _ => ⟨0, invalid⟩
  md := fun _ _ => ⟨0, invalid⟩

/-- Devices that take one page at a time and do not fail. -/
def flawlessIo : CleanIo where
  addPage := fun _ added _ => added.isEmpty
  fresh := fun _ _ => rfl
  serve := id
  serve_perm := fun _ => List.Perm.refl _
  readError := fun _ => 0
  writeError := fun _ => 0
  mdError := 0
  lost := fun _ => false
  mdTorn := fun _ _ => ⟨0, invalid⟩

theorem oneDirty_ready (cfg : CleanCfg) (a : α) : Ready cfg 0 (oneDirty a) := by
  have hst : ∀ i, (oneDirty a).st i = alreadyDirty ∧ i = 0 ∨
      (oneDirty a).st i = invalid ∧ i ≠ 0 := by
    intro i
    by_cases hi : i = 0
    · subst hi
      exact .inl ⟨rfl, rfl⟩
    · exact .inr ⟨if_neg hi, hi⟩
  refine ⟨?_, ?_, ?_, ⟨?_, ?_, ?_⟩, nofun, rfl⟩
  · intro i _
    rcases hst i with ⟨h, -⟩ | ⟨h, -⟩ <;> rw [h] <;> decide
  · intro i _
    rcases hst i with ⟨h, -⟩ | ⟨h, -⟩ <;> rw [h] <;> decide
  · obtain ⟨n, hn⟩ := Nat.exists_eq_succ_of_ne_zero cfg.assoc_pos.ne'
    show 1 = dirtyBlocks cfg.assoc 0 (oneDirty a).st
    have hrest : (List.range' (0 + 1) n).countP
        (fun i => (oneDirty a).st i = alreadyDirty) = 0 := by
      apply List.countP_eq_zero.mpr
      intro i hi
      rw [List.mem_range'_1] at hi
      rcases hst i with ⟨-, h⟩ | ⟨h, -⟩
      · omega
      · rw [h]
        decide
    rw [dirtyBlocks, Nat.zero_mul, hn, List.range'_succ, List.countP_cons, hrest]
    rfl
  · intro i _
    exact Nat.dvd_zero _
  · intro i _
    exact Nat.two_pow_pos 64
  · rintro i j ⟨-, hi⟩ ⟨-, hj⟩ _
    rcases hst i with ⟨-, hi0⟩ | ⟨hi0, -⟩
    · rcases hst j with ⟨-, hj0⟩ | ⟨hj0, -⟩
      · rw [hi0, hj0]
      · exact absurd (hj.symm.trans hj0) (by decide)
    · exact absurd (hi.symm.trans hi0) (by decide)

/-- `eio_clean_set` is right and all-or-nothing for every set and every choice of failing I/Os
if the metadata of a set fit one or two pages and fill a sector. -/
theorem cleanSet_all_or_nothing_iff (cfg : CleanCfg) (h : cfg.Sized) (a : α) :
    (∀ (io : CleanIo) (set : Nat) (c : CleanCache α) (whole force : Bool), Ready cfg set c →
      ∃ c' blocks, c.cleanSet cfg io set whole force = some c' ∧
        (c.Goes force → Chosen cfg set c whole blocks) ∧ (¬ c.Goes force → blocks = ∅) ∧
        Cleaned cfg io set c blocks c') ↔
      32 ≤ cfg.assoc ∧ cfg.assoc ≤ 512 := by
  constructor
  · intro hall
    by_contra hmd
    have hc := oneDirty_ready cfg a
    obtain ⟨c', -, hrun, -⟩ := hall flawlessIo 0 (oneDirty a) true true hc
    have hnone := cleanSet_crashes h hmd hc ⟨rfl, .inl rfl⟩ Nat.one_ne_zero flawlessIo
      ⟨fun _ => rfl, fun _ => rfl, rfl⟩
    exact absurd (hrun.symm.trans hnone) nofun
  · intro hmd io set c whole force hc
    exact cleanSet_spec h hmd io hc whole force

/-- A small write-back cache of one set of `2 ^ shift` blocks of 4 KiB. -/
def sampleCfg (shift : Nat) (hshift : shift ≤ 13) : CleanCfg where
  toGeom :=
    { mode := .wb, blockShift := 3, consecutiveShift := shift, numSets := 1, diskSize := 0
      assoc_le := hshift, sectorsPerSet_lt := by omega, numSets_pos := by decide
      numSets_lt := by decide, diskSize_lt := by decide, diskSets_lt := by simp }
  mdStartSect := 8
  mdSectors := 16
  devStartSect := 2048
  dirtySetLowThreshold := 30
  page := id
  page_inj := fun _ _ h => h
  mdPage := id
  low_le := by decide

theorem sampleCfg_sized (shift : Nat) (hshift : shift ≤ 13) : (sampleCfg shift hshift).Sized :=
  .inr (.inl rfl)

/-- With 32 blocks to a set the dirty block is cleaned. -/
theorem cleanSet_all_or_nothing_one :
    ∃ c', (oneDirty 'a').cleanSet (sampleCfg 5 (by decide)) flawlessIo 0 true true = some c' ∧
      c'.st 0 = valid ∧ c'.setDirty 0 = 0 := by
  have hc := oneDirty_ready (sampleCfg 5 (by decide)) 'a'
  have hgoes : (oneDirty 'a').Goes true := ⟨rfl, .inl rfl⟩
  obtain ⟨c', blocks, hrun, hchosen, -, hcleaned⟩ :=
    (cleanSet_all_or_nothing_iff _ (sampleCfg_sized 5 (by decide)) 'a').mpr (by decide)
      flawlessIo 0 (oneDirty 'a') true true hc
  have hok : Succeeds flawlessIo (setRuns (sampleCfg 5 (by decide)) 0
      (withMarks (oneDirty 'a').st blocks)) (· ∈ blocks) :=
    ⟨fun _ _ => rfl, fun _ _ => rfl, rfl⟩
  have hmem : 0 ∈ blocks := ((hchosen hgoes).all rfl 0).mpr ⟨⟨by decide, by decide⟩, rfl⟩
  have hcard := Finset.card_pos.mpr ⟨0, hmem⟩
  have hdrop := (hcleaned.dropped hok).1
  refine ⟨c', hrun, hcleaned.valid hok 0 hmem, ?_⟩
  have hone : (oneDirty 'a').setDirty 0 = 1 := rfl
  omega

/-- With 16 blocks to a set the clean of the dirty block stops at an assertion, although no
I/O fails. -/
theorem cleanSet_sixteen_crashes :
    Ready (sampleCfg 4 (by decide)) 0 (oneDirty 'a') ∧ (sampleCfg 4 (by decide)).Sized ∧
      (oneDirty 'a').cleanSet (sampleCfg 4 (by decide)) flawlessIo 0 true true = none :=
  ⟨oneDirty_ready _ 'a', sampleCfg_sized 4 _,
    cleanSet_crashes (sampleCfg_sized 4 _) (by rintro ⟨h, -⟩; exact absurd h (by decide))
      (oneDirty_ready _ 'a') ⟨rfl, .inl rfl⟩ Nat.one_ne_zero flawlessIo
      ⟨fun _ => rfl, fun _ => rfl, rfl⟩⟩

/-! ## Other block sizes, partial cleans -/

/-- Other block sizes have no segments. -/
theorem cleanData_unsized (h : ¬ cfg.Sized) (io : CleanIo) {i : Nat}
    (hi : i ∈ c.markedBlocks cfg set) : c.cleanData cfg io set = none := by
  have hbvecs : ∀ blkindex total, cfg.bvecs blkindex total = none := by
    intro blkindex total
    have hsetup : setupBioVecs blkindex cfg.blockSize total = none := by
      rw [CleanCfg.Sized, not_or, not_or] at h
      simp [setupBioVecs, h.1, h.2.1, h.2.2]
    rw [CleanCfg.bvecs, hsetup]
    rfl
  obtain ⟨hin, hst⟩ := mem_markedBlocks.mp hi
  have hreads : (setRuns cfg set c.st).mapM (readReq cfg io set) = none := by
    obtain ⟨run, hrun, -⟩ : ∃ run ∈ setRuns cfg set c.st, run.1 ≤ i ∧ i < run.1 + run.2 :=
      runs_cover _ _ _ _ (Nat.le_refl _) i hin.1 hin.2 hst
    generalize setRuns cfg set c.st = reads at hrun ⊢
    cases reads with
    | nil => exact absurd hrun List.not_mem_nil
    | cons first rest =>
      rw [List.mapM_cons, readReq, hbvecs]
      rfl
  rw [cleanData, readPhase, hreads]
  rfl

/-- A partial clean without an error leaves as many dirty blocks as the threshold allows. -/
theorem cleanSet_part (io : CleanIo) (hc : Ready cfg set c) {force : Bool} (hgoes : c.Goes force)
    (hio : (∀ i, io.readError i = 0) ∧ (∀ i, io.writeError i = 0) ∧ io.mdError = 0)
    {c' : CleanCache α} (hrun : c.cleanSet cfg io set false force = some c') :
    c'.setDirty set =
      min (c.setDirty set) (cfg.dirtySetLowThreshold * cfg.assoc / 100) := by
  by_cases hzero : c.setDirty set = 0
  · rw [cleanSet, if_neg (by simp [hgoes.1]), if_pos hzero] at hrun
    rw [← Option.some.inj hrun, hzero, Nat.zero_min]
    exact hzero
  · obtain ⟨m, pol, blocks, hsel, hst, hwrites, hblocks⟩ := select_spec hc false
    have hcard := hblocks.part rfl
    rw [cleanSet_of_select io hgoes hzero hsel hst] at hrun
    by_cases hnone : m.nrWrites = 0
    · rw [if_pos hnone] at hrun
      rw [← Option.some.inj hrun]
      show c.setDirty set = _
      omega
    · rw [if_neg hnone] at hrun
      have hok : Succeeds io (setRuns cfg set (withMarks c.st blocks)) (· ∈ blocks) :=
        ⟨fun run _ => hio.1 run.1, fun i _ => hio.2.1 i, hio.2.2⟩
      have hsized : cfg.Sized := by
        by_contra hsized
        obtain ⟨i, hi⟩ : blocks.Nonempty := Finset.card_ne_zero.mp (hwrites ▸ hnone)
        have hmarked : i ∈ (c.marking set blocks pol).markedBlocks cfg set :=
          (congrFun (hblocks.markedBlocks_eq hc pol) i).mpr hi
        rw [cleanData_unsized hsized io hmarked] at hrun
        exact absurd hrun nofun
      have hmd : MdFits cfg := by
        by_contra hmd
        have hdbn := hblocks.dbnsOk hc
        rw [← hblocks.markedBlocks_eq hc pol] at hdbn
        rw [cleanData_none hsized hmd io set (c.marking set blocks pol) hdbn
          ⟨fun run _ => hio.1 run.1, fun i _ => hio.2.1 i, hio.2.2⟩] at hrun
        exact absurd hrun nofun
      obtain ⟨c'', hc'', hcleaned⟩ := finish_spec hsized hmd io hc hblocks pol force
      have hsame : c'' = c' := Option.some.inj (hc''.symm.trans hrun)
      have hdrop := (hcleaned.dropped hok).1
      rw [hsame] at hdrop
      omega

/-- All variants of the selection mark the same number of `VALID | DIRTY` blocks, no other one,
and keep their own fields in order; so a partial clean without an error leaves as many dirty
blocks as the threshold allows, or as many as there were. -/
theorem policies_select_alike (cfg : CleanCfg) (set : Nat) (st : Nat → State)
    (pol : Option Policy)
    (hst : ∀ i, InSet (set * cfg.assoc) cfg.assoc i → st i ∈ State.allowed)
    (hpol : ∀ p ∈ pol, p.Ok Fifo.cleanNext cfg.assoc set) :
    (∃ m pol', getSetblksToClean pol cfg.assoc cfg.dirtySetLowThreshold set
          (dirtyBlocks cfg.assoc set st) st = some (m, pol') ∧
        m.nrWrites = dirtyBlocks cfg.assoc set st -
          cfg.dirtySetLowThreshold * cfg.assoc / 100 ∧
        (∃ blocks, blocks.card = m.nrWrites ∧ Selects cfg.assoc set st m.st blocks) ∧
        pol'.isSome = pol.isSome ∧
        ∀ p ∈ pol, ∀ p' ∈ pol', ∀ set', p.Ok Fifo.cleanNext cfg.assoc set' →
          p'.Ok Fifo.cleanNext cfg.assoc set') ∧
    ∀ (io : CleanIo) (c c' : CleanCache α) (force : Bool), c.st = st → c.pol = pol →
      Ready cfg set c → c.Goes force →
      (∀ i, io.readError i = 0) ∧ (∀ i, io.writeError i = 0) ∧ io.mdError = 0 →
      c.cleanSet cfg io set false force = some c' →
      c'.setDirty set = min (dirtyBlocks cfg.assoc set st)
        (cfg.dirtySetLowThreshold * cfg.assoc / 100) := by
  constructor
  · have hassoc : cfg.assoc ≤ 2 ^ 13 := Nat.pow_le_pow_right (by decide) cfg.assoc_le
    obtain ⟨m, pol', hsel, hwrites, ⟨blocks, hcard, hblocks⟩, hsome, hok⟩ :=
      getSetblksToClean_selects hassoc cfg.low_le hst rfl hpol
    exact ⟨m, pol', hsel, hwrites, ⟨blocks, hcard.trans hwrites.symm, hblocks⟩, hsome, hok⟩
  · intro io c c' force hcst _ hc hgoes hio hrun
    rw [← hcst, ← hc.setDirty]
    exact cleanSet_part io hc hgoes hio hrun

/-- A set of 32 dirty blocks with a FIFO pointer in the middle: 23 are marked. -/
theorem policies_select_alike_fifo :
    ∃ m pol', getSetblksToClean (some (.fifo ⟨fun _ => 0, fun _ => 7⟩)) 32 30 0 32
        (fun _ => alreadyDirty) = some (m, pol') ∧ m.nrWrites = 23 := by
  have hdirty : dirtyBlocks 32 0 (fun _ => alreadyDirty) = 32 := by decide
  obtain ⟨⟨m, pol', hsel, hwrites, -⟩, -⟩ := policies_select_alike (α := Char)
    (sampleCfg 5 (by decide)) 0 (fun _ => alreadyDirty)
    (some (.fifo ⟨fun _ => 0, fun _ => 7⟩)) (fun _ _ => by decide)
    (by
      intro p hp
      rw [← Option.mem_some_iff.mp hp]
      exact ⟨by decide, by decide⟩)
  refine ⟨m, pol', ?_, ?_⟩
  · rw [← hsel]
    exact congrArg (fun n => getSetblksToClean _ 32 30 0 n _) hdirty.symm
  · rw [hwrites]
    show dirtyBlocks 32 0 _ - 30 * 32 / 100 = 23
    rw [hdirty]

end CleanCache

end EnhanceIO
