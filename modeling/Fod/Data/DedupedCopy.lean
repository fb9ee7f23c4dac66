import Fod.Data.ByteOverlay
import Fod.Data.Requests

/-!
# Copies that leave out unchanged chunks

With `copy_dedupe` a copy compares the payload with the destination and buffers the
runs of changed chunks only; the file is extended first, because the chunks left out
may be zeros behind its end.  Here this path is compared with the plain one, which
buffers the whole payload.
-/

namespace Fod.Data

open ZeroPadded BlockMap

namespace CopyRangeBounds

structure Places (bs : Nat) (bounds : CopyRangeBounds) (data : Bytes) : Prop where
  copyLen : bounds.copyLen = data.length
  dstEndOffset : bounds.dstEndOffset = bounds.dstOffset + data.length
  dstFirstBlock : bounds.dstFirstBlock = bounds.dstOffset / bs
  dstLastBlock : bounds.dstLastBlock = (bounds.dstOffset + data.length - 1) / bs

end CopyRangeBounds

namespace State

variable {cfg : Config} {s : State} {w : WriteState}

lemma bufferRun_eq {run : Nat × Bytes} (hrun : run.2 ≠ []) :
    bufferRun cfg (s, w) run = (s.clearReadCacheForFile w.file,
      { s.bufferWrite cfg w run.1 run.2 with
        bufferedBytes := (s.bufferWrite cfg w run.1 run.2).bufferedBytes + run.2.length }) := by
  rw [bufferRun, updateWriteBuffer, if_neg (by simpa using hrun)]

lemma shown_bufferRun {run : Nat × Bytes} (hrun : run.2 ≠ [])
    (hinside : run.1 + run.2.length ≤ w.fileSize) {i : Nat} (hi : i < w.fileSize) :
    (bufferRun cfg (s, w) run).2.fileSize = w.fileSize ∧
      shown cfg (bufferRun cfg (s, w) run).1 (bufferRun cfg (s, w) run).2 i =
        if run.1 ≤ i ∧ i < run.1 + run.2.length then cell run.2 (i - run.1) else shown cfg s w i := by
  rw [bufferRun_eq hrun]
  refine ⟨?_, shown_bufferWrite hrun i fun hbeyond => absurd hi (Nat.not_lt.mpr hbeyond)⟩
  exact (bufferWrite_same cfg s w run.1 run.2).fileSize.trans (Nat.max_eq_left hinside)

lemma shown_bufferRuns {dstOffset : Nat} {payload : Bytes} {runs : List (Nat × Bytes)}
    (hruns : ∀ r ∈ runs, IsRun dstOffset payload r)
    (hinside : dstOffset + payload.length ≤ w.fileSize) {i : Nat} (hi : i < w.fileSize) :
    (runs.foldl (bufferRun cfg) (s, w)).2.fileSize = w.fileSize ∧
      (Covered runs i → shown cfg (runs.foldl (bufferRun cfg) (s, w)).1
        (runs.foldl (bufferRun cfg) (s, w)).2 i = cell payload (i - dstOffset)) ∧
      (¬ Covered runs i → shown cfg (runs.foldl (bufferRun cfg) (s, w)).1
        (runs.foldl (bufferRun cfg) (s, w)).2 i = shown cfg s w i) := by
  induction runs generalizing s w with
  | nil => exact ⟨rfl, fun ⟨_, hr, _⟩ => absurd hr List.not_mem_nil, fun _ => rfl⟩
  | cons run runs ih =>
    obtain ⟨a, hstart, hlength, hne, hslice⟩ := hruns run List.mem_cons_self
    have hend : run.1 + run.2.length ≤ w.fileSize := by omega
    obtain ⟨hsize, hshown⟩ := @shown_bufferRun cfg s w run hne hend i hi
    have hrest := @ih (bufferRun cfg (s, w) run).1 (bufferRun cfg (s, w) run).2
      (fun r hr => hruns r (List.mem_cons_of_mem _ hr)) (hsize ▸ hinside) (hsize ▸ hi)
    rw [List.foldl_cons]
    refine ⟨hrest.1.trans hsize, fun hcovered => ?_, fun hcovered => ?_⟩
    · by_cases hlater : Covered runs i
      · exact hrest.2.1 hlater
      · have hin : run.1 ≤ i ∧ i < run.1 + run.2.length := by
          obtain ⟨r, hr, hin⟩ := hcovered
          rcases List.mem_cons.mp hr with rfl | hr
          · exact hin
          · exact absurd ⟨r, hr, hin⟩ hlater
        rw [hrest.2.2 hlater, hshown, if_pos hin, hslice, cell_slice, if_pos (by omega)]
        congr 1
        omega
    · have hlater : ¬ Covered runs i := fun ⟨r, hr, hin⟩ =>
        hcovered ⟨r, List.mem_cons_of_mem _ hr, hin⟩
      have hout : ¬ (run.1 ≤ i ∧ i < run.1 + run.2.length) := fun hin =>
        hcovered ⟨run, List.mem_cons_self, hin⟩
      rw [hrest.2.2 hlater, hshown, if_neg hout]

lemma content_eq_iff {s' : State} {w' : WriteState} (hsize : w'.fileSize = w.fileSize) :
    content cfg s' w' = content cfg s w ↔
      ∀ i < w.fileSize, shown cfg s' w' i = shown cfg s w i := by
  rw [content, content, hsize, List.map_inj_left]
  simp

def plainCopy (cfg : Config) (s : State) (w : WriteState) (dstOffset : Nat) (data : Bytes) :
    State × WriteState :=
  bufferRun cfg (s, w) (dstOffset, data)

/-- The path with `copy_dedupe`, up to the flush; `none` if the comparison panics.
Behind the end of the file there is nothing to compare with. -/
def dedupedCopy (cfg : Config) (s : State) (f : Nat) (existing : Option WriteState) (size : Nat)
    (bounds : CopyRangeBounds) (data : Bytes) : Option (State × WriteState) :=
  let w := existing.getD (newWriteState f size false)
  if bounds.dstOffset < w.fileSize then
    (s.readCopyDestinationSlice cfg existing f bounds w.fileSize).map fun current =>
      (packCopySkipUnchangedRuns bounds.dstOffset cfg.blockSize data current).foldl (bufferRun cfg)
        (s, { w with fileSize := max w.fileSize bounds.dstEndOffset })
  else some (plainCopy cfg s w bounds.dstOffset data)

section

variable {f fh size : Nat} {existing : Option WriteState} {bounds : CopyRangeBounds} {data : Bytes}

lemma copyInto_of_plain (h : copyDedupeEnabledForLen cfg bounds.copyLen = false) :
    let after := plainCopy cfg s (existing.getD (newWriteState f size false)) bounds.dstOffset data
    s.copyInto cfg fh f existing size bounds data =
      (after.1.flushAndKeep cfg fh after.2, .written bounds.copyLen) := by
  rw [copyInto, h]
  rfl

lemma copyInto_of_deduped (h : copyDedupeEnabledForLen cfg bounds.copyLen = true)
    {after : State × WriteState}
    (hafter : s.dedupedCopy cfg f existing size bounds data = some after) :
    s.copyInto cfg fh f existing size bounds data =
        (after.1.flushAndKeep cfg fh after.2, .written bounds.copyLen) ∨
      s.copyInto cfg fh f existing size bounds data = (s, .written bounds.copyLen) ∧
        after = (s, existing.getD (newWriteState f size false)) := by
  rw [dedupedCopy] at hafter
  rw [copyInto, h]
  simp only [true_and]
  split at hafter
  next hinside =>
    rw [if_pos hinside]
    obtain ⟨current, hcurrent, rfl⟩ := Option.map_eq_some_iff.mp hafter
    rw [hcurrent]
    dsimp only
    split
    next hempty =>
      rw [List.isEmpty_iff.mp hempty]
      split
      next hgrows => exact .inl (by rw [List.foldl_nil, Nat.max_eq_right hgrows.le])
      next hfits =>
        exact .inr ⟨rfl, by rw [List.foldl_nil, Nat.max_eq_left (Nat.not_lt.mp hfits)]⟩
    next => exact .inl rfl
  next hbehind =>
    cases hafter
    rw [if_neg hbehind]
    exact .inl rfl

def storedWithin (cfg : Config) (s : State) (f size i : Nat) : Byte :=
  if i < size then s.db.cell cfg.blockSize f i else 0

lemma readCopyDestinationSlice_of_none (hplaces : bounds.Places cfg.blockSize data)
    (hinside : bounds.dstOffset < size) :
    ∃ current, s.readCopyDestinationSlice cfg none f bounds size = some current ∧
      ∀ i < data.length, cell current i = storedWithin cfg s f size (bounds.dstOffset + i) := by
  have hbs := cfg.blockSize_pos
  generalize hend : min bounds.dstEndOffset size = endOffset
  have hlimit : endOffset = min (bounds.dstOffset + data.length) size := by
    rw [← hend, hplaces.dstEndOffset]
  have hrange : bounds.dstFirstBlock ≤ bounds.dstOffset / cfg.blockSize ∧
      (endOffset - 1) / cfg.blockSize ≤ bounds.dstLastBlock := by
    rw [hplaces.dstFirstBlock, hplaces.dstLastBlock]
    exact ⟨le_rfl, Nat.div_le_div_right (by omega)⟩
  have hlength : (s.assembleFileSlice cfg f bounds.dstFirstBlock bounds.dstLastBlock
      bounds.dstOffset endOffset).length = endOffset - bounds.dstOffset :=
    length_assembleReadSlice fun _ => hrange
  refine ⟨_, by rw [readCopyDestinationSlice, if_neg (Nat.not_le.mpr hinside), hend]; rfl,
    fun i hi => ?_⟩
  dsimp only
  rw [hlength, hplaces.copyLen]
  by_cases hbelow : bounds.dstOffset + i < size
  · have hcell : cell (s.assembleFileSlice cfg f bounds.dstFirstBlock bounds.dstLastBlock
        bounds.dstOffset endOffset) i = s.db.cell cfg.blockSize f (bounds.dstOffset + i) :=
      Db.cell_assembleReadSlice_fetchBlockRange hbs hrange (by omega)
    rw [storedWithin, if_pos hbelow, ← hcell]
    split
    next => rw [cell_fit, if_pos hi]
    next => rfl
  · rw [storedWithin, if_neg hbelow, if_pos (by omega), cell_fit, if_pos hi]
    exact cell_of_length_le (by omega)

lemma readCopyDestinationSlice_of_some (hplaces : bounds.Places cfg.blockSize data)
    (hlong : ¬ BlockTooShort cfg s
      { w with fileSize := max w.fileSize (bounds.dstOffset + data.length) }
      bounds.dstOffset data.length) :
    ∃ current, s.readCopyDestinationSlice cfg (some w) f bounds size = some current ∧
      ∀ i < data.length, cell current i = shown cfg s w (bounds.dstOffset + i) := by
  have hlength := @length_readBlocks cfg s
    { w with fileSize := max w.fileSize (bounds.dstOffset + data.length) } bounds.dstOffset data.length
  refine ⟨readBlocks cfg s { w with fileSize := max w.fileSize (bounds.dstOffset + data.length) }
    bounds.dstOffset data.length, ?_, fun i hi => cell_readBlocks ?_⟩
  · rw [readCopyDestinationSlice, hplaces.dstEndOffset, hplaces.copyLen, readFromWriteState_eq hlong,
      Option.map_some, if_neg]
    dsimp only at hlength
    omega
  · dsimp only
    omega

lemma readFromWriteState_of_blockTooShort {offset n : Nat} (h : BlockTooShort cfg s w offset n) :
    s.readFromWriteState cfg w offset n = none := by
  obtain ⟨hsome, hsame, block, hblock, hshort⟩ := h
  have hlow := Nat.div_mul_le_self offset cfg.blockSize
  have hhigh := Nat.lt_div_mul_add cfg.blockSize_pos (a := min (offset + n) w.fileSize - 1)
  rw [← hsame] at hhigh
  have hload : s.loadWriteBlock cfg w (offset / cfg.blockSize) = block := by
    rw [loadWriteBlock_eq, overlayBlock, ← Option.or_assoc, hblock]
    rfl
  simp only [readFromWriteState, if_neg (by omega : ¬ w.fileSize ≤ offset), if_pos hsame, hload]
  rw [if_neg (by omega), if_pos (by omega)]

/-! ## The two paths compared -/

lemma plainCopy_shows {dstOffset : Nat} (hinside : dstOffset < w.fileSize) :
    (plainCopy cfg s w dstOffset data).2.fileSize = max w.fileSize (dstOffset + data.length) ∧
      ∀ i < max w.fileSize (dstOffset + data.length),
        shown cfg (plainCopy cfg s w dstOffset data).1 (plainCopy cfg s w dstOffset data).2 i =
          if dstOffset ≤ i ∧ i < dstOffset + data.length then cell data (i - dstOffset)
          else shown cfg s w i := by
  by_cases hdata : data = []
  · subst hdata
    refine ⟨?_, fun i _ => ?_⟩
    · change w.fileSize = max w.fileSize dstOffset
      exact (Nat.max_eq_left hinside.le).symm
    · rw [List.length_nil, if_neg (by omega)]
      rfl
  · rw [plainCopy, bufferRun_eq hdata]
    refine ⟨(bufferWrite_same cfg s w dstOffset data).fileSize, fun i hi => ?_⟩
    exact shown_bufferWrite hdata i (by omega)

lemma skipped_runs_show_iff {dstOffset : Nat} (hinside : dstOffset < w.fileSize) (current : Bytes) :
    let runs := packCopySkipUnchangedRuns dstOffset cfg.blockSize data current
    let after := runs.foldl (bufferRun cfg)
      (s, { w with fileSize := max w.fileSize (dstOffset + data.length) })
    let plain := plainCopy cfg s w dstOffset data
    (content cfg after.1 after.2 = content cfg plain.1 plain.2 ∧
        after.2.fileSize = plain.2.fileSize) ↔
      ∀ i < data.length, Unchanged cfg.blockSize data current i →
        shown cfg s w (dstOffset + i) = cell data i := by
  intro runs after plain
  have hbs := cfg.blockSize_pos
  obtain ⟨hplainSize, hplain⟩ := @plainCopy_shows cfg s w data dstOffset hinside
  have hruns (i : Nat) (hi : i < max w.fileSize (dstOffset + data.length)) :=
    @shown_bufferRuns cfg s { w with fileSize := max w.fileSize (dstOffset + data.length) } dstOffset
      data runs (packCopySkipUnchangedRuns_isRun hbs) (Nat.le_max_right _ _) i hi
  have hsize : after.2.fileSize = plain.2.fileSize :=
    (hruns dstOffset (by omega)).1.trans hplainSize.symm
  rw [and_iff_left hsize, content_eq_iff hsize, hplainSize]
  constructor
  · intro hsame i hi hunchanged
    have hskipped : ¬ Covered runs (dstOffset + i) := fun hcovered =>
      (packCopySkipUnchangedRuns_covered hbs hi).mp hcovered hunchanged
    have hshown := hsame (dstOffset + i) (by omega)
    rw [(hruns _ (by omega)).2.2 hskipped, hplain _ (by omega), if_pos (by omega)] at hshown
    rw [Nat.add_sub_cancel_left] at hshown
    exact hshown
  · intro hskipped i hi
    rw [hplain i hi]
    split
    next hin =>
      obtain ⟨k, rfl⟩ := Nat.exists_eq_add_of_le hin.1
      have hk : k < data.length := by omega
      rw [Nat.add_sub_cancel_left]
      by_cases hcovered : Covered runs (dstOffset + k)
      · rw [(hruns _ hi).2.1 hcovered, Nat.add_sub_cancel_left]
      · rw [(hruns _ hi).2.2 hcovered]
        exact hskipped k hk (not_not.mp fun hchanged =>
          hcovered ((packCopySkipUnchangedRuns_covered hbs hk).mpr hchanged))
    next hout =>
      refine (hruns i hi).2.2 fun ⟨r, hr, hlow, hhigh⟩ => hout ?_
      obtain ⟨a, hstart, hlength, -, -⟩ := packCopySkipUnchangedRuns_isRun hbs r hr
      omega

/-- The comparison sees what the destination shows.  A write state can be read unless
a short block makes the read panic; without one, the stored bytes below the size and
zeros behind it are what the destination shows wherever they repeat the payload. -/
def ComparesWhatIsShown (cfg : Config) (s : State) (f : Nat) (existing : Option WriteState)
    (size dstOffset : Nat) (data : Bytes) : Prop :=
  match existing with
  | some w =>
    dstOffset < w.fileSize →
      ¬ BlockTooShort cfg s { w with fileSize := max w.fileSize (dstOffset + data.length) }
        dstOffset data.length
  | none =>
    dstOffset < size → ∀ i < data.length,
      (∀ j < data.length, j / cfg.blockSize = i / cfg.blockSize →
        storedWithin cfg s f size (dstOffset + j) = cell data j) →
      shown cfg s (newWriteState f size false) (dstOffset + i) =
        storedWithin cfg s f size (dstOffset + i)

/-- The path with `copy_dedupe` returns, and leaves what the plain path leaves. -/
def CopiesAsPlain (cfg : Config) (s : State) (f : Nat) (existing : Option WriteState) (size : Nat)
    (bounds : CopyRangeBounds) (data : Bytes) : Prop :=
  let plain := plainCopy cfg s (existing.getD (newWriteState f size false)) bounds.dstOffset data
  ∃ after, s.dedupedCopy cfg f existing size bounds data = some after ∧
    content cfg after.1 after.2 = content cfg plain.1 plain.2 ∧
    after.2.fileSize = plain.2.fileSize

section

variable (hplaces : bounds.Places cfg.blockSize data)

include hplaces

lemma copiesAsPlain_iff {current : Bytes}
    (hw : existing.getD (newWriteState f size false) = w) (hinside : bounds.dstOffset < w.fileSize)
    (hcurrent : s.readCopyDestinationSlice cfg existing f bounds w.fileSize = some current) :
    s.CopiesAsPlain cfg f existing size bounds data ↔
      ∀ i < data.length, Unchanged cfg.blockSize data current i →
        shown cfg s w (bounds.dstOffset + i) = cell data i := by
  refine Iff.trans ?_ (skipped_runs_show_iff hinside current)
  rw [CopiesAsPlain, dedupedCopy, hw, if_pos hinside, hcurrent, hplaces.dstEndOffset,
    Option.map_some]
  exact ⟨fun ⟨_, hafter, h⟩ => Option.some.inj hafter ▸ h, fun h => ⟨_, rfl, h⟩⟩

lemma copiesAsPlain_of_some (hinside : bounds.dstOffset < w.fileSize) :
    s.CopiesAsPlain cfg f (some w) size bounds data ↔ ¬ BlockTooShort cfg s
      { w with fileSize := max w.fileSize (bounds.dstOffset + data.length) }
      bounds.dstOffset data.length := by
  constructor
  · rintro ⟨after, hafter, -⟩ hshort
    rw [dedupedCopy, Option.getD_some, if_pos hinside, readCopyDestinationSlice,
      hplaces.dstEndOffset, hplaces.copyLen, readFromWriteState_of_blockTooShort hshort] at hafter
    cases hafter
  · intro hlong
    obtain ⟨current, hcurrent, hcell⟩ :=
      @readCopyDestinationSlice_of_some cfg s w f w.fileSize bounds data hplaces hlong
    refine (copiesAsPlain_iff hplaces Option.getD_some hinside hcurrent).mpr fun i hi hunchanged => ?_
    exact (hcell i hi).symm.trans (hunchanged i hi rfl)

lemma copiesAsPlain_of_none (hinside : bounds.dstOffset < size) :
    s.CopiesAsPlain cfg f none size bounds data ↔ ∀ i < data.length,
      (∀ j < data.length, j / cfg.blockSize = i / cfg.blockSize →
        storedWithin cfg s f size (bounds.dstOffset + j) = cell data j) →
      shown cfg s (newWriteState f size false) (bounds.dstOffset + i) =
        storedWithin cfg s f size (bounds.dstOffset + i) := by
  obtain ⟨current, hcurrent, hcell⟩ :=
    @readCopyDestinationSlice_of_none cfg s f size bounds data hplaces hinside
  have hunchanged (i : Nat) : Unchanged cfg.blockSize data current i ↔
      ∀ j < data.length, j / cfg.blockSize = i / cfg.blockSize →
        storedWithin cfg s f size (bounds.dstOffset + j) = cell data j :=
    forall_congr' fun j => forall_congr' fun hj => by rw [hcell j hj]
  rw [copiesAsPlain_iff hplaces Option.getD_none hinside hcurrent]
  refine forall_congr' fun i => forall_congr' fun hi => ?_
  rw [hunchanged i]
  refine forall_congr' fun hrepeats => ?_
  rw [hrepeats i hi rfl]

end

/-- **Copies that leave out unchanged chunks.**  The runs are pieces of the payload at
their places, ascending, and never adjacent.  Buffering them instead of the payload
leaves the same content and size exactly when the comparison sees what the destination
shows. -/
theorem deduped_copy_equals_plain_iff (cfg : Config) (s : State) (f : Nat)
    (existing : Option WriteState) (size : Nat) (bounds : CopyRangeBounds) (data : Bytes)
    (hplaces : bounds.Places cfg.blockSize data) :
    (s.CopiesAsPlain cfg f existing size bounds data ∧
        ∀ current, (∀ r ∈ packCopySkipUnchangedRuns bounds.dstOffset cfg.blockSize data current,
            IsRun bounds.dstOffset data r) ∧
          (packCopySkipUnchangedRuns bounds.dstOffset cfg.blockSize data current).Pairwise
            fun a b => a.1 + a.2.length < b.1) ↔
      ComparesWhatIsShown cfg s f existing size bounds.dstOffset data := by
  have hbs := cfg.blockSize_pos
  rw [and_iff_left fun current =>
    ⟨packCopySkipUnchangedRuns_isRun hbs, packCopySkipUnchangedRuns_separate hbs⟩]
  by_cases hinside : bounds.dstOffset < (existing.getD (newWriteState f size false)).fileSize
  · cases existing with
    | some w => exact (copiesAsPlain_of_some hplaces hinside).trans (imp_iff_right hinside).symm
    | none => exact (copiesAsPlain_of_none hplaces hinside).trans (imp_iff_right hinside).symm
  · -- behind the end of the file both paths buffer the payload
    have hplain : s.CopiesAsPlain cfg f existing size bounds data :=
      ⟨_, by rw [dedupedCopy, if_neg hinside], rfl, rfl⟩
    refine iff_of_true hplain ?_
    cases existing with
    | some w => exact fun h => absurd h hinside
    | none => exact fun h => absurd h hinside

end

def threeBytesToOne : CopyRangeBounds where
  srcOffset := 0
  dstOffset := 1
  copyLen := 3
  srcEndOffset := 3
  dstEndOffset := 4
  srcFirstBlock := 0
  srcLastBlock := 0
  dstFirstBlock := 0
  dstLastBlock := 0

theorem deduped_copy_equals_plain_iff_changed :
    (mounted staleTail).CopiesAsPlain fourByteBlocks 1 none 2 threeBytesToOne [2, 0, 5] := by
  have hplaces : threeBytesToOne.Places fourByteBlocks.blockSize [2, 0, 5] := ⟨rfl, rfl, rfl, rfl⟩
  refine ((deduped_copy_equals_plain_iff fourByteBlocks (mounted staleTail) 1 none 2 threeBytesToOne
    [2, 0, 5] hplaces).mpr fun _ i hi hrepeats => ?_).1
  -- the last byte of the only chunk is changed
  have hlast := hrepeats 2 (by decide) (by
    change 2 / 4 = i / 4
    have : i < 3 := hi
    omega)
  exact absurd hlast (by decide)

/-- The bytes of the payload behind the end of the file are zeros, as the comparison
takes the destination to be; the file grows over the stale bytes. -/
theorem deduped_copy_exposes_stale_tail :
    let cfg := { fourByteBlocks with copyDedupe := some (1, 0) }
    let plain := plainCopy cfg (mounted staleTail) (newWriteState 1 2 false) 1 [2, 0, 0]
    copyRangeBounds 4 0 1 3 3 = some threeBytesToOne ∧
      copyDedupeEnabledForLen cfg threeBytesToOne.copyLen = true ∧
      content cfg plain.1 plain.2 = [1, 2, 0, 0] ∧
      ((mounted staleTail).dedupedCopy cfg 1 none 2 threeBytesToOne [2, 0, 0]).map
        (fun after => content cfg after.1 after.2) = some [1, 2, 9, 9] := by
  decide

end State

end Fod.Data
