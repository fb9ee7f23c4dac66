import Fod.Data.Buffer
import Fod.Data.Stored

/-!
# What a buffer shows

A write state shows its dirty blocks, and the stored file behind them.  The recent
blocks and the read cache hold stored bytes, so a read that takes a block from them
sees the same.
-/

namespace Fod.Data

open ZeroPadded BlockMap

namespace State

variable {cfg : Config} {s : State} {w : WriteState}

def shown (cfg : Config) (s : State) (w : WriteState) (i : Nat) : Byte :=
  cellOf cfg.blockSize (s.overlayBlock cfg w) i

def view (bs : Nat) (s : State) (w : WriteState) (i : Nat) : Byte :=
  cellOf bs (fun b => (w.blocks.lookup b).or (s.db.find w.file b)) i

structure Cached (cfg : Config) (s : State) : Prop where
  recent : ∀ {f b block}, s.recentWriteBlocks.lookup (f, b) = some block →
    Agrees cfg.blockSize b block (s.db.cell cfg.blockSize f)
  read : ∀ {f b block}, s.readCache.lookup (f, b) = some block →
    Agrees cfg.blockSize b block (s.db.cell cfg.blockSize f)
  metadata : ∀ {fh handle n}, s.handles.lookup fh = some handle → handle.readMetadata = some n →
    s.db.fileSize handle.file = some n

lemma view_of_dirty {bs i : Nat} {block : Bytes} (h : w.blocks.lookup (i / bs) = some block) :
    view bs s w i = cell block (i % bs) := by
  rw [view, cellOf, h, Option.some_or, Option.getD_some]

lemma view_of_clean {bs i : Nat} (h : w.blocks.lookup (i / bs) = none) :
    view bs s w i = s.db.cell bs w.file i := by
  rw [view, cellOf, h, Option.none_or, Db.cell, cellOf]

lemma overlayBlock_of_dirty {b : Nat} {block : Bytes} (h : w.blocks.lookup b = some block) :
    s.overlayBlock cfg w b = some block := by
  rw [overlayBlock, h, Option.some_or]

lemma shown_of_overlayBlock {i : Nat} (h : s.overlayBlock cfg w (i / cfg.blockSize) = none) :
    shown cfg s w i = 0 :=
  cellOf_eq_zero h

lemma overlayBlock_setBlock (b b' : Nat) (block : Bytes) :
    s.overlayBlock cfg (w.setBlock b block) b' =
      if b' = b then some block else s.overlayBlock cfg w b' := by
  have hlookup : (w.setBlock b block).blocks.lookup b' =
      if b' = b then some block else w.blocks.lookup b' := Table.lookup_insert_eq_ite _ _ _ _
  rw [overlayBlock, hlookup]
  split <;> rfl

lemma shown_setBlock {i b : Nat} (block : Bytes) :
    shown cfg s (w.setBlock b block) i =
      if i / cfg.blockSize = b then cell block (i % cfg.blockSize) else shown cfg s w i := by
  rw [shown, cellOf, overlayBlock_setBlock]
  split <;> rfl

lemma shown_eq_view (h : ∀ {b block}, s.recentWriteBlocks.lookup (w.file, b) = some block →
      Agrees cfg.blockSize b block (s.db.cell cfg.blockSize w.file)) (i : Nat) :
    shown cfg s w i = view cfg.blockSize s w i := by
  have hbs := cfg.blockSize_pos
  cases hdirty : w.blocks.lookup (i / cfg.blockSize) with
  | some block =>
    rw [shown, cellOf, overlayBlock_of_dirty hdirty, view_of_dirty hdirty, Option.getD_some]
  | none =>
    rw [view_of_clean hdirty, shown, cellOf, overlayBlock, hdirty, Option.none_or]
    cases hrecent : s.recentWriteBlock cfg w.file (i / cfg.blockSize) with
    | some block =>
      rw [recentWriteBlock] at hrecent
      split at hrecent
      · cases hrecent
      · exact (h hrecent).cell hbs rfl
    | none =>
      rw [Option.none_or]
      cases hload : s.db.loadBlock cfg.blockSize w.file (i / cfg.blockSize) with
      | some block => exact (Db.loadBlock_agrees hload).cell hbs rfl
      | none => rw [Option.getD_none, cell_nil, Db.cell_of_loadBlock hload]

lemma loadExistingTruncateBoundaryBlock_eq (b : Nat) :
    s.loadExistingTruncateBoundaryBlock cfg w b = s.overlayBlock cfg w b := by
  rw [loadExistingTruncateBoundaryBlock, overlayBlock]
  cases w.blocks.lookup b <;> cases s.recentWriteBlock cfg w.file b <;> rfl

lemma loadWriteBlock_eq (b : Nat) :
    s.loadWriteBlock cfg w b = (s.overlayBlock cfg w b).getD (List.replicate cfg.blockSize 0) := by
  rw [loadWriteBlock, overlayBlock]
  cases w.blocks.lookup b <;> cases s.recentWriteBlock cfg w.file b <;> rfl

lemma loadWriteBlock_agrees (b : Nat) :
    Agrees cfg.blockSize b (s.loadWriteBlock cfg w b) (shown cfg s w) := by
  rw [loadWriteBlock_eq]
  cases hblock : s.overlayBlock cfg w b with
  | some block => exact agrees_of_find hblock
  | none =>
    refine .of_cell fun i hi => ?_
    rw [Option.getD_none, cell_replicate_zero, shown_of_overlayBlock (hi ▸ hblock)]

/-! ## Buffering a write -/

section

variable {original offset b : Nat} {data : Bytes}

lemma cell_writeBase {sliceStart sliceEnd : Nat} (src : Bytes) {j : Nat} (hj : j < cfg.blockSize)
    (hout : ¬ (sliceStart ≤ j ∧ j < sliceEnd))
    (hzero : original ≤ b * cfg.blockSize → sliceEnd ≤ j →
      shown cfg s w (b * cfg.blockSize + j) = 0) :
    cell (s.writeBase cfg w original b sliceStart sliceEnd src) j =
      shown cfg s w (b * cfg.blockSize + j) := by
  rw [writeBase]
  split
  · omega
  split
  next block hdirty => exact agrees_of_find (overlayBlock_of_dirty hdirty) j hj
  next hclean =>
    split
    next hbeyond => rw [cell_replicate_zero, hzero (by omega) (by omega)]
    next => exact loadWriteBlock_agrees b j hj

/-- The block that the loop writes in the place of the block `b`. -/
def writtenBlock (cfg : Config) (s : State) (original offset : Nat) (data : Bytes) (w : WriteState)
    (b : Nat) : Bytes :=
  let writeStart := max offset (b * cfg.blockSize)
  let writeEnd := min (offset + data.length) (b * cfg.blockSize + cfg.blockSize)
  let src := slice data (writeStart - offset) (writeEnd - offset)
  let base := s.writeBase cfg w original b (writeStart - b * cfg.blockSize)
    (writeEnd - b * cfg.blockSize) src
  patch (if base.length < cfg.blockSize then fit base cfg.blockSize else base)
    (writeStart - b * cfg.blockSize) src

lemma cell_writtenBlock {i : Nat} (hb : i / cfg.blockSize = b)
    (hlow : offset < b * cfg.blockSize + cfg.blockSize) (hhigh : b * cfg.blockSize < offset + data.length)
    (hdata : 0 < data.length) (hzero : original ≤ i → offset + data.length ≤ i → shown cfg s w i = 0) :
    cell (writtenBlock cfg s original offset data w b) (i % cfg.blockSize) =
      if offset ≤ i ∧ i < offset + data.length then cell data (i - offset) else shown cfg s w i := by
  have hj := Nat.mod_lt i cfg.blockSize_pos
  have hi : i = b * cfg.blockSize + i % cfg.blockSize := by
    rw [← hb, Nat.mul_comm, Nat.div_add_mod]
  generalize i % cfg.blockSize = j at hi hj ⊢
  dsimp only [writtenBlock]
  generalize hstart : max offset (b * cfg.blockSize) = writeStart
  generalize hend : min (offset + data.length) (b * cfg.blockSize + cfg.blockSize) = writeEnd
  generalize hsrc : slice data (writeStart - offset) (writeEnd - offset) = src
  generalize hbase : s.writeBase cfg w original b _ _ src = base
  have hlength : src.length = writeEnd - writeStart := by
    rw [← hsrc, length_slice]
    omega
  have hpadded : cell (if base.length < cfg.blockSize then fit base cfg.blockSize else base) j =
      cell base j := by
    split
    next => rw [cell_fit, if_pos hj]
    next => rfl
  rw [cell_patch, hpadded, hlength]
  · by_cases hin : offset ≤ i ∧ i < offset + data.length
    · rw [if_pos (by omega), if_pos hin, ← hsrc, cell_slice, if_pos (by omega)]
      congr 1
      omega
    · rw [if_neg (by omega), if_neg hin, ← hbase, hi]
      refine cell_writeBase src hj (by omega) fun _ _ => ?_
      rw [← hi]
      exact hzero (by omega) (by omega)
  · rw [hlength]
    split
    next => rw [length_fit]; omega
    next => omega

/-- What the loop keeps with each block that it reaches. -/
lemma updateBlocks_rule {P : Nat → WriteState → Prop} (hdata : 0 < data.length) (n : Nat) {cursor : Nat}
    (hcursor : 0 < n → cursor = max offset (b * cfg.blockSize) - offset)
    (hlow : offset < b * cfg.blockSize + cfg.blockSize)
    (hhigh : ∀ k < n, (b + k) * cfg.blockSize < offset + data.length) (hw : P b w)
    (hset : ∀ c w, offset < c * cfg.blockSize + cfg.blockSize → c * cfg.blockSize < offset + data.length →
      P c w → P (c + 1) (w.setBlock c (writtenBlock cfg s original offset data w c))) :
    P (b + n) (s.updateBlocks cfg original offset data (List.range' b n) cursor w) := by
  induction n generalizing b cursor w with
  | zero => exact hw
  | succ n ih =>
    have hbs := cfg.blockSize_pos
    have hthis := hhigh 0 (Nat.succ_pos n)
    rw [Nat.add_zero] at hthis
    have hat := hcursor (Nat.succ_pos n)
    have hsucc : (b + 1) * cfg.blockSize = b * cfg.blockSize + cfg.blockSize := Nat.succ_mul _ _
    have hnext := hset b w hlow hthis hw
    rw [writtenBlock] at hnext
    generalize hws : max offset (b * cfg.blockSize) = writeStart at hat hnext
    generalize hwe : min (offset + data.length) (b * cfg.blockSize + cfg.blockSize) = writeEnd at hnext
    have hadvance : cursor + (writeEnd - b * cfg.blockSize - (writeStart - b * cfg.blockSize)) =
        writeEnd - offset := by omega
    rw [List.range'_succ, updateBlocks]
    simp only [hws, hwe, hadvance]
    rw [if_neg (by omega), if_neg (by omega), hat, ← Nat.add_assoc, Nat.add_right_comm]
    refine ih ?_ (by omega) ?_ hnext
    · intro hn
      have hreach := hhigh 1 (by omega)
      omega
    · intro k hk
      have hreach := hhigh (k + 1) (by omega)
      rwa [← Nat.add_assoc, Nat.add_right_comm] at hreach

lemma bufferWrite_rule {P : Nat → WriteState → Prop} (hdata : data ≠ [])
    (hw : P (offset / cfg.blockSize) { w with fileSize := max w.fileSize (offset + data.length) })
    (hset : ∀ c w', offset < c * cfg.blockSize + cfg.blockSize → c * cfg.blockSize < offset + data.length →
      P c w' → P (c + 1) (w'.setBlock c (writtenBlock cfg s w.fileSize offset data w' c))) :
    P ((offset + data.length - 1) / cfg.blockSize + 1) (s.bufferWrite cfg w offset data) := by
  have hbs := cfg.blockSize_pos
  have hlength : 0 < data.length := List.length_pos_iff.mpr hdata
  have hlow := Nat.div_mul_le_self offset cfg.blockSize
  have hlast := Nat.div_mul_le_self (offset + data.length - 1) cfg.blockSize
  have horder := @Nat.div_le_div_right offset (offset + data.length - 1) cfg.blockSize (by omega)
  have hrun := updateBlocks_rule hlength
    ((offset + data.length - 1) / cfg.blockSize + 1 - offset / cfg.blockSize)
    (fun _ => by rw [Nat.max_eq_left hlow, Nat.sub_self]) (Nat.lt_div_mul_add hbs) (fun k hk => ?_) hw hset
  · rwa [Nat.add_sub_cancel' (by omega)] at hrun
  · have hmul := Nat.mul_le_mul_right cfg.blockSize (by omega : offset / cfg.blockSize + k ≤
      (offset + data.length - 1) / cfg.blockSize)
    omega

end

lemma shown_bufferWrite {offset : Nat} {data : Bytes} (hdata : data ≠ []) (i : Nat)
    (hzero : w.fileSize ≤ i → offset + data.length ≤ i → shown cfg s w i = 0) :
    shown cfg s (s.bufferWrite cfg w offset data) i =
      if offset ≤ i ∧ i < offset + data.length then cell data (i - offset) else shown cfg s w i := by
  -- the blocks below `c` are written
  refine (bufferWrite_rule (P := fun c w' => shown cfg s w' i =
    if i / cfg.blockSize < c ∧ offset ≤ i ∧ i < offset + data.length then cell data (i - offset)
    else shown cfg s w i) hdata ?_ ?_).trans ?_
  · refine (if_neg fun hin => ?_).symm
    exact absurd (Nat.div_le_div_right hin.2.1) (Nat.not_le.mpr hin.1)
  · intro c w' hlow hhigh hw'
    rw [shown_setBlock]
    split
    next hc =>
      rw [cell_writtenBlock hc hlow hhigh (List.length_pos_iff.mpr hdata) fun hlarge hend => ?_, hw']
      · simp [hc]
      · rw [hw', if_neg (by omega)]
        exact hzero hlarge hend
    next hc =>
      rw [hw']
      exact if_congr (and_congr_left' (by omega)) rfl rfl
  · refine if_congr (and_iff_right_of_imp fun hin => ?_) rfl rfl
    exact Nat.lt_succ_of_le (Nat.div_le_div_right (by omega))

def readBlocks (cfg : Config) (s : State) (w : WriteState) (offset size : Nat) : Bytes :=
  let endOffset := min (offset + size) w.fileSize
  let first := offset / cfg.blockSize
  let last := (endOffset - 1) / cfg.blockSize
  if w.fileSize ≤ offset then []
  else
    BlockMap.assemble cfg.blockSize offset endOffset
      ((List.range' first (last + 1 - first)).filterMap fun b => (s.overlayBlock cfg w b).map (b, ·))

lemma length_readBlocks (offset size : Nat) :
    (readBlocks cfg s w offset size).length = min (offset + size) w.fileSize - offset := by
  rw [readBlocks]
  split
  · rw [List.length_nil]
    omega
  · rw [length_assemble]

lemma cell_readBlocks {offset size i : Nat} (hi : i < min (offset + size) w.fileSize - offset) :
    cell (readBlocks cfg s w offset size) i = shown cfg s w (offset + i) := by
  rw [readBlocks, if_neg (by omega)]
  generalize min (offset + size) w.fileSize = endOffset at hi ⊢
  refine cell_assemble cfg.blockSize_pos _ (fun row hrow => ?_) (fun j hj hmissing => ?_) hi
  · obtain ⟨b, _, hb⟩ := List.mem_filterMap.mp hrow
    obtain ⟨block, hblock, rfl⟩ := Option.map_eq_some_iff.mp hb
    exact agrees_of_find hblock
  · apply shown_of_overlayBlock
    by_contra hsome
    obtain ⟨block, hblock⟩ := Option.ne_none_iff_exists'.mp hsome
    apply hmissing
    have hfirst := Nat.div_le_div_right (c := cfg.blockSize) (Nat.le_add_right offset j)
    have hlast := Nat.div_le_div_right (c := cfg.blockSize) (by omega : offset + j ≤ endOffset - 1)
    refine List.mem_map.mpr ⟨(_, block), List.mem_filterMap.mpr
      ⟨(offset + j) / cfg.blockSize, ?_, ?_⟩, rfl⟩
    · exact List.mem_range'_1.mpr ⟨hfirst, by omega⟩
    · rw [hblock, Option.map_some]

def BlockTooShort (cfg : Config) (s : State) (w : WriteState) (offset size : Nat) : Prop :=
  let endOffset := min (offset + size) w.fileSize
  let first := offset / cfg.blockSize
  offset < endOffset ∧ first = (endOffset - 1) / cfg.blockSize ∧
    ∃ block ∈ (w.blocks.lookup first).or (s.recentWriteBlock cfg w.file first),
      block.length < endOffset - first * cfg.blockSize

lemma le_length_loadWriteBlock {b n : Nat} (hn : n ≤ cfg.blockSize)
    (hlong : ∀ block ∈ (w.blocks.lookup b).or (s.recentWriteBlock cfg w.file b), n ≤ block.length) :
    n ≤ (s.loadWriteBlock cfg w b).length := by
  rw [loadWriteBlock_eq, overlayBlock, ← Option.or_assoc]
  cases hblock : (w.blocks.lookup b).or (s.recentWriteBlock cfg w.file b) with
  | some block => exact hlong block hblock
  | none =>
    rw [Option.none_or, Db.loadBlock]
    cases s.db.find w.file b <;> simpa using hn

lemma readFromWriteState_eq {offset size : Nat} (hlong : ¬ BlockTooShort cfg s w offset size) :
    s.readFromWriteState cfg w offset size = some (readBlocks cfg s w offset size) := by
  have hbs := cfg.blockSize_pos
  by_cases hbeyond : w.fileSize ≤ offset
  · simp only [readFromWriteState, readBlocks, if_pos hbeyond]
  by_cases hsame : offset / cfg.blockSize = (min (offset + size) w.fileSize - 1) / cfg.blockSize
  · have hlow := Nat.div_mul_le_self offset cfg.blockSize
    have hhigh := Nat.lt_div_mul_add hbs (a := min (offset + size) w.fileSize - 1)
    rw [← hsame] at hhigh
    simp only [readFromWriteState, if_neg hbeyond, if_pos hsame]
    split
    next hempty =>
      have hnone : min (offset + size) w.fileSize - offset = 0 := by
        have hnext := Nat.lt_div_mul_add hbs (a := offset)
        omega
      rw [hnone, List.replicate_zero, List.eq_nil_of_length_eq_zero ((length_readBlocks _ _).trans hnone)]
    next hsome =>
      have hcut : min (min (offset + size) w.fileSize)
          (offset / cfg.blockSize * cfg.blockSize + cfg.blockSize) =
          min (offset + size) w.fileSize := by omega
      rw [hcut] at hsome ⊢
      have hblock : min (offset + size) w.fileSize - offset / cfg.blockSize * cfg.blockSize ≤
          (s.loadWriteBlock cfg w (offset / cfg.blockSize)).length := by
        refine le_length_loadWriteBlock (by omega) fun block hmem => ?_
        by_contra hshort
        exact hlong ⟨by omega, hsame, block, hmem, by omega⟩
      rw [if_neg (by omega)]
      have hagrees : Agrees cfg.blockSize (offset / cfg.blockSize)
          (s.loadWriteBlock cfg w (offset / cfg.blockSize)) (shown cfg s w) :=
        loadWriteBlock_agrees _
      generalize s.loadWriteBlock cfg w (offset / cfg.blockSize) = block at hblock hagrees ⊢
      have hroom : 0 + (slice block (offset - offset / cfg.blockSize * cfg.blockSize)
          (min (offset + size) w.fileSize - offset / cfg.blockSize * cfg.blockSize)).length ≤
          (List.replicate (min (offset + size) w.fileSize - offset) (0 : Byte)).length := by
        rw [length_slice, List.length_replicate]
        omega
      refine congrArg some (ext_cell ?_ fun i hi => ?_)
      · rw [length_patch hroom, List.length_replicate, length_readBlocks]
      · rw [length_patch hroom, List.length_replicate] at hi
        rw [cell_readBlocks hi, cell_patch hroom, length_slice, if_pos (by omega), cell_slice,
          if_pos (by omega), hagrees _ (by omega)]
        congr 1
        omega
  · simp only [readFromWriteState, readBlocks, if_neg hbeyond, if_neg hsame]

end State

end Fod.Data
