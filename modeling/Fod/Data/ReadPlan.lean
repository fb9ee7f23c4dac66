import Fod.Data.Plans
import Fod.ReadCache.Model

/-!
# Planned reads

`read_slice_plan` chooses the blocks that a read fetches: those of the requested
range and some more for read-ahead.  `assemble_read_slice` puts the reply together
from the blocks that exist.  The arithmetic of both saturates at `u64::MAX`.
-/

namespace Fod.Data

open ZeroPadded
open ReadCache (u64Max saturatingAdd)

def saturatingMul (a b : Nat) : Nat := min (a * b) u64Max

def readAheadBlocks (readAhead sequentialReadAhead streak readCacheLimit : Nat)
    (sequential : Bool) : Nat :=
  let effective :=
    if sequential then max readAhead (saturatingMul sequentialReadAhead (max streak 1))
    else readAhead
  min effective (readCacheLimit - 1)

structure ReadFetchBoundsInput where
  totalBlocks : Nat
  requestedFirst : Nat
  requestedLast : Nat
  readAheadBlocksValue : Nat
  sequentialReadAheadBlocksValue : Nat
  streak : Nat
  readCacheLimitBlocks : Nat
  sequential : Bool
  smallFileThresholdBlocks : Nat

def readFetchBounds (input : ReadFetchBoundsInput) : Option (Nat × Nat) :=
  if input.totalBlocks = 0 then none
  else if input.totalBlocks ≤ input.smallFileThresholdBlocks then some (0, input.totalBlocks - 1)
  else
    let readAhead := readAheadBlocks input.readAheadBlocksValue
      input.sequentialReadAheadBlocksValue input.streak input.readCacheLimitBlocks
      input.sequential
    some (input.requestedFirst,
      min (saturatingAdd input.requestedLast readAhead) (input.totalBlocks - 1))

structure ReadSlicePlanInput where
  fileSize : Nat
  offset : Nat
  size : Nat
  blockSize : Nat
  readAheadBlocksValue : Nat
  sequentialReadAheadBlocksValue : Nat
  streak : Nat
  readCacheLimitBlocks : Nat
  sequential : Bool
  smallFileThresholdBlocks : Nat

namespace ReadSlicePlanInput

def endOffset (input : ReadSlicePlanInput) : Nat :=
  min (saturatingAdd input.offset input.size) input.fileSize

def bounds (input : ReadSlicePlanInput) (totalBlocks : Nat) : ReadFetchBoundsInput :=
  let bs := max input.blockSize 1
  { totalBlocks
    requestedFirst := input.offset / bs
    requestedLast := max ((input.endOffset - 1) / bs) (input.offset / bs)
    readAheadBlocksValue := input.readAheadBlocksValue
    sequentialReadAheadBlocksValue := input.sequentialReadAheadBlocksValue
    streak := input.streak
    readCacheLimitBlocks := input.readCacheLimitBlocks
    sequential := input.sequential
    smallFileThresholdBlocks := input.smallFileThresholdBlocks }

end ReadSlicePlanInput

def readSlicePlan (input : ReadSlicePlanInput) : Option (Nat × Nat × Nat) :=
  if input.size = 0 ∨ input.fileSize ≤ input.offset then none
  else
    let totalBlocks := blockCountForLength input.fileSize (max input.blockSize 1)
    if totalBlocks = 0 then none
    else (readFetchBounds (input.bounds totalBlocks)).map fun range => (totalBlocks, range)

def padBlockBytes (payload : Bytes) (usedLen bs : Nat) : Bytes :=
  let bs := max bs 1
  fit (payload.take (min usedLen bs)) bs

def copyBlockU64 (bs offset endOffset : Nat) (output : Bytes) (row : Nat × Bytes) : Bytes :=
  let blockStart := saturatingMul row.1 bs
  let blockEnd := saturatingAdd blockStart bs
  let copyStart := max offset blockStart
  let copyEnd := min endOffset blockEnd
  let srcStart := copyStart - blockStart
  let srcEnd := min (copyEnd - blockStart) row.2.length
  let dstStart := copyStart - offset
  let copyLen := min (srcEnd - srcStart) (output.length - dstStart)
  if copyEnd ≤ copyStart ∨ row.2.length ≤ srcStart ∨ copyLen = 0 then output
  else patch output dstStart (slice row.2 srcStart (srcStart + copyLen))

def assembleReadSliceU64 (fetchFirst fetchLast offset endOffset bs : Nat)
    (blocks : List (Nat × Bytes)) : Bytes :=
  if fetchLast < fetchFirst then []
  else (blocks.filter fun row => fetchFirst ≤ row.1 && row.1 ≤ fetchLast).foldl
    (copyBlockU64 (max bs 1) offset endOffset) (List.replicate (endOffset - offset) 0)

def plannedRead (input : ReadSlicePlanInput) (fetch : Nat → Nat → List (Nat × Bytes)) : Bytes :=
  match readSlicePlan input with
  | none => []
  | some (_, first, last) =>
    assembleReadSliceU64 first last input.offset input.endOffset input.blockSize (fetch first last)

section

variable {bs offset endOffset first last : Nat} {output : Bytes} {row : Nat × Bytes}

lemma copyBlockU64_eq (hstart : row.1 * bs ≤ u64Max) (hend : endOffset ≤ u64Max) :
    copyBlockU64 bs offset endOffset output row =
      BlockMap.copyBlock bs offset endOffset output row := by
  have hblock : saturatingMul row.1 bs = row.1 * bs := Nat.min_eq_left hstart
  have hstop : min endOffset (saturatingAdd (row.1 * bs) bs) = min endOffset (row.1 * bs + bs) := by
    rw [saturatingAdd]
    omega
  simp [copyBlockU64, BlockMap.copyBlock, hblock, hstop]

lemma assembleReadSliceU64_eq (hbs : 0 < bs) (hend : endOffset ≤ u64Max)
    (hlast : last * bs ≤ u64Max) (blocks : List (Nat × Bytes)) :
    assembleReadSliceU64 first last offset endOffset bs blocks =
      assembleReadSlice first last offset endOffset bs blocks := by
  rw [assembleReadSliceU64, assembleReadSlice, BlockMap.assemble, Nat.max_eq_left hbs]
  split
  next => rfl
  next =>
    refine List.foldl_ext _ _ _ fun output row hrow => ?_
    have hle : row.1 ≤ last := by
      have hrange := (List.mem_filter.mp hrow).2
      simp only [Bool.and_eq_true, decide_eq_true_eq] at hrange
      exact hrange.2
    exact copyBlockU64_eq ((Nat.mul_le_mul_right bs hle).trans hlast) hend

end

/-! ## The plan -/

section

variable {input : ReadSlicePlanInput} {total first last : Nat}

lemma endOffset_eq (hsize : input.fileSize ≤ u64Max) :
    input.endOffset = min (input.offset + input.size) input.fileSize := by
  rw [ReadSlicePlanInput.endOffset, saturatingAdd]
  omega

structure Planned (input : ReadSlicePlanInput) (total first last : Nat) : Prop where
  total_eq : total = blockCountForLength input.fileSize input.blockSize
  first_le : first ≤ input.offset / input.blockSize
  le_last : (input.endOffset - 1) / input.blockSize ≤ last
  last_lt : last < blockCountForLength input.fileSize input.blockSize

lemma readSlicePlan_isSome (hbs : 0 < input.blockSize) (hsize : input.fileSize ≤ u64Max)
    (hread : 0 < input.size) (hoffset : input.offset < input.fileSize) :
    ∃ total first last, readSlicePlan input = some (total, first, last) ∧
      Planned input total first last := by
  have hend : input.endOffset = min (input.offset + input.size) input.fileSize :=
    endOffset_eq hsize
  have hlast : (input.endOffset - 1) / input.blockSize <
      blockCountForLength input.fileSize input.blockSize :=
    div_lt_blockCountForLength hbs (by omega)
  have hfirst : input.offset / input.blockSize ≤ (input.endOffset - 1) / input.blockSize :=
    Nat.div_le_div_right (by omega)
  have hmax : max input.blockSize 1 = input.blockSize := Nat.max_eq_left hbs
  have hblocks : (input.endOffset - 1) / input.blockSize ≤ u64Max :=
    (Nat.div_le_self _ _).trans (by omega)
  simp only [readSlicePlan, hmax, readFetchBounds, ReadSlicePlanInput.bounds]
  rw [if_neg (by omega), if_neg (Nat.ne_zero_of_lt hlast), if_neg (Nat.ne_zero_of_lt hlast)]
  split
  next =>
    exact ⟨_, _, _, rfl, rfl, Nat.zero_le _, Nat.le_sub_one_of_lt hlast,
      Nat.sub_one_lt (Nat.ne_zero_of_lt hlast)⟩
  next =>
    refine ⟨_, _, _, rfl, rfl, le_rfl, Nat.le_min.mpr ⟨?_, Nat.le_sub_one_of_lt hlast⟩,
      (Nat.min_le_right _ _).trans_lt (Nat.sub_one_lt (Nat.ne_zero_of_lt hlast))⟩
    rw [Nat.max_eq_left hfirst]
    exact Nat.le_min.mpr ⟨Nat.le_add_right _ _, hblocks⟩

lemma cell_padBlockBytes (hbs : 0 < input.blockSize) (data : Bytes) {j : Nat}
    (hj : j < input.blockSize) :
    cell (padBlockBytes data data.length input.blockSize) j = cell data j := by
  rw [padBlockBytes, Nat.max_eq_left hbs, cell_fit, if_pos hj, cell_take]
  split
  next => rfl
  next hshort => rw [cell_of_length_le (by omega)]

structure BlocksOf (bs : Nat) (stored : Nat → Option Bytes) (first last : Nat)
    (rows : List (Nat × Bytes)) : Prop where
  found : ∀ row ∈ rows, ∃ data, stored row.1 = some data ∧
    (row.2 = data ∨ row.2 = padBlockBytes data data.length bs)
  all : ∀ b, first ≤ b → b ≤ last → (stored b).isSome → b ∈ rows.map Prod.fst

lemma assembleReadSliceU64_blocks (hbs : 0 < input.blockSize) (hsize : input.fileSize ≤ u64Max)
    (h : Planned input total first last) {stored : Nat → Option Bytes}
    {rows : List (Nat × Bytes)} (hrows : BlocksOf input.blockSize stored first last rows) :
    assembleReadSliceU64 first last input.offset input.endOffset input.blockSize rows =
      (List.range (input.endOffset - input.offset)).map fun i =>
        BlockMap.cellOf input.blockSize stored (input.offset + i) := by
  have hend : input.endOffset ≤ u64Max := (Nat.min_le_right _ _).trans hsize
  have hagrees : ∀ row ∈ rows, BlockMap.Agrees input.blockSize row.1 row.2
      (BlockMap.cellOf input.blockSize stored) := by
    intro row hrow j hj
    obtain ⟨data, hdata, hpadded⟩ := hrows.found row hrow
    rw [← BlockMap.agrees_of_find hdata j hj]
    rcases hpadded with hplain | hpadded
    · rw [hplain]
    · rw [hpadded, cell_padBlockBytes hbs data hj]
  have hmissing : ∀ i, first ≤ i / input.blockSize → i / input.blockSize ≤ last →
      i / input.blockSize ∉ rows.map Prod.fst →
      BlockMap.cellOf input.blockSize stored i = 0 := by
    intro i hfirst hlast hnot
    refine BlockMap.cellOf_eq_zero (Option.not_isSome_iff_eq_none.mp fun hsome => hnot ?_)
    exact hrows.all _ hfirst hlast hsome
  have hlast : last * input.blockSize ≤ u64Max :=
    ((lt_blockCountForLength hbs).mp h.last_lt).le.trans hsize
  rw [assembleReadSliceU64_eq hbs hend hlast]
  have hlength : (assembleReadSlice first last input.offset input.endOffset input.blockSize
      rows).length = input.endOffset - input.offset :=
    length_assembleReadSlice fun _ => ⟨h.first_le, h.le_last⟩
  refine ext_cell (by simpa using hlength) fun i hi => ?_
  rw [hlength] at hi
  rw [cell_assembleReadSlice hbs ⟨h.first_le, h.le_last⟩ hagrees hmissing hi,
    cell_eq_getElem (by simpa using hi)]
  simp

end

lemma lt_blockCountForLength_iff_lt_ceil {n bs b : Nat} (hbs : 0 < bs) :
    b < blockCountForLength n bs ↔ b < (n + bs - 1) / bs := by
  rw [lt_blockCountForLength hbs, ← Nat.succ_le_iff (n := (n + bs - 1) / bs),
    Nat.le_div_iff_mul_le hbs, Nat.succ_mul]
  omega

/-- **Planned reads return exactly the requested bytes.**  The plan covers every
block of the requested range and no block behind the file, and the reply holds the
bytes of the range; blocks that are not stored, and what short blocks lack, read as
zero.  It is empty for a range that is empty or starts behind the file. -/
theorem planned_read_exact (input : ReadSlicePlanInput) (hbs : 1 ≤ input.blockSize)
    (hsize : input.fileSize ≤ u64Max) (stored : Nat → Option Bytes)
    (fetch : Nat → Nat → List (Nat × Bytes))
    (hfetch : ∀ first last, BlocksOf input.blockSize stored first last (fetch first last)) :
    let stop := min (input.offset + input.size) input.fileSize
    (input.offset < stop → ∃ total first last, readSlicePlan input = some (total, first, last) ∧
      (∀ i, input.offset ≤ i → i < stop →
        first ≤ i / input.blockSize ∧ i / input.blockSize ≤ last) ∧
      last < (input.fileSize + input.blockSize - 1) / input.blockSize) ∧
    plannedRead input fetch = (List.range (stop - input.offset)).map fun i =>
      BlockMap.cellOf input.blockSize stored (input.offset + i) := by
  rw [← endOffset_eq hsize]
  have hend := endOffset_eq hsize
  by_cases hread : input.offset < input.endOffset
  · obtain ⟨total, first, last, hplan, h⟩ :=
      readSlicePlan_isSome hbs hsize (by omega) (by omega)
    refine ⟨fun _ => ⟨total, first, last, hplan, fun i hlow hhigh => ⟨?_, ?_⟩, ?_⟩, ?_⟩
    · exact h.first_le.trans (Nat.div_le_div_right hlow)
    · exact (Nat.div_le_div_right (by omega)).trans h.le_last
    · exact (lt_blockCountForLength_iff_lt_ceil hbs).mp h.last_lt
    · rw [plannedRead, hplan]
      exact assembleReadSliceU64_blocks hbs hsize h (hfetch first last)
  · have hplan : readSlicePlan input = none := if_pos (by omega)
    refine ⟨fun hlt => absurd hlt hread, ?_⟩
    rw [plannedRead, hplan, Nat.sub_eq_zero_of_le (Nat.le_of_not_lt hread)]
    rfl

/-- A file of ten bytes in blocks of four: block 0 is a hole and block 1 is short. -/
theorem planned_read_exact_holes :
    plannedRead ⟨10, 3, 20, 4, 1, 2, 3, 8, true, 0⟩ (fun _ _ => [(1, [5, 6]), (2, [7, 8, 9, 9])]) =
      [0, 5, 6, 0, 0, 7, 8] := by
  refine (planned_read_exact _ (by decide) (by decide)
    (fun b => if b = 1 then some [5, 6] else if b = 2 then some [7, 8, 9, 9] else none) _
    fun first last => ⟨fun row hrow => ?_, fun b _ _ hb => ?_⟩).2.trans rfl
  · rcases List.mem_cons.mp hrow with rfl | hrow
    · exact ⟨_, rfl, .inl rfl⟩
    · obtain rfl := List.mem_singleton.mp hrow
      exact ⟨_, rfl, .inl rfl⟩
  · by_contra hnot
    simp only [List.map_cons, List.map_nil, List.mem_cons, List.not_mem_nil, or_false, not_or] at hnot
    simp [hnot.1, hnot.2] at hb

end Fod.Data
