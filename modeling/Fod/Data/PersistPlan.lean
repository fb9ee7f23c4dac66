import Fod.Data.Plans
import Fod.Lib.Counter

/-!
# The persist plan on machine words

`persist_plan.rs` saturates where a product or a sum may leave the 64 bits.  On such
words its functions are those of `Fod.Data.Plans`.
-/

namespace Fod.Data.PersistPlan

open Counter

structure PersistPlanInput where
  fileSize : Nat
  blockSize : Nat
  truncatePending : Bool
  dirtyBlocks : List Nat

structure PersistBlockPlan where
  totalBlocks : Nat
  truncateOnly : Bool
  blocks : List PersistBlockPlanEntry
  deriving DecidableEq

def blockCountForLength (length bs : Nat) (minimumOne : Bool) : Nat :=
  if length = 0 then if minimumOne then 1 else 0
  else
    let count := 1 + (length - 1) / max bs 1
    if minimumOne then max count 1 else count

def dirtyBlockSize (fileSize b bs : Nat) : Nat :=
  let bs := max bs 1
  let blockStart := saturatingMul b bs
  let blockEnd := min fileSize (saturatingAdd blockStart bs)
  blockEnd - blockStart

def contiguousRangesFrom (start fin : Nat) : List Nat → List (Nat × Nat)
  | [] => [(start, fin)]
  | v :: rest =>
    if v = saturatingAdd fin 1 then contiguousRangesFrom start v rest
    else (start, fin) :: contiguousRangesFrom v v rest

def contiguousRanges : List Nat → List (Nat × Nat)
  | [] => []
  | v :: rest => contiguousRangesFrom v v rest

def sortedContiguousRanges (values : List Nat) : List (Nat × Nat) :=
  contiguousRanges (values.insertionSort (· ≤ ·)).dedup

def planRange (fileSize bs total : Nat) (range : Nat × Nat) : List PersistBlockPlanEntry :=
  let start := min range.1 total
  let fin := min range.2 (total - 1)
  if fin < start then []
  else (List.range' start (fin + 1 - start)).filterMap fun b =>
    let usedLen := dirtyBlockSize fileSize b bs
    if usedLen = 0 then none else some ⟨b, usedLen⟩

def persistBlockPlan (input : PersistPlanInput) : PersistBlockPlan :=
  let bs := max input.blockSize 1
  let totalBlocks := blockCountForLength input.fileSize bs false
  let truncateOnly := input.truncatePending && input.dirtyBlocks.isEmpty
  { totalBlocks, truncateOnly
    blocks :=
      if truncateOnly then []
      else (sortedContiguousRanges input.dirtyBlocks).flatMap (planRange input.fileSize bs totalBlocks) }

section

variable {bs b n start fin total : Nat} {values : List Nat}

lemma blockCountForLength_eq (hbs : 0 < bs) :
    blockCountForLength n bs false = Data.blockCountForLength n bs := by
  simp [blockCountForLength, Data.blockCountForLength, Nat.max_eq_left hbs]

lemma blockCountForLength_le (n bs : Nat) : blockCountForLength n bs false ≤ n := by
  have := Nat.div_le_self (n - 1) (max bs 1)
  simp only [blockCountForLength]
  split <;> simp <;> omega

lemma dirtyBlockSize_eq (hbs : 0 < bs) (hn : n ≤ u64Max) :
    dirtyBlockSize n b bs = Data.dirtyBlockSize n b bs := by
  simp only [dirtyBlockSize, Data.dirtyBlockSize, saturatingMul, saturatingAdd,
    Nat.max_eq_left hbs]
  omega

/-- After a sort without repetitions the next value is greater, so that the saturated
successor of the greatest word is never met. -/
lemma contiguousRangesFrom_eq (hvalues : (fin :: values).Pairwise (· < ·))
    (hword : ∀ v ∈ values, v ≤ u64Max) :
    contiguousRangesFrom start fin values = Data.contiguousRangesFrom start fin values := by
  induction values generalizing start fin with
  | nil => rfl
  | cons v rest ih =>
    have hlt := (List.pairwise_cons.mp hvalues).1 v (by simp)
    have hle := hword v (by simp)
    have hnext : saturatingAdd fin 1 = fin + 1 := saturatingAdd_of_le (by omega)
    have htail := (List.pairwise_cons.mp hvalues).2
    have hrest : ∀ w ∈ rest, w ≤ u64Max := fun w hw => hword w (by simp [hw])
    simp [contiguousRangesFrom, Data.contiguousRangesFrom, hnext, ih htail hrest]

lemma pairwise_sorted (values : List Nat) :
    (values.insertionSort (· ≤ ·)).dedup.Pairwise (· < ·) := by
  have hsorted := (List.pairwise_insertionSort (· ≤ ·) values).sublist (List.dedup_sublist _)
  have hnodup := List.nodup_dedup (values.insertionSort (· ≤ ·))
  exact (hsorted.and hnodup).imp fun h => Nat.lt_of_le_of_ne h.1 h.2

lemma sortedContiguousRanges_eq (hword : ∀ v ∈ values, v ≤ u64Max) :
    sortedContiguousRanges values = Data.sortedContiguousRanges values := by
  have hsorted := pairwise_sorted values
  have hmem : ∀ v ∈ (values.insertionSort (· ≤ ·)).dedup, v ≤ u64Max := by
    simpa using hword
  unfold sortedContiguousRanges Data.sortedContiguousRanges
  cases hlist : (values.insertionSort (· ≤ ·)).dedup with
  | nil => rfl
  | cons v rest =>
    rw [hlist] at hsorted hmem
    exact contiguousRangesFrom_eq hsorted fun w hw => hmem w (by simp [hw])

lemma planRange_eq (hbs : 0 < bs) (hn : n ≤ u64Max) :
    planRange n bs (Data.blockCountForLength n bs) = Data.planRange n bs := by
  funext range
  simp only [planRange, Data.planRange, dirtyBlockSize_eq hbs hn]
  split
  next hnone => simp [show min range.2 (Data.blockCountForLength n bs - 1) + 1 -
      min range.1 (Data.blockCountForLength n bs) = 0 by omega]
  next => rfl

lemma persistBlockPlan_eq {input : PersistPlanInput} (hbs : 0 < input.blockSize)
    (hsize : input.fileSize ≤ u64Max) (hword : ∀ v ∈ input.dirtyBlocks, v ≤ u64Max) :
    persistBlockPlan input =
      { totalBlocks := Data.blockCountForLength input.fileSize input.blockSize
        truncateOnly := input.truncatePending && input.dirtyBlocks.isEmpty
        blocks := Data.persistBlockPlan input.fileSize input.blockSize input.truncatePending
          input.dirtyBlocks } := by
  simp only [persistBlockPlan, Data.persistBlockPlan, Nat.max_eq_left hbs,
    blockCountForLength_eq hbs, sortedContiguousRanges_eq hword, planRange_eq hbs hsize]

end

def Apart (r r' : Nat × Nat) : Prop := r.2 + 1 < r'.1

section

variable {start fin n bs : Nat}

lemma contiguousRangesFrom_apart {values : List Nat} (hle : start ≤ fin)
    (hvalues : (fin :: values).Pairwise (· < ·)) :
    (∀ r ∈ Data.contiguousRangesFrom start fin values, start ≤ r.1 ∧ r.1 ≤ r.2) ∧
      (Data.contiguousRangesFrom start fin values).Pairwise Apart := by
  induction values generalizing start fin with
  | nil => simp [Data.contiguousRangesFrom, hle]
  | cons v rest ih =>
    have hlt := (List.pairwise_cons.mp hvalues).1 v (by simp)
    have htail := (List.pairwise_cons.mp hvalues).2
    unfold Data.contiguousRangesFrom
    split
    next hnext => exact ih (by omega) htail
    next hgap =>
      obtain ⟨hbounds, hapart⟩ := ih le_rfl htail
      refine ⟨?_, List.pairwise_cons.mpr ⟨?_, hapart⟩⟩
      · intro r hr
        rcases List.mem_cons.mp hr with rfl | hr
        · exact ⟨le_rfl, hle⟩
        · exact ⟨by have := hbounds r hr; omega, (hbounds r hr).2⟩
      · intro r hr
        have := hbounds r hr
        simp only [Apart]
        omega

lemma sortedContiguousRanges_apart (values : List Nat) :
    (∀ r ∈ Data.sortedContiguousRanges values, r.1 ≤ r.2) ∧
      (Data.sortedContiguousRanges values).Pairwise Apart := by
  have hsorted := pairwise_sorted values
  unfold Data.sortedContiguousRanges
  cases hlist : (values.insertionSort (· ≤ ·)).dedup with
  | nil => simp [Data.contiguousRanges]
  | cons v rest =>
    rw [hlist] at hsorted
    obtain ⟨hbounds, hapart⟩ := contiguousRangesFrom_apart le_rfl hsorted
    exact ⟨fun r hr => (hbounds r hr).2, hapart⟩

lemma planRange_ascending (range : Nat × Nat) :
    (Data.planRange n bs range).Pairwise fun e e' => e.blockIndex < e'.blockIndex := by
  rw [Data.planRange]
  refine List.Pairwise.filterMap _ ?_ List.pairwise_lt_range'
  intro b b' hlt e he e' he'
  split at he <;> split at he' <;> cases he <;> cases he'
  exact hlt

lemma persistBlockPlan_ascending (hbs : 0 < bs) (truncatePending : Bool) (dirty : List Nat) :
    (Data.persistBlockPlan n bs truncatePending dirty).Pairwise
      fun e e' => e.blockIndex < e'.blockIndex := by
  obtain ⟨_, hapart⟩ := sortedContiguousRanges_apart dirty
  unfold Data.persistBlockPlan
  split
  next => exact .nil
  next =>
    refine List.pairwise_flatMap.mpr ⟨fun range _ => planRange_ascending range, ?_⟩
    refine hapart.imp fun happart e he e' he' => ?_
    have hlow := ((mem_planRange hbs).mp he).1
    have hhigh := ((mem_planRange hbs).mp he').1
    simp only [Apart] at happart
    omega

end

/-- The ranges are apart and cover the dirty blocks; the entries ascend, and there is
one for each dirty block under the end of the file. -/
theorem persistBlockPlan_exact (input : PersistPlanInput) (hbs : 0 < input.blockSize)
    (hsize : input.fileSize ≤ u64Max) (hword : ∀ v ∈ input.dirtyBlocks, v ≤ u64Max) :
    ((∀ r ∈ sortedContiguousRanges input.dirtyBlocks, r.1 ≤ r.2) ∧
      (sortedContiguousRanges input.dirtyBlocks).Pairwise (fun r r' => r.2 + 1 < r'.1) ∧
      ∀ b, (∃ r ∈ sortedContiguousRanges input.dirtyBlocks, r.1 ≤ b ∧ b ≤ r.2) ↔
        b ∈ input.dirtyBlocks) ∧
    (persistBlockPlan input).totalBlocks = input.fileSize ⌈/⌉ input.blockSize ∧
    (persistBlockPlan input).totalBlocks ≤ u64Max ∧
    (persistBlockPlan input).blocks.Pairwise (fun e e' => e.blockIndex < e'.blockIndex) ∧
    ∀ e, e ∈ (persistBlockPlan input).blocks ↔
      e.blockIndex ∈ input.dirtyBlocks ∧
        e.blockIndex < input.fileSize ⌈/⌉ input.blockSize ∧
        e.usedLen = min input.blockSize (input.fileSize - e.blockIndex * input.blockSize) := by
  have hceil : input.fileSize ⌈/⌉ input.blockSize =
      Data.blockCountForLength input.fileSize input.blockSize := by
    apply eq_of_forall_lt_iff
    intro b
    rw [lt_blockCountForLength hbs, ← Nat.not_le, ceilDiv_le_iff_le_mul hbs, Nat.not_le, Nat.mul_comm]
  obtain ⟨hbounds, hapart⟩ := sortedContiguousRanges_apart input.dirtyBlocks
  rw [sortedContiguousRanges_eq hword, persistBlockPlan_eq hbs hsize hword, hceil]
  refine ⟨⟨hbounds, hapart, fun b => mem_sortedContiguousRanges input.dirtyBlocks⟩, rfl, ?_,
    persistBlockPlan_ascending hbs _ _, fun e => ?_⟩
  · have hcount := blockCountForLength_le input.fileSize input.blockSize
    rw [blockCountForLength_eq hbs] at hcount
    exact hcount.trans hsize
  · rw [mem_persistBlockPlan hbs]
    refine and_congr_right fun _ => and_congr_right fun hlt => ?_
    have := (lt_blockCountForLength hbs).mp hlt
    rw [Data.dirtyBlockSize]
    omega

/-- The greatest index of all is dirty, and so is the last, short block. -/
theorem persistBlockPlan_greatest_word :
    persistBlockPlan ⟨10, 4, false, [u64Max, 2, 0, 2, 1, 3]⟩ = ⟨3, false, [⟨0, 4⟩, ⟨1, 4⟩, ⟨2, 2⟩]⟩ ∧
      (persistBlockPlan ⟨10, 4, false, [u64Max, 2, 0, 2, 1, 3]⟩).totalBlocks ≤ u64Max :=
  ⟨by decide, (persistBlockPlan_exact ⟨10, 4, false, [u64Max, 2, 0, 2, 1, 3]⟩ (by decide) (by decide)
    (by decide)).2.2.1⟩

end Fod.Data.PersistPlan
