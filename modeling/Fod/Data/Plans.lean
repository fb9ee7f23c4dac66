import Fod.Lib.BlockMap

/-!
# Plans for persisting and copying

The pure functions by which a flush chooses the rows that it writes, a read
assembles its reply, and a copy leaves out the chunks that do not change.
-/

namespace Fod.Data

open ZeroPadded

abbrev Byte := UInt8

abbrev Bytes := List Byte

def blockCountForLength (length bs : Nat) : Nat := if length = 0 then 0 else 1 + (length - 1) / bs

def dirtyBlockSize (fileSize b bs : Nat) : Nat := min fileSize (b * bs + bs) - b * bs

section

variable {bs b n : Nat}

lemma lt_blockCountForLength (hbs : 0 < bs) : b < blockCountForLength n bs ↔ b * bs < n := by
  rw [blockCountForLength]
  split
  next h => simp [h]
  next h =>
    rw [Nat.add_comm, Nat.lt_succ_iff, Nat.le_div_iff_mul_le hbs]
    omega

lemma div_lt_blockCountForLength (hbs : 0 < bs) {i : Nat} (hi : i < n) :
    i / bs < blockCountForLength n bs :=
  (lt_blockCountForLength hbs).mpr ((Nat.div_mul_le_self i bs).trans_lt hi)

lemma le_of_blockCountForLength_le (hbs : 0 < bs) {i : Nat}
    (h : blockCountForLength n bs ≤ i / bs) : n ≤ i := by
  by_contra hi
  exact absurd (div_lt_blockCountForLength hbs (Nat.lt_of_not_le hi)) (by omega)

lemma blockCountForLength_mono {m : Nat} (h : n ≤ m) :
    blockCountForLength n bs ≤ blockCountForLength m bs := by
  unfold blockCountForLength
  have hdiv := Nat.div_le_div_right (c := bs) (Nat.sub_le_sub_right h 1)
  generalize (n - 1) / bs = last at *
  generalize (m - 1) / bs = last' at *
  split_ifs <;> omega

lemma dirtyBlockSize_ne_zero (hbs : 0 < bs) :
    dirtyBlockSize n b bs ≠ 0 ↔ b < blockCountForLength n bs := by
  rw [lt_blockCountForLength hbs, dirtyBlockSize]
  omega

end

def contiguousRangesFrom (start fin : Nat) : List Nat → List (Nat × Nat)
  | [] => [(start, fin)]
  | v :: rest =>
    if v = fin + 1 then contiguousRangesFrom start v rest
    else (start, fin) :: contiguousRangesFrom v v rest

def contiguousRanges : List Nat → List (Nat × Nat)
  | [] => []
  | v :: rest => contiguousRangesFrom v v rest

def sortedContiguousRanges (values : List Nat) : List (Nat × Nat) :=
  contiguousRanges (values.insertionSort (· ≤ ·)).dedup

structure PersistBlockPlanEntry where
  blockIndex : Nat
  usedLen : Nat
  deriving DecidableEq

def planRange (fileSize bs : Nat) (range : Nat × Nat) : List PersistBlockPlanEntry :=
  let total := blockCountForLength fileSize bs
  let start := min range.1 total
  let fin := min range.2 (total - 1)
  (List.range' start (fin + 1 - start)).filterMap fun b =>
    if dirtyBlockSize fileSize b bs = 0 then none else some ⟨b, dirtyBlockSize fileSize b bs⟩

def persistBlockPlan (fileSize bs : Nat) (truncatePending : Bool) (dirty : List Nat) :
    List PersistBlockPlanEntry :=
  if truncatePending && dirty.isEmpty then []
  else (sortedContiguousRanges dirty).flatMap (planRange fileSize bs)

section

variable {bs b n start fin : Nat}

lemma mem_contiguousRangesFrom (h : start ≤ fin) (rest : List Nat) :
    (∃ r ∈ contiguousRangesFrom start fin rest, r.1 ≤ b ∧ b ≤ r.2) ↔
      (start ≤ b ∧ b ≤ fin) ∨ b ∈ rest := by
  induction rest generalizing start fin with
  | nil => simp [contiguousRangesFrom]
  | cons v rest ih =>
    rw [contiguousRangesFrom, List.mem_cons]
    split
    next hv =>
      rw [ih (by omega), ← or_assoc]
      apply or_congr _ Iff.rfl
      omega
    next =>
      rw [List.exists_mem_cons_iff, ih le_rfl, ← or_assoc, or_assoc]
      apply or_congr Iff.rfl
      apply or_congr _ Iff.rfl
      omega

lemma mem_sortedContiguousRanges (values : List Nat) :
    (∃ r ∈ sortedContiguousRanges values, r.1 ≤ b ∧ b ≤ r.2) ↔ b ∈ values := by
  have hsame : b ∈ (values.insertionSort (· ≤ ·)).dedup ↔ b ∈ values := by
    rw [List.mem_dedup, List.mem_insertionSort]
  rw [← hsame, sortedContiguousRanges]
  cases (values.insertionSort (· ≤ ·)).dedup with
  | nil => simp [contiguousRanges]
  | cons v rest =>
    rw [contiguousRanges, mem_contiguousRangesFrom le_rfl, List.mem_cons]
    apply or_congr _ Iff.rfl
    omega

lemma mem_planRange (hbs : 0 < bs) {range : Nat × Nat} {e : PersistBlockPlanEntry} :
    e ∈ planRange n bs range ↔
      (range.1 ≤ e.blockIndex ∧ e.blockIndex ≤ range.2) ∧ e.blockIndex < blockCountForLength n bs ∧
        e.usedLen = dirtyBlockSize n e.blockIndex bs := by
  simp only [planRange, List.mem_filterMap, List.mem_range'_1]
  constructor
  · rintro ⟨b, hb, he⟩
    split at he
    · cases he
    next hused =>
      cases he
      have hlt := (dirtyBlockSize_ne_zero hbs).mp hused
      refine ⟨?_, hlt, rfl⟩
      dsimp only
      omega
  · rintro ⟨hrange, hlt, hused⟩
    refine ⟨e.blockIndex, by omega, ?_⟩
    rw [if_neg ((dirtyBlockSize_ne_zero hbs).mpr hlt), ← hused]

lemma mem_persistBlockPlan (hbs : 0 < bs) {truncatePending : Bool} {dirty : List Nat}
    {e : PersistBlockPlanEntry} : e ∈ persistBlockPlan n bs truncatePending dirty ↔
      e.blockIndex ∈ dirty ∧ e.blockIndex < blockCountForLength n bs ∧
        e.usedLen = dirtyBlockSize n e.blockIndex bs := by
  rw [persistBlockPlan]
  split
  next h =>
    have hnone : dirty = [] := by simpa using (Bool.and_eq_true_iff.mp h).2
    simp [hnone]
  next =>
    rw [List.mem_flatMap, ← mem_sortedContiguousRanges dirty]
    simp only [mem_planRange hbs]
    constructor
    · rintro ⟨range, hmem, hrange, hrest⟩
      exact ⟨⟨range, hmem, hrange⟩, hrest⟩
    · rintro ⟨⟨range, hmem, hrange⟩, hrest⟩
      exact ⟨range, hmem, hrange, hrest⟩

end

def assembleReadSlice (fetchFirst fetchLast offset endOffset bs : Nat)
    (blocks : List (Nat × Bytes)) : Bytes :=
  if fetchLast < fetchFirst then []
  else BlockMap.assemble bs offset endOffset
    (blocks.filter fun row => fetchFirst ≤ row.1 && row.1 ≤ fetchLast)

section

variable {bs fetchFirst fetchLast offset endOffset : Nat} {blocks : List (Nat × Bytes)}
  {c : Nat → Byte}

lemma length_assembleReadSlice
    (hrange : offset < endOffset → fetchFirst ≤ offset / bs ∧ (endOffset - 1) / bs ≤ fetchLast) :
    (assembleReadSlice fetchFirst fetchLast offset endOffset bs blocks).length =
      endOffset - offset := by
  rw [assembleReadSlice]
  split
  next hnone =>
    by_contra hne
    have hlt : offset < endOffset := by simp at hne; omega
    have hmono : offset / bs ≤ (endOffset - 1) / bs := Nat.div_le_div_right (by omega)
    have := hrange hlt
    omega
  next => rw [BlockMap.length_assemble]

lemma cell_assembleReadSlice (hbs : 0 < bs)
    (hrange : fetchFirst ≤ offset / bs ∧ (endOffset - 1) / bs ≤ fetchLast)
    (hblocks : ∀ row ∈ blocks, BlockMap.Agrees bs row.1 row.2 c)
    (hmissing : ∀ i, fetchFirst ≤ i / bs → i / bs ≤ fetchLast → i / bs ∉ blocks.map Prod.fst →
      c i = 0) {i : Nat} (hi : i < endOffset - offset) :
    cell (assembleReadSlice fetchFirst fetchLast offset endOffset bs blocks) i = c (offset + i) := by
  have hinside : ∀ i < endOffset - offset,
      fetchFirst ≤ (offset + i) / bs ∧ (offset + i) / bs ≤ fetchLast := by
    intro i hi
    have hlow : offset / bs ≤ (offset + i) / bs := Nat.div_le_div_right (by omega)
    have hhigh : (offset + i) / bs ≤ (endOffset - 1) / bs := Nat.div_le_div_right (by omega)
    omega
  rw [assembleReadSlice, if_neg (by have := hinside i hi; omega)]
  apply BlockMap.cell_assemble hbs _ (fun row hrow => hblocks row (List.mem_of_mem_filter hrow)) _ hi
  intro k hk hnot
  refine hmissing _ (hinside k hk).1 (hinside k hk).2 fun hmem => hnot ?_
  simp only [List.mem_map, List.mem_filter] at hmem ⊢
  obtain ⟨row, hrow, hindex⟩ := hmem
  exact ⟨row, ⟨hrow, by simpa [hindex] using hinside k hk⟩, hindex⟩

end

/-! ## Copies -/

structure CopyRangeBounds where
  srcOffset : Nat
  dstOffset : Nat
  copyLen : Nat
  srcEndOffset : Nat
  dstEndOffset : Nat
  srcFirstBlock : Nat
  srcLastBlock : Nat
  dstFirstBlock : Nat
  dstLastBlock : Nat
  deriving DecidableEq

def copyRangeBounds (bs srcOffset dstOffset len srcSize : Nat) : Option CopyRangeBounds :=
  if srcSize ≤ srcOffset then none
  else
    let copyLen := min len (srcSize - srcOffset)
    if copyLen = 0 then none
    else some
      { srcOffset, dstOffset, copyLen
        srcEndOffset := srcOffset + copyLen
        dstEndOffset := dstOffset + copyLen
        srcFirstBlock := srcOffset / bs
        srcLastBlock := (srcOffset + copyLen - 1) / bs
        dstFirstBlock := dstOffset / bs
        dstLastBlock := (dstOffset + copyLen - 1) / bs }

def CopyRangeBounds.canAdoptWholeObject (bounds : CopyRangeBounds) (srcSize dstSize : Nat)
    (srcDirty dstDirty : Bool) : Bool :=
  bounds.srcOffset == 0 && bounds.dstOffset == 0 && bounds.copyLen == srcSize && dstSize == 0 &&
    !srcDirty && !dstDirty

/-- The loop of `pack_copy_skip_unchanged_runs` from `rel` on; `run` is the run that
is open, with its start.  A chunk of the destination is padded with zeros. -/
def packRunsFrom (dstOffset bs : Nat) (payload current : Bytes) :
    Nat → Nat → Option (Nat × Bytes) → List (Nat × Bytes)
  | 0, _, run => (run.map fun r => (dstOffset + r.1, r.2)).toList
  | fuel + 1, rel, run =>
    if rel < payload.length then
      let chunkLen := min (payload.length - rel) bs
      let chunk := slice payload rel (rel + chunkLen)
      if fit (current.drop rel) chunkLen = chunk then
        (run.map fun r => (dstOffset + r.1, r.2)).toList ++
          packRunsFrom dstOffset bs payload current fuel (rel + chunkLen) none
      else
        packRunsFrom dstOffset bs payload current fuel (rel + chunkLen)
          (some ((run.getD (rel, [])).1, (run.getD (rel, [])).2 ++ chunk))
    else (run.map fun r => (dstOffset + r.1, r.2)).toList

def packCopySkipUnchangedRuns (dstOffset bs : Nat) (payload current : Bytes) :
    List (Nat × Bytes) :=
  packRunsFrom dstOffset bs payload current payload.length 0 none

def IsRun (dstOffset : Nat) (payload : Bytes) (run : Nat × Bytes) : Prop :=
  ∃ a, run.1 = dstOffset + a ∧ a + run.2.length ≤ payload.length ∧ run.2 ≠ [] ∧
    run.2 = slice payload a (a + run.2.length)

private def OpenRun (payload : Bytes) (rel : Nat) (run : Nat × Bytes) : Prop :=
  run.1 < rel ∧ rel ≤ payload.length ∧ run.2 = slice payload run.1 rel

section

variable {dstOffset bs rel fuel : Nat} {payload current : Bytes} {run : Option (Nat × Bytes)}

private lemma OpenRun.length {r : Nat × Bytes} (h : OpenRun payload rel r) :
    r.2.length = rel - r.1 := by
  obtain ⟨_, hrel, hslice⟩ := h
  rw [hslice, length_slice]
  omega

private lemma OpenRun.isRun {r : Nat × Bytes} (h : OpenRun payload rel r) :
    IsRun dstOffset payload (dstOffset + r.1, r.2) := by
  have hlength := h.length
  obtain ⟨hlt, hrel, hslice⟩ := h
  refine ⟨r.1, rfl, ?_, ?_, ?_⟩
  · change r.1 + r.2.length ≤ _
    omega
  · intro hnil
    rw [show r.2 = [] from hnil] at hlength
    simp at hlength
    omega
  · change r.2 = slice payload r.1 (r.1 + r.2.length)
    have hend : r.1 + r.2.length = rel := by omega
    rw [hend, ← hslice]

private lemma slice_append_slice {a b e : Nat} (hab : a ≤ b) (hbe : b ≤ e) :
    slice payload a b ++ slice payload b e = slice payload a e := by
  rw [slice, slice, slice]
  apply List.ext_getElem?
  intro i
  rw [List.getElem?_append]
  simp only [List.getElem?_drop, List.getElem?_take, List.length_drop, List.length_take]
  grind

private lemma OpenRun.extend {chunkLen : Nat} (hchunk : 0 < chunkLen)
    (hroom : rel + chunkLen ≤ payload.length) (hrun : ∀ r ∈ run, OpenRun payload rel r) :
    OpenRun payload (rel + chunkLen) ((run.getD (rel, [])).1,
      (run.getD (rel, [])).2 ++ slice payload rel (rel + chunkLen)) := by
  cases run with
  | none =>
    refine ⟨?_, hroom, ?_⟩
    · change rel < rel + chunkLen
      omega
    · rfl
  | some r =>
    obtain ⟨hlt, _, hslice⟩ := hrun r rfl
    refine ⟨?_, hroom, ?_⟩
    · change r.1 < rel + chunkLen
      omega
    · change r.2 ++ _ = slice payload r.1 _
      rw [hslice, slice_append_slice (by omega) (by omega)]

private lemma close_isRun (hrun : ∀ r ∈ run, OpenRun payload rel r) :
    ∀ r ∈ (run.map fun r => (dstOffset + r.1, r.2)).toList, IsRun dstOffset payload r := by
  intro r hr
  obtain ⟨r', hr', rfl⟩ := Option.map_eq_some_iff.mp (Option.mem_toList.mp hr)
  exact (hrun r' hr').isRun

lemma packRunsFrom_isRun (hbs : 0 < bs) (hrun : ∀ r ∈ run, OpenRun payload rel r) :
    ∀ r ∈ packRunsFrom dstOffset bs payload current fuel rel run, IsRun dstOffset payload r := by
  induction fuel generalizing rel run with
  | zero => exact close_isRun hrun
  | succ fuel ih =>
    rw [packRunsFrom]
    dsimp only
    split
    next hrel =>
      split
      next =>
        intro r hr
        rcases List.mem_append.mp hr with hclosed | hrest
        · exact close_isRun hrun r hclosed
        · exact ih (by simp) r hrest
      next =>
        apply ih
        rintro r ⟨⟩
        exact OpenRun.extend (by omega) (by omega) hrun
    next => exact close_isRun hrun

def Covered (runs : List (Nat × Bytes)) (k : Nat) : Prop :=
  ∃ r ∈ runs, r.1 ≤ k ∧ k < r.1 + r.2.length

variable {i : Nat}

private lemma close_covered (hrun : ∀ r ∈ run, OpenRun payload rel r)
    (hi : ∃ r ∈ run, r.1 ≤ i ∧ i < rel) :
    Covered (run.map fun r => (dstOffset + r.1, r.2)).toList (dstOffset + i) := by
  obtain ⟨r, hr, hlow, hhigh⟩ := hi
  have hlength := (hrun r hr).length
  refine ⟨(dstOffset + r.1, r.2), ?_, ?_, ?_⟩
  · exact Option.mem_toList.mpr (Option.map_eq_some_iff.mpr ⟨r, hr, rfl⟩)
  · change dstOffset + r.1 ≤ _
    omega
  · change _ < dstOffset + r.1 + r.2.length
    omega

def Unchanged (bs : Nat) (payload current : Bytes) (i : Nat) : Prop :=
  ∀ j < payload.length, j / bs = i / bs → cell current j = cell payload j

lemma unchanged_iff (hbs : 0 < bs) (hrel : bs ∣ rel) (hlow : rel ≤ i)
    (hhigh : i < rel + min (payload.length - rel) bs) : Unchanged bs payload current i ↔
      fit (current.drop rel) (min (payload.length - rel) bs) =
        slice payload rel (rel + min (payload.length - rel) bs) := by
  have hchunk (j : Nat) (hj : j < payload.length) :
      j / bs = i / bs ↔ rel ≤ j ∧ j < rel + min (payload.length - rel) bs := by
    obtain ⟨k, rfl⟩ := hrel
    have hi : i / bs = k := by
      refine Nat.div_eq_of_lt_le ?_ ?_
      · rw [Nat.mul_comm]
        exact hlow
      · rw [Nat.succ_mul, Nat.mul_comm]
        omega
    rw [hi, Nat.div_eq_iff hbs, Nat.mul_comm]
    omega
  constructor
  · intro hsame
    refine ext_cell (by rw [length_fit, length_slice]; omega) fun j hj => ?_
    rw [length_fit] at hj
    rw [cell_fit, if_pos hj, cell_drop, cell_slice, if_pos (by omega)]
    exact hsame _ (by omega) ((hchunk _ (by omega)).mpr ⟨by omega, by omega⟩)
  · intro hsame j hj hblock
    obtain ⟨hlow', hhigh'⟩ := (hchunk j hj).mp hblock
    have hcell := congrArg (cell · (j - rel)) hsame
    simp only [cell_fit, cell_drop, cell_slice] at hcell
    rwa [show rel + (j - rel) = j by omega, if_pos (by omega), if_pos hhigh'] at hcell

private lemma dvd_next (hrel : rel < payload.length → bs ∣ rel) (hlt : rel < payload.length) :
    rel + min (payload.length - rel) bs < payload.length →
      bs ∣ rel + min (payload.length - rel) bs := by
  intro hnext
  rw [Nat.min_eq_right (by omega)]
  exact Nat.dvd_add (hrel hlt) (Nat.dvd_refl bs)

lemma packRunsFrom_covered (hbs : 0 < bs) (hfuel : payload.length ≤ rel + fuel)
    (hrel : rel < payload.length → bs ∣ rel) (hrun : ∀ r ∈ run, OpenRun payload rel r)
    (hlength : i < payload.length) (hi : rel ≤ i ∨ ∃ r ∈ run, r.1 ≤ i ∧ i < rel)
    (hchanged : ¬ Unchanged bs payload current i) :
    Covered (packRunsFrom dstOffset bs payload current fuel rel run) (dstOffset + i) := by
  induction fuel generalizing rel run with
  | zero =>
    rcases hi with hi | hi
    · omega
    · exact close_covered hrun hi
  | succ fuel ih =>
    rw [packRunsFrom]
    dsimp only
    split
    next hlt =>
      split
      next hsame =>
        rcases hi with hi | hi
        · have hnext : rel + min (payload.length - rel) bs ≤ i := by
            by_contra hin
            exact hchanged ((unchanged_iff hbs (hrel hlt) hi (by omega)).mpr hsame)
          obtain ⟨r, hr, hin⟩ := @ih (rel + min (payload.length - rel) bs) none (by omega)
            (dvd_next hrel hlt) (by simp) (.inl hnext)
          exact ⟨r, List.mem_append_right _ hr, hin⟩
        · obtain ⟨r, hr, hin⟩ := close_covered hrun hi
          exact ⟨r, List.mem_append_left _ hr, hin⟩
      next =>
        apply ih (by omega) (dvd_next hrel hlt)
        · rintro r ⟨⟩
          exact OpenRun.extend (by omega) (by omega) hrun
        · by_cases hchunk : i < rel + min (payload.length - rel) bs
          · refine .inr ⟨_, rfl, ?_, hchunk⟩
            rcases hi with hi | ⟨r, hr, hlow, _⟩
            · cases run with
              | none => exact hi
              | some r =>
                have := (hrun r rfl).1
                change r.1 ≤ i
                omega
            · rw [Option.mem_def] at hr
              rw [hr]
              exact hlow
          · exact .inl (by omega)
    next =>
      rcases hi with hi | hi
      · omega
      · exact close_covered hrun hi

private def AllChanged (bs : Nat) (payload current : Bytes) (rel : Nat) (r : Nat × Bytes) : Prop :=
  ∀ i, r.1 ≤ i → i < rel → ¬ Unchanged bs payload current i

private lemma close_changed (hrun : ∀ r ∈ run, OpenRun payload rel r)
    (hall : ∀ r ∈ run, AllChanged bs payload current rel r)
    (h : Covered (run.map fun r => (dstOffset + r.1, r.2)).toList (dstOffset + i)) :
    ¬ Unchanged bs payload current i := by
  obtain ⟨r, hr, hlow, hhigh⟩ := h
  obtain ⟨r', hr', rfl⟩ := Option.map_eq_some_iff.mp (Option.mem_toList.mp hr)
  have hlength := (hrun r' hr').length
  have hlt := (hrun r' hr').1
  exact hall r' hr' i (by simpa using hlow) (by simp only at hhigh; omega)

lemma packRunsFrom_changed (hbs : 0 < bs) (hrel : rel < payload.length → bs ∣ rel)
    (hrun : ∀ r ∈ run, OpenRun payload rel r)
    (hall : ∀ r ∈ run, AllChanged bs payload current rel r)
    (h : Covered (packRunsFrom dstOffset bs payload current fuel rel run) (dstOffset + i)) :
    ¬ Unchanged bs payload current i := by
  induction fuel generalizing rel run with
  | zero => exact close_changed hrun hall h
  | succ fuel ih =>
    rw [packRunsFrom] at h
    dsimp only at h
    split at h
    next hlt =>
      split at h
      next =>
        obtain ⟨r, hr, hin⟩ := h
        rcases List.mem_append.mp hr with hclosed | hrest
        · exact close_changed hrun hall ⟨r, hclosed, hin⟩
        · exact ih (dvd_next hrel hlt) (by simp) (by simp) ⟨r, hrest, hin⟩
      next hdiffers =>
        refine ih (dvd_next hrel hlt) ?_ ?_ h
        · rintro r ⟨⟩
          exact OpenRun.extend (by omega) (by omega) hrun
        · rintro r ⟨⟩ k hlow hhigh
          by_cases hk : rel ≤ k
          · rwa [unchanged_iff hbs (hrel hlt) hk hhigh]
          · cases run with
            | none => exact absurd hlow hk
            | some r => exact hall r rfl k hlow (by omega)
    next => exact close_changed hrun hall h

private lemma close_start : ∀ r ∈ (run.map fun r => (dstOffset + r.1, r.2)).toList,
      dstOffset + (run.getD (rel, [])).1 ≤ r.1 := by
  intro r hr
  obtain ⟨r', hr', rfl⟩ := Option.map_eq_some_iff.mp (Option.mem_toList.mp hr)
  rw [hr', Option.getD_some]

lemma packRunsFrom_start (hbs : 0 < bs) (hrun : ∀ r ∈ run, OpenRun payload rel r) :
    ∀ r ∈ packRunsFrom dstOffset bs payload current fuel rel run,
      dstOffset + (run.getD (rel, [])).1 ≤ r.1 := by
  have hopen : (run.getD (rel, [])).1 ≤ rel := by
    cases run with
    | none => exact le_rfl
    | some r => exact (hrun r rfl).1.le
  induction fuel generalizing rel run with
  | zero => exact close_start
  | succ fuel ih =>
    rw [packRunsFrom]
    dsimp only
    split
    next hlt =>
      split
      next =>
        intro r hr
        rcases List.mem_append.mp hr with hclosed | hrest
        · exact close_start r hclosed
        · have hstart := @ih (rel + min (payload.length - rel) bs) none (by simp) le_rfl r hrest
          simp only [Option.getD_none] at hstart
          omega
      next =>
        refine ih ?_ (by simp only [Option.getD_some]; omega)
        rintro r ⟨⟩
        exact OpenRun.extend (by omega) (by omega) hrun
    next => exact close_start

lemma packRunsFrom_separate (hbs : 0 < bs) (hrun : ∀ r ∈ run, OpenRun payload rel r) :
    (packRunsFrom dstOffset bs payload current fuel rel run).Pairwise
      fun a b => a.1 + a.2.length < b.1 := by
  induction fuel generalizing rel run with
  | zero =>
    rw [packRunsFrom]
    cases run <;> simp
  | succ fuel ih =>
    rw [packRunsFrom]
    dsimp only
    split
    next hlt =>
      split
      next =>
        refine List.pairwise_append.mpr ⟨by cases run <;> simp, ih (by simp), fun a ha b hb => ?_⟩
        obtain ⟨r, hr, rfl⟩ := Option.map_eq_some_iff.mp (Option.mem_toList.mp ha)
        have hlength := (hrun r hr).length
        have hstart := packRunsFrom_start hbs (by simp) b hb
        have hopen := (hrun r hr).1
        simp only [Option.getD_none] at hstart ⊢
        omega
      next =>
        apply ih
        rintro r ⟨⟩
        exact OpenRun.extend (by omega) (by omega) hrun
    next => cases run <;> simp

lemma packCopySkipUnchangedRuns_isRun (hbs : 0 < bs) :
    ∀ r ∈ packCopySkipUnchangedRuns dstOffset bs payload current, IsRun dstOffset payload r :=
  packRunsFrom_isRun hbs (by simp)

lemma packCopySkipUnchangedRuns_separate (hbs : 0 < bs) :
    (packCopySkipUnchangedRuns dstOffset bs payload current).Pairwise
      fun a b => a.1 + a.2.length < b.1 :=
  packRunsFrom_separate hbs (by simp)

lemma packCopySkipUnchangedRuns_covered (hbs : 0 < bs) (hi : i < payload.length) :
    Covered (packCopySkipUnchangedRuns dstOffset bs payload current) (dstOffset + i) ↔
      ¬ Unchanged bs payload current i := by
  refine ⟨packRunsFrom_changed hbs (fun _ => Nat.dvd_zero bs) (by simp) (by simp), ?_⟩
  exact packRunsFrom_covered hbs (by omega) (fun _ => Nat.dvd_zero bs) (by simp) hi
    (.inl (Nat.zero_le i))

end

end Fod.Data
