import Fod.Data.BufferedReads
import Fod.Data.DedupedCopy

/-!
# Merging the buffers of two handles

Before a write, `merge_write_state_into` moves the buffered blocks of the other
handles of the file into the state of the writer.  A block of the sibling replaces the
writer's own as a whole, whichever bytes of it each of them has written.
-/

namespace Fod.Data

open ZeroPadded BlockMap

def lastWritten (writes : List (Nat × Bytes)) (i : Nat) (old : Byte) : Byte :=
  writes.foldl (fun v r => if r.1 ≤ i ∧ i < r.1 + r.2.length then cell r.2 (i - r.1) else v) old

def grown (writes : List (Nat × Bytes)) (n : Nat) : Nat :=
  writes.foldl (fun n r => if r.2 = [] then n else max n (r.1 + r.2.length)) n

def writeAll (content : Bytes) (writes : List (Nat × Bytes)) : Bytes :=
  writes.foldl (fun content r => ZeroPadded.write content r.1 r.2) content

section

variable {writes : List (Nat × Bytes)} {r : Nat × Bytes} {i n : Nat} {old : Byte}

lemma covered_cons :
    Covered (r :: writes) i ↔ (r.1 ≤ i ∧ i < r.1 + r.2.length) ∨ Covered writes i := by
  simp [Covered]

variable {writes' : List (Nat × Bytes)}

lemma covered_append : Covered (writes ++ writes') i ↔ Covered writes i ∨ Covered writes' i := by
  simp only [Covered, List.mem_append, or_and_right, exists_or]

lemma lastWritten_cons : lastWritten (r :: writes) i old =
    lastWritten writes i (if r.1 ≤ i ∧ i < r.1 + r.2.length then cell r.2 (i - r.1) else old) :=
  rfl

lemma grown_cons : grown (r :: writes) n =
    grown writes (if r.2 = [] then n else max n (r.1 + r.2.length)) :=
  rfl

lemma lastWritten_append :
    lastWritten (writes ++ writes') i old = lastWritten writes' i (lastWritten writes i old) :=
  List.foldl_append

lemma lastWritten_of_not_covered (h : ¬ Covered writes i) : lastWritten writes i old = old := by
  induction writes with
  | nil => rfl
  | cons r writes ih =>
    rw [covered_cons, not_or] at h
    rw [lastWritten_cons, if_neg h.1, ih h.2]

lemma lastWritten_of_covered (h : Covered writes i) (old' : Byte) :
    lastWritten writes i old = lastWritten writes i old' := by
  induction writes generalizing old old' with
  | nil => exact absurd h (by simp [Covered])
  | cons r writes ih =>
    rw [lastWritten_cons, lastWritten_cons]
    rcases covered_cons.mp h with hr | hlater
    · rw [if_pos hr, if_pos hr]
    · exact ih hlater _

lemma grown_max {a : Nat} : grown writes (max a n) = max a (grown writes n) := by
  induction writes generalizing n with
  | nil => rfl
  | cons r writes ih =>
    rw [grown_cons, grown_cons]
    split
    · exact ih
    · rw [Nat.max_assoc, ih]

lemma le_grown : n ≤ grown writes n := by
  induction writes generalizing n with
  | nil => exact le_rfl
  | cons r writes ih =>
    rw [grown_cons]
    refine le_trans ?_ ih
    split
    · exact le_rfl
    · exact Nat.le_max_left _ _

lemma grown_append : grown (writes ++ writes') n = max (grown writes n) (grown writes' n) := by
  have hfold : grown (writes ++ writes') n = grown writes' (grown writes n) := List.foldl_append
  rw [hfold, ← grown_max, Nat.max_eq_left le_grown]

lemma lt_grown_of_covered (h : Covered writes i) : i < grown writes n := by
  induction writes generalizing n with
  | nil => exact absurd h (by simp [Covered])
  | cons r writes ih =>
    rw [grown_cons]
    rcases covered_cons.mp h with hr | hlater
    · have hne : r.2 ≠ [] := List.ne_nil_of_length_pos (by omega)
      rw [if_neg hne]
      exact lt_of_lt_of_le (by omega) le_grown
    · exact ih hlater

lemma holds_writeAll {c : Nat → Byte} {content : Bytes} (h : Holds n c content) :
    Holds (grown writes n) (fun i => lastWritten writes i (c i)) (writeAll content writes) := by
  induction writes generalizing n c content with
  | nil => exact h
  | cons r writes ih =>
    rw [grown_cons]
    by_cases hr : r.2 = []
    · have hsame : ZeroPadded.write content r.1 r.2 = content := by rw [ZeroPadded.write, hr]; rfl
      rw [writeAll, List.foldl_cons, hsame, if_pos hr]
      refine ⟨(ih h).length, fun i => ?_⟩
      rw [lastWritten_cons, if_neg (by rw [hr, List.length_nil]; omega)]
      exact (ih h).cells i
    · rw [if_neg hr]
      exact ih (h.write hr)

end

namespace State

variable {cfg : Config} {s : State} {w : WriteState} {writes : List (Nat × Bytes)}

def buffered (cfg : Config) (s : State) (w : WriteState) (writes : List (Nat × Bytes)) : WriteState :=
  (writes.foldl (bufferRun cfg) (s, w)).2

lemma bufferRun_of_nil {run : Nat × Bytes} (hrun : run.2 = []) :
    bufferRun cfg (s, w) run = (s, w) := by
  rw [bufferRun, hrun]
  rfl

lemma buffered_cons {r : Nat × Bytes} : buffered cfg s w (r :: writes) =
      buffered cfg (bufferRun cfg (s, w) r).1 (bufferRun cfg (s, w) r).2 writes :=
  rfl

lemma buffered_same (cfg : Config) (s : State) (w : WriteState) (writes : List (Nat × Bytes)) :
    (buffered cfg s w writes).file = w.file ∧
      (buffered cfg s w writes).fileSize = grown writes w.fileSize ∧
      (buffered cfg s w writes).truncatePending = w.truncatePending := by
  induction writes generalizing s w with
  | nil => exact ⟨rfl, rfl, rfl⟩
  | cons r writes ih =>
    obtain ⟨hfile, hsize, hpending⟩ := ih (bufferRun cfg (s, w) r).1 (bufferRun cfg (s, w) r).2
    rw [buffered_cons, hfile, hsize, hpending, grown_cons]
    by_cases hr : r.2 = []
    · rw [bufferRun_of_nil hr, if_pos hr]
      exact ⟨rfl, rfl, rfl⟩
    · have hsame := bufferWrite_same cfg s w r.1 r.2
      rw [bufferRun_eq hr, if_neg hr]
      exact ⟨hsame.file, congrArg _ hsame.fileSize, hsame.truncatePending⟩

lemma buffered_blocks {b : Nat}
    (h : (∃ r ∈ writes, r.2 ≠ [] ∧ touches cfg.blockSize r.1 r.2.length b) ∨
      (w.blocks.lookup b).isSome = true) :
    ((buffered cfg s w writes).blocks.lookup b).isSome = true := by
  induction writes generalizing s w with
  | nil => simpa [buffered] using h
  | cons r writes ih =>
    rw [buffered_cons]
    refine ih ?_
    by_cases hr : r.2 = []
    · rw [bufferRun_of_nil hr]
      refine h.imp_left ?_
      rintro ⟨r', hmem, hne, htouches⟩
      rcases List.mem_cons.mp hmem with rfl | hmem
      · exact absurd hr hne
      · exact ⟨r', hmem, hne, htouches⟩
    · rw [bufferRun_eq hr]
      rcases h with ⟨r', hmem, hne, htouches⟩ | hold
      · rcases List.mem_cons.mp hmem with rfl | hmem
        · exact .inr (bufferWrite_buffered hr (.inl htouches))
        · exact .inl ⟨r', hmem, hne, htouches⟩
      · exact .inr (bufferWrite_buffered hr (.inr hold))

lemma buffered_of_covered {i : Nat} (h : Covered writes i) :
    ((buffered cfg s w writes).blocks.lookup (i / cfg.blockSize)).isSome = true := by
  obtain ⟨r, hr, hlow, hhigh⟩ := h
  refine buffered_blocks (.inl ⟨r, hr, List.ne_nil_of_length_pos (by omega), ?_⟩)
  exact ⟨Nat.div_le_div_right hlow, Nat.div_le_div_right (by omega)⟩

lemma shown_buffered {i : Nat} (hi : i < w.fileSize ∨ Covered writes i) :
    shown cfg s (buffered cfg s w writes) i = lastWritten writes i (shown cfg s w i) := by
  induction writes generalizing s w with
  | nil => rfl
  | cons r writes ih =>
    rw [buffered_cons, lastWritten_cons]
    by_cases hr : r.2 = []
    · rw [bufferRun_of_nil hr, if_neg (by rw [hr, List.length_nil]; omega)]
      refine ih (hi.imp_right fun h => (covered_cons.mp h).resolve_left ?_)
      rw [hr, List.length_nil]
      omega
    · have hsize : (s.bufferWrite cfg w r.1 r.2).fileSize = max w.fileSize (r.1 + r.2.length) :=
        (bufferWrite_same cfg s w r.1 r.2).fileSize
      have hlater : i < max w.fileSize (r.1 + r.2.length) ∨ Covered writes i := by
        rcases hi with hi | hi
        · exact .inl (by omega)
        · exact (covered_cons.mp hi).imp_left fun hin => by omega
      rw [bufferRun_eq hr]
      refine (ih (hsize.symm ▸ hlater)).trans ?_
      by_cases hcovered : Covered writes i
      · exact lastWritten_of_covered hcovered _
      · have hinside := hlater.resolve_right hcovered
        exact congrArg (lastWritten writes i) (shown_bufferWrite hr i (by omega))

/-! ## The merge -/

section

variable {target source : WriteState}

section

variable (hpending : source.truncatePending = false)

include hpending

lemma lookup_mergeInto (bs b : Nat) : (target.mergeInto bs source).blocks.lookup b =
      (source.blocks.lookup b).or (target.blocks.lookup b) := by
  rw [WriteState.mergeInto, hpending]
  have hfold := Table.lookup_foldl (k := b) (fun t row => AList.insert row.1 row.2 t) Sigma.fst
    (fun b x => (source.blocks.lookup b).or x) (fun b x => by cases source.blocks.lookup b <;> rfl)
    source.blocks.entries (fun row hrow t k => ?_) target.blocks
  · refine hfold.trans ?_
    split
    next => rfl
    next hnone =>
      rw [AList.lookup_eq_none.mpr fun hmem => hnone (AList.mem_keys.mp hmem), Option.none_or]
  · rw [Table.lookup_insert_eq_ite]
    split
    next hk => rw [hk, AList.mem_lookup_iff.mpr hrow, Option.some_or]
    next => rfl

lemma fileSize_mergeInto (bs : Nat) :
    (target.mergeInto bs source).fileSize = max target.fileSize source.fileSize := by
  rw [WriteState.mergeInto, hpending]
  rfl

lemma file_mergeInto (bs : Nat) : (target.mergeInto bs source).file = target.file := by
  rw [WriteState.mergeInto, hpending]
  rfl

lemma shown_mergeInto (i : Nat) :
    shown cfg s (target.mergeInto cfg.blockSize source) i =
      if (source.blocks.lookup (i / cfg.blockSize)).isSome = true then shown cfg s source i
      else shown cfg s target i := by
  rw [shown, cellOf, overlayBlock, lookup_mergeInto hpending, file_mergeInto hpending]
  cases hblock : source.blocks.lookup (i / cfg.blockSize) with
  | none => rfl
  | some block =>
    rw [Option.isSome_some, if_pos rfl, shown, cellOf, overlayBlock_of_dirty hblock]
    rfl

end

end

/-- What the sibling's blocks must hold for the merge to lose nothing: the bytes that
the writer wrote, and zeros behind the old end of the file where nobody wrote. -/
structure KeepsWriter (cfg : Config) (s : State) (n : Nat) (writes : List (Nat × Bytes))
    (written : List (Nat × Bytes)) (target source : WriteState) : Prop where
  bytes : ∀ i, Covered writes i → (source.blocks.lookup (i / cfg.blockSize)).isSome = true →
    shown cfg s source i = shown cfg s target i
  gaps : ∀ i, n ≤ i → i < max target.fileSize source.fileSize → ¬ Covered written i →
    (if (source.blocks.lookup (i / cfg.blockSize)).isSome = true then shown cfg s source i
      else shown cfg s target i) = 0

lemma shown_merged_iff {f n i : Nat} {writes' : List (Nat × Bytes)}
    (hdisjoint : Covered writes i → ¬ Covered writes' i) :
    let start := newWriteState f n false
    let target := buffered cfg s start writes
    let source := buffered cfg s start writes'
    shown cfg s (target.mergeInto cfg.blockSize source) i =
        lastWritten (writes ++ writes') i (if i < n then shown cfg s start i else 0) ↔
      (Covered writes i → (source.blocks.lookup (i / cfg.blockSize)).isSome = true →
        shown cfg s source i = shown cfg s target i) ∧
      (n ≤ i → ¬ Covered (writes ++ writes') i →
        (if (source.blocks.lookup (i / cfg.blockSize)).isSome = true then shown cfg s source i
          else shown cfg s target i) = 0) := by
  intro start target source
  obtain ⟨-, -, hpending⟩ := buffered_same cfg s start writes'
  rw [shown_mergeInto hpending, lastWritten_append, covered_append]
  by_cases hsource : Covered writes' i
  · -- the sibling wrote the byte, so its block wins
    refine iff_of_true ?_ ⟨fun htarget => absurd hsource (hdisjoint htarget),
      fun _ hnone => absurd (.inr hsource) hnone⟩
    rw [if_pos (buffered_of_covered hsource), shown_buffered (.inr hsource)]
    exact lastWritten_of_covered hsource _
  rw [lastWritten_of_not_covered hsource]
  by_cases htarget : Covered writes i
  · have hshown : shown cfg s target i = _ := shown_buffered (.inr htarget)
    rw [lastWritten_of_covered htarget (shown cfg s start i), ← hshown]
    constructor
    · intro h
      refine ⟨fun _ hsome => ?_, fun _ hnone => absurd (.inl htarget) hnone⟩
      rwa [if_pos hsome] at h
    · rintro ⟨hbytes, -⟩
      split
      next hsome => exact hbytes htarget hsome
      next => rfl
  · rw [lastWritten_of_not_covered htarget]
    by_cases hi : i < n
    · refine iff_of_true ?_ ⟨fun h => absurd h htarget, fun h => absurd hi (Nat.not_lt.mpr h)⟩
      have hstored : shown cfg s target i = shown cfg s start i :=
        (shown_buffered (.inl hi)).trans (lastWritten_of_not_covered htarget)
      have hstored' : shown cfg s source i = shown cfg s start i :=
        (shown_buffered (.inl hi)).trans (lastWritten_of_not_covered hsource)
      rw [hstored, hstored', ite_self, if_pos hi]
    · rw [if_neg hi]
      refine ⟨fun h => ⟨fun hcovered => absurd hcovered htarget, fun _ _ => h⟩, fun ⟨_, hgaps⟩ => ?_⟩
      exact hgaps (Nat.not_lt.mp hi) fun h => h.elim htarget hsource

/-- **Merging the buffers of two handles.**  The handles have written disjoint bytes of
one stored file.  The merged state holds the file with the writes of both exactly when
no block of the sibling takes a byte from the writer. -/
theorem merge_keeps_both_writers_iff (cfg : Config) (s : State) (f n : Nat)
    (writes writes' : List (Nat × Bytes)) (hdisjoint : ∀ i, Covered writes i → ¬ Covered writes' i) :
    let start := newWriteState f n false
    let target := buffered cfg s start writes
    let source := buffered cfg s start writes'
    let merged := target.mergeInto cfg.blockSize source
    (content cfg s merged = writeAll (content cfg s start) (writes ++ writes') ∧
        merged.fileSize = max target.fileSize source.fileSize) ↔
      KeepsWriter cfg s n writes (writes ++ writes') target source := by
  intro start target source merged
  obtain ⟨-, htargetSize, -⟩ := buffered_same cfg s start writes
  obtain ⟨-, hsourceSize, hpending⟩ := buffered_same cfg s start writes'
  have hsize : merged.fileSize = max target.fileSize source.fileSize := fileSize_mergeInto hpending _
  have hexpected : Holds _ _ (writeAll (content cfg s start) (writes ++ writes')) :=
    holds_writeAll (content_holds cfg s start)
  have hmerged := content_holds cfg s merged
  have hgrown : grown (writes ++ writes') start.fileSize = merged.fileSize := by
    rw [hsize, grown_append, htargetSize, hsourceSize]
  rw [and_iff_left hsize]
  constructor
  · intro hsame
    have hbyte (i : Nat) (hi : i < merged.fileSize) := (shown_merged_iff (hdisjoint i)).mp (by
      have hcell := hexpected.cells i
      rw [← hsame, hmerged.cells, if_pos hi] at hcell
      exact hcell)
    refine ⟨fun i hcovered => (hbyte i ?_).1 hcovered, fun i hlow hhigh => (hbyte i ?_).2 hlow⟩
    · rw [← hgrown]
      exact lt_grown_of_covered (covered_append.mpr (.inl hcovered))
    · rwa [hsize]
  · intro h
    refine ext_cell (by rw [hmerged.length, hexpected.length, hgrown]) fun i hi => ?_
    rw [hmerged.length] at hi
    rw [hmerged.cells, hexpected.cells, if_pos hi]
    exact (shown_merged_iff (hdisjoint i)).mpr
      ⟨h.bytes i, fun hlow => h.gaps i hlow (hsize ▸ hi)⟩

theorem merge_keeps_both_writers_otherBlock :
    let start := newWriteState 1 4 false
    let state := mounted Db.oneFile
    content fourByteBlocks state ((buffered fourByteBlocks state start [(3, [7])]).mergeInto 4
      (buffered fourByteBlocks state start [(4, [9])])) = [1, 2, 3, 7, 9] := by
  have hkeeps : KeepsWriter fourByteBlocks (mounted Db.oneFile) 4 [(3, [7])] ([(3, [7])] ++ [(4, [9])])
      (buffered fourByteBlocks (mounted Db.oneFile) (newWriteState 1 4 false) [(3, [7])])
      (buffered fourByteBlocks (mounted Db.oneFile) (newWriteState 1 4 false) [(4, [9])]) := by
    constructor
    · rintro i ⟨r, hr, hlow, hhigh⟩ hsome
      obtain rfl := List.mem_singleton.mp hr
      obtain rfl : i = 3 := le_antisymm (Nat.lt_succ_iff.mp hhigh) hlow
      exact absurd hsome (by decide)
    · intro i hlow hhigh hnot
      obtain rfl : i = 4 := le_antisymm (Nat.lt_succ_iff.mp hhigh) hlow
      exact absurd ⟨(4, [9]), by simp, by decide⟩ hnot
  have hdisjoint (i : Nat) (h : Covered [(3, [(7 : Byte)])] i) : ¬ Covered [(4, [(9 : Byte)])] i := by
    simp only [Covered, List.mem_singleton, exists_eq_left, List.length_singleton] at h ⊢
    omega
  exact ((merge_keeps_both_writers_iff fourByteBlocks (mounted Db.oneFile) 1 4 [(3, [7])] [(4, [9])]
    hdisjoint).mpr hkeeps).1.trans (by decide)

/-- The writer's byte 3 is in a block that the sibling has buffered for byte 0. -/
theorem merge_drops_byte_of_shared_block :
    let start := newWriteState 1 4 false
    let state := mounted Db.oneFile
    (∀ i, Covered [(3, [(7 : Byte)])] i → ¬ Covered [(0, [(8 : Byte)])] i) ∧
      content fourByteBlocks state ((buffered fourByteBlocks state start [(3, [7])]).mergeInto 4
        (buffered fourByteBlocks state start [(0, [8])])) = [8, 2, 3, 4] ∧
      writeAll (content fourByteBlocks state start) ([(3, [7])] ++ [(0, [8])]) = [8, 2, 3, 7] := by
  refine ⟨fun i h => ?_, by decide, by decide⟩
  simp only [Covered, List.mem_singleton, exists_eq_left, List.length_singleton] at h ⊢
  omega

end State

end Fod.Data
