import Fod.Data.Overlay
import Fod.Data.Transports

/-!
# A buffered write as an overlay of bytes

`update_write_buffer` loads the blocks that it changes in part, and takes a block
that starts behind the end of the file and is written from its start as new.  The
bytes between the old end of the file and the write are those of the blocks, so they
are zeros only if the blocks hold zeros there.
-/

namespace Fod.Data

open ZeroPadded BlockMap

namespace State

variable {cfg : Config} {s : State} {w : WriteState}

def content (cfg : Config) (s : State) (w : WriteState) : Bytes :=
  (List.range w.fileSize).map (shown cfg s w)

lemma content_holds (cfg : Config) (s : State) (w : WriteState) :
    Holds w.fileSize (fun i => if i < w.fileSize then shown cfg s w i else 0) (content cfg s w) := by
  refine ⟨by simp [content], fun i => ?_⟩
  split
  next hi =>
    rw [cell_eq_getElem (by simpa [content] using hi)]
    simp [content]
  next hi => exact cell_of_length_le (by simpa [content] using hi)

structure SameButBlocks (w w' : WriteState) : Prop where
  file : w'.file = w.file
  fileSize : w'.fileSize = w.fileSize
  truncatePending : w'.truncatePending = w.truncatePending
  bufferedBytes : w'.bufferedBytes = w.bufferedBytes

lemma SameButBlocks.refl (w : WriteState) : SameButBlocks w w := ⟨rfl, rfl, rfl, rfl⟩

lemma SameButBlocks.of_setBlock {w' : WriteState} {b : Nat} {block : Bytes}
    (h : SameButBlocks (w.setBlock b block) w') : SameButBlocks w w' :=
  ⟨h.file, h.fileSize, h.truncatePending, h.bufferedBytes⟩

section

variable {original offset : Nat} {data : Bytes}

lemma updateBlocks_same (blocks : List Nat) (cursor : Nat) :
    SameButBlocks w (s.updateBlocks cfg original offset data blocks cursor w) := by
  induction blocks generalizing cursor w with
  | nil => exact .refl w
  | cons b rest ih =>
    rw [updateBlocks]
    split
    · exact ih _
    · dsimp only
      split
      · exact .refl w
      · exact (ih _).of_setBlock

lemma bufferWrite_same (cfg : Config) (s : State) (w : WriteState) (offset : Nat) (data : Bytes) :
    SameButBlocks { w with fileSize := max w.fileSize (offset + data.length) }
      (s.bufferWrite cfg w offset data) :=
  updateBlocks_same _ _

lemma lookup_updateBlocks {blocks : List Nat} {b : Nat} (hb : b ∉ blocks) (cursor : Nat) :
    (s.updateBlocks cfg original offset data blocks cursor w).blocks.lookup b = w.blocks.lookup b := by
  induction blocks generalizing cursor w with
  | nil => rfl
  | cons b' rest ih =>
    have hne := List.ne_of_not_mem_cons hb
    have hrest := List.not_mem_of_not_mem_cons hb
    rw [updateBlocks]
    split
    · exact ih hrest _
    · dsimp only
      split
      · rfl
      · exact (ih hrest _).trans (AList.lookup_insert_ne hne)

end

def touches (bs offset len b : Nat) : Prop := offset / bs ≤ b ∧ b ≤ (offset + len - 1) / bs

instance (bs offset len b : Nat) : Decidable (touches bs offset len b) :=
  inferInstanceAs (Decidable (_ ∧ _))

theorem update_write_buffer_overlays_iff (cfg : Config) (s : State) (w : WriteState) (offset : Nat)
    (data : Bytes) (hdata : data ≠ []) :
    let after := s.updateWriteBuffer cfg w offset data
    (content cfg after.1 after.2 = ZeroPadded.write (content cfg s w) offset data ∧
        after.2.fileSize = max w.fileSize (offset + data.length) ∧
        ∀ b, ¬ touches cfg.blockSize offset data.length b →
          after.2.blocks.lookup b = w.blocks.lookup b) ↔
      ∀ i, w.fileSize ≤ i → i < offset → shown cfg s w i = 0 := by
  have hafter : s.updateWriteBuffer cfg w offset data =
      (s.clearReadCacheForFile w.file, s.bufferWrite cfg w offset data) := by
    rw [updateWriteBuffer, if_neg (by simpa using hdata)]
  have hsize : (s.bufferWrite cfg w offset data).fileSize = max w.fileSize (offset + data.length) :=
    (bufferWrite_same cfg s w offset data).fileSize
  have hwritten : Holds (max w.fileSize (offset + data.length)) _
      (ZeroPadded.write (content cfg s w) offset data) :=
    (content_holds cfg s w).write hdata
  have hbuffered := content_holds cfg s (s.bufferWrite cfg w offset data)
  have hlength : 0 < data.length := List.length_pos_iff.mpr hdata
  rw [hafter]
  dsimp only
  change (content cfg s (s.bufferWrite cfg w offset data) = _ ∧ _) ↔ _
  constructor
  · rintro ⟨hcontent, -, -⟩ i hlow hhigh
    have hcell := hwritten.cells i
    rw [← hcontent, hbuffered.cells, if_pos (by omega), if_neg (by omega), if_neg (by omega)] at hcell
    rw [shown_bufferWrite hdata i (by omega), if_neg (by omega)] at hcell
    exact hcell
  · intro hgap
    refine ⟨?_, hsize, ?_⟩
    · apply ext_cell
      · rw [hbuffered.length, hwritten.length, hsize]
      · intro i hi
        rw [hbuffered.length, hsize] at hi
        rw [hbuffered.cells, hwritten.cells, if_pos (by omega),
          shown_bufferWrite hdata i (by omega)]
        split
        next => rfl
        next hout =>
          split
          next => rfl
          next hbeyond => exact hgap i (by omega) (by omega)
    · intro b hb
      refine lookup_updateBlocks (fun hmem => hb ?_) _
      obtain ⟨hfirst, hlast⟩ := List.mem_range'_1.mp hmem
      exact ⟨hfirst, by omega⟩

def fourByteBlocks : Config where
  blockSize := 4
  blockSize_pos := by decide
  transport := .copyBinaryStaging
  deferredSwapCleanup := false
  writeFlushThresholdBytes := 0
  readCacheLimitBlocks := 64
  smallFileReadThresholdBlocks := 8
  strictCrossMountReads := false
  noAtime := false
  uncachedFastPath := false
  fopenDirectIo := false
  metadataCacheTtl := 0
  copyDedupe := none

def mounted (db : Db) : State where
  db := db
  handles := ∅
  nextFh := 1
  writeStates := ∅
  recentWriteBlocks := ∅
  readCache := ∅

def staleTail : Db where
  files := AList.insert 1 ⟨2, 7⟩ ∅
  objects := AList.insert 7 ⟨1, AList.insert 0 [1, 2, 9, 9] ∅⟩ ∅
  nextObject := 8

theorem update_write_buffer_overlays_insideFile :
    ∃ data : Bytes, data ≠ [] ∧
      (∀ i, 2 ≤ i → i < 2 → shown fourByteBlocks (mounted staleTail) (newWriteState 1 2 false) i = 0) ∧
      content fourByteBlocks (mounted staleTail)
          ((mounted staleTail).updateWriteBuffer fourByteBlocks (newWriteState 1 2 false) 2 data).2 =
        [1, 2, 5] := by
  refine ⟨[5], by decide, fun i h h' => by omega, ?_⟩
  have h := (update_write_buffer_overlays_iff fourByteBlocks (mounted staleTail)
    (newWriteState 1 2 false) 2 [5] (by decide)).mpr fun i h h' => by
      change 2 ≤ i at h
      omega
  exact h.1.trans (by decide)

/-- A write behind the end of the file shows the stale byte before it. -/
theorem write_exposes_stale_tail :
    content fourByteBlocks (mounted staleTail) (newWriteState 1 2 false) = [1, 2] ∧
      content fourByteBlocks (mounted staleTail)
          ((mounted staleTail).updateWriteBuffer fourByteBlocks (newWriteState 1 2 false) 3 [5]).2 =
        [1, 2, 9, 5] ∧
      ZeroPadded.write [1, 2] 3 [(5 : Byte)] = [1, 2, 0, 5] := by
  decide

end State

end Fod.Data
