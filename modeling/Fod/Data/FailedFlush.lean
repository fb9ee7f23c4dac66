import Fod.Data.MergedBuffers

/-!
# Writes whose flush fails

A write merges the states of the other handles of the file into its own and flushes
it.  If the flush fails, the merged state stays with the handle and the others get
theirs back, so that several states hold copies of one block.  What the file holds
after the later flushes depends on their order.
-/

namespace Fod.Data

open ZeroPadded BlockMap

namespace State

variable {cfg : Config} {s : State} {w : WriteState} {f : Nat}

/-! ## What a flush stores -/

/-- What a flush of a state stores for a byte of the file, if it stores its block.  The
direct transports delete a block that the file does not fill. -/
def storedByte (cfg : Config) (w : WriteState) (i : Nat) : Option Byte :=
  (w.blocks.lookup (i / cfg.blockSize)).map fun block =>
    if cfg.transport = .copyBinaryStaging ∨
        cfg.blockSize ≤ dirtyBlockSize w.fileSize (i / cfg.blockSize) cfg.blockSize then
      cell block (i % cfg.blockSize)
    else 0

lemma cell_persist (hwf : s.db.Wf) {size : Nat} (hsize : s.db.fileSize w.file = some size)
    (hpending : w.truncatePending = false) {i : Nat} (hi : i < w.fileSize) :
    (s.persist cfg w).cell cfg.blockSize w.file i =
      (storedByte cfg w i).getD (s.db.cell cfg.blockSize w.file i) := by
  have hbs := cfg.blockSize_pos
  obtain ⟨row, hrow, -⟩ := Option.map_eq_some_iff.mp hsize
  obtain ⟨object, hobject⟩ := hwf.stored hrow
  have hinside := div_lt_blockCountForLength hbs hi
  have hcell : (s.persist cfg w).cell cfg.blockSize w.file i = _ :=
    Db.cell_persistFileBlocks hrow hobject (hwf.dataObject_lt hrow).ne hbs
      (fun b => dirtyBlockSize w.fileSize b cfg.blockSize) (fun r hr => Shows.row_data hr)
      (fun r hr => (mem_persistRowsOf hr).2.2) _ _ _ _ i
  rw [hcell, storedByte]
  change (if i / cfg.blockSize ∈ (persistRowsOf cfg w).map PersistBlockRow.blockIndex then _
    else _) = _
  cases hblock : w.blocks.lookup (i / cfg.blockSize) with
  | some block =>
    rw [if_pos (mem_map_persistRowsOf.mpr ⟨hinside, block, hblock⟩), Db.kept, Shows.dirtyData, hblock]
    rw [Option.map_some, Option.getD_some, Option.getD_some]
    split
    next => rfl
    next => exact cell_nil
  | none =>
    have hclean : i / cfg.blockSize ∉ (persistRowsOf cfg w).map PersistBlockRow.blockIndex := by
      intro hmem
      obtain ⟨-, block, hsome⟩ := mem_map_persistRowsOf.mp hmem
      rw [hblock] at hsome
      cases hsome
    rw [if_neg hclean, if_neg, Option.map_none, Option.getD_none]
    rintro (⟨htrunc, -⟩ | hcover)
    · rw [hpending] at htrunc
      cases htrunc
    · exact hclean (Db.mem_of_coverFullFile hcover hinside)

lemma flushEntry_db (cfg : Config) (s : State) (row : Nat × WriteState)
    (hpending : row.2.truncatePending = false) : (s.flushEntry cfg row).db = s.persist cfg row.2 := by
  have hprepared : s.prepareTruncateBoundaryBlocks cfg row.2 = row.2 := by
    rw [prepareTruncateBoundaryBlocks, if_pos (by rw [hpending]; rfl)]
  rw [flushEntry_eq]
  change s.persist cfg (s.prepareTruncateBoundaryBlocks cfg row.2) = _
  rw [hprepared]

variable {rows : List (Nat × WriteState)}

lemma flushEntries_db {size i : Nat}
    (hrows : ∀ row ∈ rows, row.2.file = f ∧ row.2.truncatePending = false) (hwf : s.db.Wf)
    (hsize : s.db.fileSize f = some size) : (rows.foldl (flushEntry cfg) s).db.fileSize f =
        some (rows.foldl (fun _ row => row.2.fileSize) size) ∧
      ((∀ row ∈ rows, i < row.2.fileSize) →
        (rows.foldl (flushEntry cfg) s).db.cell cfg.blockSize f i =
          rows.foldl (fun v row => (storedByte cfg row.2 i).getD v) (s.db.cell cfg.blockSize f i)) := by
  induction rows generalizing s size with
  | nil => exact ⟨hsize, fun _ => rfl⟩
  | cons row rows ih =>
    obtain ⟨rfl, hpending⟩ := hrows row List.mem_cons_self
    have hdb := flushEntry_db cfg s row hpending
    have hwritten := persist_written cfg hwf hsize
    obtain ⟨hlater, hcells⟩ := @ih (s.flushEntry cfg row) row.2.fileSize
      (fun r hr => hrows r (List.mem_cons_of_mem _ hr)) (hdb ▸ hwritten.wf) (hdb ▸ hwritten.size)
    refine ⟨hlater, fun hinside => (hcells fun r hr => hinside r (List.mem_cons_of_mem _ hr)).trans ?_⟩
    rw [hdb, cell_persist hwf hsize hpending (hinside row List.mem_cons_self)]
    rfl

lemma flushHandles_eq (hnodup : (rows.map Prod.fst).Nodup)
    (hrows : ∀ row ∈ rows, s.writeStates.lookup row.1 = some row.2 ∧ row.2.hasPendingChanges = true) :
    (rows.map Prod.fst).foldl (fun s fh => s.flushWriteStateForHandle cfg fh) s =
      rows.foldl (flushEntry cfg) s := by
  induction rows generalizing s with
  | nil => rfl
  | cons row rows ih =>
    obtain ⟨hlookup, hpending⟩ := hrows row List.mem_cons_self
    have hflush : s.flushWriteStateForHandle cfg row.1 = s.flushEntry cfg row := by
      rw [flushWriteStateForHandle, hlookup]
      exact if_pos hpending
    rw [List.map_cons, List.foldl_cons, List.foldl_cons, hflush]
    rw [List.map_cons, List.nodup_cons] at hnodup
    refine ih hnodup.2 fun r hr => ⟨?_, (hrows r (List.mem_cons_of_mem _ hr)).2⟩
    have hne : r.1 ≠ row.1 := fun hsame => hnodup.1 (hsame ▸ List.mem_map_of_mem hr)
    rw [lookup_flushEntry, if_neg hne]
    exact (hrows r (List.mem_cons_of_mem _ hr)).1

lemma foldl_storedByte (rows : List (Nat × WriteState)) (i : Nat) (old : Byte) :
    (∃ row ∈ rows, storedByte cfg row.2 i =
        some (rows.foldl (fun v row => (storedByte cfg row.2 i).getD v) old)) ∨
      (∀ row ∈ rows, storedByte cfg row.2 i = none) ∧
        rows.foldl (fun v row => (storedByte cfg row.2 i).getD v) old = old := by
  induction rows generalizing old with
  | nil => exact .inr ⟨by simp, rfl⟩
  | cons row rows ih =>
    rw [List.foldl_cons]
    rcases ih ((storedByte cfg row.2 i).getD old) with ⟨r, hr, hstored⟩ | ⟨hnone, hsame⟩
    · exact .inl ⟨r, List.mem_cons_of_mem _ hr, hstored⟩
    · rw [hsame]
      cases hrow : storedByte cfg row.2 i with
      | some x => exact .inl ⟨row, List.mem_cons_self, by rw [hrow, Option.getD_some]⟩
      | none =>
        refine .inr ⟨fun r hr => ?_, Option.getD_none⟩
        rcases List.mem_cons.mp hr with rfl | hr
        · exact hrow
        · exact hnone r hr

def Reads (cfg : Config) (s : State) (f i : Nat) (ok : Byte → Prop) : Prop :=
  ∃ size, s.db.fileSize f = some size ∧ i < size ∧ ok (s.db.cell cfg.blockSize f i)

lemma reads_in_any_order_iff (hne : rows ≠ []) {size i : Nat}
    (hrows : ∀ row ∈ rows, row.2.file = f ∧ row.2.truncatePending = false) (hwf : s.db.Wf)
    (hsize : s.db.fileSize f = some size) (ok : Byte → Prop) :
    (∀ order : List (Nat × WriteState), order.Perm rows →
        (order.foldl (flushEntry cfg) s).Reads cfg f i ok) ↔
      (∀ row ∈ rows, i < row.2.fileSize ∧ ∀ x ∈ storedByte cfg row.2 i, ok x) ∧
        ((∀ row ∈ rows, storedByte cfg row.2 i = none) → ok (s.db.cell cfg.blockSize f i)) := by
  have hflush (order : List (Nat × WriteState)) (horder : order.Perm rows) :=
    @flushEntries_db cfg s f order size i (fun row hrow => hrows row (horder.mem_iff.mp hrow)) hwf hsize
  constructor
  · intro h
    -- a state is the last one in some order
    have hlast (row : Nat × WriteState) (hrow : row ∈ rows) :
        (rows.erase row ++ [row]).Perm rows :=
      (List.perm_append_singleton row _).trans (List.perm_cons_erase hrow).symm
    have hinside (row : Nat × WriteState) (hrow : row ∈ rows) : i < row.2.fileSize := by
      obtain ⟨n, hn, hi, -⟩ := h _ (hlast row hrow)
      rw [(hflush _ (hlast row hrow)).1, List.foldl_append] at hn
      cases hn
      exact hi
    have hcell (order : List (Nat × WriteState)) (horder : order.Perm rows) :
        ok (order.foldl (fun v row => (storedByte cfg row.2 i).getD v)
          (s.db.cell cfg.blockSize f i)) := by
      obtain ⟨-, -, -, hok⟩ := h order horder
      rwa [(hflush order horder).2 fun row hrow => hinside row (horder.mem_iff.mp hrow)] at hok
    refine ⟨fun row hrow => ⟨hinside row hrow, fun x hx => ?_⟩, fun hnone => ?_⟩
    · have hok := hcell _ (hlast row hrow)
      rw [List.foldl_append, List.foldl_cons, List.foldl_nil, Option.mem_def.mp hx,
        Option.getD_some] at hok
      exact hok
    · have hok := hcell rows (List.Perm.refl rows)
      rcases foldl_storedByte rows i (s.db.cell cfg.blockSize f i) with ⟨row, hrow, hstored⟩ | ⟨-, hsame⟩
      · rw [hnone row hrow] at hstored
        cases hstored
      · rwa [hsame] at hok
  · rintro ⟨hrow, hstored⟩ order horder
    obtain ⟨hfinal, hcell⟩ := hflush order horder
    have hmem (row : Nat × WriteState) (h : row ∈ order) := hrow row (horder.mem_iff.mp h)
    refine ⟨_, hfinal, ?_, ?_⟩
    · obtain ⟨before, last, rfl⟩ := List.eq_nil_or_concat order |>.resolve_left fun hnil =>
        hne (List.Perm.nil_eq (hnil ▸ horder)).symm
      rw [List.concat_eq_append, List.foldl_append]
      exact (hmem last (by simp)).1
    · rw [hcell fun row h => (hmem row h).1]
      rcases foldl_storedByte order i (s.db.cell cfg.blockSize f i) with
        ⟨row, h, hlast⟩ | ⟨hnone, hsame⟩
      · exact (hmem row h).2 _ hlast
      · rw [hsame]
        exact hstored fun row h => hnone row (horder.mem_iff.mpr h)

/-! ## The request -/

def mergeSiblings (cfg : Config) (w : WriteState) (siblings : List (Nat × WriteState)) : WriteState :=
  siblings.foldl (fun w row => w.mergeInto cfg.blockSize row.2) w

def stateForWrite (s : State) (fh f : Nat) (siblings : List (Nat × WriteState)) : Option WriteState :=
  let existing := s.writeStates.lookup fh
  (s.sizeForUpdate existing f).map fun size =>
    let size := siblings.foldl (fun n row => max n row.2.fileSize) size
    { existing.getD (newWriteState f size false) with file := f }

/-- `write` while PostgreSQL refuses to persist.  A request that flushes leaves the
merged state, as the flush prepared it, and puts the siblings back. -/
def writeFailing (cfg : Config) (s : State) (fh offset : Nat) (data : Bytes) (kill : Bool) :
    State × Reply :=
  match s.handles.lookup fh with
  | none => (s, .error .ebadf)
  | some handle =>
    if handle.access = .readOnly then (s, .error .ebadf)
    else if data.isEmpty then (s, .written 0)
    else
      let f := handle.file
      let siblings := s.pendingStates f (some fh)
      match s.stateForWrite fh f siblings with
      | none => (s, .error .enoent)
      | some own =>
        let unbuffered := (s.writeStates.lookup fh).isNone ∧ siblings.isEmpty
        let s := s.takeWriteStates fh siblings
        let fin := offset + data.length
        if unbuffered ∧ fin ≤ own.fileSize ∧ !kill ∧
            s.assembleFileSlice cfg f (offset / cfg.blockSize) ((fin - 1) / cfg.blockSize) offset
              fin = data then
          (s, .written data.length)
        else
          let (s, w) := bufferRun cfg (s, mergeSiblings cfg own siblings) (offset, data)
          if shouldFlushWriteState cfg w.bufferedBytes (s.openHandleCountForFile f) then
            let w := s.prepareTruncateBoundaryBlocks cfg w
            (siblings.foldl (fun s row => s.updateWriteState row.1 row.2) (s.updateWriteState fh w),
              .error .eio)
          else (s.updateWriteState fh w, .written data.length)

def stateAfterFailure (cfg : Config) (s : State) (own : WriteState) (siblings : List (Nat × WriteState))
    (offset : Nat) (data : Bytes) : WriteState :=
  (bufferRun cfg (s, mergeSiblings cfg own siblings) (offset, data)).2

section

variable {own : WriteState} {siblings : List (Nat × WriteState)} {offset : Nat} {data : Bytes}

lemma mergeSiblings_same (hsiblings : ∀ row ∈ siblings, row.2.truncatePending = false) :
    (mergeSiblings cfg own siblings).file = own.file ∧
      (mergeSiblings cfg own siblings).truncatePending = own.truncatePending ∧
      (mergeSiblings cfg own siblings).fileSize =
        siblings.foldl (fun n row => max n row.2.fileSize) own.fileSize := by
  induction siblings generalizing own with
  | nil => exact ⟨rfl, rfl, rfl⟩
  | cons row siblings ih =>
    have hrow := hsiblings row List.mem_cons_self
    obtain ⟨hfile, hpending, hsize⟩ := @ih (own.mergeInto cfg.blockSize row.2)
      fun r hr => hsiblings r (List.mem_cons_of_mem _ hr)
    rw [fileSize_mergeInto hrow] at hsize
    rw [file_mergeInto hrow] at hfile
    have hsame : (own.mergeInto cfg.blockSize row.2).truncatePending = own.truncatePending := by
      rw [WriteState.mergeInto, hrow]
      rfl
    exact ⟨hfile, hpending.trans hsame, hsize⟩

def mergedByte (cfg : Config) (s : State) (own : WriteState) (siblings : List (Nat × WriteState))
    (i : Nat) : Byte :=
  siblings.foldl (fun v row =>
    if (row.2.blocks.lookup (i / cfg.blockSize)).isSome then shown cfg s row.2 i else v)
    (shown cfg s own i)

lemma shown_mergeSiblings (hsiblings : ∀ row ∈ siblings, row.2.truncatePending = false) (i : Nat) :
    shown cfg s (mergeSiblings cfg own siblings) i = mergedByte cfg s own siblings i := by
  induction siblings generalizing own with
  | nil => rfl
  | cons row siblings ih =>
    have hrow := hsiblings row List.mem_cons_self
    refine (ih fun r hr => hsiblings r (List.mem_cons_of_mem _ hr)).trans ?_
    rw [mergedByte, mergedByte, List.foldl_cons, shown_mergeInto hrow]

def Buffered (own : WriteState) (siblings : List (Nat × WriteState)) (b : Nat) : Prop :=
  (own.blocks.lookup b).isSome = true ∨ ∃ row ∈ siblings, (row.2.blocks.lookup b).isSome = true

lemma isSome_mergeSiblings (hsiblings : ∀ row ∈ siblings, row.2.truncatePending = false) (b : Nat) :
    ((mergeSiblings cfg own siblings).blocks.lookup b).isSome = true ↔ Buffered own siblings b := by
  induction siblings generalizing own with
  | nil => simp [mergeSiblings, Buffered]
  | cons row siblings ih =>
    have hrow := hsiblings row List.mem_cons_self
    refine (ih fun r hr => hsiblings r (List.mem_cons_of_mem _ hr)).trans ?_
    simp only [Buffered, lookup_mergeInto hrow, Option.isSome_or, Bool.or_eq_true, List.mem_cons,
      exists_eq_or_imp]
    tauto

def sizeAfterFailure (own : WriteState) (siblings : List (Nat × WriteState)) (offset : Nat)
    (data : Bytes) : Nat :=
  max (siblings.foldl (fun n row => max n row.2.fileSize) own.fileSize) (offset + data.length)

lemma stateAfterFailure_same (hsiblings : ∀ row ∈ siblings, row.2.truncatePending = false)
    (hdata : data ≠ []) : (stateAfterFailure cfg s own siblings offset data).file = own.file ∧
      (stateAfterFailure cfg s own siblings offset data).truncatePending = own.truncatePending ∧
      (stateAfterFailure cfg s own siblings offset data).fileSize =
        sizeAfterFailure own siblings offset data := by
  obtain ⟨hfile, hpending, hsize⟩ := @mergeSiblings_same cfg own siblings hsiblings
  have hsame := bufferWrite_same cfg s (mergeSiblings cfg own siblings) offset data
  rw [stateAfterFailure, bufferRun_eq hdata]
  refine ⟨hsame.file.trans hfile, hsame.truncatePending.trans hpending, hsame.fileSize.trans ?_⟩
  change max _ _ = _
  rw [hsize, sizeAfterFailure]

def writerByte (cfg : Config) (s : State) (own : WriteState) (siblings : List (Nat × WriteState))
    (offset : Nat) (data : Bytes) (i : Nat) : Byte :=
  if cfg.transport = .copyBinaryStaging ∨ cfg.blockSize ≤
      dirtyBlockSize (sizeAfterFailure own siblings offset data) (i / cfg.blockSize) cfg.blockSize then
    if offset ≤ i ∧ i < offset + data.length then cell data (i - offset)
    else mergedByte cfg s own siblings i
  else 0

lemma storedByte_of_touched (hsiblings : ∀ row ∈ siblings, row.2.truncatePending = false)
    (hdata : data ≠ []) {i : Nat} (hi : i < sizeAfterFailure own siblings offset data)
    (h : touches cfg.blockSize offset data.length (i / cfg.blockSize) ∨
      Buffered own siblings (i / cfg.blockSize)) :
    storedByte cfg (stateAfterFailure cfg s own siblings offset data) i =
      some (writerByte cfg s own siblings offset data i) := by
  obtain ⟨-, -, hsize⟩ := @stateAfterFailure_same cfg s own siblings offset data hsiblings hdata
  have hshown : shown cfg s (stateAfterFailure cfg s own siblings offset data) i =
      if offset ≤ i ∧ i < offset + data.length then cell data (i - offset)
      else mergedByte cfg s own siblings i := by
    rw [← shown_mergeSiblings hsiblings, stateAfterFailure, bufferRun_eq hdata]
    refine shown_bufferWrite hdata i fun hlow hhigh => ?_
    rw [(mergeSiblings_same hsiblings).2.2] at hlow
    rw [sizeAfterFailure] at hi
    omega
  have hsome : ((stateAfterFailure cfg s own siblings offset data).blocks.lookup
      (i / cfg.blockSize)).isSome = true := by
    rw [stateAfterFailure, bufferRun_eq hdata]
    exact bufferWrite_buffered hdata (h.imp_right (isSome_mergeSiblings hsiblings _).mpr)
  obtain ⟨block, hblock⟩ := Option.isSome_iff_exists.mp hsome
  have hcell : shown cfg s (stateAfterFailure cfg s own siblings offset data) i =
      cell block (i % cfg.blockSize) := by
    rw [shown, cellOf, overlayBlock_of_dirty hblock, Option.getD_some]
  rw [storedByte, hblock, Option.map_some, hsize, writerByte, ← hshown, hcell]

lemma storedByte_of_untouched (hsiblings : ∀ row ∈ siblings, row.2.truncatePending = false)
    (hdata : data ≠ []) {i : Nat}
    (h : ¬ (touches cfg.blockSize offset data.length (i / cfg.blockSize) ∨
      Buffered own siblings (i / cfg.blockSize))) :
    storedByte cfg (stateAfterFailure cfg s own siblings offset data) i = none := by
  rw [not_or] at h
  have hlookup : (stateAfterFailure cfg s own siblings offset data).blocks.lookup
      (i / cfg.blockSize) = (mergeSiblings cfg own siblings).blocks.lookup (i / cfg.blockSize) := by
    rw [stateAfterFailure, bufferRun_eq hdata]
    refine lookup_updateBlocks (fun hmem => h.1 ?_) _
    obtain ⟨hfirst, hlast⟩ := List.mem_range'_1.mp hmem
    dsimp only at hfirst hlast
    exact ⟨hfirst, by omega⟩
  have hnone : (mergeSiblings cfg own siblings).blocks.lookup (i / cfg.blockSize) = none :=
    Option.not_isSome_iff_eq_none.mp fun hsome => h.2 ((isSome_mergeSiblings hsiblings _).mp hsome)
  rw [storedByte, hlookup, hnone, Option.map_none]

end

/-! ## The states afterwards -/

section

variable {fh offset : Nat} {data : Bytes} {kill : Bool} {handle : Handle} {after : State}

lemma writeStates_takeWriteStates (siblings : List (Nat × WriteState)) :
    (s.takeWriteStates fh siblings).writeStates =
        siblings.foldl (fun t row => t.erase row.1) (s.writeStates.erase fh) ∧
      (s.takeWriteStates fh siblings).db = s.db ∧
      (s.takeWriteStates fh siblings).recentWriteBlocks = s.recentWriteBlocks := by
  rw [takeWriteStates]
  generalize hfirst : s.removeWriteState fh = s'
  have hstates : s'.writeStates = s.writeStates.erase fh := by rw [← hfirst]; rfl
  have hdb : s'.db = s.db ∧ s'.recentWriteBlocks = s.recentWriteBlocks := by
    rw [← hfirst]
    exact ⟨rfl, rfl⟩
  rw [← hstates, ← hdb.1, ← hdb.2]
  clear hfirst hstates hdb
  induction siblings generalizing s' with
  | nil => exact ⟨rfl, rfl, rfl⟩
  | cons row siblings ih => exact ih (s'.removeWriteState row.1)

lemma writeStates_restored (siblings : List (Nat × WriteState)) (s : State) :
    (siblings.foldl (fun s row => s.updateWriteState row.1 row.2) s).writeStates =
        siblings.foldl (fun t row => t.insert row.1 row.2) s.writeStates ∧
      (siblings.foldl (fun s row => s.updateWriteState row.1 row.2) s).db = s.db := by
  induction siblings generalizing s with
  | nil => exact ⟨rfl, rfl⟩
  | cons row siblings ih => exact ih (s.updateWriteState row.1 row.2)

lemma shown_congr {s' : State} (hdb : s'.db = s.db)
    (hrecent : s'.recentWriteBlocks = s.recentWriteBlocks) : shown cfg s' = shown cfg s := by
  funext w i
  simp [shown, cellOf, overlayBlock, recentWriteBlock, hdb, hrecent]

structure Restored (cfg : Config) (s after : State) (fh f : Nat) (siblings : List (Nat × WriteState))
    (own merged : WriteState) (offset : Nat) (data : Bytes) : Prop where
  own_eq : s.stateForWrite fh f siblings = some own
  data_ne : data ≠ []
  merged_eq : ∃ s', s'.db = s.db ∧ s'.recentWriteBlocks = s.recentWriteBlocks ∧
    merged = stateAfterFailure cfg s' own siblings offset data
  db : after.db = s.db
  states : after.writeStates = siblings.foldl (fun t row => t.insert row.1 row.2)
    ((siblings.foldl (fun t row => t.erase row.1) (s.writeStates.erase fh)).insert fh merged)

lemma stateForWrite_quiet {siblings : List (Nat × WriteState)} {own : WriteState} {f : Nat}
    (hquiet : ∀ {fh' w}, s.writeStates.lookup fh' = some w → w.truncatePending = false)
    (hown : s.stateForWrite fh f siblings = some own) :
    own.truncatePending = false ∧ own.file = f := by
  obtain ⟨size, -, rfl⟩ := Option.map_eq_some_iff.mp hown
  refine ⟨?_, rfl⟩
  cases hexisting : s.writeStates.lookup fh with
  | none => rfl
  | some w =>
    change w.truncatePending = false
    exact hquiet hexisting

lemma writeFailing_restored (hhandle : s.handles.lookup fh = some handle)
    (hquiet : ∀ {fh' w}, s.writeStates.lookup fh' = some w → w.truncatePending = false)
    (hfail : s.writeFailing cfg fh offset data kill = (after, .error .eio)) :
    ∃ own merged, s.Restored cfg after fh handle.file (s.pendingStates handle.file (some fh)) own merged
      offset data := by
  rw [writeFailing, hhandle] at hfail
  dsimp only at hfail
  split at hfail
  · cases hfail
  split at hfail
  · cases hfail
  next hdata =>
    have hdata : data ≠ [] := by simpa using hdata
    split at hfail
    · cases hfail
    next own hown =>
      split at hfail
      · cases hfail
      split at hfail
      next =>
        obtain ⟨hafter, -⟩ := Prod.mk.inj hfail
        obtain ⟨htaken, hdb, hrecent⟩ := @writeStates_takeWriteStates s fh
          (s.pendingStates handle.file (some fh))
        have hsiblings : ∀ row ∈ s.pendingStates handle.file (some fh),
            row.2.truncatePending = false := fun row hrow => hquiet (mem_pendingStates.mp hrow).1
        obtain ⟨hown_quiet, -⟩ := stateForWrite_quiet hquiet hown
        generalize s.takeWriteStates fh (s.pendingStates handle.file (some fh)) = taken at *
        generalize s.pendingStates handle.file (some fh) = siblings at *
        have hrun : bufferRun cfg (taken, mergeSiblings cfg own siblings) (offset, data) =
            (taken.clearReadCacheForFile (mergeSiblings cfg own siblings).file,
              stateAfterFailure cfg taken own siblings offset data) :=
          Prod.ext (by rw [bufferRun_eq hdata]) rfl
        have hmerged := @stateAfterFailure_same cfg taken own siblings offset data hsiblings hdata
        rw [hrun] at hafter
        dsimp only at hafter
        -- a state without a truncation is flushed as it is
        rw [prepareTruncateBoundaryBlocks, if_pos (by rw [hmerged.2.1, hown_quiet]; rfl)] at hafter
        refine ⟨own, stateAfterFailure cfg taken own siblings offset data, hown, hdata,
          ⟨taken, hdb, hrecent, rfl⟩, ?_, ?_⟩
        · rw [← hafter, ← hdb]
          exact (writeStates_restored _ _).2
        · rw [← hafter, ← htaken]
          exact (writeStates_restored _ _).1
      next => cases hfail

lemma nodup_pendingStates (s : State) (f : Nat) (except : Option Nat) :
    ((s.pendingStates f except).map Prod.fst).Nodup := by
  rw [pendingStates, List.map_map]
  exact List.NodupKeys.sublist List.filter_sublist s.writeStates.nodupKeys

section

variable {f : Nat} {own merged : WriteState}

lemma Restored.lookup (h : s.Restored cfg after fh f (s.pendingStates f (some fh)) own merged offset
    data) (k : Nat) :
    after.writeStates.lookup k =
      if k = fh then some merged else s.writeStates.lookup k := by
  have hrow {row : Nat × WriteState} (hrow : row ∈ s.pendingStates f (some fh)) :=
    mem_pendingStates.mp hrow
  have hrestored := Table.lookup_foldl (k := k) (fun t row => AList.insert row.1 row.2 t)
    Prod.fst (fun k _ => s.writeStates.lookup k) (fun _ _ => rfl) (s.pendingStates f (some fh))
    (fun row hmem t k => by
      rw [Table.lookup_insert_eq_ite]
      split
      next hk => rw [hk, (hrow hmem).1]
      next => rfl)
  have htaken := Table.lookup_foldl (k := k) (fun t row => AList.erase row.1 t) Prod.fst
    (fun _ _ => none) (fun _ _ => rfl) (s.pendingStates f (some fh))
    (fun row _ t k => Table.lookup_erase_eq_ite t row.1 k) (s.writeStates.erase fh)
  rw [h.states, hrestored, Table.lookup_insert_eq_ite, htaken, Table.lookup_erase_eq_ite]
  by_cases hk : k ∈ (s.pendingStates f (some fh)).map Prod.fst
  · have hne : k ≠ fh := by
      obtain ⟨row, hmem, rfl⟩ := List.mem_map.mp hk
      exact fun hsame => (hrow hmem).2.1 (congrArg some hsame)
    rw [if_pos hk, if_neg hne]
  · rw [if_neg hk, if_neg hk]
    split <;> rfl

lemma Restored.mem_pendingStates
    (h : s.Restored cfg after fh f (s.pendingStates f (some fh)) own merged offset data)
    (hfile : merged.file = f) {row : Nat × WriteState} :
    row ∈ after.pendingStates f none ↔ row = (fh, merged) ∨ row ∈ s.pendingStates f (some fh) := by
  obtain ⟨k, w⟩ := row
  have hpending : merged.hasPendingChanges = true := by
    obtain ⟨s', -, -, rfl⟩ := h.merged_eq
    have hlength : 0 < data.length := List.length_pos_iff.mpr h.data_ne
    rw [stateAfterFailure, bufferRun_eq h.data_ne, WriteState.hasPendingChanges]
    simp [hlength]
  rw [State.mem_pendingStates, State.mem_pendingStates, h.lookup]
  dsimp only
  by_cases hk : k = fh
  · subst hk
    rw [if_pos rfl]
    constructor
    · rintro ⟨hw, -⟩
      exact .inl (by rw [Option.some.inj hw])
    · rintro (hsame | ⟨-, hne, -⟩)
      · cases hsame
        exact ⟨rfl, by simp, hfile, hpending⟩
      · exact absurd rfl hne
  · rw [if_neg hk]
    constructor
    · rintro ⟨hw, -, hrest⟩
      exact .inr ⟨hw, fun hsame => hk (Option.some.inj hsame), hrest⟩
    · rintro (hsame | ⟨hw, -, hrest⟩)
      · cases hsame
        exact absurd rfl hk
      · exact ⟨hw, by simp, hrest⟩

end

/-! ## Acknowledged bytes -/

def Acceptable (offset : Nat) (data : Bytes) (i : Nat) (v x : Byte) : Prop :=
  x = v ∨ (offset ≤ i ∧ i < offset + data.length) ∧ x = cell data (i - offset)

/-- Each copy of a byte that a later flush can store is acceptable: those in the states of
the siblings, and the one that the request leaves in the state of its handle.  If there
is none, the stored byte is. -/
structure CopiesAcceptable (cfg : Config) (s : State) (f : Nat) (own : WriteState)
    (siblings : List (Nat × WriteState)) (offset : Nat) (data : Bytes) (i : Nat) (v : Byte) : Prop where
  others : ∀ row ∈ siblings, i < row.2.fileSize ∧
    ∀ x ∈ storedByte cfg row.2 i, Acceptable offset data i v x
  size : i < sizeAfterFailure own siblings offset data
  writer : touches cfg.blockSize offset data.length (i / cfg.blockSize) ∨
      Buffered own siblings (i / cfg.blockSize) →
    Acceptable offset data i v (writerByte cfg s own siblings offset data i)
  stored : ¬ (touches cfg.blockSize offset data.length (i / cfg.blockSize) ∨
      Buffered own siblings (i / cfg.blockSize)) →
    Acceptable offset data i v (s.db.cell cfg.blockSize f i)

lemma writerByte_congr {s' : State} (hdb : s'.db = s.db)
    (hrecent : s'.recentWriteBlocks = s.recentWriteBlocks) (own : WriteState)
    (siblings : List (Nat × WriteState)) (i : Nat) :
    writerByte cfg s' own siblings offset data i = writerByte cfg s own siblings offset data i := by
  rw [writerByte, writerByte, mergedByte, mergedByte, shown_congr hdb hrecent]

lemma Restored.copies_iff {f : Nat} {own merged : WriteState}
    (h : s.Restored cfg after fh f (s.pendingStates f (some fh)) own merged offset data)
    (hsiblings : ∀ row ∈ s.pendingStates f (some fh), row.2.truncatePending = false)
    (hfile : merged.file = f) (i : Nat) (v : Byte) :
    ((∀ row ∈ after.pendingStates f none, i < row.2.fileSize ∧
          ∀ x ∈ storedByte cfg row.2 i, Acceptable offset data i v x) ∧
        ((∀ row ∈ after.pendingStates f none, storedByte cfg row.2 i = none) →
          Acceptable offset data i v (after.db.cell cfg.blockSize f i))) ↔
      CopiesAcceptable cfg s f own (s.pendingStates f (some fh)) offset data i v := by
  obtain ⟨s', hdb, hrecent, hmerged⟩ := h.merged_eq
  obtain ⟨-, -, hsize⟩ := @stateAfterFailure_same cfg s' own _ offset data hsiblings h.data_ne
  rw [← hmerged] at hsize
  have hmem {row : Nat × WriteState} : row ∈ after.pendingStates f none ↔
      row = (fh, merged) ∨ row ∈ s.pendingStates f (some fh) := h.mem_pendingStates hfile
  have hwriter (hi : i < sizeAfterFailure own (s.pendingStates f (some fh)) offset data)
      (htouched : touches cfg.blockSize offset data.length (i / cfg.blockSize) ∨
        Buffered own (s.pendingStates f (some fh)) (i / cfg.blockSize)) :
      storedByte cfg merged i =
        some (writerByte cfg s own (s.pendingStates f (some fh)) offset data i) := by
    rw [hmerged, ← writerByte_congr hdb hrecent]
    exact storedByte_of_touched hsiblings h.data_ne hi htouched
  have huntouched (hnone : ¬ (touches cfg.blockSize offset data.length (i / cfg.blockSize) ∨
      Buffered own (s.pendingStates f (some fh)) (i / cfg.blockSize))) :
      storedByte cfg merged i = none := by
    rw [hmerged]
    exact storedByte_of_untouched hsiblings h.data_ne hnone
  rw [h.db]
  constructor
  · rintro ⟨hcopies, hstored⟩
    have hown := hcopies (fh, merged) (hmem.mpr (.inl rfl))
    rw [hsize] at hown
    refine ⟨fun row hrow => hcopies row (hmem.mpr (.inr hrow)), hown.1, fun htouched => ?_,
      fun hnone => hstored fun row hrow => ?_⟩
    · exact hown.2 _ (hwriter hown.1 htouched)
    · rcases hmem.mp hrow with rfl | hrow
      · exact huntouched hnone
      · rw [storedByte, Option.map_eq_none_iff, ← Option.not_isSome_iff_eq_none]
        exact fun hsome => hnone (.inr (.inr ⟨row, hrow, hsome⟩))
  · intro hall
    refine ⟨fun row hrow => ?_, fun hnone => hall.stored fun htouched => ?_⟩
    · rcases hmem.mp hrow with rfl | hrow
      · refine ⟨hsize ▸ hall.size, fun x hx => ?_⟩
        by_cases htouched : touches cfg.blockSize offset data.length (i / cfg.blockSize) ∨
            Buffered own (s.pendingStates f (some fh)) (i / cfg.blockSize)
        · rw [hwriter hall.size htouched] at hx
          cases hx
          exact hall.writer htouched
        · rw [huntouched htouched] at hx
          cases hx
      · exact hall.others row hrow
    · have hstores := hwriter hall.size htouched
      rw [hnone (fh, merged) (hmem.mpr (.inl rfl))] at hstores
      cases hstores

/-- **Writes whose flush fails.**  After the request the handles are flushed one by one.
Every byte that was acknowledged before it ends up with its last acknowledged value, or
with the one that the request carried, in every order of these flushes exactly when each
copy that the request leaves is acceptable. -/
theorem failed_flush_keeps_acknowledged_iff (cfg : Config) (s : State) (fh offset : Nat) (data : Bytes)
    (kill : Bool) (handle : Handle) (hhandle : s.handles.lookup fh = some handle) (hwf : s.db.Wf)
    (hstored : ∃ size, s.db.fileSize handle.file = some size)
    (hquiet : ∀ fh' w, s.writeStates.lookup fh' = some w → w.truncatePending = false)
    (after : State) (hfail : s.writeFailing cfg fh offset data kill = (after, .error .eio))
    (acknowledged : Nat → Option Byte) :
    let siblings := s.pendingStates handle.file (some fh)
    (∀ order : List (Nat × WriteState), order.Perm (after.pendingStates handle.file none) →
        ∀ i v, acknowledged i = some v →
          ((order.map Prod.fst).foldl (fun s fh => s.flushWriteStateForHandle cfg fh) after).Reads cfg
            handle.file i (Acceptable offset data i v)) ↔
      ∀ own ∈ s.stateForWrite fh handle.file siblings, ∀ i v, acknowledged i = some v →
        CopiesAcceptable cfg s handle.file own siblings offset data i v := by
  intro siblings
  obtain ⟨size, hsize⟩ := hstored
  obtain ⟨own, merged, h⟩ := writeFailing_restored hhandle (fun {_ _} hw => hquiet _ _ hw) hfail
  have hsiblings : ∀ row ∈ siblings, row.2.truncatePending = false := fun row hrow =>
    hquiet _ _ (mem_pendingStates.mp hrow).1
  obtain ⟨hownQuiet, hownFile⟩ := stateForWrite_quiet (fun {_ _} hw => hquiet _ _ hw) h.own_eq
  obtain ⟨hfile, hmergedQuiet⟩ : merged.file = handle.file ∧ merged.truncatePending = false := by
    obtain ⟨s', -, -, rfl⟩ := h.merged_eq
    have hsame := @stateAfterFailure_same cfg s' own siblings offset data hsiblings h.data_ne
    exact ⟨hsame.1.trans hownFile, hsame.2.1.trans hownQuiet⟩
  have hmem {row : Nat × WriteState} : row ∈ after.pendingStates handle.file none ↔
      row = (fh, merged) ∨ row ∈ siblings := h.mem_pendingStates hfile
  have hrows : ∀ row ∈ after.pendingStates handle.file none,
      row.2.file = handle.file ∧ row.2.truncatePending = false := by
    intro row hrow
    refine ⟨(mem_pendingStates.mp hrow).2.2.1, ?_⟩
    rcases hmem.mp hrow with rfl | hrow
    · exact hmergedQuiet
    · exact hsiblings row hrow
  have hne : after.pendingStates handle.file none ≠ [] :=
    List.ne_nil_of_mem (hmem.mpr (.inl rfl))
  have hflush (order : List (Nat × WriteState))
      (horder : order.Perm (after.pendingStates handle.file none)) :=
    @flushHandles_eq cfg after order
      ((horder.map Prod.fst).nodup_iff.mpr (nodup_pendingStates after handle.file none))
      fun row hrow =>
        have hpending := mem_pendingStates.mp (horder.mem_iff.mp hrow)
        ⟨hpending.1, hpending.2.2.2⟩
  have hbyte (i : Nat) (v : Byte) := (@reads_in_any_order_iff cfg after handle.file
    (after.pendingStates handle.file none) hne size i hrows (h.db ▸ hwf) (h.db ▸ hsize)
    (Acceptable offset data i v)).trans (h.copies_iff hsiblings hfile i v)
  constructor
  · intro hall own' hown' i v hv
    obtain rfl := Option.some.inj (h.own_eq.symm.trans hown')
    refine (hbyte i v).mp fun order horder => ?_
    rw [← hflush order horder]
    exact hall order horder i v hv
  · intro hall order horder i v hv
    rw [hflush order horder]
    exact (hbyte i v).mpr (hall own h.own_eq i v hv) order horder

end

def secondWrote : State :=
  let db := Db.oneFile
  let opened := ((mounted db).insertHandle 1 .readWrite).insertHandle 1 .readWrite
  opened.updateWriteState 2 (buffered fourByteBlocks opened (newWriteState 1 4 false) [(4, [8])])

theorem failed_flush_keeps_acknowledged_otherBlock :
    ∃ after, secondWrote.writeFailing fourByteBlocks 1 0 [9] false = (after, .error .eio) ∧
      ∀ order : List (Nat × WriteState), order.Perm (after.pendingStates 1 none) →
        ((order.map Prod.fst).foldl (fun s fh => s.flushWriteStateForHandle fourByteBlocks fh)
          after).Reads fourByteBlocks 1 4 (Acceptable 0 [9] 4 8) := by
  have hquiet : ∀ fh w, secondWrote.writeStates.lookup fh = some w → w.truncatePending = false := by
    exact Table.forall_insert rfl fun _ _ hnone => by cases hnone
  refine ⟨_, rfl, fun order horder => ?_⟩
  refine (failed_flush_keeps_acknowledged_iff fourByteBlocks secondWrote 1 0 [9] false
    ⟨1, .readWrite, none⟩ rfl Session.wf_oneFile ⟨4, rfl⟩ hquiet _ rfl
    (fun i => if i = 4 then some 8 else none)).mpr ?_ order horder 4 8 rfl
  rintro own ⟨⟩ i v hv
  split at hv
  next hi =>
    subst hi
    cases hv
    have hsiblings : secondWrote.pendingStates 1 (some 1) =
        [(2, buffered fourByteBlocks (mounted Db.oneFile) (newWriteState 1 4 false) [(4, [8])])] := rfl
    refine ⟨fun row hrow => ?_, by decide, fun _ => .inl (by decide), fun hnone => ?_⟩
    · obtain rfl := List.mem_singleton.mp (hsiblings ▸ hrow)
      refine ⟨by decide, fun x hx => .inl ?_⟩
      cases hx
      decide
    · exact absurd (.inr (.inr ⟨_, hsiblings ▸ List.mem_singleton_self _, by decide⟩)) hnone
  next => cases hv

/-- A write of the first handle fails, a copy through the second one succeeds, and a
write of the second one fails.  The block that the first handle still has brings back
the byte from before the copy. -/
theorem failed_flush_brings_back_older_byte :
    let cfg := fourByteBlocks
    let opened := ((mounted Db.oneFile).insertHandle 1 .readWrite).insertHandle 1 .readWrite
    let first := opened.writeFailing cfg 1 0 [8] false
    let copied := first.1.copyFileRange cfg 2 0 2 1 1
    let second := copied.1.writeFailing cfg 2 3 [9] false
    let final := (second.1.flushWriteStateForHandle cfg 1).flushWriteStateForHandle cfg 2
    first.2 = .error .eio ∧ copied.2 = .written 1 ∧ copied.1.db.readRange 4 1 0 4 = [1, 1, 3, 4] ∧
      second.2 = .error .eio ∧ final.db.readRange 4 1 0 4 = [8, 2, 3, 9] := by
  decide

end State

end Fod.Data
