import Fod.Data.PunchedHole
import Fod.Data.Transports

/-!
# Replacing the object of a file

A flush that writes every block of the file puts them into a new data object and gives
that to the file; any other flush changes the object that is there, after taking it out
of sharing.  Here both ways are compared for the rows of one flush.
-/

namespace Fod.Data

open ZeroPadded BlockMap

namespace Db

variable {db : Db} {f size bs total : Nat} {row : FileRow} {object : DataObject}
  {rows : List PersistBlockRow} {transport : PersistBlockTransport} {deferred truncatePending : Bool}

/-- `persist_blocks_cover_full_file` with the number of blocks as an argument of its
own; a flush computes it from the size. -/
def persistBlocksCoverFileOf (fileSize bs total : Nat) (rows : List PersistBlockRow) : Bool :=
  if fileSize = 0 then false
  else
    let expectedTotal := 1 + (fileSize - 1) / bs
    total == expectedTotal && rows.length == expectedTotal &&
      rows.zipIdx.all fun (row, expected) =>
        row.blockIndex == expected &&
          row.usedLen == min fileSize (expected * bs + bs) - expected * bs

lemma persistBlocksCoverFileOf_iff : persistBlocksCoverFileOf size bs total rows = true ↔
      total = blockCountForLength size bs ∧ persistBlocksCoverFullFile size bs rows = true := by
  rw [persistBlocksCoverFileOf, persistBlocksCoverFullFile, blockCountForLength]
  split
  next hzero => simp [hzero]
  next hsize => simp [hsize, dirtyBlockSize, and_assoc]

section

variable (h : persistBlocksCoverFullFile size bs rows = true)

include h

lemma getElem_of_coverFullFile {k : Nat} (hk : k < rows.length) :
    rows[k].blockIndex = k ∧ rows[k].usedLen = dirtyBlockSize size k bs := by
  simp only [persistBlocksCoverFullFile, Bool.and_eq_true, beq_iff_eq, List.all_eq_true] at h
  exact h.2 (rows[k], k) (List.mem_zipIdx_iff_getElem?.mpr (List.getElem?_eq_getElem hk))

lemma nodup_of_coverFullFile : (rows.map PersistBlockRow.blockIndex).Nodup := by
  rw [List.nodup_iff_injective_get]
  intro a b hsame
  have ha := (getElem_of_coverFullFile h (by simpa using a.isLt)).1
  have hb := (getElem_of_coverFullFile h (by simpa using b.isLt)).1
  simp only [List.get_eq_getElem, List.getElem_map] at hsame
  exact Fin.ext (ha.symm.trans (hsame.trans hb))

lemma usedLen_of_coverFullFile {r : PersistBlockRow} (hr : r ∈ rows) : r.usedLen = dirtyBlockSize size r.blockIndex bs := by
  obtain ⟨k, hk, rfl⟩ := List.getElem_of_mem hr
  obtain ⟨hindex, hused⟩ := getElem_of_coverFullFile h hk
  rw [hused, hindex]

end

def writeBlocks (db : Db) (transport : PersistBlockTransport) (deferred : Bool)
    (f size bs total : Nat) (truncatePending : Bool) (rows : List PersistBlockRow)
    (preferReplacement : Bool) : Option Db :=
  (db.dataObjectWriteTarget f size preferReplacement).map fun (db, target) =>
    let db := db.updateObject target.dataObject fun object =>
      { object with
        blocks := persistRows transport bs target.payloadRowsEmpty rows
          (deleteTail (truncatePending && !target.payloadRowsEmpty) total object.blocks) }
    db.finishDataObjectWrite deferred f size target

lemma writeBlocks_written (h : db.Wf) (hrow : db.files.lookup f = some row)
    (transport : PersistBlockTransport) (deferred truncatePending preferReplacement : Bool)
    (size bs total : Nat) (rows : List PersistBlockRow) : ∃ after blocks empty,
      db.writeBlocks transport deferred f size bs total truncatePending rows preferReplacement =
        some after ∧ Written db after f size (persistRows transport bs empty rows
        (deleteTail (truncatePending && !empty) total blocks)).lookup ∧
      (empty = true → ∀ b, blocks.lookup b = none) := by
  obtain ⟨db', target, blocks, htarget, hprepared, -, hempty⟩ :=
    dataObjectWriteTarget_prepared h hrow size preferReplacement
  refine ⟨_, blocks, target.payloadRowsEmpty, ?_, (hprepared.update fun blocks =>
    persistRows transport bs target.payloadRowsEmpty rows (deleteTail
      (truncatePending && !target.payloadRowsEmpty) total blocks)).finish deferred size, hempty⟩
  rw [writeBlocks, htarget]
  rfl

lemma cell_of_coverFullFile {after : Db} {blocks : Table Nat Bytes} {empty : Bool} (hbs : 0 < bs)
    (hcover : persistBlocksCoverFullFile size bs rows = true)
    (hwritten : Written db after f size (persistRows transport bs empty rows
      (deleteTail (truncatePending && !empty) total blocks)).lookup)
    (hempty : empty = true → ∀ b, blocks.lookup b = none) {i : Nat} (hi : i < size) :
    after.cell bs f i = ZeroPadded.cell
      (kept transport bs (fun b => dirtyBlockSize size b bs) (rowData rows) (i / bs)) (i % bs) := by
  have hdata : ∀ r ∈ rows, r.data = rowData rows r.blockIndex := fun r hr =>
    (rowData_eq (nodup_of_coverFullFile hcover) hr).symm
  have hcell := @cell_persistRows bs rows (rowData rows) _ empty
    (fun b => dirtyBlockSize size b bs) transport hbs hdata
    (fun r hr => usedLen_of_coverFullFile hcover hr)
    (@lookup_deleteTail_of_empty blocks empty truncatePending total hempty) i
  rw [hwritten.cell, hcell, if_pos]
  exact mem_of_coverFullFile hcover (div_lt_blockCountForLength hbs hi)

lemma lookup_replaced (hrow : db.files.lookup f = some row)
    (hobject : db.objects.lookup row.dataObject = some object) (hne : row.dataObject ≠ db.nextObject)
    {after : Db} (hafter : db.writeBlocks transport deferred f size bs total truncatePending rows true =
      some after) :
    after.objects.lookup row.dataObject =
      if object.referenceCount ≤ 1 then
        if deferred then some { object with referenceCount := 0 } else none
      else some { object with referenceCount := object.referenceCount - 1 } := by
  have hold (change : DataObject → DataObject) :
      ((db.createDataObject ∅).1.updateObject db.nextObject change).objects.lookup row.dataObject =
        some object := by
    rw [lookup_updateObject, if_neg hne]
    exact (AList.lookup_insert_ne hne).trans hobject
  rw [writeBlocks, dataObjectWriteTarget, if_pos rfl, fileDataObjectInfo_eq hrow hobject] at hafter
  cases hafter
  dsimp only [finishDataObjectWrite]
  split
  next =>
    split
    next => rw [lookup_updateObject, if_pos rfl]; exact congrArg _ (hold _)
    next => exact AList.lookup_erase _ _
  next => rw [touchOldObject, lookup_updateObject, if_pos rfl]; exact congrArg _ (hold _)

def Alone (db : Db) (f o : Nat) : Prop :=
  ∀ g row, db.files.lookup g = some row → row.dataObject = o → g = f

lemma alone_iff (hrow : db.files.lookup f = some row) :
    db.Alone f row.dataObject ↔ db.references row.dataObject ≤ 1 := by
  constructor
  · intro halone
    have hkeys : (db.files.keysWith fun r => r.dataObject == row.dataObject) = [f] := by
      refine (Table.keysWith_eq_singleton _).mpr ⟨⟨row, hrow, beq_self_eq_true _⟩,
        fun g row' hrow' hsame => halone g row' hrow' (beq_iff_eq.mp hsame)⟩
    rw [references, hkeys, List.length_singleton]
  · intro hone g row' hrow' hsame
    exact eq_of_references_le_one hone hrow hrow' hsame

/-- **Replacing the object of a file.**  For rows that cover the file, swapping in a new
object leaves the bytes that patching the old one leaves, and the other files as they
were.  The old object is deleted, or with deferred cleanup left without references,
exactly when no other file has it. -/
theorem swap_equals_patch (db : Db) (hwf : db.Wf) (f : Nat) (row : FileRow) (object : DataObject)
    (hrow : db.files.lookup f = some row) (hobject : db.objects.lookup row.dataObject = some object)
    (hcounted : object.referenceCount = db.references row.dataObject)
    (transport : PersistBlockTransport) (deferred truncatePending : Bool) (size bs total : Nat)
    (rows : List PersistBlockRow) (hbs : 1 ≤ bs)
    (hcover : persistBlocksCoverFileOf size bs total rows = true) :
    let write := db.writeBlocks transport deferred f size bs total truncatePending rows
    ∃ swapped patched, write true = some swapped ∧ write false = some patched ∧
      swapped.fileSize f = patched.fileSize f ∧
      swapped.readRange bs f 0 size = patched.readRange bs f 0 size ∧
      (∀ g, g ≠ f → swapped.fileSize g = db.fileSize g ∧
        ∀ start stop, swapped.readRange bs g start stop = db.readRange bs g start stop) ∧
      (swapped.objects.lookup row.dataObject =
        (if deferred then some { object with referenceCount := 0 } else none) ↔
          db.Alone f row.dataObject) := by
  intro write
  have hfull := (persistBlocksCoverFileOf_iff.mp hcover).2
  obtain ⟨swapped, blocks, empty, hswapped, hwritten, hempty⟩ :=
    writeBlocks_written hwf hrow transport deferred truncatePending true size bs total rows
  obtain ⟨patched, blocks', empty', hpatched, hwritten', hempty'⟩ :=
    writeBlocks_written hwf hrow transport deferred truncatePending false size bs total rows
  refine ⟨swapped, patched, hswapped, hpatched, hwritten.size.trans hwritten'.size.symm, ?_,
    fun g hg => ⟨(hwritten.others g hg).1, fun start stop => ?_⟩, ?_⟩
  · refine readRange_congr hbs fun i _ hi => ?_
    rw [cell_of_coverFullFile hbs hfull hwritten hempty hi,
      cell_of_coverFullFile hbs hfull hwritten' hempty' hi]
  · exact readRange_congr hbs fun i _ _ => hwritten.others.cell hg
  · rw [alone_iff hrow, ← hcounted, lookup_replaced hrow hobject (hwf.fresh hobject).ne hswapped]
    split
    next hone => exact iff_of_true rfl hone
    next hshared =>
      refine iff_of_false (fun h => ?_) hshared
      cases deferred with
      | false => cases h
      | true =>
        have hcount := congrArg DataObject.referenceCount (Option.some.inj h)
        change object.referenceCount - 1 = 0 at hcount
        omega

theorem swap_equals_patch_sharedPair :
    ∃ swapped, sharedPair.writeBlocks .copyBinaryStaging false 1 6 4 2 false
        [⟨0, [8, 8, 8, 8], 4⟩, ⟨1, [9, 9], 2⟩] true = some swapped ∧
      swapped.readRange 4 2 0 6 = [1, 2, 3, 4, 5, 6] ∧ swapped.objects.lookup 7 ≠ none := by
  obtain ⟨swapped, -, hswapped, -, -, -, hothers, hold⟩ := swap_equals_patch sharedPair sharedPair_wf 1
    ⟨6, 7⟩ _ rfl rfl rfl .copyBinaryStaging false false 6 4 2 [⟨0, [8, 8, 8, 8], 4⟩, ⟨1, [9, 9], 2⟩]
    (by decide) (by decide)
  refine ⟨swapped, hswapped, ((hothers 2 (by decide)).2 0 6).trans (by decide), fun hnone => ?_⟩
  exact absurd (hold.mp hnone 2 ⟨6, 7⟩ rfl rfl) (by decide)

/-- With deferred cleanup the object of a single file stays. -/
theorem deferred_swap_keeps_old_object :
    let rows : List PersistBlockRow := [⟨0, [5, 6, 7, 8], 4⟩]
    persistBlocksCoverFileOf 4 4 1 rows = true ∧ oneFile.Alone 1 7 ∧
      (oneFile.writeBlocks .copyBinaryStaging true 1 4 4 1 false rows true).map
          (fun swapped => (swapped.objects.lookup 7).isSome) = some true := by
  refine ⟨by decide, ?_, by decide⟩
  have hrow : oneFile.files.lookup 1 = some ⟨4, 7⟩ := rfl
  exact (alone_iff hrow).mpr (by decide)

end Db

end Fod.Data
