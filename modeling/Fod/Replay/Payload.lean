import Fod.Replay.LostAck

/-!
# Writing the same blocks again

What a flush or a hole does to the blocks of a file that it has already been done to.
A flush that covers the whole file replaces the object of the file each time, so that
the second run leaves an object with another id.
-/

namespace Fod.Replay

open Fod.Data Fod.Data.Db

/-! ## The blocks of a flush -/

section Blocks

variable {transport : PersistBlockTransport} {bs total : Nat} {truncatePending : Bool}
  {rows : List PersistBlockRow} {blocks : Table Nat Bytes}

def rowsApplied (transport : PersistBlockTransport) (bs total : Nat) (truncatePending : Bool)
    (rows : List PersistBlockRow) (blocks : Table Nat Bytes) : Table Nat Bytes :=
  persistRows transport bs blocks.keys.isEmpty rows
    (deleteTail (truncatePending && !blocks.keys.isEmpty) total blocks)

def givenData (bs : Nat) (rows : List PersistBlockRow) (b : Nat) : Bool :=
  rows.any fun row => row.blockIndex == b && !(ZeroPadded.fit row.data bs).all (· == 0)

def givenZeros (bs : Nat) (rows : List PersistBlockRow) (b : Nat) : Bool :=
  rows.any fun row => row.blockIndex == b && (ZeroPadded.fit row.data bs).all (· == 0)

/-- The staging table inserts the blocks with data before it deletes those of zeros, and
deletes none in an object without rows.  So a block that is given as both can only be
written again if the object has rows before and after. -/
def StagedAlike (bs total : Nat) (truncatePending : Bool) (rows : List PersistBlockRow)
    (blocks : Table Nat Bytes) : Prop :=
  (∀ row ∈ rows, ¬ (givenData bs rows row.blockIndex ∧ givenZeros bs rows row.blockIndex)) ∨
    (blocks.keys ≠ [] ∧
      ∃ b ∈ rows.map PersistBlockRow.blockIndex ++ blocks.keys, givenZeros bs rows b = false ∧
        (givenData bs rows b ∨ b ∈ blocks.keys ∧ (truncatePending → b < total)))

instance : Decidable (StagedAlike bs total truncatePending rows blocks) := by
  unfold StagedAlike
  infer_instance

lemma keys_isEmpty_iff (blocks : Table Nat Bytes) :
    blocks.keys.isEmpty = true ↔ ∀ b, blocks.lookup b = none := by
  constructor
  · intro h b
    refine AList.lookup_eq_none.mpr fun hb => ?_
    rw [AList.mem_keys, List.isEmpty_iff.mp h] at hb
    cases hb
  · intro h
    refine List.isEmpty_iff.mpr (List.eq_nil_iff_forall_not_mem.mpr fun b hb => ?_)
    exact AList.lookup_eq_none.mp (h b) (AList.mem_keys.mpr hb)

lemma lookup_deleteTail (b : Nat) :
    (deleteTail truncatePending total blocks).lookup b =
      if truncatePending = true ∧ ¬ b < total then none else blocks.lookup b := by
  unfold deleteTail
  cases truncatePending with
  | false => simp
  | true =>
    rw [if_pos rfl, Table.lookup_keep_key]
    by_cases hb : b < total <;> simp [hb]

lemma lookup_persistDirect_foldl (bs : Nat) (rows : List PersistBlockRow) :
    ∃ last : Nat → Option Bytes, ∀ (blocks : Table Nat Bytes) b,
      (rows.foldl (persistDirect bs) blocks).lookup b =
        if b ∈ rows.map PersistBlockRow.blockIndex then last b else blocks.lookup b := by
  obtain ⟨last, -, hlast⟩ := Table.lookup_foldl_set (persistDirect bs)
    (fun row => some row.blockIndex)
    (fun row => if bs ≤ row.usedLen then some (ZeroPadded.fit row.data bs) else none) rows <| by
      intro row blocks b
      unfold persistDirect
      split
      · simp [Table.lookup_insert_eq_ite, eq_comm]
      · simp [Table.lookup_erase_eq_ite, eq_comm]
  exact ⟨last, fun blocks b => by simpa using hlast blocks b⟩

lemma lookup_insertStaged_foldl (bs : Nat) (rows : List PersistBlockRow) :
    ∃ last : Nat → Option Bytes, (∀ b, givenData bs rows b = true → last b ≠ none) ∧
      ∀ (blocks : Table Nat Bytes) b,
        ((rows.map (stageRow bs)).foldl insertStaged blocks).lookup b =
          if givenData bs rows b = true then last b else blocks.lookup b := by
  obtain ⟨last, hvalue, hlast⟩ := Table.lookup_foldl_set insertStaged
    (fun staged => staged.2.map fun _ => staged.1) Prod.snd (rows.map (stageRow bs)) <| by
      rintro ⟨i, _ | data⟩ blocks b
      · simp [insertStaged]
      · simp [insertStaged, Table.lookup_insert_eq_ite, eq_comm]
  have hgiven : ∀ b, some b ∈ (rows.map (stageRow bs)).map (fun staged =>
      staged.2.map fun _ => staged.1) ↔ givenData bs rows b = true := by
    intro b
    simp only [givenData, List.map_map, List.mem_map, List.any_eq_true, Function.comp_apply,
      stageRow]
    refine exists_congr fun row => and_congr_right fun _ => ?_
    split
    · rename_i hzeros
      simp [hzeros]
    · rename_i hzeros
      simp [hzeros]
  refine ⟨last, fun b hb => ?_, fun blocks b => ?_⟩
  · obtain ⟨⟨i, data⟩, -, hkey, hdata⟩ := hvalue b ((hgiven b).mpr hb)
    cases data with
    | none => cases hkey
    | some data => simp [← hdata]
  · simp only [hlast, hgiven]

lemma lookup_deleteStaged_foldl (bs : Nat) (rows : List PersistBlockRow)
    (blocks : Table Nat Bytes) (b : Nat) :
    ((rows.map (stageRow bs)).foldl deleteStaged blocks).lookup b =
      if givenZeros bs rows b = true then none else blocks.lookup b := by
  obtain ⟨last, hvalue, hlast⟩ := Table.lookup_foldl_set deleteStaged
    (fun staged => if staged.2.isNone then some staged.1 else none) (fun _ => none)
    (rows.map (stageRow bs)) <| by
      rintro ⟨i, _ | data⟩ blocks b
      · simp [deleteStaged, Table.lookup_erase_eq_ite, eq_comm]
      · simp [deleteStaged]
  have hgiven : some b ∈ (rows.map (stageRow bs)).map (fun staged =>
      if staged.2.isNone then some staged.1 else none) ↔ givenZeros bs rows b = true := by
    simp only [givenZeros, List.map_map, List.mem_map, List.any_eq_true, Function.comp_apply,
      stageRow]
    refine exists_congr fun row => and_congr_right fun _ => ?_
    split
    · rename_i hzeros
      simp [hzeros]
    · rename_i hzeros
      simp [hzeros]
  rw [hlast]
  by_cases hb : givenZeros bs rows b = true
  · obtain ⟨_, -, -, hnone⟩ := hvalue b (hgiven.mpr hb)
    rw [if_pos (hgiven.mpr hb), if_pos hb, ← hnone]
  · rw [if_neg (mt hgiven.mp hb), if_neg hb]

lemma lookup_deleteTail_nonempty (truncatePending : Bool) (total : Nat)
    (blocks : Table Nat Bytes) (b : Nat) :
    (deleteTail (truncatePending && !blocks.keys.isEmpty) total blocks).lookup b =
      if truncatePending = true ∧ ¬ b < total then none else blocks.lookup b := by
  rw [lookup_deleteTail]
  cases hempty : blocks.keys.isEmpty with
  | false => simp
  | true => simp [(keys_isEmpty_iff blocks).mp hempty b]

lemma lookup_rowsApplied_direct (bs total : Nat) (truncatePending : Bool)
    (rows : List PersistBlockRow) (h : transport ≠ .copyBinaryStaging) :
    ∃ last : Nat → Option Bytes, ∀ (blocks : Table Nat Bytes) b,
      (rowsApplied transport bs total truncatePending rows blocks).lookup b =
        if b ∈ rows.map PersistBlockRow.blockIndex then last b
        else if truncatePending = true ∧ ¬ b < total then none else blocks.lookup b := by
  obtain ⟨last, hlast⟩ := lookup_persistDirect_foldl bs rows
  refine ⟨last, fun blocks b => ?_⟩
  cases transport with
  | copyBinaryStaging => exact absurd rfl h
  | binaryBytea | legacyHex => simp only [rowsApplied, persistRows, hlast, lookup_deleteTail_nonempty]

lemma lookup_rowsApplied_staging (bs total : Nat) (truncatePending : Bool)
    (rows : List PersistBlockRow) :
    ∃ last : Nat → Option Bytes, (∀ b, givenData bs rows b = true → last b ≠ none) ∧
      ∀ (blocks : Table Nat Bytes) b,
        (rowsApplied .copyBinaryStaging bs total truncatePending rows blocks).lookup b =
          if blocks.keys.isEmpty = false ∧ givenZeros bs rows b = true then none
          else if givenData bs rows b = true then last b
          else if truncatePending = true ∧ ¬ b < total then none else blocks.lookup b := by
  obtain ⟨last, hdata, hlast⟩ := lookup_insertStaged_foldl bs rows
  refine ⟨last, hdata, fun blocks b => ?_⟩
  have htail := lookup_deleteTail_nonempty truncatePending total blocks b
  simp only [rowsApplied, persistRows, mergePersistBlockStage]
  cases hempty : blocks.keys.isEmpty with
  | true =>
    rw [hempty] at htail
    simp only [if_true, hlast, htail, Bool.true_eq_false, false_and, if_false]
  | false =>
    rw [hempty] at htail
    simp only [Bool.false_eq_true, if_false, lookup_deleteStaged_foldl, hlast, htail, true_and]

lemma exists_row_of_givenData {b : Nat} (h : givenData bs rows b = true) :
    ∃ row ∈ rows, row.blockIndex = b := by
  simp only [givenData, List.any_eq_true, Bool.and_eq_true, beq_iff_eq] at h
  obtain ⟨row, hrow, hb, -⟩ := h
  exact ⟨row, hrow, hb⟩

lemma lookup_rowsApplied_again
    (h : transport = .copyBinaryStaging → StagedAlike bs total truncatePending rows blocks) (b : Nat) :
    (rowsApplied transport bs total truncatePending rows
        (rowsApplied transport bs total truncatePending rows blocks)).lookup b =
      (rowsApplied transport bs total truncatePending rows blocks).lookup b := by
  by_cases hstaging : transport = .copyBinaryStaging
  · subst hstaging
    obtain ⟨last, hdata, hlast⟩ := lookup_rowsApplied_staging bs total truncatePending rows
    have hempty := keys_isEmpty_iff blocks
    have hempty' := keys_isEmpty_iff
      (rowsApplied .copyBinaryStaging bs total truncatePending rows blocks)
    rw [hlast (rowsApplied _ _ _ _ _ _)]
    have hfirst := hlast blocks b
    rcases h rfl with hunmixed | ⟨hrows, b', -, hkept, hfrom⟩
    · have hclear : ¬ (givenData bs rows b = true ∧ givenZeros bs rows b = true) := by
        rintro ⟨hd, hz⟩
        obtain ⟨row, hrow, rfl⟩ := exists_row_of_givenData hd
        exact hunmixed row hrow ⟨hd, hz⟩
      grind
    · -- a block that stays keeps the object from being taken for an empty one
      have hstays : (rowsApplied .copyBinaryStaging bs total truncatePending rows
          blocks).keys.isEmpty = false := by
        by_contra hnone
        have hb' := hempty'.mp (by simpa using hnone) b'
        have hstored : b' ∈ blocks.keys → blocks.lookup b' ≠ none := fun hmem hb =>
          AList.lookup_eq_none.mp hb (AList.mem_keys.mpr hmem)
        rw [hlast blocks b'] at hb'
        grind
      have hrows' : blocks.keys.isEmpty = false := List.isEmpty_eq_false_iff.mpr hrows
      grind
  · obtain ⟨last, hlast⟩ := lookup_rowsApplied_direct bs total truncatePending rows hstaging
    simp only [hlast]
    grind

def partialZero (sliceStart sliceEnd : Nat) (stored : Option Bytes) : Option Bytes :=
  if sliceEnd ≤ sliceStart then stored
  else
    stored.bind fun data =>
      let data := if sliceStart < data.length then ZeroPadded.zero data sliceStart sliceEnd else data
      if data.all (· == 0) then none else some data

lemma lookup_zeroPartialBlock (b sliceStart sliceEnd k : Nat) :
    (zeroPartialBlock b sliceStart sliceEnd blocks).lookup k =
      if k = b then partialZero sliceStart sliceEnd (blocks.lookup b) else blocks.lookup k := by
  unfold zeroPartialBlock partialZero
  by_cases hslice : sliceEnd ≤ sliceStart
  · simp only [if_pos hslice]
    split
    · rename_i hk
      rw [hk]
    · rfl
  · simp only [if_neg hslice]
    cases hstored : blocks.lookup b with
    | none => grind
    | some data =>
      simp only [Option.bind_some]
      by_cases hzero : (if sliceStart < data.length then ZeroPadded.zero data sliceStart sliceEnd
          else data).all (· == 0) = true
      · simp only [hzero, if_true, Table.lookup_erase_eq_ite]
      · simp only [hzero, Bool.false_eq_true, if_false, Table.lookup_insert_eq_ite]

lemma partialZero_again (sliceStart sliceEnd : Nat) (stored : Option Bytes) :
    partialZero sliceStart sliceEnd (partialZero sliceStart sliceEnd stored) =
      partialZero sliceStart sliceEnd stored := by
  unfold partialZero
  by_cases hslice : sliceEnd ≤ sliceStart
  · simp only [if_pos hslice]
  · cases stored with
    | none => simp
    | some data =>
      simp only [if_neg hslice, Option.bind_some]
      by_cases hstart : sliceStart < data.length
      · have hroom : sliceStart < (ZeroPadded.zero data sliceStart sliceEnd).length := by
          rwa [ZeroPadded.length_zero]
        simp only [if_pos hstart]
        split
        · rfl
        · rename_i hleft
          simp only [Option.bind_some, if_pos hroom, ZeroPadded.zero_zero, hleft]
          rfl
      · simp only [if_neg hstart]
        split
        · rfl
        · rename_i hleft
          simp only [Option.bind_some, if_neg hstart, hleft]
          rfl

lemma lookup_punchBlocks_again (bs offset punchEnd b : Nat) :
    (punchBlocks bs offset punchEnd (punchBlocks bs offset punchEnd blocks)).lookup b =
      (punchBlocks bs offset punchEnd blocks).lookup b := by
  have hnone : ∀ sliceStart sliceEnd, partialZero sliceStart sliceEnd none = none := by
    intro sliceStart sliceEnd
    simp [partialZero]
  have hagain := partialZero_again
  simp only [punchBlocks]
  by_cases hone : offset / bs = (punchEnd - 1) / bs
  · simp only [if_pos hone]
    generalize (if punchEnd % bs = 0 then bs else punchEnd % bs) = sliceEnd
    by_cases hwhole : offset % bs = 0 ∧ sliceEnd = bs
    · simp only [if_pos hwhole, Table.lookup_erase_eq_ite]
      grind
    · simp only [if_neg hwhole, lookup_zeroPartialBlock]
      grind
  · simp only [if_neg hone]
    -- a partial block lies outside the range of the whole ones
    generalize offset / bs = first at *
    generalize (punchEnd - 1) / bs = last at *
    by_cases hstart : offset % bs = 0 <;> by_cases hend : punchEnd % bs = 0 <;>
      simp only [hstart, hend, if_true, if_false, not_true_eq_false, not_false_eq_true, ne_eq,
        lookup_zeroPartialBlock, Table.lookup_keep_key] <;> grind

end Blocks

section Objects

variable {db : Db} {f o size : Nat} {object : DataObject}

lemma fileDataObjectInfo_cases (h : db.fileDataObjectInfo f = some (o, object)) :
    ∃ row, db.files.lookup f = some row ∧ row.dataObject = o ∧ db.objects.lookup o = some object := by
  simp only [fileDataObjectInfo, Option.bind_eq_bind, Option.bind_eq_some_iff] at h
  obtain ⟨row, hrow, object', hobject, heq⟩ := h
  cases heq
  exact ⟨row, hrow, rfl, hobject⟩

def Fresh (db : Db) : Prop := ∀ o object, db.objects.lookup o = some object → o < db.nextObject

lemma Fresh.updateObject (h : Fresh db) (o : Nat) (change : DataObject → DataObject) :
    Fresh (db.updateObject o change) := by
  unfold Db.updateObject
  split
  · exact h
  · rename_i object hobject
    exact Table.forall_insert (h _ object hobject) h

lemma Fresh.createDataObject (h : Fresh db) (blocks : Table Nat Bytes) :
    Fresh (db.createDataObject blocks).1 := by
  exact Table.forall_insert (Nat.lt_succ_self _) fun k object hold => Nat.lt_succ_of_lt (h k object hold)

def editDetached (db : Db) (f size : Nat) (edit : Table Nat Bytes → Table Nat Bytes) : Db :=
  match db.detachSharedDataObject f size with
  | none => db
  | some (db, o, _) =>
    (db.updateObject o fun object => { object with blocks := edit object.blocks }).setFile f ⟨size, o⟩

lemma Fresh.editDetached (h : Fresh db) (size : Nat) (edit : Table Nat Bytes → Table Nat Bytes) :
    Fresh (editDetached db f size edit) := by
  unfold Replay.editDetached
  cases hdetached : db.detachSharedDataObject f size with
  | none => exact h
  | some detached =>
    have hkept : Fresh detached.1 := by
      unfold detachSharedDataObject at hdetached
      split at hdetached
      · cases hdetached
      · dsimp only at hdetached
        split at hdetached
        · cases hdetached
          exact h
        · rename_i o object _ _
          cases hdetached
          have hcreated : Fresh ((db.createDataObject object.blocks).1.setFile f
              ⟨size, (db.createDataObject object.blocks).2⟩) := h.createDataObject object.blocks
          exact hcreated.updateObject o _
    exact hkept.updateObject _ _

lemma editDetached_own {count : Nat} {blocks : Table Nat Bytes} (size : Nat)
    (edit : Table Nat Bytes → Table Nat Bytes)
    (h : db.fileDataObjectInfo f = some (o, ⟨count, blocks⟩)) (hcount : count ≤ 1) :
    editDetached db f size edit =
      { db with
        files := db.files.insert f ⟨size, o⟩
        objects := db.objects.insert o ⟨count, edit blocks⟩ } := by
  obtain ⟨row, hrow, rfl, hobject⟩ := fileDataObjectInfo_cases h
  simp [editDetached, detachSharedDataObject, h, hcount, updateObject, hobject, setFile]

lemma editDetached_info (size : Nat) (edit : Table Nat Bytes → Table Nat Bytes)
    (h : db.fileDataObjectInfo f = some (o, object)) (hne : o ≠ db.nextObject) :
    ∃ own count, count ≤ 1 ∧ (editDetached db f size edit).files.lookup f = some ⟨size, own⟩ ∧
      (editDetached db f size edit).objects.lookup own = some ⟨count, edit object.blocks⟩ := by
  by_cases hcount : object.referenceCount ≤ 1
  · rw [editDetached_own size edit h hcount]
    exact ⟨o, object.referenceCount, hcount, AList.lookup_insert _, AList.lookup_insert _⟩
  · obtain ⟨row, hrow, rfl, hobject⟩ := fileDataObjectInfo_cases h
    refine ⟨db.nextObject, 1, Nat.le_refl 1, ?_⟩
    have hold : (db.objects.insert db.nextObject ⟨1, object.blocks⟩).lookup row.dataObject =
        some object := (AList.lookup_insert_ne hne).trans hobject
    simp [editDetached, detachSharedDataObject, h, hcount, createDataObject, setFile, touchOldObject,
      updateObject, hold, AList.lookup_insert_ne hne.symm]

lemma editDetached_again (f size : Nat) (edit : Table Nat Bytes → Table Nat Bytes)
    (hfresh : Fresh db) (hedit : ∀ o object, db.fileDataObjectInfo f = some (o, object) → ∀ b,
      (edit (edit object.blocks)).lookup b = (edit object.blocks).lookup b) :
    SameData (Equiv.refl Nat) (editDetached db f size edit)
      (editDetached (editDetached db f size edit) f size edit) := by
  cases hinfo : db.fileDataObjectInfo f with
  | none =>
    have hnone : editDetached db f size edit = db := by
      simp [editDetached, detachSharedDataObject, hinfo]
    rw [hnone, hnone]
    exact .refl db
  | some info =>
    obtain ⟨o, object⟩ := info
    obtain ⟨row, -, -, hobject⟩ := fileDataObjectInfo_cases hinfo
    obtain ⟨own, count, hcount, hfile, hown⟩ :=
      editDetached_info size edit hinfo (hfresh o object hobject).ne
    have hagain := editDetached_own size edit (fileDataObjectInfo_eq hfile hown) hcount
    rw [hagain]
    refine ⟨fun g => ?_, fun o' => ?_, fun o' b => ?_⟩
    · simp only [Table.lookup_insert_eq_ite, Equiv.refl_apply, Option.map_id']
      split
      · rename_i hg
        rw [hg, hfile]
      · rfl
    · simp only [Table.lookup_insert_eq_ite, Equiv.refl_apply]
      split
      · rename_i ho
        rw [ho, hown]
        rfl
      · rfl
    · simp only [Table.lookup_insert_eq_ite, Equiv.refl_apply]
      split
      · rename_i ho
        rw [ho, hown]
        exact hedit o object hinfo b
      · rfl

variable {cfg : Config} {flush : Tables.Flush}

def Tables.Flush.covers (flush : Tables.Flush) : Bool :=
  persistBlocksCoverFullFile flush.size flush.blockSize flush.rows

def Tables.Flush.edit (cfg : Config) (flush : Tables.Flush) : Table Nat Bytes → Table Nat Bytes :=
  rowsApplied cfg.transport flush.blockSize flush.totalBlocks flush.truncatePending flush.rows

lemma detached_empty {db' : Db} {own : Nat} {empty : Bool} (hfresh : Fresh db)
    (h : db.detachSharedDataObject f size = some (db', own, empty)) :
    ∃ object, db'.objects.lookup own = some object ∧ empty = object.blocks.keys.isEmpty := by
  unfold detachSharedDataObject at h
  cases hinfo : db.fileDataObjectInfo f with
  | none => simp [hinfo] at h
  | some info =>
    obtain ⟨o, object⟩ := info
    obtain ⟨row, -, rfl, hobject⟩ := fileDataObjectInfo_cases hinfo
    simp only [hinfo] at h
    split at h
    · cases h
      exact ⟨object, hobject, rfl⟩
    · cases h
      have hne := (hfresh _ object hobject).ne
      have hold : (db.objects.insert db.nextObject ⟨1, object.blocks⟩).lookup row.dataObject =
          some object := (AList.lookup_insert_ne hne).trans hobject
      refine ⟨⟨1, object.blocks⟩, ?_, rfl⟩
      simp [createDataObject, setFile, touchOldObject, updateObject, hold,
        AList.lookup_insert_ne hne.symm]

lemma flush_eq_editDetached (hfresh : Fresh db) (h : flush.covers = false) :
    flush.apply cfg db = editDetached db flush.file flush.size (flush.edit cfg) := by
  unfold Tables.Flush.covers at h
  simp only [Tables.Flush.apply, persistFileBlocks, dataObjectWriteTarget, h, Bool.false_eq_true,
    if_false, editDetached]
  cases hdetached : db.detachSharedDataObject flush.file flush.size with
  | none => rfl
  | some detached =>
    obtain ⟨db', own, empty⟩ := detached
    obtain ⟨object, hobject, rfl⟩ := detached_empty hfresh hdetached
    simp only [Option.map_some, finishDataObjectWrite, updateObject, hobject]
    rfl

lemma punch_eq_editDetached {offset : Nat} (deferred : Bool) (bs length : Nat)
    (hsize : db.fileSize f = some size) (hinside : ¬ size ≤ offset) :
    db.punchHoleKeepSize deferred f bs offset length =
      editDetached db f size (punchBlocks bs offset (min (offset + length) size)) := by
  simp only [punchHoleKeepSize, hsize, if_neg hinside, dataObjectWriteTarget, Bool.false_eq_true,
    if_false, editDetached]
  cases db.detachSharedDataObject f size with
  | none => rfl
  | some detached => rfl

def Tables.Flush.wholeRows (cfg : Config) (flush : Tables.Flush) : Table Nat Bytes :=
  persistRows cfg.transport flush.blockSize true flush.rows ∅

lemma flush_replaces (hdeferred : cfg.deferred = false) (hcovers : flush.covers = true)
    (hinfo : db.fileDataObjectInfo flush.file = some (o, object)) (hne : o ≠ db.nextObject) :
    (flush.apply cfg db).files = db.files.insert flush.file ⟨flush.size, db.nextObject⟩ ∧
    (flush.apply cfg db).nextObject = db.nextObject + 1 ∧
    ∀ k, (flush.apply cfg db).objects.lookup k =
      if k = db.nextObject then some ⟨1, flush.wholeRows cfg⟩
      else if k = o then
        (if object.referenceCount ≤ 1 then none
        else some { object with referenceCount := object.referenceCount - 1 })
      else db.objects.lookup k := by
  obtain ⟨row, -, rfl, hobject⟩ := fileDataObjectInfo_cases hinfo
  have hold : (AList.insert db.nextObject ⟨1, flush.wholeRows cfg⟩
      (AList.insert db.nextObject ⟨1, ∅⟩ db.objects)).lookup row.dataObject = some object :=
    (AList.lookup_insert_ne hne).trans ((AList.lookup_insert_ne hne).trans hobject)
  unfold Tables.Flush.covers at hcovers
  unfold Tables.Flush.wholeRows at *
  simp only [Tables.Flush.apply, persistFileBlocks, dataObjectWriteTarget, hcovers, if_true, hinfo,
    createDataObject, updateObject, AList.lookup_insert, Bool.not_true, Bool.and_false, deleteTail,
    Bool.false_eq_true, if_false, finishDataObjectWrite, hdeferred, setFile, touchOldObject, hold]
  split
  · refine ⟨rfl, rfl, fun k => ?_⟩
    simp only [Table.lookup_erase_eq_ite, Table.lookup_insert_eq_ite]
    grind
  · refine ⟨rfl, rfl, fun k => ?_⟩
    simp only [Table.lookup_insert_eq_ite]
    grind

lemma flush_replaces_again (hdeferred : cfg.deferred = false) (hcovers : flush.covers = true)
    (hinfo : db.fileDataObjectInfo flush.file = some (o, object)) (hfresh : Fresh db)
    (hfile : ∀ f row, db.files.lookup f = some row → row.dataObject < db.nextObject) :
    SameData (Equiv.swap db.nextObject (db.nextObject + 1)) (flush.apply cfg db)
      (flush.apply cfg (flush.apply cfg db)) := by
  obtain ⟨row, -, -, hobject⟩ := fileDataObjectInfo_cases hinfo
  have hnew : ∀ k, db.nextObject ≤ k → db.objects.lookup k = none := by
    intro k hk
    by_contra hsome
    obtain ⟨object', hobject'⟩ := Option.ne_none_iff_exists'.mp hsome
    exact absurd (hfresh k object' hobject') (by omega)
  obtain ⟨hfiles, hnext, hobjects⟩ :=
    flush_replaces hdeferred hcovers hinfo (hfresh o object hobject).ne
  have hinfo' : (flush.apply cfg db).fileDataObjectInfo flush.file =
      some (db.nextObject, ⟨1, flush.wholeRows cfg⟩) := by
    have hrow' : (flush.apply cfg db).files.lookup flush.file =
        some ⟨flush.size, db.nextObject⟩ := by
      rw [hfiles, AList.lookup_insert]
    exact fileDataObjectInfo_eq hrow' (by rw [hobjects, if_pos rfl])
  obtain ⟨hfiles', -, hobjects'⟩ :=
    flush_replaces hdeferred hcovers hinfo' (by rw [hnext]; omega)
  have hsame : ∀ k, (flush.apply cfg (flush.apply cfg db)).objects.lookup
      (Equiv.swap db.nextObject (db.nextObject + 1) k) = (flush.apply cfg db).objects.lookup k := by
    intro k
    rw [hobjects', hnext, Equiv.swap_apply_def]
    have hbeyond := hobjects (db.nextObject + 1)
    rw [hnew (db.nextObject + 1) (by omega)] at hbeyond
    have ho := hfresh o object hobject
    grind
  refine ⟨fun g => ?_, fun k => by rw [hsame], fun k b => by rw [hsame]⟩
  rw [hfiles', hnext, hfiles]
  simp only [Table.lookup_insert_eq_ite]
  by_cases hg : g = flush.file
  · simp [hg]
  · simp only [if_neg hg]
    cases hrow : db.files.lookup g with
    | none => rfl
    | some row' =>
      have hlt := hfile g row' hrow
      simp [Equiv.swap_apply_of_ne_of_ne (show row'.dataObject ≠ db.nextObject by omega)
        (show row'.dataObject ≠ db.nextObject + 1 by omega)]

end Objects

end Fod.Replay
