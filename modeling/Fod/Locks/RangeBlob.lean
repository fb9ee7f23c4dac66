import Fod.Lib.Scan
import Fod.Lib.TextFields
import Fod.Locks.RangeLeases

/-!
# Lock records as text and as rows

The PostgreSQL backend passes lock records as text between the mount and the
rows of `lock_range_leases`.  `lock_records_to_blob` writes them, and two parsers
read them: `lock_records_from_blob` in the mount, and the loop over the owner's
payload in `update_lock_range_state_blob_for_owner`.  Storable records survive
the way through both.
-/

namespace Fod.Locks

open TextFields

def i32Max : Nat := 2 ^ 31 - 1

def u32Max : Nat := 2 ^ 32 - 1

def LockType.code : LockType → Nat
  | .read => 0
  | .write => 1
  | .unlock => 2

def lockTypeOfCode : Int → Option LockType
  | 0 => some .read
  | 1 => some .write
  | _ => none

def recordLine (record : PosixLockRecord) : List Char :=
  List.intercalate ['\t']
    [decimal record.owner, decimal record.typ.code, decimal record.start,
      (record.stop.map decimal).getD [], decimal record.pid]

def lockRecordsToBlob (records : List PosixLockRecord) : List Char :=
  joinLines (records.map recordLine)

def parseStop (field : List Char) : Option (Option Nat) :=
  if field = [] then some none else (parseUnsigned u64Max field).map some

def lockRecordFromLine (line : List Char) : Option PosixLockRecord :=
  match line.splitOn '\t' with
  | ownerField :: typField :: startField :: stopField :: rest => do
    let owner ← parseUnsigned u64Max ownerField
    let typ ← parseSigned i32Max typField
    let start ← parseUnsigned u64Max startField
    let stop ← parseStop stopField
    let pid ← if rest = [] then some 0 else parseUnsigned u32Max (rest.headD [])
    guard (rest.length ≤ 1)
    let typ ← lockTypeOfCode typ
    let record : PosixLockRecord := ⟨owner, typ, start, stop, pid⟩
    guard (validRecord record)
    some record
  | _ => none

def lockRecordsFromBlob (blob : List Char) : Option (List PosixLockRecord) :=
  (lines blob).mapM lockRecordFromLine

structure LockRow where
  resourceKind : List Char
  resourceId : Nat
  session : Nat
  ownerKey : Nat
  lockType : Int
  rangeStart : Nat
  rangeEnd : Option Nat
  lockPid : Nat

namespace LockRow

/-- The types of the columns: `BIGINT`, `NUMERIC(20, 0)` and `INTEGER`. -/
def Fits (row : LockRow) : Prop :=
  row.resourceId ≤ i64Max ∧ row.ownerKey < 10 ^ 20 ∧
    (-(i32Max + 1 : Int) ≤ row.lockType ∧ row.lockType ≤ i32Max) ∧
    row.rangeStart ≤ i64Max ∧ row.rangeEnd.getD 0 ≤ i64Max ∧ row.lockPid ≤ i32Max

instance (row : LockRow) : Decidable row.Fits :=
  inferInstanceAs (Decidable (_ ∧ _ ∧ (_ ∧ _) ∧ _ ∧ _ ∧ _))

def line (row : LockRow) : List Char :=
  List.intercalate ['\t']
    [decimal row.ownerKey, signedDecimal row.lockType, decimal row.rangeStart,
      (row.rangeEnd.map decimal).getD [], decimal row.lockPid]

/-- `ORDER BY owner_key, range_start, COALESCE(range_end, 9223372036854775807)`. -/
def Before (a b : LockRow) : Prop :=
  a.ownerKey < b.ownerKey ∨ a.ownerKey = b.ownerKey ∧
    (a.rangeStart < b.rangeStart ∨ a.rangeStart = b.rangeStart ∧
      a.rangeEnd.getD i64Max ≤ b.rangeEnd.getD i64Max)

instance : DecidableRel Before := fun _ _ =>
  inferInstanceAs (Decidable (_ ∨ _ ∧ (_ ∨ _ ∧ _)))

def IsOf (row : LockRow) (kind : List Char) (id : Nat) : Prop :=
  row.resourceKind = kind ∧ row.resourceId = id

instance (row : LockRow) (kind : List Char) (id : Nat) : Decidable (row.IsOf kind id) :=
  inferInstanceAs (Decidable (_ ∧ _))

end LockRow

def loadedRows (rows : List LockRow) (kind : List Char) (id : Nat) : List LockRow :=
  (rows.filter fun row => row.IsOf kind id).insertionSort LockRow.Before

def loadLockRangeStateBlob (rows : List LockRow) (kind : List Char) (id : Nat) : List Char :=
  joinLines ((loadedRows rows kind id).map LockRow.line)

def orError {α : Type} (message : String) : Option α → Except String α
  | some a => .ok a
  | none => .error message

def payloadRow (kind : List Char) (id session owner : Nat) (line : List Char) :
    Except String LockRow := do
  let fields := line.splitOn '\t'
  let lockType ← orError "invalid lock type in owner payload"
    (parseSigned i32Max (fields.getD 1 []))
  let rangeStart ← orError "invalid range start in owner payload"
    (parseUnsigned u64Max (fields.getD 2 []))
  let lockPid ← orError "invalid pid in owner payload"
    (parseUnsigned u32Max (fields.getD 4 ['0']))
  if fields.getD 0 [] ≠ decimal owner ∨ 5 < fields.length then
    throw "invalid owner in lock range payload"
  let rangeEnd ← orError "invalid range end in owner payload" (parseStop (fields.getD 3 []))
  let row : LockRow := ⟨kind, id, session, owner, lockType, rangeStart, rangeEnd, lockPid⟩
  if row.Fits then pure row else throw "value out of range"

/-- The transaction; an error rolls it back.  `false` means that `update` declined. -/
def updateLockRangeStateBlobForOwner (rows : List LockRow) (kind : List Char)
    (id session owner : Nat)
    (update : List Char → Except String (Option (List Char))) :
    Except String (List LockRow × Bool) := do
  match ← update (loadLockRangeStateBlob rows kind id) with
  | none => pure (rows, false)
  | some payload =>
    let kept := rows.filter fun row =>
      ¬ (row.IsOf kind id ∧ row.session = session ∧ row.ownerKey = owner)
    let inserted ← (lines payload).mapM (payloadRow kind id session owner)
    pure (kept ++ inserted, true)

structure Storable (record : PosixLockRecord) : Prop where
  owner : record.owner ≤ u64Max
  pid : record.pid ≤ i32Max
  valid : validRecord record = true

def rowOf (kind : List Char) (id session : Nat) (record : PosixLockRecord) : LockRow :=
  ⟨kind, id, session, record.owner, record.typ.code, record.start, record.stop, record.pid⟩

def LockRow.record (row : LockRow) : PosixLockRecord :=
  ⟨row.ownerKey, (lockTypeOfCode row.lockType).getD .unlock, row.rangeStart, row.rangeEnd,
    row.lockPid⟩

section

variable {record : PosixLockRecord} {kind : List Char} {id session : Nat}

lemma Storable.typ (h : Storable record) : record.typ ≠ .unlock := by
  have hvalid := h.valid
  simp only [validRecord, Bool.and_eq_true, bne_iff_ne] at hvalid
  exact hvalid.1.1

lemma Storable.start (h : Storable record) : record.start ≤ i64Max := by
  have hvalid := h.valid
  simp only [validRecord, Bool.and_eq_true, decide_eq_true_eq] at hvalid
  exact hvalid.1.2

lemma Storable.stop (h : Storable record) {stop : Nat} (hstop : record.stop = some stop) :
    stop ≤ i64Max := by
  have hvalid := h.valid
  simp only [validRecord, Bool.and_eq_true, hstop, Option.all_some, decide_eq_true_eq] at hvalid
  exact hvalid.2.1

lemma lockTypeOfCode_code {typ : LockType} (h : typ ≠ .unlock) :
    lockTypeOfCode (typ.code : Int) = some typ := by
  cases typ with
  | read => rfl
  | write => rfl
  | unlock => exact absurd rfl h

lemma code_le (typ : LockType) : typ.code ≤ 2 := by
  cases typ <;> decide

lemma record_rowOf (h : Storable record) : (rowOf kind id session record).record = record := by
  simp only [LockRow.record, rowOf, lockTypeOfCode_code h.typ, Option.getD_some]

lemma line_rowOf : (rowOf kind id session record).line = recordLine record := rfl

lemma fits_rowOf (h : Storable record) (hid : id ≤ i64Max) :
    (rowOf kind id session record).Fits := by
  have hcode := code_le record.typ
  have hstop : record.stop.getD 0 ≤ i64Max := by
    cases hstop : record.stop with
    | none => exact Nat.zero_le _
    | some stop => exact h.stop hstop
  have howner := h.owner
  refine ⟨hid, ?_, ⟨?_, ?_⟩, h.start, hstop, h.pid⟩
  · change record.owner < 10 ^ 20
    unfold u64Max at howner
    omega
  · change -(i32Max + 1 : Int) ≤ (record.typ.code : Int)
    unfold i32Max
    omega
  · change (record.typ.code : Int) ≤ i32Max
    unfold i32Max
    omega

lemma splitOn_recordLine (record : PosixLockRecord) : (recordLine record).splitOn '\t' =
      [decimal record.owner, decimal record.typ.code, decimal record.start,
        (record.stop.map decimal).getD [], decimal record.pid] := by
  refine List.splitOn_intercalate _ (fun field hfield => ?_) (List.cons_ne_nil _ _)
  have hdecimal (n : Nat) : '\t' ∉ decimal n := notMem_decimal (by decide)
  simp only [List.mem_cons, List.not_mem_nil, or_false] at hfield
  rcases hfield with rfl | rfl | rfl | rfl | rfl
  · exact hdecimal _
  · exact hdecimal _
  · exact hdecimal _
  · cases record.stop with
    | none => exact List.not_mem_nil
    | some stop => exact hdecimal stop
  · exact hdecimal _

lemma notMem_recordLine {c : Char} (hdigit : c.isDigit = false) (htab : c ≠ '\t') :
    c ∉ recordLine record := by
  have hdecimal (n : Nat) : c ∉ decimal n := notMem_decimal hdigit
  have hstop : c ∉ (record.stop.map decimal).getD [] := by
    cases record.stop with
    | none => exact List.not_mem_nil
    | some stop => exact hdecimal stop
  simp [recordLine, List.intercalate, hdecimal, hstop, htab]

lemma recordLine_ne_nil : recordLine record ≠ [] := by
  intro hnil
  have hsplit := congrArg List.length (splitOn_recordLine record)
  rw [hnil] at hsplit
  cases hsplit

lemma lines_lockRecordsToBlob (records : List PosixLockRecord) :
    lines (lockRecordsToBlob records) = records.map recordLine := by
  refine lines_joinLines ?_ ?_ ?_ <;>
    · intro line hline
      obtain ⟨record, -, rfl⟩ := List.mem_map.mp hline
      first
        | exact recordLine_ne_nil
        | exact notMem_recordLine (by decide) (by decide)

lemma parseStop_decimal (h : Storable record) :
    parseStop ((record.stop.map decimal).getD []) = some record.stop := by
  cases hstop : record.stop with
  | none => rfl
  | some stop =>
    have hle : stop ≤ u64Max := (h.stop hstop).trans (by decide)
    rw [parseStop, Option.map_some, Option.getD_some, if_neg (decimal_ne_nil stop),
      parseUnsigned_decimal hle, Option.map_some]

lemma lockRecordFromLine_recordLine (h : Storable record) :
    lockRecordFromLine (recordLine record) = some record := by
  have hstart : record.start ≤ u64Max := h.start.trans (by decide)
  have htyp : record.typ.code ≤ i32Max := (code_le _).trans (by decide)
  have hpid : record.pid ≤ u32Max := h.pid.trans (by decide)
  simp [lockRecordFromLine, splitOn_recordLine, parseUnsigned_decimal h.owner,
    parseSigned_decimal htyp, parseUnsigned_decimal hstart, parseStop_decimal h,
    parseUnsigned_decimal hpid, lockTypeOfCode_code h.typ, h.valid]

lemma payloadRow_recordLine (h : Storable record) (hid : id ≤ i64Max) :
    payloadRow kind id session record.owner (recordLine record) =
      .ok (rowOf kind id session record) := by
  have hstart : record.start ≤ u64Max := h.start.trans (by decide)
  have htyp : record.typ.code ≤ i32Max := (code_le _).trans (by decide)
  have hpid : record.pid ≤ u32Max := h.pid.trans (by decide)
  have hfits : (rowOf kind id session record).Fits := fits_rowOf h hid
  rw [rowOf] at hfits
  simp [payloadRow, splitOn_recordLine, parseSigned_decimal htyp,
    parseUnsigned_decimal hstart, parseStop_decimal h, parseUnsigned_decimal hpid, orError,
    hfits, bind, Except.bind, pure, Except.pure, rowOf]

end

def fileKind : List Char := ['f', 'i', 'l', 'e']

def StoredRow (session : Nat) (row : LockRow) : Prop :=
  ∃ id ≤ i64Max, ∃ record, Storable record ∧ row = rowOf fileKind id session record

def loadedRecords (rows : List LockRow) (kind : List Char) (id : Nat) : List PosixLockRecord :=
  (loadedRows rows kind id).map LockRow.record

def replaceOwnerRows (rows : List LockRow) (kind : List Char) (id session owner : Nat)
    (records : List PosixLockRecord) : List LockRow :=
  rows.filter (fun row => ¬ (row.IsOf kind id ∧ row.session = session ∧ row.ownerKey = owner)) ++
    records.map (rowOf kind id session)

section

variable {rows : List LockRow} {records : List PosixLockRecord} {kind : List Char}
  {id id' session owner : Nat} {row : LockRow} {record : PosixLockRecord}

lemma StoredRow.storable (h : StoredRow session row) : Storable row.record := by
  obtain ⟨id, -, record, hrecord, rfl⟩ := h
  rwa [record_rowOf hrecord]

lemma StoredRow.line (h : StoredRow session row) : row.line = recordLine row.record := by
  obtain ⟨id, -, record, hrecord, rfl⟩ := h
  rw [record_rowOf hrecord, line_rowOf]

lemma mem_loadedRows : row ∈ loadedRows rows kind id ↔ row ∈ rows ∧ row.IsOf kind id := by
  rw [loadedRows, (List.perm_insertionSort _ _).mem_iff, List.mem_filter, decide_eq_true_eq]

lemma storable_of_mem_loadedRecords (h : ∀ row ∈ rows, StoredRow session row)
    (hrecord : record ∈ loadedRecords rows kind id) : Storable record := by
  obtain ⟨row, hrow, rfl⟩ := List.mem_map.mp hrecord
  exact (h row (mem_loadedRows.mp hrow).1).storable

/-- What a mount stores of its locks reads back as it was. -/
theorem lock_blob_roundTrip (records : List PosixLockRecord)
    (h : ∀ record ∈ records, Storable record) :
    lockRecordsFromBlob (lockRecordsToBlob records) = some records := by
  rw [lockRecordsFromBlob, lines_lockRecordsToBlob]
  refine (Scan.mapM_map_eq_pure (h := fun record => record) _ fun record hrecord => ?_).trans ?_
  · exact lockRecordFromLine_recordLine (h record hrecord)
  · rw [List.map_id']
    rfl

theorem lock_blob_roundTrip_openEnd : lockRecordsFromBlob (lockRecordsToBlob
      [⟨7, .write, 20, none, 1⟩]) = some [⟨7, .write, 20, none, 1⟩] :=
  lock_blob_roundTrip _ fun _ h => List.mem_singleton.mp h ▸ ⟨by decide, by decide, by decide⟩

lemma lockRecordsFromBlob_load (h : ∀ row ∈ rows, StoredRow session row) :
    lockRecordsFromBlob (loadLockRangeStateBlob rows kind id) =
      some (loadedRecords rows kind id) := by
  have hblob : loadLockRangeStateBlob rows kind id =
      lockRecordsToBlob (loadedRecords rows kind id) := by
    rw [loadLockRangeStateBlob, lockRecordsToBlob, loadedRecords, List.map_map]
    refine congrArg joinLines (List.map_congr_left fun row hrow => ?_)
    exact (h row (mem_loadedRows.mp hrow).1).line
  rw [hblob, lockRecordsFromBlob, lines_lockRecordsToBlob]
  refine (Scan.mapM_map_eq_pure (h := fun record => record) _ fun record hrecord => ?_).trans ?_
  · exact lockRecordFromLine_recordLine (storable_of_mem_loadedRecords h hrecord)
  · rw [List.map_id']
    rfl

lemma update_eq_ok {update : List Char → Except String (Option (List Char))}
    (hupdate : update (loadLockRangeStateBlob rows kind id) =
      .ok (some (lockRecordsToBlob records)))
    (hid : id ≤ i64Max) (hrecords : ∀ record ∈ records, Storable record ∧ record.owner = owner) :
    updateLockRangeStateBlobForOwner rows kind id session owner update =
      .ok (replaceOwnerRows rows kind id session owner records, true) := by
  have hinserted : (lines (lockRecordsToBlob records)).mapM (payloadRow kind id session owner) =
      .ok (records.map (rowOf kind id session)) := by
    rw [lines_lockRecordsToBlob]
    refine Scan.mapM_map_eq_pure _ fun record hrecord => ?_
    obtain ⟨hstorable, rfl⟩ := hrecords record hrecord
    exact payloadRow_recordLine hstorable hid
  rw [updateLockRangeStateBlobForOwner, hupdate]
  simp only [bind, Except.bind, hinserted, pure, Except.pure, replaceOwnerRows]

lemma StoredRow.replaceOwnerRows (h : ∀ row ∈ rows, StoredRow session row) (hid : id ≤ i64Max)
    (hrecords : ∀ record ∈ records, Storable record) :
    ∀ row ∈ replaceOwnerRows rows fileKind id session owner records, StoredRow session row := by
  intro row hrow
  rcases List.mem_append.mp hrow with hrow | hrow
  · exact h row (List.mem_filter.mp hrow).1
  · obtain ⟨record, hrecord, rfl⟩ := List.mem_map.mp hrow
    exact ⟨id, hid, record, hrecords record hrecord, rfl⟩

lemma loadedRecords_replaceOwnerRows_of_ne (hne : id' ≠ id) :
    loadedRecords (replaceOwnerRows rows kind id session owner records) kind id' =
      loadedRecords rows kind id' := by
  have hkept : (replaceOwnerRows rows kind id session owner records).filter
      (fun row => row.IsOf kind id') = rows.filter fun row => row.IsOf kind id' := by
    rw [replaceOwnerRows, List.filter_append, List.filter_filter]
    have hnew : (records.map (rowOf kind id session)).filter (fun row => row.IsOf kind id') = [] := by
      refine List.filter_eq_nil_iff.mpr fun row hrow => ?_
      obtain ⟨record, -, rfl⟩ := List.mem_map.mp hrow
      simp only [LockRow.IsOf, rowOf, true_and, decide_eq_true_eq]
      exact hne.symm
    rw [hnew, List.append_nil]
    refine List.filter_congr fun row _ => ?_
    simp only [LockRow.IsOf]
    grind
  rw [loadedRecords, loadedRows, hkept, loadedRecords, loadedRows]

lemma perm_loadedRecords : (loadedRecords rows kind id).Perm
      ((rows.filter fun row => row.IsOf kind id).map LockRow.record) :=
  (List.perm_insertionSort _ _).map _

lemma perm_loadedRecords_replaceOwnerRows (h : ∀ row ∈ rows, StoredRow session row)
    (hrecords : ∀ record ∈ records, Storable record) :
    (loadedRecords (replaceOwnerRows rows kind id session owner records) kind id).Perm
      (((loadedRecords rows kind id).filter fun record => record.owner != owner) ++ records) := by
  refine perm_loadedRecords.trans ?_
  have hnew : ((records.map (rowOf kind id session)).filter fun row => row.IsOf kind id).map
      LockRow.record = records := by
    rw [List.filter_eq_self.mpr, List.map_map]
    · refine (List.map_congr_left fun record hrecord => ?_).trans (List.map_id _)
      exact record_rowOf (hrecords record hrecord)
    · intro row hrow
      obtain ⟨record, -, rfl⟩ := List.mem_map.mp hrow
      simp only [LockRow.IsOf, rowOf, and_self, decide_true]
  have hkept : (rows.filter fun row =>
        ¬ (row.IsOf kind id ∧ row.session = session ∧ row.ownerKey = owner)).filter
          (fun row => row.IsOf kind id) =
      (rows.filter fun row => row.IsOf kind id).filter fun row => row.record.owner != owner := by
    rw [List.filter_filter, List.filter_filter]
    refine List.filter_congr fun row hrow => ?_
    obtain ⟨_, -, record, -, rfl⟩ := h row hrow
    simp only [LockRow.record, rowOf]
    grind
  rw [replaceOwnerRows, List.filter_append, List.map_append, hnew, hkept]
  refine List.Perm.append_right _ ?_
  have hmap := List.filter_map (p := fun record : PosixLockRecord => record.owner != owner)
    (f := LockRow.record) (l := rows.filter fun row => row.IsOf kind id)
  exact (List.Perm.of_eq hmap.symm).trans (perm_loadedRecords.symm.filter _)

end

end Fod.Locks
