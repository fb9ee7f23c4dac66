import Fod.Lib.Table
import Fod.Locks.PosixExact
import Fod.Locks.RangeBlob

/-!
# Two lock backends

With the memory backend the table `posix_locks` of the mount holds the lock
records of every file.  With the PostgreSQL backend the rows of
`lock_range_leases` hold them and `posix_locks` mirrors what was loaded last.  For
the requests of one session the two backends give the same replies, and the rows
say of every byte what the table in memory says.
-/

namespace Fod.Locks

open TextFields

def resourceKey (fileId : Nat) : List Char := fileKind ++ ':' :: decimal fileId

def lockResourceKindId (key : List Char) : Option (List Char × Nat) :=
  if ':' ∈ key then
    (parseUnsigned u64Max (key.dropWhile (· ≠ ':')).tail).map fun id =>
      (key.takeWhile (· ≠ ':'), id)
  else none

abbrev LockMap := Table (List Char) (List PosixLockRecord)

namespace LockMap

def recordsFor (t : LockMap) (key : List Char) : List PosixLockRecord := (t.lookup key).getD []

def storeRecords (t : LockMap) (key : List Char) (records : List PosixLockRecord) : LockMap :=
  if records.isEmpty then t.erase key else t.insert key records

def changedKeys (t : LockMap) (owner : Nat) : List (List Char) :=
  t.keysWith fun records => (clearLocksForOwner records owner).length != records.length

def clearOwner (t : LockMap) (owner : Nat) : LockMap :=
  (t.adjust fun _ records => clearLocksForOwner records owner).keep
    fun _ records => !records.isEmpty

def setlk (t : LockMap) (key : List Char) (req : SetlkRequest) : LockMap × SetlkReply :=
  let result := Locks.setlk false (t.recordsFor key) req
  if result.2 = .ok then (t.storeRecords key result.1, .ok) else (t, result.2)

def clearLocksForOwnerAndSync (t : LockMap) (owner : Nat) : LockMap :=
  (t.changedKeys owner).foldl (fun t key => t.storeRecords key (t.recordsFor key))
    (t.clearOwner owner)

end LockMap

structure PgLocks where
  posixLocks : LockMap
  rows : List LockRow

namespace PgLocks

def loadLockRecordsForKey (s : PgLocks) (key : List Char) :
    PgLocks × Option (List PosixLockRecord) :=
  match lockResourceKindId key with
  | none => (s, none)
  | some (kind, id) =>
    match lockRecordsFromBlob (loadLockRangeStateBlob s.rows kind id) with
    | none => (s, none)
    | some records => ({ s with posixLocks := s.posixLocks.storeRecords key records }, some records)

def rangeUpdate (req : SetlkRequest) (state : List Char) : Except String (Option (List Char)) :=
  match lockRecordsFromBlob state with
  | none => .error "invalid lock state errno=5"
  | some records =>
    if req.typ ≠ .unlock ∧ (lockConflict records req.owner req.typ req.start req.stop).isSome then
      .ok none
    else
      .ok (some (lockRecordsToBlob
        ((updateOwnerLockRange records req.owner req.start req.stop req.replacement).filter
          fun record => record.owner == req.owner)))

def updatePgLockRange (session : Nat) (s : PgLocks) (key : List Char) (req : SetlkRequest) :
    PgLocks × Option Bool :=
  match lockResourceKindId key with
  | none => (s, none)
  | some (kind, id) =>
    match updateLockRangeStateBlobForOwner s.rows kind id session req.owner (rangeUpdate req) with
    | .error _ => (s, none)
    | .ok (rows, false) => ({ s with rows := rows }, some false)
    | .ok (rows, true) =>
      let (s', loaded) := loadLockRecordsForKey { s with rows := rows } key
      (s', loaded.map fun _ => true)

/-- `setlk` with the PostgreSQL backend, which a mount in read-only mode does not use. -/
def setlk (session : Nat) (s : PgLocks) (key : List Char) (req : SetlkRequest) :
    PgLocks × SetlkReply :=
  match updatePgLockRange session s key req with
  | (s', none) => (s', .eio)
  | (s', some granted) =>
    (s', if req.typ = .unlock ∨ granted then .ok else .ewouldblock)

def wholeRange (owner : Nat) : SetlkRequest :=
  ⟨owner, 0, u64Max, .unlock, 0, Nat.zero_le _, le_rfl⟩

/-- `clear_locks_for_owner_and_sync`; the second result are the keys for which the
clean-up was logged as failed. -/
def clearLocksForOwnerAndSync (session : Nat) (s : PgLocks) (owner : Nat) :
    PgLocks × List (List Char) :=
  (s.posixLocks.changedKeys owner).foldl
    (fun (s, failed) key =>
      let (s', result) := updatePgLockRange session s key (wholeRange owner)
      (s', if result.isSome then failed else failed ++ [key]))
    ({ s with posixLocks := s.posixLocks.clearOwner owner }, [])

end PgLocks

structure LockRequest extends SetlkRequest where
  fileId : Nat
  fileId_le : fileId ≤ i64Max
  owner_le : owner ≤ u64Max
  stop_le : stop ≤ i64Max
  pid_le : pid ≤ i32Max

inductive BackendAction where
  | setlk (req : LockRequest)
  | clearOwner (owner : Nat)

def memoryAct (t : LockMap) : BackendAction → LockMap
  | .setlk req => (t.setlk (resourceKey req.fileId) req.toSetlkRequest).1
  | .clearOwner owner => t.clearLocksForOwnerAndSync owner

def pgAct (session : Nat) (s : PgLocks) : BackendAction → PgLocks
  | .setlk req => (s.setlk session (resourceKey req.fileId) req.toSetlkRequest).1
  | .clearOwner owner => (s.clearLocksForOwnerAndSync session owner).1

lemma lockResourceKindId_resourceKey {fileId : Nat} (h : fileId ≤ i64Max) :
    lockResourceKindId (resourceKey fileId) = some (fileKind, fileId) := by
  have hmem : ':' ∈ resourceKey fileId :=
    List.mem_append_right _ List.mem_cons_self
  have hdrop : ((resourceKey fileId).dropWhile (· ≠ ':')).tail = decimal fileId := rfl
  have htake : (resourceKey fileId).takeWhile (· ≠ ':') = fileKind := rfl
  rw [lockResourceKindId, if_pos hmem, hdrop, htake,
    parseUnsigned_decimal (h.trans (by decide)), Option.map_some]

lemma resourceKey_injective : Function.Injective resourceKey := by
  intro a b h
  have hdecimal : decimal a = decimal b := (List.cons.inj (List.append_cancel_left h)).2
  have hvalue := congrArg digitsValue hdecimal
  rw [digitsValue_decimal, digitsValue_decimal] at hvalue
  exact Option.some.inj hvalue

namespace LockMap

variable {t : LockMap} {key key' : List Char} {owner : Nat}

lemma recordsFor_storeRecords (records : List PosixLockRecord) :
    (t.storeRecords key records).recordsFor key' =
      if key' = key then records else t.recordsFor key' := by
  unfold storeRecords recordsFor
  split
  next hempty =>
    rw [Table.lookup_erase_eq_ite]
    obtain rfl := List.isEmpty_iff.mp hempty
    split <;> rfl
  next =>
    rw [Table.lookup_insert_eq_ite]
    split <;> rfl

lemma recordsFor_storeRecords_file {id id' : Nat} (records : List PosixLockRecord) :
    (t.storeRecords (resourceKey id) records).recordsFor (resourceKey id') =
      if id' = id then records else t.recordsFor (resourceKey id') := by
  rw [recordsFor_storeRecords]
  by_cases hid : id' = id
  · rw [if_pos hid, if_pos (congrArg resourceKey hid)]
  · rw [if_neg hid, if_neg fun hkey => hid (resourceKey_injective hkey)]

lemma recordsFor_clearOwner :
    (t.clearOwner owner).recordsFor key = clearLocksForOwner (t.recordsFor key) owner := by
  rw [recordsFor, clearOwner, Table.lookup_keep, Table.lookup_adjust, recordsFor]
  cases t.lookup key with
  | none => rfl
  | some records =>
    rw [Option.map_some, Option.filter_some]
    split
    next => rfl
    next hempty =>
      simp only [Bool.not_eq_true', Bool.not_eq_false, List.isEmpty_iff] at hempty
      rw [Option.getD_none, Option.getD_some, hempty]

lemma mem_changedKeys :
    key ∈ t.changedKeys owner ↔ ∃ record ∈ t.recordsFor key, record.owner = owner := by
  rw [changedKeys, Table.mem_keysWith, recordsFor]
  have hlength (records : List PosixLockRecord) :
      (clearLocksForOwner records owner).length ≠ records.length ↔
        ∃ record ∈ records, record.owner = owner := by
    rw [clearLocksForOwner, Ne, List.length_filter_eq_length_iff]
    simp
  cases t.lookup key with
  | none => simp
  | some records =>
    simp only [Option.some.injEq, exists_eq_left', bne_iff_ne, Option.getD_some]
    exact hlength records

lemma recordsFor_clearLocksForOwnerAndSync : (t.clearLocksForOwnerAndSync owner).recordsFor key =
      clearLocksForOwner (t.recordsFor key) owner := by
  rw [← recordsFor_clearOwner]
  refine List.foldlRecOn (motive := fun u : LockMap =>
    u.recordsFor key = (t.clearOwner owner).recordsFor key) _ _ rfl fun u h key' _ => ?_
  rw [recordsFor_storeRecords, ← h]
  split
  next heq => rw [heq]
  next => rfl

end LockMap

structure KernelRecord (record : PosixLockRecord) : Prop where
  owner : record.owner ≤ u64Max
  pid : record.pid ≤ i32Max
  typ : record.typ ≠ .unlock
  range : ∃ stop, record.stop = some stop ∧ record.start ≤ stop ∧ stop ≤ i64Max

section

variable {records : List PosixLockRecord} {record : PosixLockRecord}
  {replacement : Option PosixLockRecord} {owner start stop : Nat}

lemma KernelRecord.storable (h : KernelRecord record) : Storable record := by
  obtain ⟨stop, hstop, hrange, hbound⟩ := h.range
  refine ⟨h.owner, h.pid, ?_⟩
  simp only [validRecord, hstop, Option.all_some, Bool.and_eq_true, bne_iff_ne,
    decide_eq_true_eq]
  exact ⟨⟨h.typ, hrange.trans hbound⟩, hbound, hrange⟩

lemma KernelRecord.splitRecord {part : PosixLockRecord} (h : KernelRecord record)
    (hoverlap : rangeOverlaps start (some stop) record.start record.stop = true)
    (hpart : part ∈ splitRecord record start stop) : KernelRecord part := by
  obtain ⟨last, hlast, hrange, hbound⟩ := h.range
  simp only [rangeOverlaps, hlast, Option.getD_some, Bool.and_eq_true, decide_eq_true_eq] at hoverlap
  simp only [Locks.splitRecord, hlast, Option.getD_some, List.mem_append] at hpart
  rcases hpart with hpart | hpart
  · split at hpart
    next hleft =>
      obtain rfl := List.mem_singleton.mp hpart
      exact ⟨h.owner, h.pid, h.typ, start - 1, rfl, by simp only; omega, by omega⟩
    next => cases hpart
  · split at hpart
    next hright =>
      obtain rfl := List.mem_singleton.mp hpart
      exact ⟨h.owner, h.pid, h.typ, last, rfl, by simp only; omega, hbound⟩
    next => cases hpart

lemma kernelRecord_updateOwnerLockRange (h : ∀ record ∈ records, KernelRecord record)
    (hnew : ∀ new ∈ replacement, KernelRecord new) :
    ∀ part ∈ updateOwnerLockRange records owner start stop replacement, KernelRecord part := by
  intro part hpart
  simp only [updateOwnerLockRange, List.mem_append, List.mem_flatMap, Option.mem_toList] at hpart
  obtain ⟨record, hrecord, hpart⟩ | hreplaced := hpart
  · split at hpart
    next =>
      obtain rfl := List.mem_singleton.mp hpart
      exact h part hrecord
    next hsplit =>
      simp only [Bool.or_eq_true, not_or, Bool.not_eq_true, Bool.not_eq_false'] at hsplit
      exact (h record hrecord).splitRecord hsplit.2 hpart
  · exact hnew part hreplaced

lemma owner_of_mem_splitRecord {part : PosixLockRecord}
    (hpart : part ∈ splitRecord record start stop) : part.owner = record.owner := by
  simp only [splitRecord, List.mem_append] at hpart
  rcases hpart with hpart | hpart <;>
    · split at hpart
      · obtain rfl := List.mem_singleton.mp hpart
        rfl
      · cases hpart

lemma filter_others_updateOwnerLockRange (hnew : ∀ new ∈ replacement, new.owner = owner) :
    (updateOwnerLockRange records owner start stop replacement).filter
        (fun record => record.owner != owner) =
      records.filter fun record => record.owner != owner := by
  have hreplaced : replacement.toList.filter (fun record => record.owner != owner) = [] := by
    refine List.filter_eq_nil_iff.mpr fun new hmem => ?_
    simp [hnew new (Option.mem_toList.mp hmem)]
  rw [updateOwnerLockRange, List.filter_append, hreplaced, List.append_nil]
  induction records with
  | nil => rfl
  | cons record records ih =>
    rw [List.flatMap_cons, List.filter_append, ih, List.filter_cons]
    by_cases howner : record.owner = owner
    · have hparts : (if record.owner != owner ||
            !rangeOverlaps start (some stop) record.start record.stop then [record]
          else splitRecord record start stop).filter (fun record => record.owner != owner) = [] := by
        refine List.filter_eq_nil_iff.mpr fun part hpart => ?_
        have hpart_owner : part.owner = record.owner := by
          split at hpart
          · rw [List.mem_singleton.mp hpart]
          · exact owner_of_mem_splitRecord hpart
        simp [hpart_owner, howner]
      rw [hparts]
      simp [howner]
    · simp [howner]

lemma WellFormed.perm {records' : List PosixLockRecord} (h : WellFormed records)
    (hperm : records.Perm records') : WellFormed records' := by
  obtain ⟨hvalid, hapart⟩ := wellFormed_iff.mp h
  refine wellFormed_iff.mpr ⟨fun record hrecord => hvalid record (hperm.mem_iff.mpr hrecord), ?_⟩
  exact (hperm.pairwise_iff Apart.symm).mp hapart

lemma lockTypeAt_perm {records' : List PosixLockRecord} (h : WellFormed records)
    (hperm : records.Perm records') (owner p : Nat) :
    lockTypeAt records owner p = lockTypeAt records' owner p := by
  refine lockTypeAt_eq_of_holds h (h.perm hperm) fun typ => ?_
  simp only [Holds, hperm.mem_iff]

end

structure SoundRows (session : Nat) (rows : List LockRow) : Prop where
  stored : ∀ row ∈ rows, StoredRow session row
  kernel : ∀ id, ∀ record ∈ loadedRecords rows fileKind id, KernelRecord record
  wellFormed : ∀ id, WellFormed (loadedRecords rows fileKind id)

lemma setlk_eq (records : List PosixLockRecord) (req : SetlkRequest) :
    setlk false records req =
      if req.typ ≠ .unlock ∧ (lockConflict records req.owner req.typ req.start req.stop).isSome then
        (records, .ewouldblock)
      else (updateOwnerLockRange records req.owner req.start req.stop req.replacement, .ok) := by
  have hdenied : ¬ req.Denied false := fun h => absurd h.1 (by decide)
  by_cases hunlock : req.typ = .unlock
  · simp [setlk, SetlkRequest.replacement, hunlock]
  · simp [setlk, SetlkRequest.replacement, hunlock, hdenied]

lemma SetlkRequest.owner_of_mem_replacement {req : SetlkRequest} {new : PosixLockRecord}
    (h : new ∈ req.replacement) : new.owner = req.owner := by
  unfold replacement at h
  split at h
  · cases h
  · cases h
    rfl

section

variable {session id : Nat} {s : PgLocks} {req : SetlkRequest}

open PgLocks

lemma loadLockRecordsForKey_eq (h : ∀ row ∈ s.rows, StoredRow session row) (hid : id ≤ i64Max) :
    s.loadLockRecordsForKey (resourceKey id) =
      ({ s with posixLocks :=
          s.posixLocks.storeRecords (resourceKey id) (loadedRecords s.rows fileKind id) },
        some (loadedRecords s.rows fileKind id)) := by
  rw [loadLockRecordsForKey, lockResourceKindId_resourceKey hid]
  simp only [lockRecordsFromBlob_load h]

lemma updatePgLockRange_conflict (h : SoundRows session s.rows) (hid : id ≤ i64Max)
    (hrefused : (setlk false (loadedRecords s.rows fileKind id) req).2 ≠ .ok) :
    updatePgLockRange session s (resourceKey id) req = (s, some false) := by
  have hconflict : req.typ ≠ .unlock ∧ (lockConflict (loadedRecords s.rows fileKind id) req.owner
      req.typ req.start req.stop).isSome := by
    by_contra hfree
    rw [setlk_eq, if_neg hfree] at hrefused
    exact hrefused rfl
  have hupdate : rangeUpdate req (loadLockRangeStateBlob s.rows fileKind id) = .ok none := by
    rw [rangeUpdate, lockRecordsFromBlob_load h.stored]
    exact if_pos hconflict
  rw [updatePgLockRange, lockResourceKindId_resourceKey hid]
  simp only [updateLockRangeStateBlobForOwner, hupdate, bind, Except.bind, pure, Except.pure]

lemma updatePgLockRange_granted (h : SoundRows session s.rows) (hid : id ≤ i64Max)
    (hnew : ∀ new ∈ req.replacement, KernelRecord new)
    (hok : (setlk false (loadedRecords s.rows fileKind id) req).2 = .ok) :
    ∃ rows, updatePgLockRange session s (resourceKey id) req =
        (⟨s.posixLocks.storeRecords (resourceKey id) (loadedRecords rows fileKind id), rows⟩,
          some true) ∧ SoundRows session rows ∧ (loadedRecords rows fileKind id).Perm
        (setlk false (loadedRecords s.rows fileKind id) req).1 ∧
      ∀ id', id' ≠ id → loadedRecords rows fileKind id' = loadedRecords s.rows fileKind id' := by
  have hgranted := setlk_granted (h.wellFormed id) hok
  have hfree : ¬ (req.typ ≠ .unlock ∧ (lockConflict (loadedRecords s.rows fileKind id) req.owner
      req.typ req.start req.stop).isSome) := by
    intro hconflict
    rw [setlk_eq, if_pos hconflict] at hok
    cases hok
  have hsetlk : (setlk false (loadedRecords s.rows fileKind id) req).1 =
      updateOwnerLockRange (loadedRecords s.rows fileKind id) req.owner req.start req.stop
        req.replacement := by
    rw [setlk_eq, if_neg hfree]
  rw [hsetlk] at hgranted ⊢
  generalize hupdated : updateOwnerLockRange (loadedRecords s.rows fileKind id) req.owner
    req.start req.stop req.replacement = updated at hgranted ⊢
  have hkernel : ∀ record ∈ updated, KernelRecord record := by
    rw [← hupdated]
    exact kernelRecord_updateOwnerLockRange (h.kernel id) hnew
  have hpayload : rangeUpdate req (loadLockRangeStateBlob s.rows fileKind id) =
      .ok (some (lockRecordsToBlob (updated.filter fun record => record.owner == req.owner))) := by
    rw [rangeUpdate, lockRecordsFromBlob_load h.stored]
    simp only [if_neg hfree, hupdated]
  have hstorable : ∀ record ∈ updated.filter fun record => record.owner == req.owner,
      Storable record ∧ record.owner = req.owner := by
    intro record hrecord
    obtain ⟨hmem, howner⟩ := List.mem_filter.mp hrecord
    exact ⟨(hkernel record hmem).storable, beq_iff_eq.mp howner⟩
  have hothers : (updated.filter fun record => record.owner != req.owner) =
      (loadedRecords s.rows fileKind id).filter fun record => record.owner != req.owner := by
    rw [← hupdated]
    exact filter_others_updateOwnerLockRange fun _ => SetlkRequest.owner_of_mem_replacement
  have hstored : ∀ row ∈ replaceOwnerRows s.rows fileKind id session req.owner
      (updated.filter fun record => record.owner == req.owner), StoredRow session row :=
    StoredRow.replaceOwnerRows h.stored hid fun record hrecord => (hstorable record hrecord).1
  have hperm : (loadedRecords (replaceOwnerRows s.rows fileKind id session req.owner
      (updated.filter fun record => record.owner == req.owner)) fileKind id).Perm updated := by
    refine (perm_loadedRecords_replaceOwnerRows h.stored
      fun record hrecord => (hstorable record hrecord).1).trans ?_
    rw [← hothers]
    exact List.perm_append_comm.trans (List.filter_append_perm _ updated)
  refine ⟨_, ?_, ⟨hstored, ?_, ?_⟩, hperm, fun id' hne => loadedRecords_replaceOwnerRows_of_ne hne⟩
  · rw [updatePgLockRange, lockResourceKindId_resourceKey hid]
    simp only [update_eq_ok hpayload hid hstorable]
    rw [loadLockRecordsForKey_eq hstored hid]
    rfl
  · intro id' record hrecord
    by_cases heq : id' = id
    · subst heq
      exact hkernel record (hperm.mem_iff.mp hrecord)
    · rw [loadedRecords_replaceOwnerRows_of_ne heq] at hrecord
      exact h.kernel id' record hrecord
  · intro id'
    by_cases heq : id' = id
    · subst heq
      exact hgranted.wellFormed.perm hperm.symm
    · rw [loadedRecords_replaceOwnerRows_of_ne heq]
      exact h.wellFormed id'

end

/-- The rows say of every byte what the table says, and the mirror holds what
would be loaded now. -/
structure Refines (session : Nat) (t : LockMap) (s : PgLocks) : Prop where
  rows : SoundRows session s.rows
  memory : ∀ id, WellFormed (t.recordsFor (resourceKey id))
  agree : ∀ id owner p, lockTypeAt (loadedRecords s.rows fileKind id) owner p =
    lockTypeAt (t.recordsFor (resourceKey id)) owner p
  mirror : ∀ id, s.posixLocks.recordsFor (resourceKey id) = loadedRecords s.rows fileKind id
  keys : ∀ key, s.posixLocks.recordsFor key ≠ [] → ∃ id ≤ i64Max, key = resourceKey id

section

variable {session : Nat} {t : LockMap} {s : PgLocks}

lemma WellFormed.nil : WellFormed [] :=
  ⟨fun _ hrecord => absurd hrecord List.not_mem_nil, .nil, .nil⟩

lemma refines_empty : Refines session ∅ ⟨∅, []⟩ := by
  refine ⟨⟨fun _ hrow => absurd hrow List.not_mem_nil, fun _ _ hrecord =>
    absurd hrecord List.not_mem_nil, fun _ => WellFormed.nil⟩, fun _ => WellFormed.nil,
    fun _ _ _ => rfl, fun _ => rfl, fun key hkey => absurd rfl hkey⟩

lemma freeFor_congr {a b : List PosixLockRecord} (h : ∀ owner p, lockTypeAt a owner p =
    lockTypeAt b owner p) (req : SetlkRequest) : FreeFor a req ↔ FreeFor b req := by
  simp only [FreeFor, h]

lemma Refines.setlk_ok (h : Refines session t s) (id : Nat) (req : SetlkRequest) :
    (setlk false (loadedRecords s.rows fileKind id) req).2 = .ok ↔
      (setlk false (t.recordsFor (resourceKey id)) req).2 = .ok := by
  rw [setlk_ok_iff (h.rows.wellFormed id), setlk_ok_iff (h.memory id),
    freeFor_congr (h.agree id) req]

lemma memory_reply_ne_eio (t : LockMap) (key : List Char) (req : SetlkRequest) :
    (t.setlk key req).2 ≠ .eio := by
  rw [LockMap.setlk, setlk_eq]
  split <;> simp

lemma LockRequest.kernelRecord_of_mem_replacement {req : LockRequest} {new : PosixLockRecord}
    (hnew : new ∈ req.replacement) : KernelRecord new := by
  unfold SetlkRequest.replacement at hnew
  split at hnew
  next => cases hnew
  next htyp =>
    cases hnew
    exact ⟨req.owner_le, req.pid_le, htyp, req.stop, rfl, req.range, req.stop_le⟩

variable {records : List PosixLockRecord}

lemma Refines.store (h : Refines session t s) {id : Nat} (hid : id ≤ i64Max)
    {rows : List LockRow} (hrows : SoundRows session rows) (hrecords : WellFormed records)
    (hagree : ∀ owner p, lockTypeAt (loadedRecords rows fileKind id) owner p =
      lockTypeAt records owner p) (hothers : ∀ id', id' ≠ id →
      loadedRecords rows fileKind id' = loadedRecords s.rows fileKind id') :
    Refines session (t.storeRecords (resourceKey id) records)
      ⟨s.posixLocks.storeRecords (resourceKey id) (loadedRecords rows fileKind id), rows⟩ := by
  refine ⟨hrows, fun id' => ?_, fun id' owner p => ?_, fun id' => ?_, fun key hkey => ?_⟩
  · rw [LockMap.recordsFor_storeRecords_file]
    split
    · exact hrecords
    · exact h.memory id'
  · rw [LockMap.recordsFor_storeRecords_file]
    split
    next heq =>
      rw [heq]
      exact hagree owner p
    next hne =>
      rw [hothers id' hne]
      exact h.agree id' owner p
  · rw [LockMap.recordsFor_storeRecords_file]
    split
    next heq => rw [heq]
    next hne =>
      rw [hothers id' hne]
      exact h.mirror id'
  · rw [LockMap.recordsFor_storeRecords] at hkey
    split at hkey
    next heq => exact ⟨id, hid, heq⟩
    next => exact h.keys key hkey

lemma Refines.setlk (h : Refines session t s) (req : LockRequest) :
    (s.setlk session (resourceKey req.fileId) req.toSetlkRequest).2 =
        (t.setlk (resourceKey req.fileId) req.toSetlkRequest).2 ∧
      Refines session (t.setlk (resourceKey req.fileId) req.toSetlkRequest).1
        (s.setlk session (resourceKey req.fileId) req.toSetlkRequest).1 := by
  by_cases hok : (Locks.setlk false (t.recordsFor (resourceKey req.fileId)) req.toSetlkRequest).2 =
      .ok
  · have hloaded := (h.setlk_ok req.fileId req.toSetlkRequest).mpr hok
    obtain ⟨rows, hupdate, hrows, hperm, hothers⟩ := updatePgLockRange_granted h.rows
      req.fileId_le (fun _ => LockRequest.kernelRecord_of_mem_replacement) hloaded
    have hmemory := setlk_granted (h.memory req.fileId) hok
    have hpg := setlk_granted (h.rows.wellFormed req.fileId) hloaded
    have hagree (owner p : Nat) : lockTypeAt (loadedRecords rows fileKind req.fileId) owner p =
        lockTypeAt (Locks.setlk false (t.recordsFor (resourceKey req.fileId))
          req.toSetlkRequest).1 owner p := by
      rw [lockTypeAt_perm (hrows.wellFormed req.fileId) hperm, hpg.typeAt, hmemory.typeAt, h.agree]
    simp only [PgLocks.setlk, hupdate, LockMap.setlk, if_pos hok, or_true, if_true, true_and]
    exact h.store req.fileId_le hrows hmemory.wellFormed hagree hothers
  · have hloaded := mt (h.setlk_ok req.fileId req.toSetlkRequest).mp hok
    have hreply : (Locks.setlk false (t.recordsFor (resourceKey req.fileId))
        req.toSetlkRequest).2 = .ewouldblock ∧ req.typ ≠ .unlock := by
      rw [setlk_eq] at hok ⊢
      split at hok
      next hconflict => exact ⟨if_pos hconflict ▸ rfl, hconflict.1⟩
      next => exact absurd rfl hok
    simp only [PgLocks.setlk, updatePgLockRange_conflict h.rows req.fileId_le hloaded,
      LockMap.setlk, hreply.1, hreply.2, Bool.false_eq_true, or_self, if_false]
    exact ⟨rfl, h⟩

/-! ### Clean-ups -/

lemma lockTypeAt_eq_none_of_lt (h : WellFormed records)
    {p : Nat} (hp : u64Max < p) (owner : Nat) : lockTypeAt records owner p = none := by
  refine Option.eq_none_iff_forall_ne_some.mpr fun typ htyp => ?_
  obtain ⟨record, hrecord, -, hcovers, -⟩ := (lockTypeAt_eq_some h).mp htyp
  have hbound := (h.valid record hrecord).bound
  have hlast := hcovers.2
  omega

lemma lockTypeAt_setlk_wholeRange (h : WellFormed records)
    (cleared owner p : Nat) :
    lockTypeAt (setlk false records (PgLocks.wholeRange cleared)).1 owner p =
      if owner = cleared then none else lockTypeAt records owner p := by
  rw [(setlk_granted h rfl).typeAt]
  by_cases hp : p ≤ u64Max
  · simp [PgLocks.wholeRange, hp]
  · simp [PgLocks.wholeRange, hp, lockTypeAt_eq_none_of_lt h (not_le.mp hp)]

structure ClearedFor (session : Nat) (s : PgLocks) (owner : Nat) (done : List (List Char))
    (u : PgLocks × List (List Char)) : Prop where
  failed : u.2 = []
  rows : SoundRows session u.1.rows
  typeAt : ∀ id o p, lockTypeAt (loadedRecords u.1.rows fileKind id) o p =
    if resourceKey id ∈ done ∧ o = owner then none
    else lockTypeAt (loadedRecords s.rows fileKind id) o p
  untouched : ∀ id, resourceKey id ∉ done →
    loadedRecords u.1.rows fileKind id = loadedRecords s.rows fileKind id
  mirror : ∀ id, u.1.posixLocks.recordsFor (resourceKey id) =
    if resourceKey id ∈ done then loadedRecords u.1.rows fileKind id
    else clearLocksForOwner (loadedRecords s.rows fileKind id) owner
  keys : ∀ key, u.1.posixLocks.recordsFor key ≠ [] → ∃ id ≤ i64Max, key = resourceKey id

lemma ClearedFor.start (h : Refines session t s) (owner : Nat) :
    ClearedFor session s owner []
      ({ s with posixLocks := s.posixLocks.clearOwner owner }, []) := by
  refine ⟨rfl, h.rows, fun _ _ _ => rfl, fun _ _ => rfl, fun id => ?_, fun key hkey => ?_⟩
  · rw [LockMap.recordsFor_clearOwner, h.mirror]
    rfl
  · rw [LockMap.recordsFor_clearOwner] at hkey
    refine h.keys key fun hnil => hkey ?_
    rw [hnil]
    rfl

lemma ClearedFor.step {owner : Nat} {done : List (List Char)} {u : PgLocks × List (List Char)}
    (h : ClearedFor session s owner done u) {id : Nat} (hid : id ≤ i64Max) :
    ClearedFor session s owner (done ++ [resourceKey id])
      ((u.1.updatePgLockRange session (resourceKey id) (PgLocks.wholeRange owner)).1,
        if (u.1.updatePgLockRange session (resourceKey id)
          (PgLocks.wholeRange owner)).2.isSome then u.2 else u.2 ++ [resourceKey id]) := by
  have hok : (setlk false (loadedRecords u.1.rows fileKind id) (PgLocks.wholeRange owner)).2 = .ok :=
    rfl
  obtain ⟨rows, hupdate, hrows, hperm, hothers⟩ := updatePgLockRange_granted h.rows hid
    (fun _ hnew => (by cases hnew)) hok
  have hdone (id' : Nat) :
      resourceKey id' ∈ done ++ [resourceKey id] ↔ resourceKey id' ∈ done ∨ id' = id := by
    rw [List.mem_append, List.mem_singleton, resourceKey_injective.eq_iff]
  rw [hupdate]
  refine ⟨h.failed, hrows, fun id' o p => ?_, fun id' hid' => ?_, fun id' => ?_, fun key hkey => ?_⟩
  · by_cases heq : id' = id
    · subst heq
      rw [lockTypeAt_perm (hrows.wellFormed id') hperm,
        lockTypeAt_setlk_wholeRange (h.rows.wellFormed id'), h.typeAt]
      simp only [hdone, or_true, true_and]
      grind
    · rw [hothers id' heq, h.typeAt]
      simp only [hdone, heq, or_false]
  · rw [hdone, not_or] at hid'
    rw [hothers id' hid'.2, h.untouched id' hid'.1]
  · rw [LockMap.recordsFor_storeRecords_file, h.mirror]
    by_cases heq : id' = id
    · simp only [hdone, heq, or_true, if_true]
    · simp only [hdone, heq, or_false, if_false, hothers id' heq]
  · rw [LockMap.recordsFor_storeRecords] at hkey
    split at hkey
    next heq => exact ⟨id, hid, heq⟩
    next => exact h.keys key hkey

lemma Refines.clearLocksForOwnerAndSync (h : Refines session t s) (owner : Nat) :
    (s.clearLocksForOwnerAndSync session owner).2 = [] ∧
      Refines session (t.clearLocksForOwnerAndSync owner)
        (s.clearLocksForOwnerAndSync session owner).1 := by
  have hkeys : ∀ key ∈ s.posixLocks.changedKeys owner, ∃ id ≤ i64Max, key = resourceKey id := by
    intro key hkey
    obtain ⟨record, hrecord, -⟩ := LockMap.mem_changedKeys.mp hkey
    exact h.keys key (List.ne_nil_of_mem hrecord)
  -- The invariant speaks of the keys done so far, and these are keys of files.
  have hcleared : ClearedFor session s owner (s.posixLocks.changedKeys owner)
      (s.clearLocksForOwnerAndSync session owner) := by
    refine Scan.foldl_invariant (I := fun done u =>
      (∀ key ∈ done, ∃ id ≤ i64Max, key = resourceKey id) → ClearedFor session s owner done u)
      (fun done u key hI hdone => ?_) _ (fun _ => ClearedFor.start h owner) hkeys
    obtain ⟨id, hid, rfl⟩ := hdone key (by simp)
    exact (hI fun key hkey => hdone key (List.mem_append_left _ hkey)).step hid
  have hnone {id : Nat} (hid : resourceKey id ∉ s.posixLocks.changedKeys owner) :
      ∀ record ∈ loadedRecords s.rows fileKind id, record.owner ≠ owner := by
    intro record hrecord howner
    rw [← h.mirror] at hrecord
    exact hid (LockMap.mem_changedKeys.mpr ⟨record, hrecord, howner⟩)
  have hnotype {id : Nat} (hid : resourceKey id ∉ s.posixLocks.changedKeys owner) (p : Nat) :
      lockTypeAt (loadedRecords s.rows fileKind id) owner p = none := by
    refine Option.eq_none_iff_forall_ne_some.mpr fun typ htyp => ?_
    obtain ⟨record, hrecord, howner, -⟩ := (lockTypeAt_eq_some (h.rows.wellFormed id)).mp htyp
    exact hnone hid record hrecord howner
  refine ⟨hcleared.failed, hcleared.rows, fun id => ?_, fun id o p => ?_, fun id => ?_,
    hcleared.keys⟩
  · rw [LockMap.recordsFor_clearLocksForOwnerAndSync]
    exact (h.memory id).clearLocksForOwner owner
  · rw [LockMap.recordsFor_clearLocksForOwnerAndSync,
      lockTypeAt_clearLocksForOwner (h.memory id), hcleared.typeAt, ← h.agree]
    by_cases howner : o = owner
    · subst howner
      by_cases hid : resourceKey id ∈ s.posixLocks.changedKeys o
      · simp only [hid, and_self, if_true]
      · simp only [hid, false_and, if_false, if_true, hnotype hid]
    · simp only [howner, and_false, if_false]
  · rw [hcleared.mirror]
    by_cases hid : resourceKey id ∈ s.posixLocks.changedKeys owner
    · rw [if_pos hid]
    · rw [if_neg hid, hcleared.untouched id hid, clearLocksForOwner, List.filter_eq_self]
      exact fun record hrecord => bne_iff_ne.mpr (hnone hid record hrecord)

lemma Refines.act (h : Refines session t s) (action : BackendAction) :
    Refines session (memoryAct t action) (pgAct session s action) := by
  cases action with
  | setlk req => exact (h.setlk req).2
  | clearOwner owner => exact (h.clearLocksForOwnerAndSync owner).2

lemma refines_run (session : Nat) (actions : List BackendAction) :
    Refines session (actions.foldl memoryAct ∅) (actions.foldl (pgAct session) ⟨∅, []⟩) := by
  suffices hrun : ∀ t s, Refines session t s →
      Refines session (actions.foldl memoryAct t) (actions.foldl (pgAct session) s) from
    hrun _ _ refines_empty
  induction actions with
  | nil => exact fun _ _ h => h
  | cons action actions ih => exact fun t s h => ih _ _ (h.act action)

end

/-- **The PostgreSQL lock table refines the one in memory.**  After any requests and
clean-ups of one session, the next request gets the same reply from both backends,
no request and no clean-up fails on what is stored, and the records loaded for a
file give every owner the lock that the table in memory gives it on every byte. -/
theorem pg_lock_table_refines_memory (session : Nat) (actions : List BackendAction) :
    let memory := actions.foldl memoryAct ∅
    let pg := actions.foldl (pgAct session) ⟨∅, []⟩
    (∀ req : LockRequest,
        (pg.setlk session (resourceKey req.fileId) req.toSetlkRequest).2 =
            (memory.setlk (resourceKey req.fileId) req.toSetlkRequest).2 ∧
          (pg.setlk session (resourceKey req.fileId) req.toSetlkRequest).2 ≠ .eio) ∧
      (∀ owner, (pg.clearLocksForOwnerAndSync session owner).2 = []) ∧
      ∀ fileId ≤ i64Max, ∃ records,
        (pg.loadLockRecordsForKey (resourceKey fileId)).2 = some records ∧
          ∀ owner p, lockTypeAt records owner p =
            lockTypeAt (memory.recordsFor (resourceKey fileId)) owner p := by
  have h := refines_run session actions
  refine ⟨fun req => ⟨(h.setlk req).1, ?_⟩, fun owner => (h.clearLocksForOwnerAndSync owner).1,
    fun fileId hid => ⟨_, ?_, h.agree fileId⟩⟩
  · rw [(h.setlk req).1]
    exact memory_reply_ne_eio _ _ _
  · rw [loadLockRecordsForKey_eq h.rows.stored hid]

/-- After any requests the table that the mount keeps of a file is what the rows of its
session say, and no two locks in it conflict. -/
theorem lock_mirror_follows_rows (session : Nat) (actions : List BackendAction) (id : Nat) :
    let pg := actions.foldl (pgAct session) ⟨∅, []⟩
    pg.posixLocks.recordsFor (resourceKey id) = loadedRecords pg.rows fileKind id ∧
      WellFormed (loadedRecords pg.rows fileKind id) ∧ ∀ row ∈ pg.rows, StoredRow session row := by
  have h := refines_run session actions
  exact ⟨h.mirror id, h.rows.wellFormed id, h.rows.stored⟩

def firstRequest : LockRequest :=
  ⟨⟨1, 0, 9, .write, 7, by decide, by decide⟩, 5, by decide, by decide, by decide, by decide⟩

def secondRequest : LockRequest :=
  ⟨⟨2, 4, 4, .read, 8, by decide, by decide⟩, 5, by decide, by decide, by decide, by decide⟩

/-- Owner 2 is refused a read lock inside the write lock of owner 1. -/
theorem pg_lock_table_refines_memory_refused :
    ((pgAct 3 ⟨∅, []⟩ (.setlk firstRequest)).setlk 3 (resourceKey 5)
      secondRequest.toSetlkRequest).2 = .ewouldblock :=
  ((pg_lock_table_refines_memory 3 [.setlk firstRequest]).1 secondRequest).1.trans
    (by decide)

end Fod.Locks
