import Fod.Replay.Tables

/-!
# The operations that are replayed

Each function is the body of one transaction.  It fails, and then nothing is
committed, or it gives the tables that are committed and the result.  A function
named `confirm` reads what is committed after a unique violation.
-/

namespace Fod.Replay

open Fod.Data

/-- `quota` is the table `config`, `deferred` the setting of the cleanup of replaced
objects, and `now` the time at which the transactions start. -/
structure Config where
  quota : Quota.Config
  transport : PersistBlockTransport
  deferred : Bool
  now : Nat

inductive Error where
  | namespaceEntryExists
  | namespaceParentMissing
  | linkSourceUnavailable
  | namespaceSourceChanged
  | stickyPermissionDenied
  | targetDisappeared
  | foreignKeyViolation
  | writeFenceRejected
  | fileNotFound
  | invalidArgument
  | storageQuotaExceeded
  deriving DecidableEq

def Error.isUniqueViolation : Error → Bool
  | namespaceEntryExists => true
  | _ => false

def decimal (n : Nat) : Text := Nat.toDigits 10 n

namespace Tables

def requireNamespaceVacant (t : Tables) (location : Location) : Except Error Unit :=
  if location.1 ≠ 0 ∧ t.directories.lookup location.1 = none then .error .namespaceParentMissing
  else if t.entriesAt location ≠ [] then .error .namespaceEntryExists
  else .ok ()

def parentRow (t : Tables) (parent : Nat) : Option Directory :=
  if parent = 0 then
    (t.directories.keysWith fun row => row.location == (0, ['/'])).head?.bind t.directories.lookup
  else t.directories.lookup parent

def inheritParentSetgid (t : Tables) (parent gid mode : Nat) (isDirectory : Bool) :
    Except Error (Nat × Nat) :=
  match t.parentRow parent with
  | none => .error .namespaceParentMissing
  | some row =>
    if row.mode &&& 0o2000 = 0 then .ok (gid, mode)
    else .ok (row.gid, if isDirectory then mode ||| 0o2000 else mode)

def openUnlinkMark : Text := "#open-unlink:".toList

def seedUsers (t : Tables) (seed : Text) : List Nat :=
  t.files.keysWith fun row => row.seed == seed || (seed ++ openUnlinkMark).isPrefixOf row.seed

def effectiveFileInodeSeed (t : Tables) (seed : Text) : Text :=
  match (t.seedUsers seed).max? with
  | none => seed
  | some id => seed ++ openUnlinkMark ++ decimal id

def createdInodeSeedMatches (actual requested : Text) : Bool :=
  actual == requested ||
    match List.dropPrefix? actual (requested ++ openUnlinkMark) with
    | none => false
    | some digits => !digits.isEmpty && digits.all Char.isDigit

structure NewEntry where
  location : Location
  mode : Nat
  uid : Nat
  gid : Nat
  seed : Text

/-- Both `create_file` and `create_special_file`, which adds a row of `special_files`. -/
def insertFile (t : Tables) (new : NewEntry) (special : Option Special) :
    Except Error (Tables × Nat) := do
  t.requireNamespaceVacant new.location
  let (gid, mode) ← t.inheritParentSetgid new.location.1 new.gid new.mode false
  let (db, object) := t.data.createDataObject ∅
  let row : File :=
    ⟨new.location, false, mode, new.uid, gid, t.effectiveFileInodeSeed new.seed, special⟩
  return ({ t with
      files := t.files.insert t.nextEntry row
      data := db.setFile t.nextEntry ⟨0, object⟩
      nextEntry := t.nextEntry + 1 },
    t.nextEntry)

def createFile (t : Tables) (new : NewEntry) : Except Error (Tables × Nat) := t.insertFile new none

def createSpecialFile (t : Tables) (new : NewEntry) (special : Special) :
    Except Error (Tables × Nat) :=
  t.insertFile new (some special)

def createDirectory (t : Tables) (new : NewEntry) : Except Error (Tables × Nat) := do
  t.requireNamespaceVacant new.location
  let (gid, mode) ← t.inheritParentSetgid new.location.1 new.gid new.mode true
  let row : Directory := ⟨new.location, mode, new.uid, gid, new.seed⟩
  return ({ t with
      directories := t.directories.insert t.nextEntry row
      nextEntry := t.nextEntry + 1 },
    t.nextEntry)

def createSymlink (t : Tables) (new : NewEntry) (target : Text) : Except Error (Tables × Nat) := do
  t.requireNamespaceVacant new.location
  let (gid, _) ← t.inheritParentSetgid new.location.1 new.gid new.mode false
  let row : Symlink := ⟨new.location, target, new.uid, gid, new.seed⟩
  return ({ t with
      symlinks := t.symlinks.insert t.nextEntry row
      nextEntry := t.nextEntry + 1 },
    t.nextEntry)

def createHardlink (t : Tables) (file : Nat) (location : Location) (uid gid : Nat) :
    Except Error (Tables × Nat) := do
  if (t.files.lookup file).all File.unlinked then throw .linkSourceUnavailable
  t.requireNamespaceVacant location
  return ({ t with
      hardlinks := t.hardlinks.insert t.nextEntry ⟨file, location, uid, gid⟩
      nextEntry := t.nextEntry + 1 },
    t.nextEntry)

def confirmCreated {ν : Type} (rows : Table Nat ν) (wanted : ν → Bool) (asked : Nat → ν → Bool) :
    Option Nat :=
  match rows.keysWith wanted with
  | [id] => (rows.lookup id).bind fun row => if asked id row then some id else none
  | _ => none

def confirmCreatedFile (t : Tables) (new : NewEntry) (gid mode : Nat) : Option Nat :=
  confirmCreated t.files
    (fun row => row.location == new.location && !row.unlinked && row.special.isNone)
    fun id row =>
      t.data.fileSize id == some 0 && row.mode == mode && row.uid == new.uid && row.gid == gid &&
        createdInodeSeedMatches (trim row.seed) new.seed

def confirmCreatedSpecialFile (t : Tables) (new : NewEntry) (gid mode : Nat) (special : Special) :
    Option Nat :=
  confirmCreated t.files
    (fun row => row.location == new.location && !row.unlinked && row.special.isSome)
    fun id row =>
      t.data.fileSize id == some 0 && row.mode == mode && row.uid == new.uid && row.gid == gid &&
        createdInodeSeedMatches (trim row.seed) new.seed &&
        row.special.any fun found =>
          trim found.kind == special.kind && found.major == special.major &&
            found.minor == special.minor

def confirmCreatedDirectory (t : Tables) (new : NewEntry) (gid mode : Nat) : Option Nat :=
  confirmCreated t.directories (fun row => row.location == new.location) fun _ row =>
    row.mode == mode && row.uid == new.uid && row.gid == gid && trim row.seed == new.seed

def confirmCreatedSymlink (t : Tables) (new : NewEntry) (target : Text) (gid : Nat) : Option Nat :=
  confirmCreated t.symlinks (fun row => row.location == new.location) fun _ row =>
    trim row.target == target && row.uid == new.uid && row.gid == gid && trim row.seed == new.seed

def confirmCreatedHardlink (t : Tables) (file : Nat) (location : Location) (uid gid : Nat) :
    Option Nat :=
  confirmCreated t.hardlinks (fun row => row.location == location) fun _ row =>
    row.file == file && row.uid == uid && row.gid == gid

def setData (t : Tables) (db : Db) : Tables :=
  { t with
    data := db
    hashes := t.hashes.keep fun o _ => (db.objects.lookup o).isSome
    dataObjectTokens := t.dataObjectTokens.keep fun _ o => (db.objects.lookup o).isSome }

def createDataObject (t : Tables) (token size : Nat) (hash : Option Text) : Tables × Nat :=
  let known := hash.bind fun h => (t.hashes.keysWith fun row => row == (size, h)).head?
  match known with
  | some o =>
    ({ t with
        data := t.data.updateObject o fun object =>
          { object with referenceCount := object.referenceCount + 1 }
        dataObjectTokens := t.dataObjectTokens.insert token o }, o)
  | none =>
    let (db, o) := t.data.createDataObject ∅
    ({ t with
        data := db
        hashes := hash.elim t.hashes fun h => t.hashes.insert o (size, h)
        dataObjectTokens := t.dataObjectTokens.insert token o }, o)

def requireWriteFence (t : Tables) (f : Nat) (fence : Option Nat) : Except Error Unit :=
  if t.writeLeases.lookup f = fence then .ok () else .error .writeFenceRejected

def adoptSourceDataObject (t : Tables) (src dst : Nat) (fence : Option Nat) :
    Except Error (Tables × Bool) := do
  t.requireWriteFence dst fence
  let (db, adopted) := t.data.adoptSourceDataObject src dst
  return (t.setData db, adopted)

def withSize (t : Tables) (f size : Nat) : Tables :=
  { t with
    data := { t.data with
      files := t.data.files.adjust fun g row => if g = f then { row with size := size } else row } }

def setFileSize (t : Tables) (f size : Nat) : Except Error Tables := do
  t.requireWriteFence f none
  return t.withSize f size

def persistedAndReservedPayloadBytes (cfg : Config) (t : Tables) : Nat :=
  t.data.objects.sumWith (fun _ object => object.blocks.keys.length) * cfg.quota.blockSize +
    t.reservations.sumWith (Quota.Reservation.counted cfg.now none)

def enforcePayloadQuota (cfg : Config) (t : Tables) : Except Error Unit :=
  match cfg.quota.quotaBytes with
  | none => .ok ()
  | some quota =>
    if quota < t.persistedAndReservedPayloadBytes cfg then .error .storageQuotaExceeded else .ok ()

def deleteExpired (cfg : Config) (t : Tables) : Tables :=
  { t with reservations := t.reservations.keep fun _ r => decide (cfg.now < r.expiresAt) }

/-- The result is the token, if a reservation was made. -/
def reservePayloadCapacity (cfg : Config) (t : Tables) (token bytes : Nat) :
    Except Error (Tables × Option Nat) :=
  if bytes = 0 then .ok (t, none)
  else
    match cfg.quota.quotaBytes with
    | none => .ok (t, none)
    | some quota =>
      let t := t.deleteExpired cfg
      if quota < t.persistedAndReservedPayloadBytes cfg + bytes then .error .storageQuotaExceeded
      else
        .ok ({ t with
            reservations :=
              t.reservations.insert token ⟨bytes, cfg.now + Quota.reservationSeconds⟩ },
          some token)

structure Flush where
  file : Nat
  size : Nat
  blockSize : Nat
  totalBlocks : Nat
  truncatePending : Bool
  rows : List PersistBlockRow

def Flush.apply (cfg : Config) (flush : Flush) (db : Db) : Db :=
  db.persistFileBlocks cfg.transport cfg.deferred flush.file flush.size flush.blockSize
    flush.totalBlocks flush.truncatePending flush.rows

def persistFileBlocks (cfg : Config) (t : Tables) (flush : Flush) (fence : Option Nat) :
    Except Error Tables := do
  t.requireWriteFence flush.file fence
  let t := t.setData (flush.apply cfg t.data)
  t.enforcePayloadQuota cfg
  return t

def clearHash (t : Tables) (f : Nat) : Tables :=
  match t.data.files.lookup f with
  | none => t
  | some row => { t with hashes := t.hashes.erase row.dataObject }

def punchHoleKeepSize (cfg : Config) (t : Tables) (f blockSize offset length : Nat)
    (fence : Option Nat) : Except Error Tables := do
  t.requireWriteFence f fence
  match t.data.files.lookup f with
  | none => throw .fileNotFound
  | some row =>
    if row.size ≤ offset then return t
    let t := t.setData (t.data.punchHoleKeepSize cfg.deferred f blockSize offset length)
    let t := t.clearHash f
    t.enforcePayloadQuota cfg
    return t

end Tables

end Fod.Replay
