import Fod.Data.Store
import Fod.Import.Fence

/-!
# The cleanup of a failed import

`cleanup_failed_materialization` finds the import root by its name, collects
the directories and files below it, and deletes them together with the data
objects that no other file names.  It is one transaction; here nothing else
touches its rows while it runs.
-/

namespace Fod.Import

open Fod.Data

structure Hardlink where
  file : Nat
  directory : Option Nat
  name : Name

inductive AdvisoryKey where
  | openFile (f : Nat)
  | writeFile (f : Nat)
  | writeDestination (parent : Nat) (name : Name)
  deriving DecidableEq

structure OpenLease where
  file : Nat
  session : Nat
  expiresAt : Nat

structure Leases where
  opens : List OpenLease
  sessions : Table Nat Nat
  fileWrites : List (Nat × Nat)
  destinationWrites : List ((Nat × Name) × Nat)
  busy : List AdvisoryKey

/-- `symlinkParents` are the parents of the rows of `symlinks` and of
`symlink_hardlinks`. -/
structure Tables where
  directories : Directories
  files : Table Nat File
  hardlinks : Table Nat Hardlink
  symlinkParents : List (Option Nat)
  objects : Table Nat DataObject
  plans : Table Nat ImportPlan
  leases : Leases

inductive CleanupError where
  | unknownPlan
  | activeMaterializer
  | completed
  | notAFailure
  | noSourceFilter
  | multipleRoots
  | advisoryBusy
  | activeOpenLease
  | activeWriteLease
  | externalHardlink
  | refcountUnderflow (object removed : Nat)
  | dataObjectChanged (object expected : Nat)
  | foreignKey

structure CleanupFailedSummary where
  importRoot : Option Name
  removedFiles : Nat
  removedDirectories : Nat
  exclusiveDataObjectsRemoved : Nat
  sharedDataObjectsPreserved : Nat
  planStatusBefore : PlanStatus

namespace Tables

def claimError (clock : Nat) (row : ImportPlan) : CleanupError :=
  match row.status with
  | .running =>
    if 0 < row.fencingToken ∧ row.leaseExpiresAt.any (· ≤ clock) then .noSourceFilter
    else .activeMaterializer
  | .completed => .completed
  | .other => .notAFailure
  | .failed | .cleaned => .noSourceFilter

def claimPlan (t : Tables) (clock plan : Nat) : Except CleanupError (ImportPlan × Bool) :=
  match t.plans.lookup plan with
  | none => .error .unknownPlan
  | some row =>
    match claim clock row with
    | none => .error (claimError clock row)
    | some taken => .ok (row, taken)

def findRootName (t : Tables) (plan : Nat) : Except CleanupError (Option Name) :=
  match rootNames t.directories plan with
  | [] => .ok none
  | [name] => .ok (some name)
  | _ => .error .multipleRoots

def resourceKeys (f : Nat) (row : File) : List AdvisoryKey :=
  [.openFile f, .writeFile f] ++ row.directory.toList.map (.writeDestination · row.name)

def rejectDuringActiveWriteLease (t : Tables) (clock : Nat) (rows : List Nat) :
    Except CleanupError Unit :=
  let files := rows.filterMap fun f => (t.files.lookup f).map (f, ·)
  if files.any fun file => (resourceKeys file.1 file.2).any (t.leases.busy.contains ·) then
    .error .advisoryBusy
  else if t.leases.opens.any fun lease =>
      rows.contains lease.file && decide (clock < lease.expiresAt) &&
        (t.leases.sessions.lookup lease.session).any (clock < ·) then
    .error .activeOpenLease
  else if (t.leases.fileWrites.any fun lease =>
      rows.contains lease.1 && decide (clock < lease.2)) ||
      t.leases.destinationWrites.any fun lease =>
        decide (clock < lease.2) && files.any fun file =>
          file.2.directory == some lease.1.1 && file.2.name == lease.1.2 then
    .error .activeWriteLease
  else .ok ()

def rejectExternalHardlink (t : Tables) (directories rows : List Nat) :
    Except CleanupError Unit :=
  if t.hardlinks.entries.any fun link =>
      rows.contains link.2.file && !link.2.directory.any (directories.contains ·) then
    .error .externalHardlink
  else .ok ()

def deleteFiles (t : Tables) (rows : List Nat) : Tables :=
  { t with
    files := t.files.keep fun f _ => !rows.contains f
    hardlinks := t.hardlinks.keep fun _ link => !rows.contains link.file }

def importedObjects (t : Tables) (rows : List Nat) : List Nat :=
  ((rows.filterMap fun f => (t.files.lookup f).map File.dataObject).dedup).insertionSort (· ≤ ·)

def removedReferences (t : Tables) (rows : List Nat) (o : Nat) : Nat :=
  (rows.filter fun f => (t.files.lookup f).any (·.dataObject == o)).length

def namedOutside (t : Tables) (rows : List Nat) (o : Nat) : Bool :=
  (t.files.keysWith fun row => row.dataObject == o).any fun f => !rows.contains f

/-- One statement on the row of a data object: the row is gone or has changed
when the statement returns nothing. -/
def changeObject (change : Nat → DataObject → Except CleanupError (Option DataObject))
    (missing : Nat → CleanupError) (objects : Table Nat DataObject) (o : Nat) :
    Except CleanupError (Table Nat DataObject) :=
  match objects.lookup o with
  | none => .error (missing o)
  | some object =>
    match change o object with
    | .error e => .error e
    | .ok none => .ok (objects.erase o)
    | .ok (some object') => .ok (objects.insert o object')

def updateSharedDataObjectReferenceCount (removed : Nat → Nat) :
    Table Nat DataObject → Nat → Except CleanupError (Table Nat DataObject) :=
  changeObject
    (fun o object =>
      if removed o ≤ object.referenceCount then
        .ok (some { object with referenceCount := object.referenceCount - removed o })
      else .error (.refcountUnderflow o (removed o)))
    fun o => .refcountUnderflow o (removed o)

def deleteDataObjectRows (expected : Nat → Nat) :
    Table Nat DataObject → Nat → Except CleanupError (Table Nat DataObject) :=
  changeObject
    (fun o object =>
      if object.referenceCount = expected o then .ok none
      else .error (.dataObjectChanged o (expected o)))
    fun o => .dataObjectChanged o (expected o)

def referenced (t : Tables) (d : Nat) : Bool :=
  (t.directories.entries.any fun row => row.2.parent == some d) ||
    (t.files.entries.any fun row => row.2.directory == some d) ||
    (t.hardlinks.entries.any fun row => row.2.directory == some d) ||
    t.symlinkParents.contains (some d)

def deleteDirectory (t : Tables) (d : Nat) : Except CleanupError Tables :=
  if t.referenced d then .error .foreignKey
  else .ok { t with directories := t.directories.erase d }

def removeTree (t : Tables) (clock : Nat) (root : Name) :
    Except CleanupError (CleanupFailedSummary × Tables) := do
  let directories := collectDirectoryRows t.directories root
  let rows := collectFileRows t.directories t.files root
  t.rejectDuringActiveWriteLease clock rows
  t.rejectExternalHardlink directories rows
  let shared := (t.importedObjects rows).filter (t.namedOutside rows)
  let exclusive := (t.importedObjects rows).filter fun o => !t.namedOutside rows o
  let objects ← shared.foldlM
    (updateSharedDataObjectReferenceCount (t.removedReferences rows)) t.objects
  let objects ← exclusive.foldlM (deleteDataObjectRows (t.removedReferences rows)) objects
  let t' ← directories.foldlM deleteDirectory { t.deleteFiles rows with objects := objects }
  return (⟨some root, rows.length, directories.length, exclusive.length, shared.length,
    .failed⟩, t')

def markCleaned (t : Tables) (plan : Nat) (row : ImportPlan) (taken : Bool) : Tables :=
  { t with plans := t.plans.insert plan (row.cleanedUp taken) }

def cleanupFailedMaterialization (t : Tables) (clock plan : Nat) :
    Except CleanupError (CleanupFailedSummary × Tables) := do
  let (row, taken) ← t.claimPlan clock plan
  let root ← t.findRootName plan
  match root with
  | none => return (⟨none, 0, 0, 0, 0, row.status⟩, t.markCleaned plan row taken)
  | some name =>
    let (summary, t') ← t.removeTree clock name
    return ({ summary with planStatusBefore := row.status }, t'.markCleaned plan row taken)

end Tables

end Fod.Import
