import Fod.Import.Tables
import Fod.Lib.GuardedRun

/-!
# Fenced imports and cleanups

An importer changes the database in transactions that first update the row of
its plan, on condition that the plan is running, has the importer's token and
an unexpired lease.  A cleanup locks the row, takes an expired plan over, and
deletes what it finds.  The row lock is held to the end of a transaction; a
statement that waited for it sees the row as it then is.  What a transaction
writes is seen by others when it commits.
-/

namespace Fod.Import

inductive PlanStatus where
  | running
  | completed
  | failed
  | cleaned
  | other
  deriving DecidableEq

structure ImportPlan where
  status : PlanStatus
  fencingToken : Nat
  leaseExpiresAt : Option Nat
  sourceFilter : Name

def ImportPlan.cleanedUp (row : ImportPlan) (taken : Bool) : ImportPlan :=
  { row with
    status := .cleaned
    fencingToken := if taken then row.fencingToken + 1 else row.fencingToken
    leaseExpiresAt := if taken then none else row.leaseExpiresAt }

/-- The decision of a cleanup that has read the row: whether it takes the plan
over, or `none` for an error. -/
def claim (clock : Nat) (row : ImportPlan) : Option Bool :=
  if row.sourceFilter = [] then none
  else
    match row.status with
    | .running =>
      if 0 < row.fencingToken ∧ row.leaseExpiresAt.any (· ≤ clock) then some true else none
    | .failed | .cleaned => some false
    | .completed | .other => none

namespace Fencing

def leaseInterval : Nat := 60000

structure Db where
  directories : Directories
  files : Table Nat File
  plans : Table Nat ImportPlan
  nextDirectory : Nat
  nextFile : Nat
  nextPlan : Nat

inductive Outcome where
  | running
  | completed
  | failed
  deriving DecidableEq

def Outcome.status : Outcome → PlanStatus
  | running => .running
  | completed => .completed
  | failed => .failed

/-- The mutations of an importer.  `object` is the data object that the file
has afterwards. -/
inductive ImportOp where
  | createDirectory (parent : Option Nat) (name : Name)
  | createFile (directory : Nat) (name : Name) (object : Nat)
  | persistFileBlocksFromPath (file size object : Nat)
  | adoptSourceDataObject (src dst : Nat)
  | upsertImportPlanEntries
  | updateImportPlan (outcome : Outcome)
  deriving DecidableEq

inductive ImportStage where
  | started
  | confirmed
  | validated (lease : Nat)
  | revalidated (lease : Nat)

inductive CleanupStage where
  | started
  | locked
  | claimed (taken : Bool)
  | rooted (taken : Bool) (root : Option Name)
  | directoriesCollected (taken : Bool) (root : Name) (directories : List Nat)
  | collected (taken : Bool) (directories files : List Nat)

inductive Tx where
  | importing (plan token source : Nat) (op : ImportOp) (stage : ImportStage)
  | cleaning (plan : Nat) (stage : CleanupStage)

def Tx.holds : Tx → Option Nat
  | importing plan _ _ _ (.validated _) => some plan
  | importing plan _ _ _ (.revalidated _) => some plan
  | importing _ _ _ _ _ => none
  | cleaning _ .started => none
  | cleaning plan _ => some plan

/-- The commits of a run.  A confirmed adoption found its result in place and
wrote nothing. -/
inductive Event where
  | imported (plan : Nat) (op : ImportOp)
  | confirmed (plan : Nat)
  | cleaned (plan : Nat)
  deriving DecidableEq

structure State where
  clock : Nat
  db : Db
  txs : Table Nat Tx
  log : List Event

def leaseUnexpired (clock : Nat) (row : ImportPlan) : Bool :=
  row.leaseExpiresAt.any (clock < ·)

def fenceHolds (db : Db) (clock plan token : Nat) : Bool :=
  plan != 0 && token != 0 &&
    (db.plans.lookup plan).any fun row =>
      row.status == .running && row.fencingToken == token && leaseUnexpired clock row

def vacant (db : Db) (parent : Option Nat) (name : Name) : Bool :=
  (db.directories.entries.all fun row => row.2.parent != parent || row.2.name != name) &&
    db.files.entries.all fun row => row.2.directory != parent || row.2.name != name

/-- The importer walks down from its root, so the directory it creates in was
found or created below the root. -/
def belowRoot (db : Db) (source plan d : Nat) : Bool :=
  topName db.directories db.directories.entries.length d == some (importRootName source plan)

def insertDirectory (db : Db) (parent : Option Nat) (name : Name) (plan : Nat) : Db :=
  { db with
    directories := db.directories.insert db.nextDirectory ⟨parent, name, some plan⟩
    nextDirectory := db.nextDirectory + 1 }

def insertFile (db : Db) (directory : Nat) (name : Name) (object plan : Nat) : Db :=
  { db with
    files := db.files.insert db.nextFile ⟨some directory, name, 0, object, some plan⟩
    nextFile := db.nextFile + 1 }

def updateFile (db : Db) (f size object : Nat) : Db :=
  { db with
    files := db.files.adjust fun g row =>
      if g = f then { row with size := size, dataObject := object } else row }

def adopted (db : Db) (src dst : Nat) : Bool :=
  match db.files.lookup src, db.files.lookup dst with
  | some s, some d => s.size != 0 && d.size == s.size && s.dataObject == d.dataObject
  | _, _ => false

/-- The source of an adoption that goes through to its end; the others return
before the second validation. -/
def adoptable (db : Db) (src dst : Nat) : Option File :=
  match db.files.lookup src, db.files.lookup dst with
  | some s, some d =>
    if s.size = 0 then none
    else if d.size ≠ 0 ∨ s.dataObject = d.dataObject then none
    else some s
  | _, _ => none

/-- The statements between the two validations; an error rolls back. -/
def applyImport (db : Db) (source plan : Nat) : ImportOp → Option Db
  | .createDirectory none name =>
    if name = importRootName source plan ∧ vacant db none name then
      some (insertDirectory db none name plan)
    else none
  | .createDirectory (some parent) name =>
    if belowRoot db source plan parent ∧ vacant db (some parent) name then
      some (insertDirectory db (some parent) name plan)
    else none
  | .createFile directory name object =>
    if belowRoot db source plan directory ∧ vacant db (some directory) name then
      some (insertFile db directory name object plan)
    else none
  | .persistFileBlocksFromPath f size object =>
    if (db.files.lookup f).isSome then some (updateFile db f size object) else none
  | .adoptSourceDataObject src dst =>
    (adoptable db src dst).map fun row => updateFile db dst row.size row.dataObject
  | .upsertImportPlanEntries => some db
  | .updateImportPlan _ => none

def updatePlan (db : Db) (plan : Nat) (change : ImportPlan → ImportPlan) : Db :=
  { db with plans := db.plans.adjust fun p row => if p = plan then change row else row }

def renew (db : Db) (plan lease : Nat) : Db :=
  updatePlan db plan fun row => { row with leaseExpiresAt := some lease }

def setStatus (db : Db) (plan : Nat) (outcome : Outcome) (lease : Nat) : Db :=
  updatePlan db plan fun row =>
    { row with
      status := outcome.status
      leaseExpiresAt := if outcome = .running then some lease else none }

def Referential (db : Db) : Prop :=
  (∀ row ∈ db.directories.entries, ∀ e ∈ row.2.parent, e ∈ db.directories) ∧
    ∀ row ∈ db.files.entries, ∀ e ∈ row.2.directory, e ∈ db.directories

instance (db : Db) : Decidable (Referential db) :=
  inferInstanceAs (Decidable ((∀ row ∈ db.directories.entries, ∀ e ∈ row.2.parent, _) ∧
    ∀ row ∈ db.files.entries, ∀ e ∈ row.2.directory, _))

def removeRows (db : Db) (directories files : List Nat) : Db :=
  { db with
    directories := db.directories.keep fun d _ => !directories.contains d
    files := db.files.keep fun f _ => !files.contains f }

def markCleaned (db : Db) (plan : Nat) (taken : Bool) : Db :=
  updatePlan db plan fun row => row.cleanedUp taken

/-! ## Interleavings -/

inductive Action where
  | tick (milliseconds : Nat)
  | insertPlan (sourceFilter : Name)
  | start (id plan token source : Nat) (op : ImportOp)
  | probe (id : Nat)
  | validate (id : Nat)
  | revalidate (id : Nat)
  | startCleanup (id plan : Nat)
  | lockPlan (id : Nat)
  | claim (id : Nat)
  | findRoot (id : Nat)
  | collectDirectories (id : Nat)
  | collectFiles (id : Nat)
  | commit (id : Nat)
  | abort (id : Nat)

namespace State

def planFree (s : State) (id plan : Nat) : Bool :=
  s.txs.entries.all fun row => row.1 == id || row.2.holds != some plan

def ended (s : State) (id : Nat) : State := { s with txs := s.txs.erase id }

def setTx (s : State) (id : Nat) (tx : Tx) : State := { s with txs := s.txs.insert id tx }

def committed (s : State) (id : Nat) (db : Db) (event : Event) : State :=
  { s with db := db, txs := s.txs.erase id, log := event :: s.log }

def insertPlan (s : State) (sourceFilter : Name) : State :=
  { s with
    db := { s.db with
      plans := s.db.plans.insert s.db.nextPlan
        ⟨.running, 1, some (s.clock + leaseInterval), sourceFilter⟩
      nextPlan := s.db.nextPlan + 1 } }

def validate (s : State) (id : Nat) : Tx → Option State
  | .importing plan token source op .started =>
    if s.planFree id plan then
      if fenceHolds s.db s.clock plan token then
        some (s.setTx id (.importing plan token source op (.validated (s.clock + leaseInterval))))
      else some (s.ended id)
    else none
  | _ => none

def revalidate (s : State) (id : Nat) : Tx → Option State
  | .importing plan token source op (.validated lease) =>
    if s.clock < lease then
      some (s.setTx id
        (.importing plan token source op (.revalidated (s.clock + leaseInterval))))
    else some (s.ended id)
  | _ => none

def probe (s : State) (id : Nat) : Tx → Option State
  | .importing plan token source (.adoptSourceDataObject src dst) .started =>
    if adopted s.db src dst then
      some (s.setTx id
        (.importing plan token source (.adoptSourceDataObject src dst) .confirmed))
    else some s
  | _ => none

def lockPlan (s : State) (id : Nat) : Tx → Option State
  | .cleaning plan .started =>
    match s.db.plans.lookup plan with
    | none => some (s.ended id)
    | some _ => if s.planFree id plan then some (s.setTx id (.cleaning plan .locked)) else none
  | _ => none

def claim (s : State) (id : Nat) : Tx → Option State
  | .cleaning plan .locked =>
    match (s.db.plans.lookup plan).bind (Import.claim s.clock) with
    | none => some (s.ended id)
    | some taken => some (s.setTx id (.cleaning plan (.claimed taken)))
  | _ => none

def findRoot (s : State) (id : Nat) : Tx → Option State
  | .cleaning plan (.claimed taken) =>
    match rootNames s.db.directories plan with
    | [] => some (s.setTx id (.cleaning plan (.rooted taken none)))
    | [name] => some (s.setTx id (.cleaning plan (.rooted taken (some name))))
    | _ => some (s.ended id)
  | _ => none

def collectDirectories (s : State) (id : Nat) : Tx → Option State
  | .cleaning plan (.rooted taken none) =>
    some (s.setTx id (.cleaning plan (.collected taken [] [])))
  | .cleaning plan (.rooted taken (some name)) =>
    some (s.setTx id (.cleaning plan
      (.directoriesCollected taken name (collectDirectoryRows s.db.directories name))))
  | _ => none

def collectFiles (s : State) (id : Nat) : Tx → Option State
  | .cleaning plan (.directoriesCollected taken name directories) =>
    some (s.setTx id (.cleaning plan
      (.collected taken directories (collectFileRows s.db.directories s.db.files name))))
  | _ => none

/-- The commit of a fenced transaction.  The mutations commit after their second
validation; an adoption with nothing to do and the update of the plan commit
after the first. -/
def commitImport (s : State) (id plan source : Nat) (op : ImportOp) :
    ImportStage → Option State
  | .started => none
  | .confirmed => some (s.committed id s.db (.confirmed plan))
  | .validated lease =>
    match op with
    | .updateImportPlan outcome =>
      some (s.committed id (setStatus s.db plan outcome lease) (.imported plan op))
    | .adoptSourceDataObject src dst =>
      if (adoptable s.db src dst).isNone then
        some (s.committed id (renew s.db plan lease) (.imported plan op))
      else none
    | _ => none
  | .revalidated lease =>
    match applyImport s.db source plan op with
    | none => some (s.ended id)
    | some db => some (s.committed id (renew db plan lease) (.imported plan op))

/-- A cleanup that would break a foreign key fails. -/
def commit (s : State) (id : Nat) : Tx → Option State
  | .importing plan _ source op stage => s.commitImport id plan source op stage
  | .cleaning plan (.collected taken directories files) =>
    let db := markCleaned (removeRows s.db directories files) plan taken
    if Referential db then some (s.committed id db (.cleaned plan)) else some (s.ended id)
  | .cleaning _ _ => none

def withTx (s : State) (id : Nat) (f : Tx → Option State) : Option State :=
  (s.txs.lookup id).bind f

def begin (s : State) (id : Nat) (tx : Tx) : Option State :=
  if (s.txs.lookup id).isNone then some (s.setTx id tx) else none

end State

/-- An active writer, an open handle, an external hardlink or a lost connection
ends a transaction by `abort`. -/
def step (s : State) : Action → Option State
  | .tick milliseconds => some { s with clock := s.clock + milliseconds }
  | .insertPlan sourceFilter => if sourceFilter = [] then none else some (s.insertPlan sourceFilter)
  | .start id plan token source op => s.begin id (.importing plan token source op .started)
  | .probe id => s.withTx id (s.probe id)
  | .validate id => s.withTx id (s.validate id)
  | .revalidate id => s.withTx id (s.revalidate id)
  | .startCleanup id plan => s.begin id (.cleaning plan .started)
  | .lockPlan id => s.withTx id (s.lockPlan id)
  | .claim id => s.withTx id (s.claim id)
  | .findRoot id => s.withTx id (s.findRoot id)
  | .collectDirectories id => s.withTx id (s.collectDirectories id)
  | .collectFiles id => s.withTx id (s.collectFiles id)
  | .commit id => s.withTx id (s.commit id)
  | .abort id => s.withTx id fun _ => some (s.ended id)

end Fencing

end Fod.Import
