import Fod.Lib.GuardedRun
import Fod.Lib.Table

/-!
# The lifetime of an inode

A file that is unlinked while it is open keeps its row until the last open lease is
gone.  The transactions that change the links of a file, grant a lease on it or
delete it hold its lifecycle lock; sessions and leases are renewed, released and
pruned without it, and time passes between any two statements.
-/

namespace Fod.Lifetime

abbrev Name := Nat × String

/-- A row of `files`.  The hidden name of an unlinked row is never looked up. -/
structure FileRow where
  name : Name
  unlinked : Bool

structure Hardlink where
  file : Nat
  name : Name

structure Lease where
  file : Nat
  expiresAt : Nat

structure Tables where
  files : Table Nat FileRow
  hardlinks : Table Nat Hardlink
  nextHardlink : Nat
  sessions : Table Nat Nat
  leases : Table (Nat × Nat) Lease

namespace Tables

def visible (t : Tables) (f : Nat) : Bool := (t.files.lookup f).any fun row => !row.unlinked

def linksOf (t : Tables) (f : Nat) : List Nat := t.hardlinks.keysWith fun link => link.file == f

def live (t : Tables) (now session : Nat) : Bool := (t.sessions.lookup session).any (now < ·)

def Counts (t : Tables) (now f : Nat) (key : Nat × Nat) (lease : Lease) : Prop :=
  lease.file = f ∧ now < lease.expiresAt ∧ t.live now key.1 = true

instance (t : Tables) (now f : Nat) (key : Nat × Nat) (lease : Lease) :
    Decidable (t.Counts now f key lease) := inferInstanceAs (Decidable (_ ∧ _ ∧ _))

def hasOpenLease (t : Tables) (now f : Nat) : Bool :=
  t.leases.entries.any fun row => decide (t.Counts now f row.1 row.2)

end Tables

/-- `renameReplace` is the part of a rename that removes the name it renames to. -/
inductive Request where
  | registerFileOpenLease (f session handle ttl : Nat)
  | createHardlink (f : Nat) (name : Name)
  | unlinkFileEntry (f : Nat) (name : Name)
  | renameReplace (f : Nat) (name : Name)
  | purgePrimaryFile (f : Nat)

namespace Request

def file : Request → Nat
  | registerFileOpenLease f _ _ _ => f
  | createHardlink f _ => f
  | unlinkFileEntry f _ => f
  | renameReplace f _ => f
  | purgePrimaryFile f => f

def removes (name : Name) : Request → Bool
  | unlinkFileEntry _ removed => removed == name
  | renameReplace _ removed => removed == name
  | _ => false

end Request

inductive Change where
  | grant (session handle : Nat) (expiresAt : Nat)
  | link (name : Name)
  | dropLink (id : Nat)
  | promote (id : Nat)
  | hide
  | delete
  deriving DecidableEq

/-- Where a transaction is: before its first read, before one of the checks for open
leases, or ready to commit a change. -/
inductive Stage where
  | begun
  | openCheck
  | purgeCheck
  | finalCheck
  | ready (change : Change)
  deriving DecidableEq

def removePrimaryFile (t : Tables) (now f : Nat) : Stage :=
  match (t.linksOf f).min? with
  | some id => .ready (.promote id)
  | none => if t.hasOpenLease now f then .ready .hide else .ready .delete

def removeName (t : Tables) (f : Nat) (name : Name) (primary : Stage) : Option Stage :=
  match t.files.lookup f with
  | none => none
  | some row =>
    if row.unlinked = false ∧ row.name = name then some primary
    else
      ((t.hardlinks.keysWith fun link => link.file == f && link.name == name).head?).map
        fun id => .ready (.dropLink id)

def exec (t : Tables) (now : Nat) : Request → Stage → Option Stage
  | .registerFileOpenLease f session handle ttl, .begun =>
    if 0 < ttl ∧ t.live now session ∧ t.visible f then
      some (.ready (.grant session handle (now + ttl)))
    else none
  | .createHardlink f name, .begun => if t.visible f then some (.ready (.link name)) else none
  | .unlinkFileEntry f name, .begun =>
    removeName t f name <|
      match (t.linksOf f).min? with
      | some id => .ready (.promote id)
      | none => .openCheck
  | .unlinkFileEntry f _, .openCheck =>
    some (if t.hasOpenLease now f then .ready .hide else .purgeCheck)
  | .renameReplace f name, .begun => removeName t f name .finalCheck
  | .purgePrimaryFile f, .begun => (t.files.lookup f).map fun _ => .purgeCheck
  | request, .purgeCheck =>
    if t.linksOf request.file = [] ∧ t.hasOpenLease now request.file = false then
      some .finalCheck
    else none
  | request, .finalCheck => some (removePrimaryFile t now request.file)
  | _, _ => none

def Change.apply (t : Tables) (f : Nat) : Change → Tables
  | grant session handle expiresAt =>
    { t with leases := t.leases.insert (session, handle) ⟨f, expiresAt⟩ }
  | link name =>
    { t with
      hardlinks := t.hardlinks.insert t.nextHardlink ⟨f, name⟩
      nextHardlink := t.nextHardlink + 1 }
  | dropLink id => { t with hardlinks := t.hardlinks.erase id }
  | promote id =>
    match t.hardlinks.lookup id, t.files.lookup f with
    | some row, some file =>
      { t with
        files := t.files.insert f { file with name := row.name }
        hardlinks := t.hardlinks.erase id }
    | _, _ => t
  | hide =>
    { t with files := t.files.adjust fun g row => { row with unlinked := row.unlinked || g == f } }
  | delete =>
    { t with
      files := t.files.erase f
      hardlinks := t.hardlinks.keep fun _ link => link.file != f
      leases := t.leases.keep fun _ lease => lease.file != f }

def heartbeatFileOpenLeases (t : Tables) (now session ttl : Nat) : Tables :=
  { t with
    leases := t.leases.adjust fun key lease =>
      if key.1 = session ∧ now < lease.expiresAt then { lease with expiresAt := now + ttl }
      else lease }

def pruneExpiredClientSessions (t : Tables) (now : Nat) : Tables :=
  { t with
    sessions := t.sessions.keep fun _ expiresAt => decide (now < expiresAt)
    leases := t.leases.keep fun key _ => t.live now key.1 }

def orphans (t : Tables) (now limit : Nat) : List Nat :=
  ((t.files.keysWith fun row => row.unlinked).filter fun f => !t.hasOpenLease now f).take limit

structure Tx where
  request : Request
  stage : Stage

/-- `sweeps` holds the files that running cleanups have still to purge. -/
structure State where
  tables : Tables
  clock : Nat
  txs : Table Nat Tx
  sweeps : Table Nat (List Nat)

inductive Action where
  | start (id : Nat) (request : Request)
  | exec (id : Nat)
  | commit (id : Nat)
  | rollback (id : Nat)
  | releaseFileOpenLease (session handle : Nat)
  | heartbeatFileOpenLeases (session ttl : Nat)
  | registerClientSession (session ttl : Nat)
  | heartbeatClientSession (session ttl : Nat)
  | pruneExpiredClientSessions
  | selectOrphans (sweep limit : Nat)
  | purgeNext (sweep id : Nat)
  | tick (seconds : Nat)

def State.free (s : State) (f : Nat) : Bool :=
  s.txs.entries.all fun row => row.2.request.file != f

def State.granting (s : State) : Bool :=
  s.txs.entries.any fun row =>
    match row.2.stage with
    | .ready (.grant session _ _) => !s.tables.live s.clock session
    | _ => false

def State.ended (s : State) (id : Nat) : State := { s with txs := s.txs.erase id }

def State.setTx (s : State) (id : Nat) (tx : Tx) : State := { s with txs := s.txs.insert id tx }

def start (s : State) (id : Nat) (request : Request) : Option State :=
  if (s.txs.lookup id).isNone ∧ s.free request.file then some (s.setTx id ⟨request, .begun⟩) else none

def State.setTables (s : State) (t : Tables) : State := { s with tables := t }

def step (s : State) : Action → Option State
  | .start id request => start s id request
  | .exec id => do
    let tx ← s.txs.lookup id
    match tx.stage with
    | .ready _ => none
    | stage =>
      match Lifetime.exec s.tables s.clock tx.request stage with
      | none => some (s.ended id)
      | some stage => some (s.setTx id { tx with stage := stage })
  | .commit id => do
    let tx ← s.txs.lookup id
    match tx.stage with
    | .ready change => some ((s.setTables (change.apply s.tables tx.request.file)).ended id)
    | _ => none
  | .rollback id => do
    let _ ← s.txs.lookup id
    some (s.ended id)
  | .releaseFileOpenLease session handle =>
    some (s.setTables { s.tables with leases := s.tables.leases.erase (session, handle) })
  | .heartbeatFileOpenLeases session ttl =>
    if 0 < ttl then
      some (s.setTables (Lifetime.heartbeatFileOpenLeases s.tables s.clock session ttl))
    else none
  | .registerClientSession session ttl =>
    if (s.tables.sessions.lookup session).isNone then
      some (s.setTables
        { s.tables with sessions := s.tables.sessions.insert session (s.clock + ttl) })
    else none
  | .heartbeatClientSession session ttl =>
    if (s.tables.sessions.lookup session).isSome then
      some (s.setTables
        { s.tables with sessions := s.tables.sessions.insert session (s.clock + ttl) })
    else some s
  | .pruneExpiredClientSessions =>
    if s.granting then none
    else some (s.setTables (Lifetime.pruneExpiredClientSessions s.tables s.clock))
  | .selectOrphans sweep limit =>
    if (s.sweeps.lookup sweep).isNone then
      some { s with sweeps := s.sweeps.insert sweep (orphans s.tables s.clock limit) }
    else none
  | .purgeNext sweep id =>
    match s.sweeps.lookup sweep with
    | none => none
    | some [] => some { s with sweeps := s.sweeps.erase sweep }
    | some (f :: rest) =>
      start { s with sweeps := s.sweeps.insert sweep rest } id (.purgePrimaryFile f)
  | .tick seconds => some { s with clock := s.clock + seconds }

def State.idle (tables : Tables) (clock : Nat) : State := ⟨tables, clock, ∅, ∅⟩

end Fod.Lifetime
