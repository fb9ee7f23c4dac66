import Fod.Lib.GuardedRun
import Fod.Lib.LockPool

/-!
# Write leases and fenced persistence

The tables `destination_write_leases` and `file_write_leases` are one list of
leases, each of a resource, and the advisory keys `fod:write:destination` and
`fod:write:file` are the resources themselves.  A transaction is a list of
statements; it reads the committed leases without those it has deleted itself,
and its own writes take effect at its commit.
-/

namespace Fod.Fencing

inductive Resource where
  | destination (parent : Nat) (name : String)
  | file (id : Nat)
  deriving DecidableEq

def Resource.isFile : Resource → Bool
  | .destination _ _ => false
  | .file _ => true

structure Owner where
  session : Nat
  key : Nat
  deriving DecidableEq

structure Lease where
  resource : Resource
  token : Nat
  owner : Owner
  expires : Nat

def Lease.serial (lease : Lease) : Bool × Nat := (lease.resource.isFile, lease.token)

structure Session where
  id : Nat
  expires : Nat

inductive Lock where
  | key (r : Resource)
  | row (r : Resource) (token : Nat)
  deriving DecidableEq

def Lock.conflicts (l m : Lock) : Bool := l == m

lemma Lock.conflicts_comm (l m : Lock) : l.conflicts m = m.conflicts l :=
  Bool.beq_comm

inductive Stmt where
  | tryLock (r : Resource)
  | lock (r : Resource)
  | requireSession (session : Nat)
  | prune (r : Resource)
  | requireNoConflict (r : Resource) (o : Owner)
  | upsert (r : Resource) (o : Owner) (ttl : Nat)
  | heartbeatDestination (r : Resource) (token : Nat) (o : Owner) (ttl : Nat) (withFile : Bool)
  | heartbeatFile (r : Resource) (token : Nat) (o : Owner) (ttl : Nat)
  | release (isFile : Bool) (token : Nat) (o : Owner)
  | pruneSessions (before : Nat)
  | validate (file : Nat) (o : Owner) (token : Nat)
  | rejectActive (file : Nat)

inductive Write where
  | insert (r : Resource) (o : Owner) (expires : Nat)
  | regrant (r : Resource) (token : Nat) (o : Owner) (expires : Nat)
  | renew (r : Resource) (token expires : Nat)
  | delete (r : Resource) (token : Nat)
  deriving DecidableEq

/-- What a transaction in progress has gathered.  `fence` is the fence that it has
validated; `clear` is the file that it has found without an active lease, with
the number of commits at that time. -/
structure Facts where
  locks : List Lock := []
  writes : List Write := []
  dropped : List Nat := []
  fence : Option (Nat × Owner × Nat) := none
  clear : Option (Nat × Nat) := none

structure Tx where
  facts : Facts
  todo : List Stmt

def Tx.locks (tx : Tx) : List Lock := tx.facts.locks

def Tx.ended : Tx := ⟨{}, []⟩

namespace Facts

def hold (F : Facts) (locks : List Lock) : Facts := { F with locks := locks ++ F.locks }

def write (F : Facts) (writes : List Write) : Facts := { F with writes := F.writes ++ writes }

def deletes (F : Facts) (lease : Lease) : Bool :=
  F.writes.contains (.delete lease.resource lease.token)

end Facts

/-- A lease on a file granted by a committed `acquire_write_ownership`, as the
`order`-th commit. -/
structure Grant where
  file : Nat
  owner : Owner
  token : Nat
  order : Nat
  deriving DecidableEq

/-- A committed persist transaction, with its fence or, without one, with the
number of commits before its lease check. -/
structure Persist where
  file : Nat
  check : (Owner × Nat) ⊕ Nat
  order : Nat
  deriving DecidableEq

structure State where
  now : Nat
  sessions : List Session
  leases : List Lease
  txs : List Tx
  issued : List (Bool × Nat)
  commits : Nat
  grants : List Grant
  persists : List Persist

namespace State

def free (s : State) (t : Nat) (wanted : List Lock) : Bool :=
  LockPool.free Tx.locks Lock.conflicts s.txs t wanted

def view (s : State) (F : Facts) : List Lease := s.leases.filter fun lease => !F.deletes lease

def change (s : State) (t : Nat) (F : Facts) (rest : List Stmt) (leases : List Lease)
    (writes : List Write) : Option Tx :=
  let rows := leases.map fun lease => Lock.row lease.resource lease.token
  if s.free t rows then some ⟨(F.hold rows).write writes, rest⟩ else none

def deletion (lease : Lease) : Write := .delete lease.resource lease.token

def renewable (s : State) (F : Facts) (r : Resource) (token : Nat) (o : Owner) : Option Lease :=
  (s.view F).find? fun lease =>
    lease.token == token && lease.resource == r && lease.owner == o && s.now < lease.expires

/-- `choice` is the environment's: whether the file has no name at the destination
of the lease any more. -/
def exec (s : State) (t : Nat) (choice : Bool) (F : Facts) (rest : List Stmt) :
    Stmt → Option Tx
  | .tryLock r =>
    some (if s.free t [.key r] then ⟨F.hold [.key r], rest⟩ else .ended)
  | .lock r => if s.free t [.key r] then some ⟨F.hold [.key r], rest⟩ else none
  | .requireSession session =>
    some (if s.sessions.any fun x => x.id == session && s.now < x.expires then ⟨F, rest⟩
      else .ended)
  | .prune r =>
    let expired := (s.view F).filter fun lease => lease.resource == r && lease.expires ≤ s.now
    s.change t F rest expired (expired.map deletion)
  | .requireNoConflict r o =>
    some (if (s.view F).any fun lease =>
        lease.resource == r && s.now < lease.expires && lease.owner != o then .ended
      else ⟨F, rest⟩)
  | .upsert r o ttl =>
    match (s.view F).find? fun lease => lease.resource == r with
    | some lease =>
      if lease.owner = o then
        s.change t F rest [lease] [.regrant r lease.token o (s.now + ttl)]
      else some .ended
    | none => some ⟨F.write [.insert r o (s.now + ttl)], rest⟩
  | .heartbeatDestination r token o ttl withFile =>
    match s.renewable F r token o with
    | some lease => s.change t F rest [lease] [.renew r token (s.now + ttl)]
    | none => some (if withFile && choice then ⟨F, rest⟩ else .ended)
  | .heartbeatFile r token o ttl =>
    match s.renewable F r token o with
    | some lease => s.change t F rest [lease] [.renew r token (s.now + ttl)]
    | none => some .ended
  | .release isFile token o =>
    let rows := (s.view F).filter fun lease =>
      lease.resource.isFile == isFile && lease.token == token && lease.owner == o
    s.change t F rest rows (rows.map deletion)
  | .pruneSessions before =>
    let gone := (s.sessions.filter fun x => x.expires ≤ min before s.now).map Session.id
    let rows := (s.view F).filter fun lease => gone.contains lease.owner.session
    s.change t { F with dropped := gone ++ F.dropped } rest rows (rows.map deletion)
  | .validate f o token =>
    let valid := (s.view F).any fun lease =>
      lease.resource == .file f && lease.owner == o && lease.token == token &&
        s.now < lease.expires &&
        s.sessions.any fun x => x.id == o.session && s.now < x.expires
    some (if valid then ⟨{ F with fence := some (f, o, token) }, rest⟩ else .ended)
  | .rejectActive f =>
    some (if (s.view F).any fun lease => lease.resource == .file f && s.now < lease.expires
      then .ended else ⟨{ F with clear := some (f, s.commits) }, rest⟩)

end State

def destination (parent : Option Nat) (name : String) : Resource :=
  .destination (parent.getD 0) name

def acquireWriteOwnership (parent : Option Nat) (name : String) (file : Option Nat) (o : Owner)
    (ttl : Nat) : List Stmt :=
  if name = "" ∨ parent = some 0 ∨ ttl = 0 ∨ o.session = 0 then []
  else
    let d := destination parent name
    let files := file.toList.map Resource.file
    [.tryLock d] ++ files.map .tryLock ++
      [.requireSession o.session, .prune d, .requireNoConflict d o] ++
      files.flatMap (fun r => [.prune r, .requireNoConflict r o]) ++
      [.upsert d o ttl] ++ files.map (.upsert · o ttl)

def heartbeatWriteOwnership (parent : Option Nat) (name : String) (file : Option (Nat × Nat))
    (o : Owner) (token ttl : Nat) : List Stmt :=
  if name = "" ∨ parent = some 0 ∨ ttl = 0 ∨ token = 0 ∨ (∃ f ∈ file, f.2 = 0) ∨ o.session = 0
  then []
  else
    let d := destination parent name
    [.tryLock d] ++ file.toList.map (fun f => .tryLock (.file f.1)) ++
      [.heartbeatDestination d token o ttl file.isSome] ++
      file.toList.map fun f => .heartbeatFile (.file f.1) f.2 o ttl

def heartbeatFileWriteOwnership (f : Nat) (o : Owner) (token ttl : Nat) : List Stmt :=
  if ttl = 0 ∨ token = 0 ∨ o.session = 0 then []
  else [.tryLock (.file f), .heartbeatFile (.file f) token o ttl]

def releaseWriteOwnership (o : Owner) (token : Nat) (fileToken : Option Nat) : List Stmt :=
  if token = 0 ∨ fileToken = some 0 ∨ o.session = 0 then []
  else fileToken.toList.map (.release true · o) ++ [.release false token o]

/-- `validate_write_persistence_fence_on_conn` with a fence,
`reject_unfenced_write_during_active_lease_on_conn` without one. -/
def checkFence (f : Nat) : Option (Owner × Nat) → List Stmt
  | some (o, token) =>
    if o.session = 0 ∨ token = 0 then [] else [.lock (.file f), .validate f o token]
  | none => [.lock (.file f), .rejectActive f]

inductive Request where
  | acquireWriteOwnership (parent : Option Nat) (name : String) (file : Option Nat) (o : Owner)
      (ttl : Nat)
  | heartbeatWriteOwnership (parent : Option Nat) (name : String) (file : Option (Nat × Nat))
      (o : Owner) (token ttl : Nat)
  | heartbeatFileWriteOwnership (file : Nat) (o : Owner) (token ttl : Nat)
  | releaseWriteOwnership (o : Owner) (token : Nat) (fileToken : Option Nat)
  | pruneExpiredClientSessions (before : Nat)
  | persist (file : Nat) (fence : Option (Owner × Nat))
  | punchHole (file : Nat) (fence : Owner × Nat)
  | adopt (src dst : Nat) (fence : Option (Owner × Nat))

/-- The work of a persist transaction on the file's blocks does not touch leases,
so a program ends with the lease check. -/
def Request.program : Request → List Stmt
  | .acquireWriteOwnership parent name file o ttl =>
    Fencing.acquireWriteOwnership parent name file o ttl
  | .heartbeatWriteOwnership parent name file o token ttl =>
    Fencing.heartbeatWriteOwnership parent name file o token ttl
  | .heartbeatFileWriteOwnership f o token ttl =>
    Fencing.heartbeatFileWriteOwnership f o token ttl
  | .releaseWriteOwnership o token fileToken => Fencing.releaseWriteOwnership o token fileToken
  | .pruneExpiredClientSessions before => [.pruneSessions before]
  | .persist f fence => checkFence f fence
  | .punchHole f fence => checkFence f (some fence)
  | .adopt src dst fence => [.lock (.file src), .lock (.file dst)] ++ checkFence dst fence

def Write.inserted (token : Nat) : Write → Option Lease
  | .insert r o expires => some ⟨r, token, o, expires⟩
  | _ => none

def Write.apply (token : Nat) (leases : List Lease) : Write → List Lease
  | .insert r o expires => leases ++ [⟨r, token, o, expires⟩]
  | .regrant r k _ expires | .renew r k expires =>
    leases.map fun lease =>
      if lease.resource = r ∧ lease.token = k then { lease with expires } else lease
  | .delete r k => leases.filter fun lease => !(lease.resource == r && lease.token == k)

def Write.grant (token order : Nat) : Write → Option Grant
  | .insert (.file f) o _ => some ⟨f, o, token, order⟩
  | .regrant (.file f) k o _ => some ⟨f, o, k, order⟩
  | _ => none

def Facts.persists (F : Facts) (order : Nat) : List Persist :=
  (F.fence.toList.map fun x => ⟨x.1, .inl x.2, order⟩) ++
    F.clear.toList.map fun x => ⟨x.1, .inr x.2, order⟩

def Constraints (sessions : List Session) (leases : List Lease) : Prop :=
  (leases.map Lease.resource).Nodup ∧
    ∀ lease ∈ leases, ∃ x ∈ sessions, x.id = lease.owner.session

instance (sessions : List Session) (leases : List Lease) :
    Decidable (Constraints sessions leases) :=
  inferInstanceAs (Decidable (_ ∧ _))

/-- `token` is a value that the sequence of neither table has issued. -/
def State.commit (s : State) (t token : Nat) (tx : Tx) : Option State :=
  let leases := tx.facts.writes.foldl (Write.apply token) s.leases
  let sessions := s.sessions.filter fun x => !tx.facts.dropped.contains x.id
  let order := s.commits + 1
  let tokens := (tx.facts.writes.filterMap (Write.inserted token)).map Lease.serial
  if tx.todo = [] ∧ tokens.Nodup ∧ (∀ x ∈ tokens, x ∉ s.issued) ∧
      Constraints sessions leases then
    some
      { s with
        sessions, leases, txs := s.txs.set t .ended, issued := tokens ++ s.issued
        commits := order
        grants := tx.facts.writes.filterMap (Write.grant token order) ++ s.grants
        persists := tx.facts.persists order ++ s.persists }
  else none

inductive Action where
  | start (request : Request)
  | exec (t : Nat) (choice : Bool)
  | commit (t token : Nat)
  | rollback (t : Nat)
  | tick (elapsed : Nat)
  | renewSession (id ttl : Nat)

def step (s : State) : Action → Option State
  | .start request => some { s with txs := s.txs ++ [⟨{}, request.program⟩] }
  | .exec t choice =>
    match s.txs[t]? with
    | some ⟨F, stmt :: rest⟩ =>
      (s.exec t choice F rest stmt).map fun tx => { s with txs := s.txs.set t tx }
    | _ => none
  | .commit t token => s.txs[t]?.bind (s.commit t token)
  | .rollback t => if t < s.txs.length then some { s with txs := s.txs.set t .ended } else none
  | .tick elapsed => some { s with now := s.now + elapsed }
  | .renewSession id ttl =>
    some { s with
      sessions := ⟨id, s.now + ttl⟩ :: s.sessions.filter fun x => x.id != id }

def init : State := ⟨0, [], [], [], [], 0, [], []⟩

end Fod.Fencing
