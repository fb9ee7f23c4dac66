import Fod.Replay.Rename

/-!
# A commit without an acknowledgement

A connection that is lost at the commit makes the operation run again on a new
connection, after the first run has taken effect.  Some operations first look for
what they have left, and the creations explain a unique violation by it.
-/

namespace Fod.Replay

open Fod.Data

/-- An operation with its arguments.  A token is drawn once, before the first run. -/
inductive Operation where
  | createFile (new : Tables.NewEntry)
  | createSpecialFile (new : Tables.NewEntry) (special : Special)
  | createDirectory (new : Tables.NewEntry)
  | createSymlink (new : Tables.NewEntry) (target : Text)
  | createHardlink (file : Nat) (location : Location) (uid gid : Nat)
  | createDataObject (token size : Nat) (hash : Option Text)
  | promoteHardlinkToPrimary (token file : Nat)
  | adoptSourceDataObject (src dst : Nat) (fence : Option Nat)
  | setFileSize (file size : Nat)
  | rename (request : RenameRequest)
  | persistFileBlocks (flush : Tables.Flush) (fence : Option Nat)
  | punchHoleKeepSize (file blockSize offset length : Nat) (fence : Option Nat)
  | acquireFlockLease (token : Nat) (key : FlockKey) (exclusive : Bool) (ttl : Nat)
      (lockGranted : Bool)
  | reservePayloadCapacity (token bytes : Nat)

inductive Reply where
  | id (n : Nat)
  | done
  | answer (yes : Bool)
  | renamed (outcome : RenameOutcome)
  | reservation (token : Option Nat)

namespace Tables

def earlierLease (a b : Σ _ : FlockKey, FlockLease) : Σ _ : FlockKey, FlockLease :=
  if b.1.2.1 < a.1.2.1 ∨ (b.1.2.1 = a.1.2.1 ∧ b.1.2.2 < a.1.2.2) then b else a

def conflictingLease (t : Tables) (now : Nat) (key : FlockKey) : Option FlockLease :=
  match t.flocks.entries.filter fun row =>
      row.1.1 == key.1 && row.1.2 != key.2 && decide (now < row.2.expiresAt) with
  | [] => none
  | row :: rows => some (rows.foldl earlierLease row).2

/-- `lockGranted` says whether the advisory lock of the resource was free. -/
def acquireFlockLease (cfg : Config) (t : Tables) (token : Nat) (key : FlockKey)
    (exclusive : Bool) (ttl : Nat) (lockGranted : Bool) : Tables × Bool :=
  let outcome (t : Tables) (granted : Bool) : Tables × Bool :=
    ({ t with lockTokens := t.lockTokens.insert token granted }, granted)
  if !lockGranted then outcome t false
  else
    let t := { t with
      flocks := t.flocks.keep fun k lease =>
        k.1 != key.1 || decide (cfg.now < lease.expiresAt) }
    if (t.conflictingLease cfg.now key).any fun lease => exclusive || lease.exclusive then
      outcome t false
    else outcome { t with flocks := t.flocks.insert key ⟨exclusive, cfg.now + ttl⟩ } true

def alreadyRenamed (t : Tables) (r : RenameRequest) : Bool :=
  ((t.resolve r.new).bind id).any (Entry.sameRow r.source)

def alreadyAdopted (t : Tables) (src dst : Nat) : Bool :=
  match t.data.files.lookup src, t.data.files.lookup dst with
  | some srcRow, some dstRow =>
    srcRow.size != 0 && dstRow.size == srcRow.size && srcRow.dataObject == dstRow.dataObject
  | _, _ => false

end Tables

namespace Operation

def refused : Operation → Bool
  | rename r => r.old.2.isEmpty || r.new.2.isEmpty
  | punchHoleKeepSize _ blockSize _ length _ => blockSize == 0 || length == 0
  | _ => false

def probe (t : Tables) : Operation → Option Reply
  | createDataObject token _ _ => (t.dataObjectTokens.lookup token).map .id
  | promoteHardlinkToPrimary token _ =>
    (t.promotionTokens.lookup token).map fun outcome => .answer outcome.2
  | acquireFlockLease token _ _ _ _ => (t.lockTokens.lookup token).map .answer
  | adoptSourceDataObject src dst _ => if t.alreadyAdopted src dst then some (.answer true) else none
  | setFileSize f size => if t.data.fileSize f = some size then some .done else none
  | rename r => if t.alreadyRenamed r then some (.renamed .applied) else none
  | _ => none

def body (cfg : Config) (t : Tables) : Operation → Except Error (Tables × Reply)
  | createFile new => (t.createFile new).map (Prod.map id .id)
  | createSpecialFile new special => (t.createSpecialFile new special).map (Prod.map id .id)
  | createDirectory new => (t.createDirectory new).map (Prod.map id .id)
  | createSymlink new target => (t.createSymlink new target).map (Prod.map id .id)
  | createHardlink file location uid gid =>
    (t.createHardlink file location uid gid).map (Prod.map id .id)
  | createDataObject token size hash => .ok ((t.createDataObject token size hash).map id .id)
  | promoteHardlinkToPrimary token f => .ok ((t.promoteHardlinkToPrimary token f).map id .answer)
  | adoptSourceDataObject src dst fence =>
    (t.adoptSourceDataObject src dst fence).map (Prod.map id .answer)
  | setFileSize f size => (t.setFileSize f size).map (·, .done)
  | rename r => (t.rename r).map (Prod.map id .renamed)
  | persistFileBlocks flush fence => (t.persistFileBlocks cfg flush fence).map (·, .done)
  | punchHoleKeepSize f blockSize offset length fence =>
    (t.punchHoleKeepSize cfg f blockSize offset length fence).map (·, .done)
  | acquireFlockLease token key exclusive ttl lockGranted =>
    .ok ((t.acquireFlockLease cfg token key exclusive ttl lockGranted).map id .answer)
  | reservePayloadCapacity token bytes =>
    (t.reservePayloadCapacity cfg token bytes).map (Prod.map id .reservation)

def attempt (cfg : Config) (t : Tables) (op : Operation) : Except Error (Tables × Reply) :=
  if op.refused then .error .invalidArgument
  else
    match op.probe t with
    | some reply => .ok (t, reply)
    | none => op.body cfg t

/-- What explains a unique violation.  The first run, on `first`, has left the group and
the mode that it gave to the entry. -/
def confirm (first t : Tables) : Operation → Option Reply
  | createFile new => do
    let (gid, mode) ← (first.inheritParentSetgid new.location.1 new.gid new.mode false).toOption
    return .id (← t.confirmCreatedFile new gid mode)
  | createSpecialFile new special => do
    let (gid, mode) ← (first.inheritParentSetgid new.location.1 new.gid new.mode false).toOption
    return .id (← t.confirmCreatedSpecialFile new gid mode special)
  | createDirectory new => do
    let (gid, mode) ← (first.inheritParentSetgid new.location.1 new.gid new.mode true).toOption
    return .id (← t.confirmCreatedDirectory new gid mode)
  | createSymlink new target => do
    let (gid, _) ← (first.inheritParentSetgid new.location.1 new.gid new.mode false).toOption
    return .id (← t.confirmCreatedSymlink new target gid)
  | createHardlink file location uid gid =>
    (t.confirmCreatedHardlink file location uid gid).map .id
  | _ => none

/-- The outcome when the first run is committed and its acknowledgement is lost. -/
def afterLostAck (cfg : Config) (t : Tables) (op : Operation) : Except Error (Tables × Reply) :=
  match op.attempt cfg t with
  | .error e => .error e
  | .ok (committed, _) =>
    match op.attempt cfg committed with
    | .ok outcome => .ok outcome
    | .error e =>
      if e.isUniqueViolation then
        match op.confirm t committed with
        | some reply => .ok (committed, reply)
        | none => .error e
      else .error e

end Operation

/-- The files have the same sizes and blocks, and `ids` translates the ids of objects. -/
structure SameData (ids : Equiv.Perm Nat) (db db' : Db) : Prop where
  file : ∀ f, db'.files.lookup f =
    (db.files.lookup f).map fun row => { row with dataObject := ids row.dataObject }
  count : ∀ o, (db'.objects.lookup (ids o)).map DataObject.referenceCount =
    (db.objects.lookup o).map DataObject.referenceCount
  block : ∀ o b, (db'.objects.lookup (ids o)).bind (fun object => object.blocks.lookup b) =
    (db.objects.lookup o).bind fun object => object.blocks.lookup b

lemma SameData.refl (db : Db) : SameData (Equiv.refl Nat) db db where
  file _ := by simp
  count _ := rfl
  block _ _ := rfl

/-- The tables are the same but for the ids of objects. -/
structure Alike (ids : Equiv.Perm Nat) (t t' : Tables) : Prop where
  rest : t' = { t with
    data := t'.data, hashes := t'.hashes, dataObjectTokens := t'.dataObjectTokens,
    reservations := t'.reservations }
  data : SameData ids t.data t'.data
  hash : ∀ o, t'.hashes.lookup (ids o) = t.hashes.lookup o
  token : ∀ k, t'.dataObjectTokens.lookup k = (t.dataObjectTokens.lookup k).map ids
  reservation : ∀ k, t'.reservations.lookup k = t.reservations.lookup k

lemma Alike.refl (t : Tables) : Alike (Equiv.refl Nat) t t where
  rest := rfl
  data := .refl t.data
  hash _ := rfl
  token _ := by simp
  reservation _ := rfl

namespace Operation

variable {cfg : Config} {op : Operation} {t t' t'' : Tables} {reply : Reply}

lemma attempt_cases (h : op.attempt cfg t = .ok (t', reply)) : op.refused = false ∧
      ((op.probe t = some reply ∧ t' = t) ∨
        (op.probe t = none ∧ op.body cfg t = .ok (t', reply))) := by
  unfold attempt at h
  split at h
  · cases h
  · rename_i hallowed
    refine ⟨by simpa using hallowed, ?_⟩
    split at h
    · rename_i r hfound
      cases h
      exact .inl ⟨hfound, rfl⟩
    · rename_i hfound
      exact .inr ⟨hfound, h⟩

/-- The result and the tables are those of the first run. -/
def ExactlyOnce (cfg : Config) (t : Tables) (op : Operation) (t' : Tables) (reply : Reply) : Prop :=
  ∃ t'', op.afterLostAck cfg t = .ok (t'', reply) ∧ ∃ ids, Alike ids t' t''

lemma ExactlyOnce.of_ok {ids : Equiv.Perm Nat} (hfirst : op.attempt cfg t = .ok (t', reply))
    (hagain : op.attempt cfg t' = .ok (t'', reply)) (halike : Alike ids t' t'') :
    ExactlyOnce cfg t op t' reply :=
  ⟨t'', by simp [afterLostAck, hfirst, hagain], ids, halike⟩

lemma ExactlyOnce.of_unchanged (hfirst : op.attempt cfg t = .ok (t, reply)) :
    ExactlyOnce cfg t op t reply :=
  .of_ok hfirst hfirst (.refl t)

lemma ExactlyOnce.of_probe (hfirst : op.attempt cfg t = .ok (t', reply))
    (hfound : op.probe t' = some reply) : ExactlyOnce cfg t op t' reply :=
  .of_ok hfirst (by simp [attempt, (attempt_cases hfirst).1, hfound]) (.refl t')

lemma ExactlyOnce.of_confirm (hfirst : op.attempt cfg t = .ok (t', reply))
    (hagain : op.attempt cfg t' = .error .namespaceEntryExists)
    (hconfirm : op.confirm t t' = some reply) : ExactlyOnce cfg t op t' reply :=
  ⟨t', by simp [afterLostAck, hfirst, hagain, Error.isUniqueViolation, hconfirm], _, .refl t'⟩

end Operation

end Fod.Replay
