import Fod.Data.Sharing
import Fod.Lib.GuardedRun

/-!
# Interleaved transactions on shared data objects

A transaction that writes, adopts or deletes a file reads the object of the file
and how many files have it, decides from that what to do, and carries it out
statement by statement.  Its statements see what is committed and its own changes,
and wait for rows that another transaction has changed.
-/

namespace Fod.Objects

open Fod.Data

inductive Lock where
  | write (f : Nat)
  | lifecycle (f : Nat)
  | fileRow (f : Nat)
  | objectRow (o : Nat)
  deriving DecidableEq

abbrev BlockRow := Nat × Option Bytes

/-- `removePrimaryFile` is the part of an unlink, a purge or a rename over the file
that deletes it. -/
inductive Transaction where
  | persistFileBlocks (f size : Nat) (preferReplacement : Bool) (rows : List BlockRow)
  | punchHoleKeepSize (f : Nat) (rows : List BlockRow)
  | adoptSourceDataObject (src dst : Nat)
  | removePrimaryFile (f : Nat)

namespace Transaction

def locks : Transaction → List Lock
  | persistFileBlocks f _ _ _ => [.write f]
  | punchHoleKeepSize f _ => [.write f, .fileRow f]
  | adoptSourceDataObject src dst => [.write src, .write dst]
  | removePrimaryFile f => [.lifecycle f, .fileRow f]

def file : Transaction → Nat
  | persistFileBlocks f _ _ _ => f
  | punchHoleKeepSize f _ => f
  | adoptSourceDataObject _ dst => dst
  | removePrimaryFile f => f

end Transaction

inductive Release where
  | delete
  | touch
  deriving DecidableEq

def releaseOf (referenceCount : Nat) : Release := if referenceCount ≤ 1 then .delete else .touch

/-- What a transaction does after it has read.  An adoption counts the files of the
object it leaves only when its file has left. -/
inductive Plan where
  | inPlace (f size o : Nat) (rows : List BlockRow)
  | swap (f size o : Nat) (blocks : Table Nat Bytes) (release : Release)
  | adopt (src dst size o old : Nat) (release : Option Release)
  | remove (f o : Nat) (release : Release)

inductive Write where
  | changeBlocks (o : Nat) (rows : List BlockRow)
  | resizeFile (f size : Nat)
  | swapObject (f size : Nat) (blocks : Table Nat Bytes)
  | pointFile (f size o : Nat)
  | addReference (o : Nat)
  | release (o : Nat) (release : Release)
  | deleteFile (f : Nat)

def updateFile (db : Db) (f : Nat) (change : FileRow → FileRow) : Db :=
  match db.files.lookup f with
  | none => db
  | some row => db.setFile f (change row)

namespace Write

def apply (db : Db) : Write → Db
  | changeBlocks o rows =>
    db.updateObject o fun object =>
      { object with blocks := rows.foldl Db.insertStaged object.blocks }
  | resizeFile f size => updateFile db f fun row => { row with size := size }
  | swapObject f size blocks =>
    let (db, new) := db.createDataObject blocks
    updateFile db f fun _ => ⟨size, new⟩
  | pointFile f size o => updateFile db f fun _ => ⟨size, o⟩
  | addReference o =>
    db.updateObject o fun object =>
      { object with referenceCount := object.referenceCount + 1 }
  | release o .delete => { db with objects := db.objects.erase o }
  | release o .touch => db.touchOldObject o
  | deleteFile f => { db with files := db.files.erase f }

def rowLock : Write → Option Lock
  | changeBlocks _ _ => none
  | resizeFile f _ => some (.fileRow f)
  | swapObject f _ _ => some (.fileRow f)
  | pointFile f _ _ => some (.fileRow f)
  | addReference o => some (.objectRow o)
  | release o _ => some (.objectRow o)
  | deleteFile f => some (.fileRow f)

def fails (view : Db) : Write → Bool
  | resizeFile f _ => (view.files.lookup f).isNone
  | swapObject f _ _ => (view.files.lookup f).isNone
  | _ => false

end Write

def Plan.writes : Plan → List Write
  | .inPlace f size o rows => [.changeBlocks o rows, .resizeFile f size]
  | .swap f size o blocks r => [.swapObject f size blocks, .release o r]
  | .adopt _ dst size o _ none => [.addReference o, .pointFile dst size o]
  | .adopt _ dst size o old (some r) =>
    [.addReference o, .pointFile dst size o, .release old r]
  | .remove f o .delete => [.deleteFile f, .release o .delete]
  | .remove f o .touch => [.release o .touch, .deleteFile f]

def Plan.counted : Plan → Bool
  | .adopt _ _ _ _ _ none => false
  | _ => true

/-- A write replaces the object, changes it in place or copies it; a file without
an object is not written. -/
def dataObjectWriteTarget (db : Db) (f size : Nat) (preferReplacement : Bool)
    (rows : List BlockRow) : Option Plan := do
  let (o, object) ← db.fileDataObjectInfo f
  if preferReplacement then
    return .swap f size o (rows.foldl Db.insertStaged ∅) (releaseOf object.referenceCount)
  else if object.referenceCount ≤ 1 then
    return .inPlace f size o rows
  else
    return .swap f size o (rows.foldl Db.insertStaged object.blocks) .touch

def Transaction.decide (db : Db) : Transaction → Option Plan
  | .persistFileBlocks f size preferReplacement rows =>
    dataObjectWriteTarget db f size preferReplacement rows
  | .punchHoleKeepSize f rows => do
    let size ← db.fileSize f
    dataObjectWriteTarget db f size false rows
  | .adoptSourceDataObject src dst => do
    let srcRow ← db.files.lookup src
    let dstRow ← db.files.lookup dst
    if srcRow.size = 0 then none
    else if dstRow.size ≠ 0 ∨ srcRow.dataObject = dstRow.dataObject then none
    else some (.adopt src dst srcRow.size srcRow.dataObject dstRow.dataObject none)
  | .removePrimaryFile f => do
    let (o, object) ← db.fileDataObjectInfo f
    return .remove f o (releaseOf object.referenceCount)

structure Tx where
  transaction : Transaction
  locks : List Lock
  plan : Option Plan
  executed : Nat

structure State where
  db : Db
  txs : Table Nat Tx

inductive Action where
  | start (id : Nat) (transaction : Transaction)
  | decide (id : Nat)
  | exec (id : Nat)
  | count (id : Nat)
  | commit (id : Nat)
  | rollback (id : Nat)

def view (db : Db) (plan : Plan) (executed : Nat) : Db :=
  (plan.writes.take executed).foldl Write.apply db

def State.free (s : State) (id : Nat) (lock : Lock) : Bool :=
  s.txs.entries.all fun row => row.1 == id || !row.2.locks.contains lock

def State.ended (s : State) (id : Nat) : State := { s with txs := s.txs.erase id }

def State.setTx (s : State) (id : Nat) (tx : Tx) : State := { s with txs := s.txs.insert id tx }

def Referential (db : Db) : Prop :=
  ∀ row ∈ db.files.entries, (db.objects.lookup row.2.dataObject).isSome

instance (db : Db) : Decidable (Referential db) :=
  inferInstanceAs (Decidable (∀ row ∈ db.files.entries, _))

def execStep (s : State) (id : Nat) (tx : Tx) (plan : Plan) : Option State := do
  let w ← plan.writes[tx.executed]?
  if w.rowLock.all (s.free id) then
    if w.fails (view s.db plan tx.executed) then some (s.ended id)
    else
      some (s.setTx id
        { tx with locks := w.rowLock.toList ++ tx.locks, executed := tx.executed + 1 })
  else none

def countStep (s : State) (id : Nat) (tx : Tx) : Plan → Option State
  | .adopt src dst size o old none =>
    let plan := Plan.adopt src dst size o old none
    if tx.executed = plan.writes.length then
      let r := if (view s.db plan tx.executed).references old = 0 then .delete else .touch
      some (s.setTx id { tx with plan := some (.adopt src dst size o old (some r)) })
    else none
  | _ => none

/-- A transaction whose changes break the foreign key fails: the statement that would
break it waits for the other transaction and sees the row gone, or still named. -/
def commitStep (s : State) (id : Nat) (tx : Tx) (plan : Plan) : Option State :=
  if plan.counted ∧ tx.executed = plan.writes.length then
    let db := view s.db plan tx.executed
    if Referential db then some ({ s with db := db }.ended id) else some (s.ended id)
  else none

def step (s : State) : Action → Option State
  | .start id transaction =>
    if (s.txs.lookup id).isNone ∧ transaction.locks.all (s.free id) then
      some (s.setTx id ⟨transaction, transaction.locks, none, 0⟩)
    else none
  | .decide id => do
    let tx ← s.txs.lookup id
    match tx.plan with
    | some _ => none
    | none =>
      match tx.transaction.decide s.db with
      | none => some (s.ended id)
      | some plan => some (s.setTx id { tx with plan := some plan, executed := 0 })
  | .exec id => do
    let tx ← s.txs.lookup id
    execStep s id tx (← tx.plan)
  | .count id => do
    let tx ← s.txs.lookup id
    countStep s id tx (← tx.plan)
  | .commit id => do
    let tx ← s.txs.lookup id
    commitStep s id tx (← tx.plan)
  | .rollback id => do
    let _ ← s.txs.lookup id
    some (s.ended id)

def State.idle (db : Db) : State := ⟨db, ∅⟩

end Fod.Objects
