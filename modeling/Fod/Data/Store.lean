import Fod.Lib.Table
import Fod.Data.Plans

/-!
# Stored files

The tables `files`, `data_objects` and `data_blocks`.  Files may share a data
object, which counts them and is copied before one of them changes it.  Every
function here is one transaction, or a statement of one.
-/

namespace Fod.Data

open ZeroPadded

structure DataObject where
  referenceCount : Nat
  blocks : Table Nat Bytes

structure FileRow where
  size : Nat
  dataObject : Nat

structure Db where
  files : Table Nat FileRow
  objects : Table Nat DataObject
  nextObject : Nat

inductive PersistBlockTransport where
  | copyBinaryStaging
  | binaryBytea
  | legacyHex
  deriving DecidableEq

structure PersistBlockRow where
  blockIndex : Nat
  data : Bytes
  usedLen : Nat

/-- `replaced` is the object that the file had, with its reference count. -/
structure DataObjectWriteTarget where
  dataObject : Nat
  replaced : Option (Nat × Nat)
  payloadRowsEmpty : Bool

namespace Db

def fileSize (db : Db) (f : Nat) : Option Nat := (db.files.lookup f).map FileRow.size

def find (db : Db) (f b : Nat) : Option Bytes := do
  let row ← db.files.lookup f
  let object ← db.objects.lookup row.dataObject
  object.blocks.lookup b

def loadBlock (db : Db) (bs f b : Nat) : Option Bytes := (db.find f b).map (fit · bs)

def fetchBlockRange (db : Db) (bs f first last : Nat) : List (Nat × Bytes) :=
  (List.range' first (last + 1 - first)).filterMap fun b => (db.loadBlock bs f b).map (b, ·)

def fileDataObjectInfo (db : Db) (f : Nat) : Option (Nat × DataObject) := do
  let row ← db.files.lookup f
  let object ← db.objects.lookup row.dataObject
  return (row.dataObject, object)

def updateObject (db : Db) (o : Nat) (change : DataObject → DataObject) : Db :=
  match db.objects.lookup o with
  | none => db
  | some object => { db with objects := db.objects.insert o (change object) }

def createDataObject (db : Db) (blocks : Table Nat Bytes) : Db × Nat :=
  ({ db with
      objects := db.objects.insert db.nextObject ⟨1, blocks⟩
      nextObject := db.nextObject + 1 },
    db.nextObject)

/-- `GREATEST(reference_count - 1, 0)` -/
def touchOldObject (db : Db) (o : Nat) : Db :=
  db.updateObject o fun object => { object with referenceCount := object.referenceCount - 1 }

def setFile (db : Db) (f : Nat) (row : FileRow) : Db := { db with files := db.files.insert f row }

def detachSharedDataObject (db : Db) (f size : Nat) : Option (Db × Nat × Bool) :=
  match db.fileDataObjectInfo f with
  | none => none
  | some (o, object) =>
    let payloadRowsEmpty := object.blocks.keys.isEmpty
    if object.referenceCount ≤ 1 then some (db, o, payloadRowsEmpty)
    else
      let (db, new) := db.createDataObject object.blocks
      some ((db.setFile f ⟨size, new⟩).touchOldObject o, new, payloadRowsEmpty)

def dataObjectWriteTarget (db : Db) (f size : Nat) (preferReplacement : Bool) :
    Option (Db × DataObjectWriteTarget) :=
  if preferReplacement then
    match db.fileDataObjectInfo f with
    | none => none
    | some (o, object) =>
      let (db, new) := db.createDataObject ∅
      some (db, ⟨new, some (o, object.referenceCount), true⟩)
  else
    (db.detachSharedDataObject f size).map fun (db, o, payloadRowsEmpty) =>
      (db, ⟨o, none, payloadRowsEmpty⟩)

def finishDataObjectWrite (db : Db) (deferred : Bool) (f size : Nat)
    (target : DataObjectWriteTarget) : Db :=
  let db := db.setFile f ⟨size, target.dataObject⟩
  match target.replaced with
  | none => db
  | some (old, references) =>
    if references ≤ 1 then
      if deferred then db.updateObject old fun object => { object with referenceCount := 0 }
      else { db with objects := db.objects.erase old }
    else db.touchOldObject old

def persistBlocksCoverFullFile (fileSize bs : Nat) (rows : List PersistBlockRow) : Bool :=
  fileSize != 0 && rows.length == blockCountForLength fileSize bs &&
    rows.zipIdx.all fun (row, expected) =>
      row.blockIndex == expected && row.usedLen == dirtyBlockSize fileSize expected bs

def stageRow (bs : Nat) (row : PersistBlockRow) : Nat × Option Bytes :=
  (row.blockIndex, if (fit row.data bs).all (· == 0) then none else some (fit row.data bs))

def insertStaged (blocks : Table Nat Bytes) (staged : Nat × Option Bytes) : Table Nat Bytes :=
  match staged.2 with
  | some data => blocks.insert staged.1 data
  | none => blocks

def deleteStaged (blocks : Table Nat Bytes) (staged : Nat × Option Bytes) : Table Nat Bytes :=
  match staged.2 with
  | some _ => blocks
  | none => blocks.erase staged.1

def mergePersistBlockStage (payloadRowsEmpty : Bool) (staged : List (Nat × Option Bytes))
    (blocks : Table Nat Bytes) : Table Nat Bytes :=
  let blocks := staged.foldl insertStaged blocks
  if payloadRowsEmpty then blocks else staged.foldl deleteStaged blocks

/-- A row of the direct transports: a block that the file does not fill is deleted. -/
def persistDirect (bs : Nat) (blocks : Table Nat Bytes) (row : PersistBlockRow) :
    Table Nat Bytes :=
  if bs ≤ row.usedLen then blocks.insert row.blockIndex (fit row.data bs)
  else blocks.erase row.blockIndex

def persistRows (transport : PersistBlockTransport) (bs : Nat) (payloadRowsEmpty : Bool)
    (rows : List PersistBlockRow) (blocks : Table Nat Bytes) : Table Nat Bytes :=
  match transport with
  | .copyBinaryStaging =>
    mergePersistBlockStage payloadRowsEmpty (rows.map (stageRow bs)) blocks
  | .binaryBytea | .legacyHex => rows.foldl (persistDirect bs) blocks

def deleteTail (truncatePending : Bool) (total : Nat) (blocks : Table Nat Bytes) :
    Table Nat Bytes :=
  if truncatePending then blocks.keep fun b _ => b < total else blocks

def persistFileBlocks (db : Db) (transport : PersistBlockTransport) (deferred : Bool)
    (f size bs total : Nat) (truncatePending : Bool) (rows : List PersistBlockRow) : Db :=
  match db.dataObjectWriteTarget f size (persistBlocksCoverFullFile size bs rows) with
  | none => db
  | some (db, target) =>
    let db := db.updateObject target.dataObject fun object =>
      { object with
        blocks := persistRows transport bs target.payloadRowsEmpty rows
          (deleteTail (truncatePending && !target.payloadRowsEmpty) total object.blocks) }
    db.finishDataObjectWrite deferred f size target

/-- Zero a part of a block, and delete the row if nothing else is left in it. -/
def zeroPartialBlock (b sliceStart sliceEnd : Nat) (blocks : Table Nat Bytes) : Table Nat Bytes :=
  if sliceEnd ≤ sliceStart then blocks
  else
    match blocks.lookup b with
    | none => blocks
    | some data =>
      let data := if sliceStart < data.length then zero data sliceStart sliceEnd else data
      if data.all (· == 0) then blocks.erase b else blocks.insert b data

def punchBlocks (bs offset punchEnd : Nat) (blocks : Table Nat Bytes) : Table Nat Bytes :=
  let firstBlock := offset / bs
  let lastBlock := (punchEnd - 1) / bs
  let startInFirst := offset % bs
  let endInLast := punchEnd % bs
  if firstBlock = lastBlock then
    let sliceEnd := if endInLast = 0 then bs else endInLast
    if startInFirst = 0 ∧ sliceEnd = bs then blocks.erase firstBlock
    else zeroPartialBlock firstBlock startInFirst sliceEnd blocks
  else
    let fullStart := if startInFirst = 0 then firstBlock else firstBlock + 1
    let fullEnd := if endInLast = 0 then lastBlock + 1 else lastBlock
    let blocks := blocks.keep fun b _ => !(fullStart ≤ b && b < fullEnd)
    let blocks :=
      if startInFirst ≠ 0 then zeroPartialBlock firstBlock startInFirst bs blocks else blocks
    if endInLast ≠ 0 then zeroPartialBlock lastBlock 0 endInLast blocks else blocks

def punchHoleKeepSize (db : Db) (deferred : Bool) (f bs offset length : Nat) : Db :=
  match db.fileSize f with
  | none => db
  | some size =>
    if size ≤ offset then db
    else
      match db.dataObjectWriteTarget f size false with
      | none => db
      | some (db, target) =>
        let db := db.updateObject target.dataObject fun object =>
          { object with blocks := punchBlocks bs offset (min (offset + length) size) object.blocks }
        db.finishDataObjectWrite deferred f size target

def references (db : Db) (o : Nat) : Nat :=
  (db.files.keysWith fun row => row.dataObject == o).length

def adoptSourceDataObject (db : Db) (src dst : Nat) : Db × Bool :=
  match db.files.lookup src, db.files.lookup dst with
  | some srcRow, some dstRow =>
    if srcRow.size = 0 then (db, false)
    else if dstRow.size = srcRow.size ∧ srcRow.dataObject = dstRow.dataObject then (db, true)
    else if dstRow.size ≠ 0 ∨ srcRow.dataObject = dstRow.dataObject then (db, false)
    else
      let db := db.updateObject srcRow.dataObject fun object =>
        { object with referenceCount := object.referenceCount + 1 }
      let db := db.setFile dst ⟨srcRow.size, srcRow.dataObject⟩
      if db.references dstRow.dataObject = 0 then
        ({ db with objects := db.objects.erase dstRow.dataObject }, true)
      else (db.touchOldObject dstRow.dataObject, true)
  | _, _ => (db, false)

end Db

end Fod.Data
