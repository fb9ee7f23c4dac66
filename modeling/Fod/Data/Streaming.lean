import Fod.Data.Transports

/-!
# Streaming imports

`persist_file_blocks_streaming_on_conn` makes a block of whatever one call of
`read` returns.
-/

namespace Fod.Data

open ZeroPadded BlockMap

structure ImportState where
  hashed : Bytes
  readTotal : Nat
  nextBlockIndex : Nat
  chunkStartBlock : Nat
  chunkData : List Bytes
  sent : List PersistBlockRow

def ImportState.init : ImportState := ⟨[], 0, 0, 0, [], []⟩

def chunkRows (start : Nat) (chunk : List Bytes) : List PersistBlockRow :=
  (chunk.zipIdx start).map fun piece => ⟨piece.2, piece.1, piece.1.length⟩

def sendChunk (s : ImportState) : ImportState :=
  { s with sent := s.sent ++ chunkRows s.chunkStartBlock s.chunkData, chunkData := [] }

def addPiece (s : ImportState) (piece : Bytes) : ImportState :=
  { s with
    hashed := s.hashed ++ piece
    readTotal := s.readTotal + piece.length
    chunkStartBlock := if s.chunkData.isEmpty then s.nextBlockIndex else s.chunkStartBlock
    chunkData := s.chunkData ++ [piece]
    nextBlockIndex := s.nextBlockIndex + 1 }

def importPiece (chunkLimit : Nat) (s : ImportState) (piece : Bytes) : ImportState :=
  let s := addPiece s piece
  if chunkLimit ≤ s.chunkData.length then sendChunk s else s

/-- The loop ends at the first read of no bytes, and the last chunk is sent. -/
def importPieces (chunkLimit : Nat) (pieces : List Bytes) (s : ImportState) : ImportState :=
  match pieces with
  | [] => if s.chunkData.isEmpty then s else sendChunk s
  | piece :: rest =>
    if piece.isEmpty then if s.chunkData.isEmpty then s else sendChunk s
    else importPieces chunkLimit rest (importPiece chunkLimit s piece)

def Db.persistFileBlocksStreaming (hash : Bytes → String) (db : Db)
    (transport : PersistBlockTransport) (deferred : Bool) (f size blockSize total : Nat)
    (truncatePending : Bool) (chunkBlocks : Nat) (path expectedHash : String)
    (pieces : List Bytes) : Except String Db :=
  let bs := max blockSize 1
  match db.dataObjectWriteTarget f size (decide (0 < size)) with
  | none => .ok db
  | some (db, target) =>
    let s := importPieces (max chunkBlocks 1) pieces ImportState.init
    if s.readTotal ≠ size then .error ("source file changed while importing " ++ path)
    else if hash s.hashed ≠ expectedHash then
      .error ("full hash changed while importing " ++ path)
    else
      let db := db.updateObject target.dataObject fun object =>
        { object with
          blocks := Db.persistRows transport bs target.payloadRowsEmpty s.sent
            (Db.deleteTail (truncatePending && !target.payloadRowsEmpty) total object.blocks) }
      .ok (db.finishDataObjectWrite deferred f size target)

structure Imported (done : List Bytes) (s : ImportState) : Prop where
  hashed : s.hashed = done.flatten
  total : s.readTotal = done.flatten.length
  next : s.nextBlockIndex = done.length
  start : s.chunkData ≠ [] → s.chunkStartBlock + s.chunkData.length = done.length
  rows : s.sent ++ chunkRows s.chunkStartBlock s.chunkData = chunkRows 0 done

variable {done : List Bytes} {s : ImportState}

lemma chunkRows_concat (start : Nat) (chunk : List Bytes) (piece : Bytes) :
    chunkRows start (chunk ++ [piece]) =
      chunkRows start chunk ++ [⟨start + chunk.length, piece, piece.length⟩] := by
  simp [chunkRows, List.zipIdx_append]

lemma Imported.sendChunk (h : Imported done s) : Imported done (Data.sendChunk s) where
  hashed := h.hashed
  total := h.total
  next := h.next
  start hne := absurd rfl hne
  rows := by
    rw [← h.rows]
    simp [Data.sendChunk, chunkRows]

lemma Imported.addPiece (h : Imported done s) (piece : Bytes) :
    Imported (done ++ [piece]) (Data.addPiece s piece) := by
  have hstart : (if s.chunkData.isEmpty then s.nextBlockIndex else s.chunkStartBlock) +
      s.chunkData.length = done.length := by
    split
    next hempty => rw [List.isEmpty_iff.mp hempty, h.next, List.length_nil, Nat.add_zero]
    next hsome => exact h.start (by simpa using hsome)
  have hrows : s.sent ++ chunkRows (if s.chunkData.isEmpty then s.nextBlockIndex
      else s.chunkStartBlock) s.chunkData = chunkRows 0 done := by
    rw [← h.rows]
    split
    next hempty =>
      rw [List.isEmpty_iff.mp hempty]
      rfl
    next => rfl
  refine ⟨?_, ?_, ?_, fun _ => ?_, ?_⟩
  · simp [Data.addPiece, h.hashed]
  · simp [Data.addPiece, h.total]
  · simp [Data.addPiece, h.next]
  · simp only [Data.addPiece, List.length_append, List.length_singleton, ← Nat.add_assoc, hstart]
  · rw [Data.addPiece]
    dsimp only
    rw [chunkRows_concat, ← List.append_assoc, hrows, hstart, chunkRows_concat, Nat.zero_add]

lemma Imported.importPiece (h : Imported done s) (chunkLimit : Nat) (piece : Bytes) :
    Imported (done ++ [piece]) (Data.importPiece chunkLimit s piece) := by
  rw [Data.importPiece]
  split
  · exact (h.addPiece piece).sendChunk
  · exact h.addPiece piece

lemma Imported.importPieces (h : Imported done s) (chunkLimit : Nat) (pieces : List Bytes)
    (hpieces : ∀ p ∈ pieces, p ≠ []) :
    Imported (done ++ pieces) (Data.importPieces chunkLimit pieces s) ∧
      (Data.importPieces chunkLimit pieces s).sent = chunkRows 0 (done ++ pieces) := by
  induction pieces generalizing done s with
  | nil =>
    rw [List.append_nil, Data.importPieces]
    split
    next hempty =>
      refine ⟨h, ?_⟩
      rw [← h.rows, List.isEmpty_iff.mp hempty]
      simp [chunkRows]
    next => exact ⟨h.sendChunk, h.rows⟩
  | cons piece rest ih =>
    rw [Data.importPieces, if_neg (by simpa using hpieces piece (by simp)), List.append_cons]
    exact ih (h.importPiece chunkLimit piece) fun p hp => hpieces p (by simp [hp])

lemma imported_init : Imported [] ImportState.init := by
  refine ⟨rfl, rfl, rfl, fun h => absurd rfl h, rfl⟩

lemma mem_chunkRows {pieces : List Bytes} {r : PersistBlockRow} : r ∈ chunkRows 0 pieces ↔
      r.blockIndex < pieces.length ∧ r.data = pieces.getD r.blockIndex [] ∧ r.usedLen = r.data.length := by
  simp only [chunkRows, List.mem_map, List.mem_zipIdx_iff_getElem?, Prod.exists]
  constructor
  · rintro ⟨piece, b, hb, rfl⟩
    have hlt := (List.getElem?_eq_some_iff.mp hb).1
    exact ⟨hlt, by simp [List.getD, hb], rfl⟩
  · rintro ⟨hlt, hdata, hused⟩
    refine ⟨r.data, r.blockIndex, ?_, ?_⟩
    · rw [hdata, List.getD, List.getElem?_eq_getElem hlt]
      rfl
    · rw [← hused]

def FullReads (bs : Nat) (pieces : List Bytes) : Prop := ∀ p ∈ pieces.dropLast, p.length = bs

instance (bs : Nat) (pieces : List Bytes) : Decidable (FullReads bs pieces) :=
  inferInstanceAs (Decidable (∀ p ∈ pieces.dropLast, p.length = bs))

end Fod.Data
