import Fod.Data.Store

/-!
# The buffers of a mount

A mount buffers the writes of each handle in a `WriteState`, keeps the blocks that
it flushed last, and caches blocks that it read.  The functions of
`write_buffer.rs` are here as functions of the state of the mount; PostgreSQL is
its only writer and every transaction succeeds.
-/

namespace Fod.Data

open ZeroPadded

/-- The settings of a mount.  `copyDedupe` holds the least and the greatest number of
blocks of a copy that leaves out unchanged chunks, where 0 is no upper bound. -/
structure Config where
  blockSize : Nat
  blockSize_pos : 0 < blockSize
  transport : PersistBlockTransport
  deferredSwapCleanup : Bool
  writeFlushThresholdBytes : Nat
  readCacheLimitBlocks : Nat
  smallFileReadThresholdBlocks : Nat
  strictCrossMountReads : Bool
  noAtime : Bool
  uncachedFastPath : Bool
  fopenDirectIo : Bool
  metadataCacheTtl : Nat
  copyDedupe : Option (Nat × Nat)

inductive Access where
  | readOnly
  | writeOnly
  | readWrite
  deriving DecidableEq

structure Handle where
  file : Nat
  access : Access
  readMetadata : Option Nat

structure WriteState where
  file : Nat
  fileSize : Nat
  truncatePending : Bool
  bufferedBytes : Nat
  blocks : Table Nat Bytes
  deriving DecidableEq

structure State where
  db : Db
  handles : Table Nat Handle
  nextFh : Nat
  writeStates : Table Nat WriteState
  recentWriteBlocks : Table (Nat × Nat) Bytes
  readCache : Table (Nat × Nat) Bytes

def newWriteState (file fileSize : Nat) (truncatePending : Bool) : WriteState :=
  ⟨file, fileSize, truncatePending, 0, ∅⟩

namespace WriteState

def hasPendingChanges (w : WriteState) : Bool :=
  w.truncatePending || decide (0 < w.bufferedBytes) || !w.blocks.keys.isEmpty

def setBlock (w : WriteState) (b : Nat) (block : Bytes) : WriteState :=
  { w with blocks := w.blocks.insert b block }

/-- `merge_write_state_into`: the blocks of the sibling win. -/
def mergeInto (bs : Nat) (target source : WriteState) : WriteState :=
  let target :=
    if source.truncatePending then
      { target with
        truncatePending := true
        fileSize := source.fileSize
        blocks := target.blocks.keep fun b _ => b * bs < source.fileSize }
    else { target with fileSize := max target.fileSize source.fileSize }
  { target with
    bufferedBytes := target.bufferedBytes + source.bufferedBytes
    blocks := source.blocks.entries.foldl (fun t row => AList.insert row.1 row.2 t) target.blocks }

end WriteState

namespace State

variable (cfg : Config)

def recentWriteBlock (s : State) (f b : Nat) : Option Bytes :=
  if cfg.readCacheLimitBlocks = 0 then none else s.recentWriteBlocks.lookup (f, b)

def cachedReadBlock (s : State) (f b : Nat) : Option Bytes :=
  if cfg.readCacheLimitBlocks = 0 then none
  else (s.recentWriteBlock cfg f b).or (s.readCache.lookup (f, b))

def recentWriteBlocksLimit (total : Nat) : Nat :=
  if cfg.readCacheLimitBlocks = 0 then 0 else min total (max (cfg.readCacheLimitBlocks * 16) 256)

def keyLe (a b : Nat × Nat) : Prop := a.1 < b.1 ∨ (a.1 = b.1 ∧ a.2 ≤ b.2)

instance : DecidableRel keyLe := fun a b =>
  inferInstanceAs (Decidable (a.1 < b.1 ∨ (a.1 = b.1 ∧ a.2 ≤ b.2)))

def evictOverLimit (limit : Nat) (t : Table (Nat × Nat) Bytes) : Table (Nat × Nat) Bytes :=
  ((t.keys.insertionSort keyLe).take (t.keys.length - limit)).foldl (fun t key => AList.erase key t) t

def storeRecentWriteBlocks (s : State) (f fileSize : Nat) (truncatePending : Bool)
    (blocks : Table Nat Bytes) : State :=
  let total := blockCountForLength fileSize cfg.blockSize
  let kept : Table (Nat × Nat) Bytes :=
    if truncatePending || total == 0 then
      s.recentWriteBlocks.keep fun key _ => key.1 != f || decide (key.2 < total)
    else s.recentWriteBlocks
  let stored := blocks.entries.foldl
    (fun t row => if row.1 < total then AList.insert (f, row.1) row.2 t else t) kept
  { s with recentWriteBlocks := evictOverLimit (recentWriteBlocksLimit cfg total) stored }

def clearRecentWriteBlocksForFile (s : State) (f : Nat) : State :=
  { s with recentWriteBlocks := s.recentWriteBlocks.keep fun key _ => key.1 != f }

def invalidateReadMetadataForFile (s : State) (f : Nat) : State :=
  { s with handles := s.handles.adjust fun _ handle =>
      if handle.file = f then { handle with readMetadata := none } else handle }

def clearReadCacheForFile (s : State) (f : Nat) : State :=
  ({ s with readCache := s.readCache.keep fun key _ => key.1 != f }).invalidateReadMetadataForFile f

/-- `evict` are the keys that the cache drops to stay within its limit. -/
def storeReadBlocks (s : State) (f : Nat) (rows : List (Nat × Bytes)) (evict : List (Nat × Nat)) :
    State :=
  if rows.isEmpty ∨ cfg.readCacheLimitBlocks = 0 then s
  else
    let filled := rows.foldl (fun t row => AList.insert (f, row.1) row.2 t) s.readCache
    { s with readCache := evict.foldl (fun t key => AList.erase key t) filled }

def loadWriteBlock (s : State) (w : WriteState) (b : Nat) : Bytes :=
  match w.blocks.lookup b with
  | some block => block
  | none =>
    match s.recentWriteBlock cfg w.file b with
    | some block => block
    | none => (s.db.loadBlock cfg.blockSize w.file b).getD (List.replicate cfg.blockSize 0)

def writeBase (s : State) (w : WriteState) (original b sliceStart sliceEnd : Nat) (src : Bytes) :
    Bytes :=
  if sliceStart = 0 ∧ sliceEnd = cfg.blockSize then src
  else
    match w.blocks.lookup b with
    | some block => block
    | none =>
      if original ≤ b * cfg.blockSize ∧ sliceStart = 0 then List.replicate cfg.blockSize 0
      else s.loadWriteBlock cfg w b

/-- The loop of `update_write_buffer` over the blocks; `cursor` counts the bytes of
`data` that are copied, and `original` is the size before the write. -/
def updateBlocks (s : State) (original offset : Nat) (data : Bytes) :
    List Nat → Nat → WriteState → WriteState
  | [], _, w => w
  | b :: rest, cursor, w =>
    let blockStart := b * cfg.blockSize
    let writeStart := max offset blockStart
    let writeEnd := min (offset + data.length) (blockStart + cfg.blockSize)
    if writeEnd ≤ writeStart then updateBlocks s original offset data rest cursor w
    else
      let sliceStart := writeStart - blockStart
      let sliceEnd := writeEnd - blockStart
      let cursorEnd := cursor + (sliceEnd - sliceStart)
      if data.length < cursorEnd then w
      else
        let src := slice data cursor cursorEnd
        let base := s.writeBase cfg w original b sliceStart sliceEnd src
        let block := if base.length < cfg.blockSize then fit base cfg.blockSize else base
        updateBlocks s original offset data rest cursorEnd
          (w.setBlock b (patch block sliceStart src))

def bufferWrite (s : State) (w : WriteState) (offset : Nat) (data : Bytes) : WriteState :=
  let fin := offset + data.length
  let first := offset / cfg.blockSize
  let last := (fin - 1) / cfg.blockSize
  s.updateBlocks cfg w.fileSize offset data (List.range' first (last + 1 - first)) 0
    { w with fileSize := max w.fileSize fin }

def updateWriteBuffer (s : State) (w : WriteState) (offset : Nat) (data : Bytes) :
    State × WriteState :=
  if data.isEmpty then (s, w)
  else (s.clearReadCacheForFile w.file, s.bufferWrite cfg w offset data)

def loadExistingTruncateBoundaryBlock (s : State) (w : WriteState) (b : Nat) : Option Bytes :=
  match w.blocks.lookup b with
  | some block => some block
  | none =>
    match s.recentWriteBlock cfg w.file b with
    | some block => some block
    | none => s.db.loadBlock cfg.blockSize w.file b

def resizeExistingBlockForTruncate (s : State) (w : WriteState) (b targetLen : Nat) : WriteState :=
  if targetLen = 0 ∨ cfg.blockSize < targetLen then w
  else
    match s.loadExistingTruncateBoundaryBlock cfg w b with
    | none => w
    | some block => w.setBlock b (fit block targetLen)

def zeroExtendExistingBlockFromEof (s : State) (w : WriteState) (b previousUsedLen targetLen : Nat) :
    WriteState :=
  if previousUsedLen = 0 ∨ targetLen < previousUsedLen ∨ cfg.blockSize < targetLen then w
  else
    match s.loadExistingTruncateBoundaryBlock cfg w b with
    | none => w
    | some block => w.setBlock b (fit (block.take previousUsedLen) targetLen)

def trimExistingBlockAtEof (s : State) (w : WriteState) (eof : Nat) : WriteState :=
  if eof = 0 ∨ eof % cfg.blockSize = 0 then w
  else s.resizeExistingBlockForTruncate cfg w (eof / cfg.blockSize) (eof % cfg.blockSize)

def prepareTruncateBoundaryBlocks (s : State) (w : WriteState) : WriteState :=
  if !w.truncatePending then w
  else if 0 < w.bufferedBytes ∨ !w.blocks.keys.isEmpty then s.trimExistingBlockAtEof cfg w w.fileSize
  else
    let previousSize := (s.db.fileSize w.file).getD w.fileSize
    if previousSize < w.fileSize then
      let previousUsedLen := previousSize % cfg.blockSize
      if 0 < previousSize ∧ previousUsedLen ≠ 0 then
        let b := previousSize / cfg.blockSize
        let blockStart := b * cfg.blockSize
        let targetLen :=
          if w.fileSize < blockStart + cfg.blockSize then w.fileSize - blockStart else cfg.blockSize
        s.zeroExtendExistingBlockFromEof cfg w b previousUsedLen targetLen
      else w
    else s.trimExistingBlockAtEof cfg w w.fileSize

def preparePersistRows (w : WriteState) (plan : List PersistBlockPlanEntry) :
    List PersistBlockRow :=
  plan.filterMap fun entry =>
    if entry.usedLen = 0 then none
    else (w.blocks.lookup entry.blockIndex).map (⟨entry.blockIndex, ·, entry.usedLen⟩)

def persist (s : State) (w : WriteState) : Db :=
  let plan := persistBlockPlan w.fileSize cfg.blockSize w.truncatePending w.blocks.keys
  s.db.persistFileBlocks cfg.transport cfg.deferredSwapCleanup w.file w.fileSize cfg.blockSize
    (blockCountForLength w.fileSize cfg.blockSize) w.truncatePending (preparePersistRows w plan)

def flushed (w : WriteState) : WriteState :=
  { w with truncatePending := false, bufferedBytes := 0, blocks := ∅ }

def flushWriteState (s : State) (w : WriteState) : State × WriteState :=
  let w := s.prepareTruncateBoundaryBlocks cfg w
  let s := { s with db := s.persist cfg w }
  let s := s.storeRecentWriteBlocks cfg w.file w.fileSize w.truncatePending w.blocks
  (s.clearReadCacheForFile w.file, flushed w)

/-- The block of a buffered read: dirty, recently flushed, or from the one range
statement for all the others. -/
def overlayBlock (s : State) (w : WriteState) (b : Nat) : Option Bytes :=
  (w.blocks.lookup b).or
    ((s.recentWriteBlock cfg w.file b).or (s.db.loadBlock cfg.blockSize w.file b))

/-- There is no reply if the slice of the one block is out of bounds, which panics. -/
def readFromWriteState (s : State) (w : WriteState) (offset size : Nat) : Option Bytes :=
  if w.fileSize ≤ offset then some []
  else
    let endOffset := min (offset + size) w.fileSize
    let first := offset / cfg.blockSize
    let last := (endOffset - 1) / cfg.blockSize
    if first = last then
      let block := s.loadWriteBlock cfg w first
      let blockStart := first * cfg.blockSize
      let readEnd := min endOffset (blockStart + cfg.blockSize)
      if readEnd ≤ offset then some (List.replicate (endOffset - offset) 0)
      else if block.length < readEnd - blockStart then none
      else
        some (patch (List.replicate (endOffset - offset) 0) 0
          (slice block (offset - blockStart) (readEnd - blockStart)))
    else
      some (BlockMap.assemble cfg.blockSize offset endOffset
        ((List.range' first (last + 1 - first)).filterMap fun b =>
          (s.overlayBlock cfg w b).map (b, ·)))

end State

end Fod.Data
