import Fod.Lib.GuardedRun
import Fod.Data.Buffer

/-!
# The data requests of a mount

Each request is processed to its end before the next one starts.  The handles of a
file are what `fh_table` has for it, under whatever name it was opened.
-/

namespace Fod.Data

open ZeroPadded

inductive Errno where
  | ebadf
  | enoent
  | einval
  | eio
  deriving DecidableEq

inductive Reply where
  | ok
  | opened (fh : Nat)
  | written (n : Nat)
  | data (bytes : Bytes)
  | error (e : Errno)
  | panicked
  deriving DecidableEq

/-- What a read depends on beside the state: how far it reads ahead, whether the
metadata of the handle is younger than its time to live, whether several workers
fetch, and what the read cache then drops. -/
structure ReadEnv where
  ahead : Nat
  fresh : Bool
  parallel : Bool
  evict : List (Nat × Nat)

namespace State

variable (cfg : Config)

def openHandleCountForFile (s : State) (f : Nat) : Nat :=
  (s.handles.keysWith fun handle => handle.file == f).length

def updateWriteState (s : State) (fh : Nat) (w : WriteState) : State :=
  { s with writeStates := s.writeStates.insert fh w }

def removeWriteState (s : State) (fh : Nat) : State :=
  { s with writeStates := s.writeStates.erase fh }

def putBack (s : State) (fh : Nat) (w : WriteState) : State :=
  if w.hasPendingChanges then s.updateWriteState fh w else s.removeWriteState fh

def flushEntry (s : State) (row : Nat × WriteState) : State :=
  let (s, w) := s.flushWriteState cfg row.2
  s.putBack row.1 w

def pendingStates (s : State) (f : Nat) (except : Option Nat) : List (Nat × WriteState) :=
  (s.writeStates.entries.filter fun row =>
    some row.1 != except && row.2.file == f && row.2.hasPendingChanges).map fun row => (row.1, row.2)

def flushPendingWriteStatesForFileExcept (s : State) (f : Nat) (except : Option Nat) : State :=
  (s.pendingStates f except).foldl (flushEntry cfg) s

def flushWriteStateForHandle (s : State) (fh : Nat) : State :=
  match s.writeStates.lookup fh with
  | none => s
  | some w => if w.hasPendingChanges then s.flushEntry cfg (fh, w) else s

def insertHandle (s : State) (f : Nat) (access : Access) : State :=
  { s with nextFh := s.nextFh + 1, handles := s.handles.insert s.nextFh ⟨f, access, none⟩ }

def openFile (s : State) (f : Nat) (access : Access) (trunc : Bool) : State × Reply :=
  let fh := s.nextFh
  match s.db.fileSize f with
  | none => (s, .error .enoent)
  | some _ =>
    if access = .readOnly then
      let s :=
        if 0 < s.openHandleCountForFile f then s.flushPendingWriteStatesForFileExcept cfg f none
        else s
      (s.insertHandle f access, .opened fh)
    else
      let s := s.insertHandle f access
      let s :=
        if 1 < s.openHandleCountForFile f then s.flushPendingWriteStatesForFileExcept cfg f none
        else s
      let s :=
        if trunc then (s.flushWriteState cfg (newWriteState f 0 true)).1.removeWriteState fh else s
      (s, .opened fh)

def flush (s : State) (fh : Nat) : State × Reply :=
  match s.handles.lookup fh with
  | none => (s, .error .ebadf)
  | some _ => (s.flushWriteStateForHandle cfg fh, .ok)

def release (s : State) (fh : Nat) : State × Reply :=
  let s := s.flushWriteStateForHandle cfg fh
  ({ s with handles := s.handles.erase fh, writeStates := s.writeStates.erase fh }, .ok)

def assembleFileSlice (s : State) (f first last offset endOffset : Nat) : Bytes :=
  assembleReadSlice first last offset endOffset cfg.blockSize
    (s.db.fetchBlockRange cfg.blockSize f first last)

def bufferRun (sw : State × WriteState) (run : Nat × Bytes) : State × WriteState :=
  let (s, w) := sw.1.updateWriteBuffer cfg sw.2 run.1 run.2
  (s, { w with bufferedBytes := w.bufferedBytes + run.2.length })

def shouldFlushWriteState (bufferedBytes sharedOpenHandles : Nat) : Bool :=
  (0 < cfg.writeFlushThresholdBytes && cfg.writeFlushThresholdBytes ≤ bufferedBytes) ||
    1 < sharedOpenHandles

def sizeForUpdate (s : State) (w : Option WriteState) (f : Nat) : Option Nat :=
  match w with
  | some w => some w.fileSize
  | none => s.db.fileSize f

def takeWriteStates (s : State) (fh : Nat) (siblings : List (Nat × WriteState)) : State :=
  siblings.foldl (fun s row => s.removeWriteState row.1) (s.removeWriteState fh)

def writeBuffered (s : State) (fh f : Nat) (w : WriteState) (siblings : List (Nat × WriteState))
    (offset : Nat) (data : Bytes) : State :=
  let w := siblings.foldl (fun w row => w.mergeInto cfg.blockSize row.2) w
  let (s, w) := bufferRun cfg (s, w) (offset, data)
  if shouldFlushWriteState cfg w.bufferedBytes (s.openHandleCountForFile f) then
    s.flushEntry cfg (fh, w)
  else s.updateWriteState fh w

/-- `kill` is the flag `FUSE_WRITE_KILL_SUIDGID`, with which equal bytes are written
again. -/
def write (s : State) (fh offset : Nat) (data : Bytes) (kill : Bool) : State × Reply :=
  match s.handles.lookup fh with
  | none => (s, .error .ebadf)
  | some handle =>
    if handle.access = .readOnly then (s, .error .ebadf)
    else if data.isEmpty then (s, .written 0)
    else
      let f := handle.file
      let existing := s.writeStates.lookup fh
      let siblings := s.pendingStates f (some fh)
      match s.sizeForUpdate existing f with
      | none => (s, .error .enoent)
      | some size =>
        let size := siblings.foldl (fun n row => max n row.2.fileSize) size
        let s := s.takeWriteStates fh siblings
        let fin := offset + data.length
        if existing.isNone ∧ siblings.isEmpty ∧ fin ≤ size ∧ !kill ∧
            s.assembleFileSlice cfg f (offset / cfg.blockSize) ((fin - 1) / cfg.blockSize) offset
              fin = data then
          (s, .written data.length)
        else
          (s.writeBuffered cfg fh f (existing.getD (newWriteState f size false)) siblings offset data,
            .written data.length)

def setattrHandle (s : State) (fh size : Nat) : State × Reply :=
  match s.handles.lookup fh with
  | none => (s, .error .ebadf)
  | some handle =>
    if handle.access = .readOnly then (s, .error .ebadf)
    else
      let w := (s.writeStates.lookup fh).getD (newWriteState handle.file size true)
      (s.flushEntry cfg (fh, { w with fileSize := size, truncatePending := true }), .ok)

/-- `setattr` with a size and a path, by a handle that lives only in the request. -/
def setattrPath (s : State) (f size : Nat) : State × Reply :=
  match s.db.fileSize f with
  | none => (s, .error .enoent)
  | some _ =>
    (({ s with nextFh := s.nextFh + 1 }).flushWriteState cfg (newWriteState f size true) |>.1, .ok)

def fallocate (s : State) (fh offset length : Nat) : State × Reply :=
  if length = 0 then (s, .error .einval)
  else
    match s.handles.lookup fh with
    | none => (s, .error .ebadf)
    | some handle =>
      if handle.access = .readOnly then (s, .error .ebadf)
      else
        let f := handle.file
        let s := s.flushPendingWriteStatesForFileExcept cfg f none
        let db := s.db.punchHoleKeepSize cfg.deferredSwapCleanup f cfg.blockSize offset length
        let s := ({ s with db }).clearReadCacheForFile f
        ((s.clearRecentWriteBlocksForFile f).invalidateReadMetadataForFile f, .ok)

def copyDedupeEnabledForLen (len : Nat) : Bool :=
  match cfg.copyDedupe with
  | none => false
  | some (minBlocks, maxBlocks) =>
    let total := blockCountForLength len cfg.blockSize
    len != 0 && decide (max minBlocks 1 ≤ total) && (maxBlocks == 0 || decide (total ≤ maxBlocks))

def copySource (s : State) (w : Option WriteState) (f : Nat) (bounds : CopyRangeBounds) :
    Option Bytes :=
  match w with
  | some w => s.readFromWriteState cfg w bounds.srcOffset bounds.copyLen
  | none =>
    some (s.assembleFileSlice cfg f bounds.srcFirstBlock bounds.srcLastBlock bounds.srcOffset
      bounds.srcEndOffset)

def readCopyDestinationSlice (s : State) (w : Option WriteState) (f : Nat)
    (bounds : CopyRangeBounds) (currentSize : Nat) : Option Bytes :=
  let current :=
    match w with
    | some w =>
      s.readFromWriteState cfg { w with fileSize := max w.fileSize bounds.dstEndOffset }
        bounds.dstOffset bounds.copyLen
    | none =>
      if currentSize ≤ bounds.dstOffset then some []
      else
        some (s.assembleFileSlice cfg f bounds.dstFirstBlock bounds.dstLastBlock bounds.dstOffset
          (min bounds.dstEndOffset currentSize))
  current.map fun current =>
    if current.length < bounds.copyLen then fit current bounds.copyLen else current

def flushAndKeep (s : State) (fh : Nat) (w : WriteState) : State :=
  let (s, w) := s.flushWriteState cfg w
  s.updateWriteState fh w

def copyInto (s : State) (fh f : Nat) (existing : Option WriteState) (size : Nat)
    (bounds : CopyRangeBounds) (data : Bytes) : State × Reply :=
  let w := existing.getD (newWriteState f size false)
  let currentSize := w.fileSize
  if copyDedupeEnabledForLen cfg bounds.copyLen ∧ bounds.dstOffset < currentSize then
    match s.readCopyDestinationSlice cfg existing f bounds currentSize with
    | none => (s, .panicked)
    | some current =>
      let runs := packCopySkipUnchangedRuns bounds.dstOffset cfg.blockSize data current
      if runs.isEmpty then
        if currentSize < bounds.dstEndOffset then
          (s.flushAndKeep cfg fh { w with fileSize := bounds.dstEndOffset },
            .written bounds.copyLen)
        else (s, .written bounds.copyLen)
      else
        let (s, w) := runs.foldl (bufferRun cfg)
          (s, { w with fileSize := max w.fileSize bounds.dstEndOffset })
        (s.flushAndKeep cfg fh w, .written bounds.copyLen)
  else
    let (s, w) := bufferRun cfg (s, w) (bounds.dstOffset, data)
    (s.flushAndKeep cfg fh w, .written bounds.copyLen)

def adopted (s : State) (db : Db) (fh f srcSize : Nat) (existing : Option WriteState) : State :=
  let s := { s with db }
  let s :=
    match existing with
    | some w => s.updateWriteState fh { w with fileSize := srcSize }
    | none => s
  (s.clearReadCacheForFile f).clearRecentWriteBlocksForFile f

def copyRange (s : State) (fhIn src fhOut dst srcSize dstSize : Nat) (bounds : CopyRangeBounds) :
    State × Reply :=
  let srcState := s.writeStates.lookup fhIn
  let dstState := s.writeStates.lookup fhOut
  let dirty := fun w : Option WriteState => w.any WriteState.hasPendingChanges
  let adopt := s.db.adoptSourceDataObject src dst
  if bounds.canAdoptWholeObject srcSize dstSize (dirty srcState) (dirty dstState) ∧
      adopt.2 = true then
    (s.adopted adopt.1 fhOut dst srcSize dstState, .written bounds.copyLen)
  else
    match s.copySource cfg srcState src bounds with
    | none => (s, .panicked)
    | some data => s.copyInto cfg fhOut dst dstState dstSize bounds data

def copyFileRange (s : State) (fhIn offsetIn fhOut offsetOut len : Nat) : State × Reply :=
  match s.handles.lookup fhIn, s.handles.lookup fhOut with
  | some src, some dst =>
    if src.access = .writeOnly ∨ dst.access = .readOnly then (s, .error .ebadf)
    else if len = 0 then (s, .written 0)
    else
      match s.sizeForUpdate (s.writeStates.lookup fhIn) src.file,
        s.sizeForUpdate (s.writeStates.lookup fhOut) dst.file with
      | some srcSize, some dstSize =>
        match copyRangeBounds cfg.blockSize offsetIn offsetOut len srcSize with
        | none => (s, .written 0)
        | some bounds => s.copyRange cfg fhIn src.file fhOut dst.file srcSize dstSize bounds
      | _, _ => (s, .error .enoent)
  | _, _ => (s, .error .ebadf)

/-! ## Reads -/

def readNoatimeDirectUncached (s : State) (f offset size : Nat) : Reply :=
  if size = 0 then .data []
  else
    match s.db.fileSize f with
    | none => .error .enoent
    | some fileSize =>
      if fileSize ≤ offset then .data []
      else
        let first := offset / cfg.blockSize
        let endOffset := min (offset + size) fileSize
        let last := (endOffset - 1) / cfg.blockSize
        let blocks := s.db.fetchBlockRange cfg.blockSize f first ((offset + size - 1) / cfg.blockSize)
        .data (assembleReadSlice first last offset endOffset cfg.blockSize
          (blocks.filter fun row => first ≤ row.1 && row.1 ≤ last))

def setReadMetadata (s : State) (fh : Nat) (handle : Handle) (metadata : Option Nat) : State :=
  { s with handles := s.handles.insert fh { handle with readMetadata := metadata } }

def fileReadMetadataForHandle (s : State) (fh : Nat) (fresh : Bool) : State × Option Nat :=
  match s.handles.lookup fh with
  | none => (s, none)
  | some handle =>
    let cacheable := cfg.fopenDirectIo && cfg.noAtime && handle.access == .readOnly &&
      cfg.metadataCacheTtl != 0
    match (if cacheable && fresh then handle.readMetadata else none) with
    | some size => (s, some size)
    | none =>
      let metadata := s.db.fileSize handle.file
      (s.setReadMetadata fh handle (if cacheable then metadata else none), metadata)

def cachedReadBlocksAndMissing (s : State) (f first last : Nat) :
    List (Nat × Bytes) × List Nat :=
  let range := List.range' first (last + 1 - first)
  (range.filterMap fun b => (s.cachedReadBlock cfg f b).map (b, ·),
    range.filter fun b => (s.cachedReadBlock cfg f b).isNone)

def cachedReadBlockMap (s : State) (f first last : Nat) : Option (List (Nat × Bytes)) :=
  let (cached, missing) := s.cachedReadBlocksAndMissing cfg f first last
  if missing.isEmpty then some cached else none

/-- One worker fetches the whole span of the missing blocks, several fetch the
missing ones. -/
def fetchMissingReadBlocks (s : State) (f : Nat) (missing : List Nat) (parallel : Bool) :
    List (Nat × Bytes) :=
  if parallel then missing.filterMap fun b => (s.db.loadBlock cfg.blockSize f b).map (b, ·)
  else s.db.fetchBlockRange cfg.blockSize f (missing.headD 0) (missing.getLastD 0)

def mergeSortedBlocks : List (Nat × Bytes) → List (Nat × Bytes) → List (Nat × Bytes)
  | [], right => right
  | row :: left, right =>
    right.takeWhile (·.1 < row.1) ++ row :: mergeSortedBlocks left (right.dropWhile (·.1 < row.1))

def readBlockMap (s : State) (f fetchFirst fetchLast : Nat) (env : ReadEnv) :
    State × List (Nat × Bytes) :=
  let (cached, missing) := s.cachedReadBlocksAndMissing cfg f fetchFirst fetchLast
  if missing.isEmpty then (s, cached)
  else
    let fetched := s.fetchMissingReadBlocks cfg f missing env.parallel
    (s.storeReadBlocks cfg f fetched env.evict, mergeSortedBlocks cached fetched)

def readBlockMapTargetBlock (s : State) (f fetchFirst fetchLast target : Nat) (env : ReadEnv) :
    State × Option Bytes :=
  match (if cfg.fopenDirectIo then s.cachedReadBlock cfg f target else none) with
  | some block => (s, some block)
  | none =>
    let (s, blocks) := s.readBlockMap cfg f fetchFirst fetchLast env
    (s, (blocks.find? (·.1 == target)).map Prod.snd)

def fetchWindow (first last total : Nat) (env : ReadEnv) : Nat × Nat :=
  if total ≤ cfg.smallFileReadThresholdBlocks then (0, total - 1)
  else (first, min (last + min env.ahead (cfg.readCacheLimitBlocks - 1)) (total - 1))

def blockSlice (block : Bytes) (sliceStart sliceEnd : Nat) : Option Bytes :=
  if sliceEnd ≤ block.length ∧ sliceStart ≤ sliceEnd then some (slice block sliceStart sliceEnd)
  else none

def readStored (s : State) (f offset endOffset fileSize : Nat) (env : ReadEnv) : State × Reply :=
  let first := offset / cfg.blockSize
  let last := (endOffset - 1) / cfg.blockSize
  let (fetchFirst, fetchLast) :=
    fetchWindow cfg first last (blockCountForLength fileSize cfg.blockSize) env
  if first = last then
    let sliceStart := offset - first * cfg.blockSize
    let sliceEnd := endOffset - first * cfg.blockSize
    match (s.cachedReadBlock cfg f first).bind fun block => blockSlice block sliceStart sliceEnd with
    | some bytes => (s, .data bytes)
    | none =>
      match s.readBlockMapTargetBlock cfg f fetchFirst fetchLast first env with
      | (s, some block) =>
        match blockSlice block sliceStart sliceEnd with
        | some bytes => (s, .data bytes)
        | none => (s, .error .eio)
      | (s, none) => (s, .data (List.replicate (endOffset - offset) 0))
  else
    match s.cachedReadBlockMap cfg f first last with
    | some blocks => (s, .data (assembleReadSlice first last offset endOffset cfg.blockSize blocks))
    | none =>
      let (s, blocks) := s.readBlockMap cfg f fetchFirst fetchLast env
      (s, .data (assembleReadSlice fetchFirst fetchLast offset endOffset cfg.blockSize blocks))

def readUnbuffered (s : State) (fh f offset size : Nat) (env : ReadEnv) : State × Reply :=
  if cfg.strictCrossMountReads ∨ (cfg.noAtime ∧ cfg.uncachedFastPath) then
    (s, s.readNoatimeDirectUncached cfg f offset size)
  else
    match s.fileReadMetadataForHandle cfg fh env.fresh with
    | (s, none) => (s, .error .enoent)
    | (s, some fileSize) =>
      if fileSize ≤ offset then (s, .data [])
      else s.readStored cfg f offset (min (offset + size) fileSize) fileSize env

def read (s : State) (fh offset size : Nat) (env : ReadEnv) : State × Reply :=
  match s.handles.lookup fh with
  | none => (s, .error .ebadf)
  | some handle =>
    if handle.access = .writeOnly then (s, .error .ebadf)
    else
      let s := s.flushPendingWriteStatesForFileExcept cfg handle.file (some fh)
      match s.writeStates.lookup fh with
      | none => s.readUnbuffered cfg fh handle.file offset size env
      | some w =>
        match s.readFromWriteState cfg w offset size with
        | some bytes => (s, .data bytes)
        | none => (s, .panicked)

end State

end Fod.Data
