import Fod.Lib.GuardedRun
import Fod.Lib.Table

/-!
# The read cache and its generation gate

A read fill takes a stamp of its file, looks the wanted blocks up in the cache,
fetches the missing ones from the store without any lock, and publishes them
only if the stamp is still current.  Stamps, publications and invalidations
are serialised by the mutex of the gate; each section under it, each lookup
under the cache's mutex and each query is one atomic step, and the readers
interleave freely.
-/

namespace Fod.ReadCache

abbrev BlockKey := Nat × Nat

variable {β : Type}

/-- The `ReadCacheStore` of a `ReadBlockCache`.  `order` has the oldest key
first; the linked hash map of `lru` has its most recent entry first. -/
inductive ReadBlockCache (β : Type) where
  | fifo (entries : Table BlockKey β) (order : List BlockKey)
  | lru (entries : Table BlockKey β)

inductive ReadCacheEvictionPolicy where
  | fifo
  | lru

def popOldest (entries : Table BlockKey β) : Table BlockKey β :=
  ⟨entries.entries.dropLast, entries.nodupKeys.sublist (List.dropLast_sublist _)⟩

def getRefresh (entries : Table BlockKey β) (k : BlockKey) : Table BlockKey β :=
  match entries.lookup k with
  | none => entries
  | some v => entries.insert k v

namespace ReadBlockCache

def new : ReadCacheEvictionPolicy → ReadBlockCache β
  | .fifo => .fifo ∅ []
  | .lru => .lru ∅

def entries : ReadBlockCache β → Table BlockKey β
  | .fifo entries _ => entries
  | .lru entries => entries

def get (c : ReadBlockCache β) (file block : Nat) : Option β :=
  c.entries.lookup (file, block)

def refresh (c : ReadBlockCache β) (file block : Nat) : ReadBlockCache β :=
  match c with
  | .fifo entries order => .fifo entries order
  | .lru entries => .lru (getRefresh entries (file, block))

def insertFifo (file : Nat) (acc : Table BlockKey β × List BlockKey)
    (row : Nat × β) : Table BlockKey β × List BlockKey :=
  (acc.1.insert (file, row.1) row.2,
    if (file, row.1) ∈ acc.1 then acc.2 else acc.2 ++ [(file, row.1)])

def insertLru (file : Nat) (entries : Table BlockKey β) (row : Nat × β) :
    Table BlockKey β :=
  if (file, row.1) ∈ entries then
    getRefresh (entries.insert (file, row.1) row.2) (file, row.1)
  else entries.insert (file, row.1) row.2

def evictFifo (limitBlocks : Nat) (entries : Table BlockKey β) :
    List BlockKey → Table BlockKey β × List BlockKey
  | [] => (entries, [])
  | oldest :: order =>
    if limitBlocks < entries.entries.length then
      evictFifo limitBlocks (entries.erase oldest) order
    else (entries, oldest :: order)

def evictLru (limitBlocks : Nat) (entries : Table BlockKey β) : Table BlockKey β :=
  popOldest^[entries.entries.length - limitBlocks] entries

def insertMany (c : ReadBlockCache β) (file : Nat) (blocks : List (Nat × β))
    (limitBlocks : Nat) : ReadBlockCache β :=
  match c with
  | .fifo entries order =>
    let filled := blocks.foldl (insertFifo file) (entries, order)
    let kept := evictFifo limitBlocks filled.1 filled.2
    .fifo kept.1 kept.2
  | .lru entries =>
    .lru (evictLru limitBlocks (blocks.foldl (insertLru file) entries))

def clearFile (c : ReadBlockCache β) (file : Nat) : ReadBlockCache β :=
  match c with
  | .fifo entries order =>
    .fifo (entries.keep fun k _ => k.1 != file) (order.filter fun k => k.1 != file)
  | .lru entries => .lru (entries.keep fun k _ => k.1 != file)

def clearAll : ReadBlockCache β → ReadBlockCache β
  | .fifo _ _ => .fifo ∅ []
  | .lru _ => .lru ∅

end ReadBlockCache

def u64Max : Nat := 2 ^ 64 - 1

def saturatingAdd (a b : Nat) : Nat := min (a + b) u64Max

structure FileCacheStamp where
  generation : Nat
  epoch : Nat
  cacheEpoch : Nat
  deriving DecidableEq

/-- `files` holds the generation and the epoch of a file.  Only tests advance
a generation. -/
structure FileCacheGenerationGate where
  cacheEpoch : Nat
  files : Table Nat (Nat × Nat)

namespace FileCacheGenerationGate

def file (g : FileCacheGenerationGate) (fileId : Nat) : Nat × Nat :=
  (g.files.lookup fileId).getD (0, 0)

def snapshot (g : FileCacheGenerationGate) (fileId : Nat) : FileCacheStamp where
  generation := (g.file fileId).1
  epoch := (g.file fileId).2
  cacheEpoch := g.cacheEpoch

def isCurrent (g : FileCacheGenerationGate) (fileId : Nat) (stamp : FileCacheStamp) :
    Bool :=
  g.snapshot fileId == stamp

def invalidateAnd (g : FileCacheGenerationGate) (fileId : Nat) :
    FileCacheGenerationGate :=
  { g with
    files := g.files.insert fileId
      ((g.file fileId).1, saturatingAdd (g.file fileId).2 1) }

def invalidateAllAnd (g : FileCacheGenerationGate) : FileCacheGenerationGate :=
  { g with cacheEpoch := (g.cacheEpoch + 1) % 2 ^ 64 }

end FileCacheGenerationGate

/-! ## The readers -/

structure Settings where
  readCacheBlocks : Nat
  directIoReadPrefetchBlocks : Nat
  fopenDirectIo : Bool

def Settings.readCacheLimitBlocks (c : Settings) : Nat :=
  if c.readCacheBlocks = 0 then 0
  else if c.fopenDirectIo && 0 < c.directIoReadPrefetchBlocks then
    max c.readCacheBlocks c.directIoReadPrefetchBlocks
  else c.readCacheBlocks

def extendRanges (acc : List (Nat × Nat) × Nat × Nat) (block : Nat) :
    List (Nat × Nat) × Nat × Nat :=
  if block = acc.2.2 + 1 then (acc.1, acc.2.1, block)
  else (acc.1 ++ [acc.2], block, block)

def missingBlockRanges : List Nat → List (Nat × Nat)
  | [] => []
  | first :: rest =>
    let acc := rest.foldl extendRanges ([], first, first)
    acc.1 ++ [acc.2]

def fetchRanges (parallel : Bool) (missing : List Nat) : List (Nat × Nat) :=
  if parallel then missingBlockRanges missing
  else missing.head?.toList.map fun first => (first, missing.getLast?.getD first)

abbrev Contents (β : Type) := Nat → Nat → Option β

def fetchBlockRange (contents : Contents β) (file : Nat) (range : Nat × Nat) :
    List (Nat × β) :=
  (List.range' range.1 (range.2 + 1 - range.1)).filterMap fun block =>
    (contents file block).map fun v => (block, v)

def sortBlocks (rows : List (Nat × β)) : List (Nat × β) :=
  rows.insertionSort fun left right => left.1 ≤ right.1

def mergeSortedBlocks (left right : List (Nat × β)) : List (Nat × β) :=
  left.merge right fun l r => l.1 ≤ r.1

/-- `coalesced` tells `buffered_read_block_map_coalesced` from the loop of
`read_block_map` for direct I/O, which fetches without owning the fill. -/
structure ReadRequest where
  file : Nat
  first : Nat
  last : Nat
  coalesced : Bool

/--
Where one reader stands.  `owner` says that it may fetch.  An `answered`
reader has its blocks; `since` is the moment of the last completed
invalidation of the file when it took them.
-/
inductive Reader (β : Type) where
  | idle
  | starting (r : ReadRequest) (owner : Bool)
  | looking (r : ReadRequest) (owner : Bool) (stamp : FileCacheStamp) (next : Nat)
      (cached : List (Nat × β)) (missing : List Nat)
  | acquiring (r : ReadRequest)
  | fetching (r : ReadRequest) (stamp : FileCacheStamp) (cached : List (Nat × β))
      (pending : List (Nat × Nat)) (fetched : List (Nat × β))
  | answered (file since : Nat) (rows : List (Nat × β))

def Reader.retry (r : ReadRequest) : Reader β := .starting r !r.coalesced

/-- Where a lookup finds its block decided: in the overlay of recent writes,
in the read cache, or nowhere because the limit was zero when it was read. -/
inductive LookIn where
  | recentWrites
  | readCache
  | disabled

inductive ReaderStep where
  | begin (r : ReadRequest)
  | snapshot
  | look (place : LookIn)
  | check (parallel : Bool)
  | acquire (owner : Bool)
  | fetch (query : Nat)
  | fail
  | publish
  | peek (file block : Nat)

/--
The mount and its store.  `past` are the contents the store held before `now`,
oldest first, so a moment is a position in `past ++ [now]`; `completed` is the
moment at which the last invalidation of a file completed.
-/
structure State (β : Type) where
  cache : ReadBlockCache β
  gate : FileCacheGenerationGate
  settings : Settings
  past : List (Contents β)
  now : Contents β
  completed : Nat → Nat
  readers : Nat → Reader β

namespace State

def initial (policy : ReadCacheEvictionPolicy) (settings : Settings)
    (contents : Contents β) : State β where
  cache := ReadBlockCache.new policy
  gate := ⟨0, ∅⟩
  settings := settings
  past := []
  now := contents
  completed := fun _ => 0
  readers := fun _ => .idle

def moment (s : State β) : Nat := s.past.length

def storeReadBlocks (s : State β) (file : Nat) (blocks : List (Nat × β)) :
    ReadBlockCache β :=
  if blocks.isEmpty || s.settings.readCacheLimitBlocks = 0 then s.cache
  else s.cache.insertMany file blocks s.settings.readCacheLimitBlocks

/-- One block of `cached_read_blocks_and_missing`.  A block of the overlay is
not the read cache's and is not recorded. -/
def lookBlock (s : State β) (r : ReadRequest) (owner : Bool) (stamp : FileCacheStamp)
    (next : Nat) (cached : List (Nat × β)) (missing : List Nat) :
    LookIn → ReadBlockCache β × Reader β
  | .recentWrites => (s.cache, .looking r owner stamp (next + 1) cached missing)
  | .disabled => (s.cache, .looking r owner stamp (next + 1) cached (missing ++ [next]))
  | .readCache =>
    (s.cache.refresh r.file next,
      match s.cache.get r.file next with
      | some v => .looking r owner stamp (next + 1) (cached ++ [(next, v)]) missing
      | none => .looking r owner stamp (next + 1) cached (missing ++ [next]))

def checkStamp (s : State β) (r : ReadRequest) (owner : Bool) (stamp : FileCacheStamp)
    (cached : List (Nat × β)) (missing : List Nat) (parallel : Bool) : Reader β :=
  if !s.gate.isCurrent r.file stamp then .retry r
  else if missing.isEmpty then .answered r.file (s.completed r.file) cached
  else if owner then .fetching r stamp cached (fetchRanges parallel missing) []
  else .acquiring r

def publishIfCurrent (s : State β) (r : ReadRequest) (stamp : FileCacheStamp)
    (cached fetched : List (Nat × β)) : ReadBlockCache β × Reader β :=
  if s.gate.isCurrent r.file stamp then
    (s.storeReadBlocks r.file (sortBlocks fetched),
      .answered r.file (s.completed r.file) (mergeSortedBlocks cached (sortBlocks fetched)))
  else (s.cache, .retry r)

def peekBlock (s : State β) (file block : Nat) : ReadBlockCache β × Reader β :=
  (s.cache.refresh file block,
    .answered file (s.completed file) ((s.cache.get file block).toList.map (block, ·)))

def readerStep (s : State β) : Reader β → ReaderStep → Option (ReadBlockCache β × Reader β)
  | .idle, .begin r => some (s.cache, .retry r)
  | .answered _ _ _, .begin r => some (s.cache, .retry r)
  | .starting r owner, .snapshot =>
    some (s.cache, .looking r owner (s.gate.snapshot r.file) r.first [] [])
  | .looking r owner stamp next cached missing, .look place =>
    if next ≤ r.last then some (s.lookBlock r owner stamp next cached missing place)
    else none
  | .looking r owner stamp next cached missing, .check parallel =>
    if r.last < next then
      some (s.cache, s.checkStamp r owner stamp cached missing parallel)
    else none
  -- A reader that is not the owner waits for the owner and starts again.
  | .acquiring r, .acquire owner => some (s.cache, .starting r owner)
  | .fetching r stamp cached pending fetched, .fetch query =>
    (pending[query]?).map fun range =>
      (s.cache, .fetching r stamp cached (pending.eraseIdx query)
        (fetched ++ fetchBlockRange s.now r.file range))
  | .fetching _ _ _ _ _, .fail => some (s.cache, .idle)
  | .fetching r stamp cached [] fetched, .publish =>
    some (s.publishIfCurrent r stamp cached fetched)
  | .idle, .peek file block => some (s.peekBlock file block)
  | .answered _ _ _, .peek file block => some (s.peekBlock file block)
  | _, _ => none

end State

inductive Action (β : Type) where
  | reader (t : Nat) (a : ReaderStep)
  /-- A transaction of any client gives the store new contents. -/
  | commit (contents : Contents β)
  /-- `clear_read_cache_for_file`. -/
  | invalidate (file : Nat)
  | invalidateAll
  | reload (settings : Settings)

def step (s : State β) : Action β → Option (State β)
  | .reader t a =>
    (s.readerStep (s.readers t) a).map fun next =>
      { s with cache := next.1, readers := Function.update s.readers t next.2 }
  | .commit contents => some { s with past := s.past ++ [s.now], now := contents }
  | .invalidate file =>
    some { s with
      gate := s.gate.invalidateAnd file
      cache := s.cache.clearFile file
      completed := Function.update s.completed file s.moment }
  | .invalidateAll =>
    some { s with
      gate := s.gate.invalidateAllAnd
      cache := s.cache.clearAll
      completed := fun _ => s.moment }
  | .reload settings => some { s with settings := settings }

end Fod.ReadCache
