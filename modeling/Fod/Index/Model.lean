import Fod.Lib.Scan
import Fod.Lib.Table

/-!
# The catalogue of indexed files

`fod-indexer` walks the registered sources, records the files it finds in
`index_files`, hashes those that may have duplicates into `index_file_hashes`
and rebuilds `index_duplicate_sets` from the stored hashes.  A run works on the
source files as it sees them: the files may change before, between and during
the runs, so each run is given what it sees.
-/

namespace Fod.Index

abbrev Component := List Char

abbrev RelPath := List Component

abbrev Bytes := List UInt8

structure FileSnapshot where
  size : Nat
  mtimeNs : Option Int
  inode : Option Nat
  device : Option Nat
  deriving DecidableEq

inductive FileKind
  | regular
  | symlink
  | directory
  | other
  deriving DecidableEq

/-- An item of the walk.  `len` is the length that `entry.metadata()` gives
without following a link. -/
inductive WalkItem
  | entry (path : RelPath) (kind : FileKind) (len : Option Nat)
  | nonUtf8 (len : Option Nat)
  | failed (path : Option RelPath)

inductive Opened
  | denied
  | broken
  | bytes (content : Bytes)
  deriving DecidableEq

inductive RootState
  | directory
  | missing
  | notADirectory
  | unreadable

structure SourceTree where
  root : RootState
  walk : List WalkItem
  stat : RelPath → Option FileSnapshot
  opened : RelPath → Opened

structure IndexerSettings where
  skipHidden : Bool
  skipComponents : List Component
  skipPrefixes : List (List Char)
  allowExtensions : Option (List (List Char))

def IndexerSettings.default : IndexerSettings where
  skipHidden := true
  skipComponents := []
  skipPrefixes := []
  allowExtensions := none

def defaultIgnoredComponents : List Component :=
  [['c', 'a', 'c', 'h', 'e'],
    ['c', 'a', 'c', 'h', 'e', 's'],
    ['b', 'u', 'i', 'l', 'd'],
    ['d', 'i', 's', 't'],
    ['c', 'o', 'v', 'e', 'r', 'a', 'g', 'e'],
    ['n', 'o', 'd', 'e', '_', 'm', 'o', 'd', 'u', 'l', 'e', 's'],
    ['t', 'a', 'r', 'g', 'e', 't'],
    ['t', 'm', 'p'],
    ['t', 'e', 'm', 'p'],
    ['o', 'u', 't'],
    ['_', '_', 'p', 'y', 'c', 'a', 'c', 'h', 'e', '_', '_'],
    ['d', 'o', 'w', 'n', 'l', 'o', 'a', 'd', 'c', 'a', 'c', 'h', 'e', 'm', 'a', 'n', 'a', 'g',
      'e', 'r'],
    ['p', 'l', 'a', 't', 'f', 'o', 'r', 'm', 'r', 'e', 'q', 'u', 'e', 's', 't', 'c', 'a', 'c',
      'h', 'e'],
    ['s', 'e', 'r', 'v', 'e', 'r', 'r', 'e', 'q', 'u', 'e', 's', 't', 'c', 'a', 'c', 'h', 'e'],
    ['u', 'n', 'i', 't', 'y', 'c', 'a', 'c', 'h', 'e']]

def isIgnoredComponent (settings : IndexerSettings) (component : Component) : Bool :=
  if component = [] ∨ component = ['.'] ∨ component = ['.', '.'] then false
  else if component.head? = some '.' ∧ settings.skipHidden then true
  else
    let lowered := component.map Char.toLower
    defaultIgnoredComponents.contains lowered || settings.skipComponents.contains lowered

def normalizePath (path : RelPath) : List Char :=
  List.intercalate ['/'] path

def isIgnoredDirectoryRelativePath (settings : IndexerSettings) (path : RelPath) : Bool :=
  settings.skipPrefixes.any (fun skipped =>
      normalizePath path == skipped || (skipped ++ ['/']).isPrefixOf (normalizePath path)) ||
    path.any (isIgnoredComponent settings)

def isWhiteSpace (c : Char) : Bool :=
  let n := c.toNat
  (9 ≤ n && n ≤ 13) || n == 0x20 || n == 0x85 || n == 0xA0 || n == 0x1680 ||
    (0x2000 ≤ n && n ≤ 0x200A) || n == 0x2028 || n == 0x2029 || n == 0x202F || n == 0x205F ||
    n == 0x3000

def trim (text : List Char) : List Char :=
  ((text.dropWhile isWhiteSpace).reverse.dropWhile isWhiteSpace).reverse

def normalizeExtension (value : List Char) : List Char :=
  ((trim value).dropWhile (· == '.')).map Char.toLower

def extension (path : RelPath) : Option (List Char) := do
  let name ← path.getLast?
  let after := (name.reverse.takeWhile (· != '.')).reverse
  if after.length + 1 < name.length ∧ name ≠ ['.', '.'] then some after else none

def IndexerSettings.allowsExtension (settings : IndexerSettings) (path : RelPath) : Bool :=
  match settings.allowExtensions with
  | none => true
  | some allowlist =>
    (extension path).any fun value => allowlist.contains (normalizeExtension value)

def isIgnoredFileRelativePath (settings : IndexerSettings) (path : RelPath) : Bool :=
  isIgnoredDirectoryRelativePath settings path || !settings.allowsExtension path

/-- The walk does not enter ignored directories: what is below one has its
components, and is ignored too. -/
def visible (settings : IndexerSettings) : WalkItem → Bool
  | .entry path _ _ => !isIgnoredDirectoryRelativePath settings path
  | .failed (some path) => !isIgnoredDirectoryRelativePath settings path
  | .failed none => true
  | .nonUtf8 _ => true

inductive ScanStatus
  | ok
  | unsupportedType
  | statFailed
  | unreadable
  deriving DecidableEq

structure IndexFile where
  source : Nat
  path : RelPath
  snapshot : FileSnapshot
  kind : FileKind
  status : ScanStatus

inductive HashAlgorithm
  | sha256
  deriving DecidableEq

inductive HashStatus
  | partialHash
  | full
  | changedRetryNeeded
  deriving DecidableEq

structure IndexFileHash where
  algorithm : HashAlgorithm
  partialHash : Option Bytes
  fullHash : Option Bytes
  status : HashStatus
  observed : FileSnapshot

structure DuplicateKey where
  algorithm : HashAlgorithm
  fullHash : Bytes
  fileSize : Nat
  deriving DecidableEq

structure DuplicateSet where
  fileCount : Nat
  totalBytes : Nat

structure Catalogue where
  files : Table Nat IndexFile
  nextFile : Nat
  hashes : Table Nat IndexFileHash
  duplicateSets : Table DuplicateKey DuplicateSet

def Catalogue.empty : Catalogue where
  files := ∅
  nextFile := 1
  hashes := ∅
  duplicateSets := ∅

inductive IndexError
  | unknownSource (source : Nat)
  | nonUtf8Component
  | duplicatePaths
  | metadataUnreadable (path : RelPath)
  | openFailed (path : RelPath)
  | readFailed (path : RelPath)
  | bigintOutOfRange
  | rootUnreadable
  | rootNotADirectory
  | walkFailed

def loadSource (sources : List Nat) (source : Nat) : Except IndexError Unit :=
  if source ∈ sources then .ok () else .error (.unknownSource source)

def FileSnapshot.unknown : FileSnapshot := ⟨0, none, none, none⟩

def scanEntry (settings : IndexerSettings) (tree : SourceTree) (source : Nat) :
    WalkItem → Except IndexError (Option IndexFile)
  | .failed _ => .ok none
  | .nonUtf8 _ => .error .nonUtf8Component
  | .entry path kind _ =>
    if path = [] ∨ kind = .directory then .ok none
    else if kind ≠ .regular then
      .ok (some ⟨source, path, .unknown, kind, .unsupportedType⟩)
    else if isIgnoredFileRelativePath settings path then .ok none
    else
      match tree.stat path with
      | none => .ok (some ⟨source, path, .unknown, .regular, .statFailed⟩)
      | some snapshot =>
        if snapshot.size = 0 then .ok none
        else
          let status := if tree.opened path = .denied then ScanStatus.unreadable else .ok
          .ok (some ⟨source, path, snapshot, .regular, status⟩)

def stagedFiles (settings : IndexerSettings) (tree : SourceTree) (source : Nat) :
    Except IndexError (List IndexFile) := do
  let rows ← (tree.walk.filter (visible settings)).mapM (scanEntry settings tree source)
  return rows.reduceOption

def IndexFile.place (row : IndexFile) : Nat × RelPath := (row.source, row.path)

def insertIndexFile (c : Catalogue) (row : IndexFile) : Catalogue :=
  { c with files := c.files.insert c.nextFile row, nextFile := c.nextFile + 1 }

def stagedRow (rows : List IndexFile) (target : IndexFile) : IndexFile :=
  (rows.find? fun staged => staged.place == target.place).getD target

/-- Rows of the same source and path are updated; the others are inserted. -/
def upsertIndexFilesStaged (rows : List IndexFile) (c : Catalogue) :
    Except IndexError Catalogue :=
  if ¬ (rows.map IndexFile.place).Nodup then .error .duplicatePaths
  else
    let updated := { c with files := c.files.adjust fun _ target => stagedRow rows target }
    let missing := rows.filter fun staged =>
      !c.files.entries.any fun target => target.2.place == staged.place
    .ok (missing.foldl insertIndexFile updated)

def scanSource (settings : IndexerSettings) (sources : List Nat) (tree : SourceTree)
    (source : Nat) (c : Catalogue) : Except IndexError Catalogue := do
  loadSource sources source
  let rows ← stagedFiles settings tree source
  upsertIndexFilesStaged rows c

def u64Max : Nat := 2 ^ 64 - 1

def bigintMax : Nat := 2 ^ 63 - 1

/-- The group of a row of `index_file_hashes`, if the query selects it and it
is not passed over. -/
def groupKey (settings : IndexerSettings) (files : Table Nat IndexFile) (id : Nat)
    (row : IndexFileHash) : Option DuplicateKey := do
  let file ← files.lookup id
  let fullHash ← row.fullHash
  if row.status = .full ∧ ¬ isIgnoredFileRelativePath settings file.path ∧
      row.observed.size ≠ 0 then
    some ⟨row.algorithm, fullHash, row.observed.size⟩
  else none

def groupMembers (settings : IndexerSettings) (c : Catalogue) (key : DuplicateKey) : List Nat :=
  (c.hashes.keep fun id row => groupKey settings c.files id row == some key).keys

def duplicateKeys (settings : IndexerSettings) (c : Catalogue) : List DuplicateKey :=
  (c.hashes.entries.filterMap fun row => groupKey settings c.files row.1 row.2).dedup.filter
    fun key => decide (1 < (groupMembers settings c key).length)

def duplicateRow (settings : IndexerSettings) (c : Catalogue) (key : DuplicateKey) :
    DuplicateSet :=
  let fileCount := (groupMembers settings c key).length
  ⟨fileCount, min (key.fileSize * fileCount) u64Max⟩

def DuplicateSet.fits (row : DuplicateSet) : Bool :=
  decide (row.fileCount ≤ bigintMax ∧ row.totalBytes ≤ bigintMax)

/-- The old sets are deleted before the new ones are known, and stay deleted if
the new ones cannot be stored. -/
def rebuildDuplicateSets (settings : IndexerSettings) (c : Catalogue) :
    Except IndexError Nat × Catalogue :=
  let keys := duplicateKeys settings c
  if keys.all fun key => (duplicateRow settings c key).fits then
    (.ok keys.length, { c with
      duplicateSets := keys.foldl (fun t key => t.insert key (duplicateRow settings c key)) ∅ })
  else (.error .bigintOutOfRange, { c with duplicateSets := ∅ })

def partialSampleBytes : Nat := 64 * 1024

def sampleRanges (fileSize : Nat) : List (Nat × Nat) :=
  if fileSize = 0 then []
  else
    let chunk := max (min partialSampleBytes fileSize) 1
    if fileSize ≤ chunk then [(0, fileSize)]
    else [(0, chunk), ((fileSize - chunk) / 2, chunk), (fileSize - chunk, chunk)].dedup

def toLeBytes (n : Nat) : Bytes :=
  (List.range 8).map fun i => UInt8.ofNat (n / 256 ^ i)

def samples (content : Bytes) (fileSize : Nat) : Bytes :=
  (sampleRanges fileSize).flatMap fun (offset, len) =>
    let bytes := (content.drop offset).take len
    toLeBytes offset ++ toLeBytes bytes.length ++ bytes

inductive Moment
  | beforeSample
  | sample
  | afterSample
  | beforeRead
  | read
  | afterRead

def SourceTree.snapshot (tree : SourceTree) (path : RelPath) : Except IndexError FileSnapshot :=
  match tree.stat path with
  | none => .error (.metadataUnreadable path)
  | some snapshot => .ok snapshot

def SourceTree.content (tree : SourceTree) (path : RelPath) : Except IndexError Bytes :=
  match tree.opened path with
  | .denied => .error (.openFailed path)
  | .broken => .error (.readFailed path)
  | .bytes content => .ok content

def changedRetryRow (observed : FileSnapshot) : IndexFileHash :=
  ⟨.sha256, none, none, .changedRetryNeeded, observed⟩

structure PartialHashResult where
  id : Nat
  file : IndexFile
  snapshot : FileSnapshot
  partialHash : Bytes

section Hash

variable (sha256 : Bytes → Bytes)

def partialResult (view : Nat → Moment → SourceTree) (entry : Nat × IndexFile) :
    Except IndexError ((Nat × IndexFileHash) × Option PartialHashResult) := do
  let (id, file) := entry
  let snapshot ← (view id .beforeSample).snapshot file.path
  if snapshot ≠ file.snapshot then
    return ((id, changedRetryRow snapshot), none)
  let content ← (view id .sample).content file.path
  let after ← (view id .afterSample).snapshot file.path
  if after ≠ snapshot then
    return ((id, changedRetryRow snapshot), none)
  let partialHash := sha256 (samples content snapshot.size)
  return ((id, ⟨.sha256, some partialHash, none, .partialHash, snapshot⟩),
    some ⟨id, file, snapshot, partialHash⟩)

def fullResult (view : Nat → Moment → SourceTree) (item : PartialHashResult) :
    Except IndexError (Nat × IndexFileHash) := do
  let before ← (view item.id .beforeRead).snapshot item.file.path
  if before ≠ item.snapshot then
    return (item.id, changedRetryRow before)
  let content ← (view item.id .read).content item.file.path
  let after ← (view item.id .afterRead).snapshot item.file.path
  if after ≠ before then
    return (item.id, changedRetryRow before)
  return (item.id, ⟨.sha256, some item.partialHash, some (sha256 content), .full, before⟩)

/-- The full hashes are taken of every sampled file, or only of those that
share size and samples with another one. -/
def needsFullHash (candidatesOnly : Bool) (sampled : List PartialHashResult)
    (item : PartialHashResult) : Bool :=
  candidatesOnly || decide (1 < (sampled.filter fun other =>
    other.file.snapshot.size == item.file.snapshot.size &&
      other.partialHash == item.partialHash).length)

def stagedHashes (candidatesOnly : Bool) (view : Nat → Moment → SourceTree)
    (files : List (Nat × IndexFile)) : Except IndexError (List (Nat × IndexFileHash)) := do
  let first ← files.mapM (partialResult sha256 view)
  let sampled := (first.map Prod.snd).reduceOption
  let full ← (sampled.filter (needsFullHash candidatesOnly sampled)).mapM
    (fullResult sha256 view)
  return first.map Prod.fst ++ full

def isIgnoredIndexedFile (settings : IndexerSettings) (file : IndexFile) : Bool :=
  file.snapshot.size == 0 || isIgnoredFileRelativePath settings file.path

def eligibleHashFile (settings : IndexerSettings) (file : IndexFile) : Bool :=
  file.status == .ok && file.kind == .regular && !isIgnoredIndexedFile settings file

/-- The size is one of `load_global_candidate_sizes`: more than one row of any
source has it, ignored or not. -/
def globalCandidateSize (files : Table Nat IndexFile) (size : Nat) : Bool :=
  decide (1 < (files.keysWith fun file =>
    file.status == .ok && file.kind == .regular && decide (0 < file.snapshot.size) &&
      file.snapshot.size == size).length)

def selectHashScope (settings : IndexerSettings) (candidatesOnly : Bool) (source : Nat)
    (files : Table Nat IndexFile) : List (Nat × IndexFile) :=
  (files.entries.map fun row => (row.1, row.2)).filter fun row =>
    row.2.source == source && eligibleHashFile settings row.2 &&
      (!candidatesOnly || globalCandidateSize files row.2.snapshot.size)

def upsertIndexFileHashesStaged (rows : List (Nat × IndexFileHash)) (c : Catalogue) : Catalogue :=
  { c with hashes := rows.foldl (fun t row => t.insert row.1 row.2) c.hashes }

/-- No hash is stored by a run that fails on a file. -/
def hashSource (settings : IndexerSettings) (sources : List Nat) (candidatesOnly : Bool)
    (view : Nat → Moment → SourceTree) (source : Nat) (c : Catalogue) :
    Except IndexError Nat × Catalogue :=
  match loadSource sources source with
  | .error e => (.error e, c)
  | .ok () =>
    match stagedHashes sha256 candidatesOnly view
        (selectHashScope settings candidatesOnly source c.files) with
    | .error e => (.error e, c)
    | .ok rows => rebuildDuplicateSets settings (upsertIndexFileHashesStaged rows c)

end Hash

structure SourceTreeState where
  visiblePaths : List RelPath
  blockedPrefixes : List RelPath
  rootMissing : Bool

def treeItem (settings : IndexerSettings) (state : SourceTreeState) :
    WalkItem → Except IndexError SourceTreeState
  | .entry path kind len =>
    if path = [] ∨ kind = .directory ∨ len = none ∨ len = some 0 ∨
        isIgnoredFileRelativePath settings path then .ok state
    else .ok { state with visiblePaths := path :: state.visiblePaths }
  | .nonUtf8 len =>
    if len = none ∨ len = some 0 then .ok state else .error .nonUtf8Component
  | .failed (some path) => .ok { state with blockedPrefixes := path :: state.blockedPrefixes }
  | .failed none => .error .walkFailed

def currentSourceTree (settings : IndexerSettings) (tree : SourceTree) :
    Except IndexError SourceTreeState :=
  match tree.root with
  | .missing => .ok ⟨[], [], true⟩
  | .unreadable => .error .rootUnreadable
  | .notADirectory => .error .rootNotADirectory
  | .directory => (tree.walk.filter (visible settings)).foldlM (treeItem settings) ⟨[], [], false⟩

def staleFile (source : Nat) (state : SourceTreeState) (file : IndexFile) : Bool :=
  file.source == source && !state.visiblePaths.contains file.path &&
    (state.rootMissing || !state.blockedPrefixes.any fun blocked => blocked.isPrefixOf file.path)

/-- The hashes of a deleted file go with it. -/
def deleteStaleRows (c : Catalogue) (stale : List Nat) : Catalogue :=
  { c with
    files := c.files.keep fun id _ => !stale.contains id
    hashes := c.hashes.keep fun id _ => !stale.contains id }

/-- One transaction: a failure leaves the catalogue as it was. -/
def cleanSource (settings : IndexerSettings) (sources : List Nat) (dryRun : Bool)
    (tree : SourceTree) (source : Nat) (c : Catalogue) : Except IndexError Catalogue := do
  loadSource sources source
  let state ← currentSourceTree settings tree
  let stale := c.files.keysWith (staleFile source state)
  if dryRun ∨ stale = [] then
    return c
  match rebuildDuplicateSets settings (deleteStaleRows c stale) with
  | (.error e, _) => .error e
  | (.ok _, cleaned) => .ok cleaned

inductive Action
  | scan (settings : IndexerSettings) (tree : SourceTree) (source : Nat)
  | hash (settings : IndexerSettings) (candidatesOnly : Bool) (view : Nat → Moment → SourceTree)
      (source : Nat)
  | clean (settings : IndexerSettings) (dryRun : Bool) (tree : SourceTree) (source : Nat)
  | reportDuplicates (settings : IndexerSettings)

def act (sha256 : Bytes → Bytes) (sources : List Nat) (c : Catalogue) : Action → Catalogue
  | .scan settings tree source => ((scanSource settings sources tree source c).toOption).getD c
  | .hash settings candidatesOnly view source =>
    (hashSource sha256 settings sources candidatesOnly view source c).2
  | .clean settings dryRun tree source =>
    ((cleanSource settings sources dryRun tree source c).toOption).getD c
  | .reportDuplicates settings => (rebuildDuplicateSets settings c).2

def Catalogue.after (sha256 : Bytes → Bytes) (sources : List Nat) (history : List Action) :
    Catalogue :=
  history.foldl (act sha256 sources) .empty

def scanAll (settings : IndexerSettings) (sources : List Nat) (disk : Nat → SourceTree)
    (order : List Nat) (c : Catalogue) : Except IndexError Catalogue :=
  order.foldlM (fun c source => scanSource settings sources (disk source) source c) c

def hashAll (sha256 : Bytes → Bytes) (settings : IndexerSettings) (sources : List Nat)
    (disk : Nat → SourceTree) (order : List Nat) (c : Catalogue) : Except IndexError Catalogue :=
  order.foldlM (fun c source =>
    match hashSource sha256 settings sources true (fun _ _ => disk source) source c with
    | (.error e, _) => .error e
    | (.ok _, c') => .ok c') c

end Fod.Index
