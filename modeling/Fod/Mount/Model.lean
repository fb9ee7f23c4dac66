import Fod.Lib.GuardedRun
import Fod.Lib.Table

/-!
# The tables of one mount

`FodFuse` keeps two path maps, the lookup counts and the handle table beside the
namespace in PostgreSQL.  Requests are processed one at a time by the only
client, so a namespace transaction is one change of the names.  A request that
fails leaves the state as it is, unless said otherwise, so refusals by
permission checks or by write ownership are runs without the request.
-/

namespace Fod.Mount

/-- The components, the last one first: `join_path` is `::` and `/` is `[]`. -/
abbrev Path := List String

inductive Kind where
  | file
  | symlink
  | dir
  deriving DecidableEq

/-- A row of `files`, `symlinks` or `directories` with its inode number, which
`stable_inode` computes from the seed of the row. -/
structure Node where
  kind : Kind
  id : Nat
  ino : Nat
  deriving DecidableEq

/-- What a name is bound to.  `link` is the row of `hardlinks` or of
`symlink_hardlinks`, if it is not the row of the node itself. -/
structure Entry where
  node : Node
  link : Option Nat

abbrev Names := Table (Nat × String) Entry

def rootIno : Nat := 1

def root : Node := ⟨.dir, 0, rootIno⟩

namespace Names

def resolve (names : Names) : Path → Option Node
  | [] => some root
  | name :: parent =>
    match resolve names parent with
    | some ⟨.dir, d, _⟩ => (names.lookup (d, name)).map Entry.node
    | _ => none

def lowestLink (names : Names) (node : Node) : Option Nat :=
  ((names.entries.filter fun row => row.2.node == node).filterMap fun row => row.2.link).min?

def unbind (names : Names) (key : Nat × String) (e : Entry) : Names :=
  let rest : Names := names.erase key
  if e.link.isSome then rest
  else
    match lowestLink rest e.node with
    | none => rest
    | some l =>
      rest.adjust fun _ x => if x.node = e.node ∧ x.link = some l then { x with link := none } else x

def emptyDir (names : Names) (d : Nat) : Bool := names.keys.all fun key => key.1 != d

end Names

structure Handle where
  path : Path
  file : Nat

/-- `opened` is what the kernel holds: the handles that were returned by open or
create, with their file, and not yet released. -/
structure State where
  names : Names
  nextId : Nat
  nextFh : Nat
  pathToInode : Table Path Nat
  inodeToPath : Table Nat Path
  lookupRefs : Table Nat Nat
  fhTable : Table Nat Handle
  openLeases : Table Nat Nat
  opened : Table Nat Nat

def mounted (names : Names) (nextId : Nat) : State where
  names := names
  nextId := nextId
  nextFh := 1
  pathToInode := AList.singleton [] rootIno
  inodeToPath := AList.singleton rootIno []
  lookupRefs := ∅
  fhTable := ∅
  openLeases := ∅
  opened := ∅

inductive Errno where
  | EBADF
  | ENOENT
  deriving DecidableEq

namespace State

def entryPathForIno (s : State) (ino : Nat) : Except Errno Path :=
  if ino = rootIno then .ok []
  else
    match s.inodeToPath.lookup ino with
    | some path => .ok path
    | none => .error .ENOENT

def entryAttrsForIno (s : State) (ino : Nat) : Except Errno (Path × Node) :=
  match s.entryPathForIno ino with
  | .error e => .error e
  | .ok path =>
    match s.names.resolve path with
    | some node => if node.ino = ino then .ok (path, node) else .error .ENOENT
    | none => .error .ENOENT

def parentEntry (s : State) (ino : Nat) : Option (Path × Nat) :=
  if ino = rootIno then some ([], 0)
  else
    match s.entryAttrsForIno ino with
    | .ok (path, ⟨.dir, d, _⟩) => some (path, d)
    | _ => none

/-- `pick` is the order in which the hash map is searched for another path of the
inode. -/
def removeCachedPath (s : State) (pick : Nat) (path : Path) : State :=
  match s.pathToInode.lookup path with
  | none => s
  | some ino =>
    let pathToInode : Table Path Nat := s.pathToInode.erase path
    let others := pathToInode.keysWith (· == ino)
    { s with
      pathToInode
      inodeToPath :=
        if s.inodeToPath.lookup ino = some path then
          match others[pick % others.length]? with
          | some other => s.inodeToPath.insert ino other
          | none => s.inodeToPath.erase ino
        else s.inodeToPath }

def removeCachedHandlePaths (s : State) (path : Path) : State :=
  { s with fhTable := s.fhTable.keep fun _ handle => handle.path != path }

def registerPath (s : State) (path : Path) (ino : Nat) : State :=
  { s with
    pathToInode := s.pathToInode.insert path ino
    inodeToPath := s.inodeToPath.insert ino path }

def registerLookupPath (s : State) (path : Path) (ino : Nat) : State :=
  { s with
    pathToInode := s.pathToInode.insert path ino
    inodeToPath :=
      if (s.inodeToPath.lookup ino).isSome then s.inodeToPath else s.inodeToPath.insert ino path
    lookupRefs := s.lookupRefs.insert ino ((s.lookupRefs.lookup ino).getD 0 + 1) }

def moveHandles (s : State) (wanted : Handle → Bool) (path : Path) : State :=
  { s with fhTable := s.fhTable.adjust fun _ handle =>
      if wanted handle then { handle with path } else handle }

def moveCachedPath (s : State) (pick : Nat) (oldPath newPath : Path) (ino : Nat) : State :=
  ((s.removeCachedPath pick oldPath).registerPath newPath ino).moveHandles
    (·.path == oldPath) newPath

def inodeHasActiveHandle (s : State) (ino : Nat) : Bool :=
  let paths := s.pathToInode.keysWith (· == ino)
  s.fhTable.entries.any fun row => paths.contains row.2.path

def removeCachedInodePaths (s : State) (ino : Nat) : State :=
  if ino = rootIno then s
  else
    { s with
      pathToInode := s.pathToInode.keep fun _ cached => cached != ino
      inodeToPath := s.inodeToPath.erase ino }

def evictInodeIfUnreferenced (s : State) (ino : Nat) : State :=
  if ino = rootIno ∨ (s.lookupRefs.lookup ino).getD 0 ≠ 0 ∨ s.inodeHasActiveHandle ino then s
  else s.removeCachedInodePaths ino

def forgetLookupRefs (s : State) (ino nlookup : Nat) : State :=
  if ino = rootIno then s
  else
    match s.lookupRefs.lookup ino with
    | none => s
    | some current =>
      if current - nlookup ≠ 0 then
        { s with lookupRefs := s.lookupRefs.insert ino (current - nlookup) }
      else
        evictInodeIfUnreferenced { s with lookupRefs := s.lookupRefs.erase ino } ino

def fileIdForHandle (s : State) (fh : Nat) : Except Errno Nat :=
  match s.fhTable.lookup fh with
  | some handle => .ok handle.file
  | none => .error .EBADF

def insertHandle (s : State) (path : Path) (file : Nat) : State :=
  { s with
    nextFh := s.nextFh + 1
    fhTable := s.fhTable.insert s.nextFh ⟨path, file⟩
    openLeases := s.openLeases.insert s.nextFh file
    opened := s.opened.insert s.nextFh file }

def takeHandleState (s : State) (fh : Nat) : State :=
  match s.fhTable.lookup fh with
  | none => s
  | some handle =>
    let s' := { s with fhTable := s.fhTable.erase fh, openLeases := s.openLeases.erase fh }
    match s.pathToInode.lookup handle.path with
    | some ino => s'.evictInodeIfUnreferenced ino
    | none => s'

def release (s : State) (fh : Nat) : State :=
  { s.takeHandleState fh with opened := s.opened.erase fh }

end State

end Fod.Mount
