import Fod.Acl.Model
import Fod.Lib.SeparatedPath
import Fod.Replay.Rename

/-!
# The rename of the frontend

`FodFuse::rename` builds the two paths as texts, resolves them, decides about kinds and
cycles, and then calls the transaction of the repository, which resolves the names
again from the rows.
-/

namespace Fod.Rename

open Fod.Replay SeparatedPath

inductive Errno where
  | einval
  | erofs
  | enametoolong
  | enoent
  | eio
  | enotdir
  | eisdir
  | ebusy
  | eexist
  | enotempty
  | eacces
  | eperm
  deriving DecidableEq

structure Subject where
  uid : Nat
  gid : Nat
  groups : List Nat

/-- `pathForInode` is the cache of paths, and `accessAcls` holds the access lists of the
directories.  The inode of a directory is given by its id, and that of the root is `0`. -/
structure Mount where
  readOnly : Bool
  aclEnabled : Bool
  accessAcls : Nat → Option Acl.Blob
  pathForInode : Nat → Option Text

/-- A request of the kernel, with or without `RENAME_NOREPLACE`.  The kernel sends single
components. -/
structure Call where
  parent : Nat
  name : Text
  newParent : Nat
  newName : Text
  noReplace : Bool
  subject : Subject
  nameComponent : Component '/' name
  newNameComponent : Component '/' newName

def Call.old (c : Call) : Location := (c.parent, c.name)

def Call.new (c : Call) : Location := (c.newParent, c.newName)

inductive TransactionError where
  | repository (error : Error)
  | parentAccessDenied
  | invalidAcl (text : String)
  | nameOctetLengthCheck

def tooLong (name : Text) : Bool := 255 < (name.map Char.utf8Size).sum

def Subject.allowed (s : Subject) (row : Directory) : Bool :=
  let bits :=
    if s.uid = row.uid then (row.mode >>> 6) &&& 0o7
    else if s.gid = row.gid ∨ row.gid ∈ s.groups then (row.mode >>> 3) &&& 0o7
    else row.mode &&& 0o7
  bits &&& 0o3 == 0o3

def requireParentWriteSearch (t : Tables) (parent : Nat) (s : Subject) : Except TransactionError Unit :=
  if s.uid = 0 ∨ parent = 0 then .ok ()
  else
    match t.directories.lookup parent with
    | none => .error (.repository .namespaceParentMissing)
    | some row => if s.allowed row then .ok () else .error .parentAccessDenied

/-- The row of the root has the name `/`. -/
def parentDirectory (t : Tables) (parent : Nat) : Option (Nat × Directory) :=
  let id :=
    if parent = 0 then (t.directories.keysWith fun row => row.location == (0, ['/'])).head?
    else some parent
  id.bind fun id => (t.directories.lookup id).map (id, ·)

def Mount.requireParentWriteSearchAcl (m : Mount) (t : Tables) (parent : Nat) (s : Subject) :
    Except TransactionError Unit :=
  if s.uid = 0 then .ok ()
  else
    match parentDirectory t parent with
    | none => .error (.repository .namespaceParentMissing)
    | some (id, row) =>
      let decision : Except String Bool :=
        match m.accessAcls id with
        | none => .ok (s.allowed row)
        | some acl =>
          Acl.aclHasPermissions acl ⟨BitVec.ofNat 32 s.uid, s.groups.map (BitVec.ofNat 32)⟩
            ⟨BitVec.ofNat 32 row.uid, BitVec.ofNat 32 row.gid⟩ 0o3
      match decision with
      | .error text => .error (.invalidAcl text)
      | .ok true => .ok ()
      | .ok false => .error .parentAccessDenied

def Mount.requireParents (m : Mount) (t : Tables) (r : RenameRequest) (s : Subject) :
    Except TransactionError Unit :=
  let check (parent : Nat) : Except TransactionError Unit :=
    if m.aclEnabled then m.requireParentWriteSearchAcl t parent s
    else requireParentWriteSearch t parent s
  if r.old.1 = r.new.1 then check r.old.1
  else do
    check (min r.old.1 r.new.1)
    check (max r.old.1 r.new.1)

/-- `rename_namespace_replace_with_ownership_guard_for_subject_acl` and its variant for
`RENAME_NOREPLACE`.  The update of the row checks the length of the name. -/
def Mount.renameNamespace (m : Mount) (t : Tables) (r : RenameRequest) (s : Subject) :
    Except TransactionError (Tables × RenameOutcome) :=
  match t.renameStopped r with
  | some outcome => .ok (t, outcome)
  | none => do
    m.requireParents t r s
    match t.rename r with
    | .error error => .error (.repository error)
    | .ok (t', outcome) =>
      if outcome = .applied ∧ tooLong r.new.2 then .error .nameOctetLengthCheck
      else .ok (t', outcome)

def TransactionError.errno : TransactionError → Errno
  | .parentAccessDenied => .eacces
  | .repository .namespaceEntryExists => .eexist
  | .repository .stickyPermissionDenied => .eperm
  | .repository .namespaceParentMissing => .enoent
  | .repository .namespaceSourceChanged => .enoent
  | .repository .linkSourceUnavailable => .enoent
  | _ => .eio

def outcomeErrno : RenameOutcome → Option Errno
  | .applied | .noOpSameFile => none
  | .busy => some .ebusy
  | .sourceMissing => some .enoent
  | .targetExists => some .eexist
  | .invalidDirectoryCycle => some .einval
  | .targetNotEmpty => some .enotempty

inductive DirectoryLookup where
  | root
  | directory (id : Nat)
  | missing

def getDirId (t : Tables) (path : Text) : Option Nat :=
  ((split '/' path).foldl (fun ids part => ids.flatMap fun parent =>
    t.directories.keysWith fun row => row.location == (parent, part)) [0]).head?

def lookupDirectory (t : Tables) (path : Text) : DirectoryLookup :=
  if path.all (· == '/') then .root
  else
    match getDirId t path with
    | some id => .directory id
    | none => .missing

def splitPath (path : Text) : Text × Text :=
  match rsplitOnce '/' path with
  | none => (['/'], path)
  | some (parent, name) =>
    if name = [] then (['/'], path) else (if parent = [] then ['/'] else parent, name)

def resolvePath (t : Tables) (path : Text) : Except Errno (Option Entry) :=
  if path = [] then .ok none
  else
    let (parentPath, name) := splitPath path
    let found :=
      match lookupDirectory t parentPath with
      | .root => t.resolve (0, name)
      | .directory id => t.resolve (id, name)
      | .missing => some none
    match found with
    | none => .error .eio
    | some entry => .ok entry

def Mount.entryPathForIno (m : Mount) (ino : Nat) : Except Errno Text :=
  if ino = 0 then .ok ['/']
  else
    match m.pathForInode ino with
    | none => .error .enoent
    | some path => .ok path

def Mount.parentEntryIdForInode (m : Mount) (t : Tables) (ino : Nat) : Except Errno Nat :=
  if ino = 0 then .ok 0
  else do
    let path ← m.entryPathForIno ino
    match ← resolvePath t path with
    | some (.directory id) => if id = ino then .ok id else .error .enoent
    | _ => .error .enoent

def isDirectory : Entry → Bool
  | .directory _ => true
  | _ => false

def protectedKind : Entry → Bool
  | .symlinkHardlink _ _ => false
  | _ => true

def checkKinds (noReplace : Bool) (source existing : Option Entry) (oldPath newParentPath : Text) :
    Except Errno Unit :=
  if !noReplace || existing.isNone then
    if source.any isDirectory then
      if newParentPath = oldPath ∨ trimEnd '/' oldPath ++ ['/'] <+: newParentPath then .error .einval
      else if existing.any fun e => !isDirectory e then .error .enotdir
      else .ok ()
    else if existing.any isDirectory then .error .eisdir
    else .ok ()
  else .ok ()

def Mount.protectedRename (m : Mount) (t : Tables) (c : Call) (newParentId : Nat)
    (source existing : Option Entry) : Except Errno Tables :=
  match source with
  | none => .error .eio
  | some source =>
    if !protectedKind source || existing.any (fun e => !protectedKind e) then .error .eio
    else do
      let oldParentId ← m.parentEntryIdForInode t c.parent
      match m.renameNamespace t ⟨source, (oldParentId, c.name), (newParentId, c.newName), existing,
          c.noReplace, c.subject.uid⟩ c.subject with
      | .error error => .error error.errno
      | .ok (t', outcome) =>
        match outcomeErrno outcome with
        | none => .ok t'
        | some errno => .error errno

def Mount.renamePaths (m : Mount) (t : Tables) (c : Call) (oldPath newPath newParentPath : Text)
    (newParentId : Nat) (source : Option Entry) : Except Errno Tables :=
  if oldPath = newPath then
    if c.noReplace then .error .eexist else .ok t
  else do
    let existing ← resolvePath t newPath
    checkKinds c.noReplace source existing oldPath newParentPath
    m.protectedRename t c newParentId source existing

def Mount.rename (m : Mount) (t : Tables) (c : Call) : Except Errno Tables :=
  if m.readOnly then .error .erofs
  else if tooLong c.name || tooLong c.newName then .error .enametoolong
  else do
    let oldParentPath ← m.entryPathForIno c.parent
    let newParentPath ← m.entryPathForIno c.newParent
    let oldPath := join '/' oldParentPath c.name
    let newPath := join '/' newParentPath c.newName
    let source ← resolvePath t oldPath
    let newParentId ← m.parentEntryIdForInode t c.newParent
    m.renamePaths t c oldPath newPath newParentPath newParentId source

end Fod.Rename
