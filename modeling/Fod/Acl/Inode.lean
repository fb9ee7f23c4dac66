import Fod.Acl.Model

/-!
# The mode and the lists of an inode

The mode column of a row and the access list among its extended attributes are
written by the creation of the inode, by chmod and chown, by `setxattr` and by
writes, which clear the privileges of a file.
-/

namespace Fod.Acl

inductive OwnerKind where
  | file
  | dir
  | symlink
  deriving DecidableEq

/-- The row of an inode with its POSIX lists.  `capability` tells if it has the attribute
`security.capability`. -/
structure Inode where
  kind : OwnerKind
  seed : String
  owner : Owner
  mode : BitVec 32
  accessAcl : Option Blob
  defaultAcl : Option Blob
  capability : Bool

def parsePersistedPosixMode (mode : BitVec 32) : Except String (BitVec 32) :=
  if 0o7777 < mode then .error "persisted file mode exceeds the POSIX permission range 0o7777"
  else .ok mode

def storeMode (mode : BitVec 32) : Except String (BitVec 32) :=
  if 0o7777 < mode then .error "mode_octal_check" else .ok mode

def prepareDefaultAclInheritance (defaultAcl : Option Blob) (requestedMode umask : BitVec 32)
    (childIsDirectory : Bool) : Except String (BitVec 32 × Option Blob × Option Blob) :=
  match defaultAcl with
  | none => .ok (requestedMode &&& ~~~ umask, none, none)
  | some defaultAcl => do
    let (accessAcl, mode) ← constrainDefaultAclToMode defaultAcl requestedMode
    return (mode, some accessAcl, if childIsDirectory then some defaultAcl else none)

structure Creation where
  childIsDirectory : Bool
  seed : String
  owner : Owner
  defaultAcl : Option Blob
  requestedMode : BitVec 32
  umask : BitVec 32

def Creation.create (c : Creation) : Except String Inode := do
  let (mode, accessAcl, defaultAcl) ←
    prepareDefaultAclInheritance c.defaultAcl c.requestedMode c.umask c.childIsDirectory
  let mode ← storeMode mode
  return ⟨if c.childIsDirectory then .dir else .file, c.seed, c.owner, mode, accessAcl, defaultAcl,
    false⟩

structure PermissionChange where
  actor : Actor
  usePosixAcl : Bool
  mode : Option (BitVec 32)
  uid : Option (BitVec 32)
  gid : Option (BitVec 32)

inductive PermissionOutcome where
  | changed
  | missing
  | denied

def PermissionChange.chownsFile (change : PermissionChange) (i : Inode) : Bool :=
  i.kind == .file && (change.uid.isSome || change.gid.isSome)

def PermissionChange.denied (change : PermissionChange) (i : Inode) : Bool :=
  change.actor.uid != 0 &&
    (change.actor.uid != i.owner.uid ||
      change.uid.any (fun uid => uid != i.owner.uid) ||
      change.gid.any fun gid => gid != i.owner.gid && !change.actor.groups.contains gid)

/-- A symlink has no mode column, and its mode is read as `777`. -/
def Inode.currentMode (i : Inode) : Except String (BitVec 32) :=
  if i.kind = .symlink then .ok 0o777 else parsePersistedPosixMode i.mode

def Inode.updateMode (i : Inode) (mode : BitVec 32) : Except String (BitVec 32) :=
  if i.kind = .symlink then .ok i.mode else storeMode mode

def PermissionChange.newMode (change : PermissionChange) (i : Inode) (currentMode : BitVec 32) :
    BitVec 32 :=
  let mode := (change.mode.map fun mode => mode &&& 0o7777).getD currentMode
  let mode :=
    if change.mode.isSome && change.actor.uid != 0 &&
        !change.actor.groups.contains (change.gid.getD i.owner.gid) then mode &&& ~~~ 0o2000
    else mode
  if change.chownsFile i then mode &&& ~~~ 0o6000 else mode

def PermissionChange.newAcl (change : PermissionChange) (i : Inode) (mode : BitVec 32) :
    Except String (Option Blob) :=
  if change.mode.isSome && change.usePosixAcl && i.kind != .symlink then
    match i.accessAcl with
    | none => .ok none
    | some acl => (chmodAccessAcl acl mode).map some
  else .ok i.accessAcl

def Inode.changeInodePermissions (i : Inode) (expectedSeed : String) (change : PermissionChange) :
    Except String (Inode × PermissionOutcome) :=
  if i.seed ≠ expectedSeed then .ok (i, .missing)
  else do
    let currentMode ← i.currentMode
    if change.denied i then return (i, .denied)
    let mode := change.newMode i currentMode
    let acl ← change.newAcl i mode
    let stored ← i.updateMode mode
    return ({ i with
        owner := ⟨change.uid.getD i.owner.uid, change.gid.getD i.owner.gid⟩
        mode := stored
        accessAcl := acl
        capability := i.capability && !change.chownsFile i }, .changed)

inductive AclName where
  | access
  | default
  deriving DecidableEq

structure AclRequest where
  name : AclName
  value : Blob
  createOnly : Bool
  replaceOnly : Bool
  actorUid : BitVec 32
  killSgid : Bool

def Inode.acl (i : Inode) : AclName → Option Blob
  | .access => i.accessAcl
  | .default => i.defaultAcl

def Inode.withAcl (i : Inode) (value : Blob) : AclName → Inode
  | .access => { i with accessAcl := some value }
  | .default => { i with defaultAcl := some value }

def AclRequest.synchronizedMode (r : AclRequest) (currentMode : BitVec 32) (bits : BitVec 16) :
    BitVec 32 :=
  let mode := (currentMode &&& ~~~ 0o777) ||| (bits.setWidth 32 &&& 0o777)
  if r.killSgid then mode &&& ~~~ 0o2000 else mode

def Inode.storePosixAclForOwner (i : Inode) (r : AclRequest) (permissionBits : Option (BitVec 16)) :
    Except String Inode :=
  if i.kind = .symlink then .error "access ACL mode sync requires a file or directory"
  else if (r.name == .access) != permissionBits.isSome || (r.name == .default && i.kind != .dir) then
    .error "invalid POSIX ACL owner/name/mode combination"
  else if r.actorUid ≠ 0 ∧ r.actorUid ≠ i.owner.uid then .error "FOD_XATTR_PERMISSION_DENIED"
  else do
    let currentMode ← parsePersistedPosixMode i.mode
    if r.createOnly && (i.acl r.name).isSome then .error "FOD_XATTR_EXISTS"
    else if r.replaceOnly && (i.acl r.name).isNone then .error "FOD_XATTR_MISSING"
    else
      match permissionBits with
      | none => return i.withAcl r.value r.name
      | some bits => do
        let mode ← storeMode (r.synchronizedMode currentMode bits)
        return { i.withAcl r.value r.name with mode := mode }

def AclRequest.permissionBits (r : AclRequest) : Except Errno (Option (BitVec 16)) :=
  match r.name with
  | .access => (aclAccessModeBits r.value).map some
  | .default => do
    let entries ← parsePosixAclXattr r.value
    discard (modeFromAclEntries entries 0)
    return none

def Inode.setxattr (i : Inode) (r : AclRequest) : Except String Inode :=
  match r.permissionBits with
  | .error _ => .error "EINVAL"
  | .ok bits => i.storePosixAclForOwner r bits

def withoutPrivileges (mode : BitVec 32) : BitVec 32 :=
  let cleared := mode &&& ~~~ 0o4000
  if mode &&& 0o2010 = 0o2010 then cleared &&& ~~~ 0o2000 else cleared

def Inode.clearFilePrivileges (i : Inode) : Except String Inode :=
  if i.kind ≠ .file then .error "file missing while clearing privilege metadata"
  else do
    let currentMode ← parsePersistedPosixMode i.mode
    let mode ← storeMode (withoutPrivileges currentMode)
    return { i with mode := mode, capability := false }

inductive InodeOperation where
  | changePermissions (expectedSeed : String) (change : PermissionChange)
  | setxattr (request : AclRequest)
  | clearPrivileges

def InodeOperation.apply (i : Inode) : InodeOperation → Except String Inode
  | .changePermissions expectedSeed change =>
    (i.changeInodePermissions expectedSeed { change with usePosixAcl := true }).map Prod.fst
  | .setxattr request => i.setxattr request
  | .clearPrivileges => i.clearFilePrivileges

def InodeOperation.after (i : Inode) (op : InodeOperation) : Inode :=
  match op.apply i with
  | .ok i' => i'
  | .error _ => i

def Inode.run (i : Inode) (ops : List InodeOperation) : Inode := ops.foldl InodeOperation.after i

end Fod.Acl
