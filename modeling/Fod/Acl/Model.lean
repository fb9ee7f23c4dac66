import Fod.Lib.BitSet

/-!
# Access control lists

The extended attribute of a POSIX ACL is a version and a sequence of entries of
eight bytes.  Two functions decide by it, one in the transactions of the store and
one in the FUSE frontend, and a third one derives the list of a new file from the
default list of its directory.
-/

namespace Fod.Acl

abbrev Blob := List (BitVec 8)

structure AclEntry where
  tag : BitVec 16
  perm : BitVec 16
  id : BitVec 32
  deriving DecidableEq

structure Actor where
  uid : BitVec 32
  groups : List (BitVec 32)

structure Owner where
  uid : BitVec 32
  gid : BitVec 32

def aclUserObj : BitVec 16 := 0x0001
def aclUser : BitVec 16 := 0x0002
def aclGroupObj : BitVec 16 := 0x0004
def aclGroup : BitVec 16 := 0x0008
def aclMask : BitVec 16 := 0x0010
def aclOther : BitVec 16 := 0x0020

def u16FromLe (b0 b1 : BitVec 8) : BitVec 16 := b1 ++ b0

def u32FromLe (b0 b1 b2 b3 : BitVec 8) : BitVec 32 := b3 ++ b2 ++ b1 ++ b0

def u16ToLe (p : BitVec 16) : BitVec 8 × BitVec 8 := (p.extractLsb' 0 8, p.extractLsb' 8 8)

def version (acl : Blob) : BitVec 32 :=
  u32FromLe (acl.getD 0 0) (acl.getD 1 0) (acl.getD 2 0) (acl.getD 3 0)

def chunks : Blob → List AclEntry
  | b0 :: b1 :: b2 :: b3 :: b4 :: b5 :: b6 :: b7 :: rest =>
    ⟨u16FromLe b0 b1, u16FromLe b2 b3, u32FromLe b4 b5 b6 b7⟩ :: chunks rest
  | _ => []

def aclEntries (acl : Blob) : List AclEntry := chunks (acl.drop 4)

structure AclScan where
  userObj : Option (BitVec 16)
  groupObj : Option (BitVec 16)
  mask : Option (BitVec 16)
  other : Option (BitVec 16)
  namedUser : Option (BitVec 16)
  hasNamedEntry : Bool
  matchedGroup : Bool
  groupPermissions : BitVec 16
  stage : Nat
  namedUserIds : List (BitVec 32)
  namedGroupIds : List (BitVec 32)

def AclScan.init : AclScan := ⟨none, none, none, none, none, false, false, 0, 0, [], []⟩

def scanEntry (actor : Actor) (owner : Owner) (s : AclScan) (e : AclEntry) :
    Except String AclScan :=
  if e.perm &&& ~~~ 0o7#16 ≠ 0 then .error "invalid POSIX ACL permission bits"
  else if e.tag = aclUserObj ∧ s.stage = 0 then
    .ok { s with stage := 1, userObj := some e.perm }
  else if e.tag = aclUser ∧ s.stage = 1 ∧ e.id ≠ BitVec.allOnes 32 then
    if e.id ∈ s.namedUserIds then .error "duplicate POSIX ACL named user"
    else
      .ok { s with
        namedUserIds := s.namedUserIds ++ [e.id]
        hasNamedEntry := true
        namedUser := if e.id = actor.uid then some e.perm else s.namedUser }
  else if e.tag = aclGroupObj ∧ s.stage = 1 then
    .ok { s with
      stage := 2
      matchedGroup := s.matchedGroup || decide (owner.gid ∈ actor.groups)
      groupPermissions :=
        if owner.gid ∈ actor.groups then s.groupPermissions ||| e.perm else s.groupPermissions
      groupObj := some e.perm }
  else if e.tag = aclGroup ∧ s.stage = 2 ∧ e.id ≠ BitVec.allOnes 32 then
    if e.id ∈ s.namedGroupIds then .error "duplicate POSIX ACL named group"
    else
      .ok { s with
        namedGroupIds := s.namedGroupIds ++ [e.id]
        hasNamedEntry := true
        matchedGroup := s.matchedGroup || decide (e.id ∈ actor.groups)
        groupPermissions :=
          if e.id ∈ actor.groups then s.groupPermissions ||| e.perm else s.groupPermissions }
  else if e.tag = aclMask ∧ s.stage = 2 then .ok { s with stage := 3, mask := some e.perm }
  else if e.tag = aclOther ∧ (s.stage = 2 ∨ s.stage = 3) then
    .ok { s with stage := 4, other := some e.perm }
  else .error "invalid POSIX ACL entry"

def decideAccess (actor : Actor) (owner : Owner) (requested : BitVec 16) (s : AclScan) : Bool :=
  if actor.uid = owner.uid then s.userObj.getD 0 &&& requested == requested
  else
    match s.namedUser with
    | some permissions => permissions &&& s.mask.getD 0o7 &&& requested == requested
    | none =>
      if s.matchedGroup then
        let permissions :=
          if owner.gid ∈ actor.groups then s.groupPermissions ||| s.groupObj.getD 0
          else s.groupPermissions
        permissions &&& s.mask.getD 0o7 &&& requested == requested
      else s.other.getD 0 &&& requested == requested

def aclHasPermissions (acl : Blob) (actor : Actor) (owner : Owner) (requested : BitVec 16) :
    Except String Bool :=
  if acl.length < 4 ∨ (acl.length - 4) % 8 ≠ 0 then .error "invalid POSIX ACL xattr length"
  else if version acl ≠ 2 then .error "unsupported POSIX ACL xattr version"
  else
    match (aclEntries acl).foldlM (scanEntry actor owner) AclScan.init with
    | .error e => .error e
    | .ok s =>
      if s.stage ≠ 4 ∨ s.userObj.isNone ∨ s.groupObj.isNone ∨ s.other.isNone then
        .error "incomplete POSIX ACL xattr"
      else if s.hasNamedEntry ∧ s.mask.isNone then .error "incomplete POSIX ACL xattr"
      else .ok (decideAccess actor owner requested s)

inductive Errno where
  | einval
  deriving DecidableEq

/-- The loop of `parse_posix_acl_xattr`.  The ids are read as `i32`. -/
def parseEntries : Blob → Except Errno (List AclEntry)
  | b0 :: b1 :: b2 :: b3 :: b4 :: b5 :: b6 :: b7 :: rest => do
    let tag := u16FromLe b0 b1
    let id :=
      if tag = aclUserObj ∨ tag = aclGroupObj ∨ tag = aclOther ∨ tag = aclMask then -1
      else u32FromLe b4 b5 b6 b7
    let entries ← parseEntries rest
    return ⟨tag, u16FromLe b2 b3, id⟩ :: entries
  | [] => .ok []
  | _ => .error .einval

def parsePosixAclXattr (value : Blob) : Except Errno (List AclEntry) :=
  if value.length < 4 then .error .einval
  else if version value ≠ 2 then .error .einval
  else parseEntries (value.drop 4)

def accessMaskFromMode (mode : BitVec 32) : BitVec 16 :=
  (if mode &&& 4 ≠ 0 then 0o4#16 else 0) ||| (if mode &&& 2 ≠ 0 then 0o2#16 else 0) |||
    (if mode &&& 1 ≠ 0 then 0o1#16 else 0)

structure FrontendScan where
  maskPerm : BitVec 16
  userObjPerm : Option (BitVec 16)
  groupObjPerm : Option (BitVec 16)
  otherPerm : Option (BitVec 16)
  namedUserPerm : Option (BitVec 16)
  namedGroupMatches : List (BitVec 32 × BitVec 16)

def frontendEntry (actor : Actor) (s : FrontendScan) (e : AclEntry) : FrontendScan :=
  let perm := e.perm &&& 0o7
  if e.tag = aclUserObj then { s with userObjPerm := some perm }
  else if e.tag = aclUser ∧ 0 ≤ e.id.toInt ∧ e.id = actor.uid then
    { s with namedUserPerm := some perm }
  else if e.tag = aclGroupObj then { s with groupObjPerm := some perm }
  else if e.tag = aclGroup ∧ 0 ≤ e.id.toInt then
    { s with namedGroupMatches := s.namedGroupMatches ++ [(e.id, perm)] }
  else if e.tag = aclMask then { s with maskPerm := perm }
  else if e.tag = aclOther then { s with otherPerm := some perm }
  else s

def aclPermissionFromEntries (actor : Actor) (entries : List AclEntry) (owner : Owner)
    (mode : BitVec 32) : Bool :=
  if actor.uid = 0 then true
  else
    let required := accessMaskFromMode mode
    let s := entries.foldl (frontendEntry actor) ⟨0o7, none, none, none, none, []⟩
    if owner.uid = actor.uid then s.userObjPerm.getD 0 &&& required == required
    else
      match s.namedUserPerm with
      | some perm => perm &&& s.maskPerm &&& required == required
      | none =>
        let owning := if owner.gid ∈ actor.groups then 0 ||| s.groupObjPerm.getD 0 else 0
        let groupAllowed := s.namedGroupMatches.foldl
          (fun allowed group => if group.1 ∈ actor.groups then allowed ||| group.2 else allowed)
          owning
        if groupAllowed ≠ 0 then groupAllowed &&& s.maskPerm &&& required == required
        else s.otherPerm.getD 0 &&& required == required

structure DefaultScan where
  hasMask : Bool
  hasNamedEntry : Bool
  userObj : Option (BitVec 16)
  groupObj : Option (BitVec 16)
  aclMask : Option (BitVec 16)
  other : Option (BitVec 16)

def ownerBits (mode : BitVec 32) : BitVec 16 := ((mode >>> 6) &&& 0o7).setWidth 16
def groupBits (mode : BitVec 32) : BitVec 16 := ((mode >>> 3) &&& 0o7).setWidth 16
def otherBits (mode : BitVec 32) : BitVec 16 := (mode &&& 0o7).setWidth 16

def constrainEntry (mode : BitVec 32) (s : DefaultScan) (tag perm : BitVec 16) :
    Except String (BitVec 16 × DefaultScan) :=
  if tag = aclUserObj then
    let perm := perm &&& ownerBits mode
    .ok (perm, { s with userObj := some perm })
  else if tag = aclUser ∨ tag = aclGroup then .ok (perm, { s with hasNamedEntry := true })
  else if tag = aclGroupObj then .ok (perm, { s with groupObj := some perm })
  else if tag = Acl.aclMask then
    let perm := perm &&& groupBits mode
    .ok (perm, { s with hasMask := true, aclMask := some perm })
  else if tag = aclOther then
    let perm := perm &&& otherBits mode
    .ok (perm, { s with other := some perm })
  else .error "invalid POSIX ACL entry tag"

def constrainEntries (mode : BitVec 32) : Blob → DefaultScan → Except String (Blob × DefaultScan)
  | b0 :: b1 :: b2 :: b3 :: b4 :: b5 :: b6 :: b7 :: rest, s =>
    match constrainEntry mode s (u16FromLe b0 b1) (u16FromLe b2 b3) with
    | .error e => .error e
    | .ok (perm, s) =>
      match constrainEntries mode rest s with
      | .error e => .error e
      | .ok (rest, s) =>
        let (lo, hi) := u16ToLe perm
        .ok (b0 :: b1 :: lo :: hi :: b4 :: b5 :: b6 :: b7 :: rest, s)
  | rest, s => .ok (rest, s)

def constrainDefaultAclToMode (value : Blob) (mode : BitVec 32) :
    Except String (Blob × BitVec 32) :=
  if value.length < 4 ∨ (value.length - 4) % 8 ≠ 0 then
    .error "invalid POSIX default ACL xattr length"
  else if version value ≠ 2 then .error "unsupported POSIX ACL xattr version"
  else
    match constrainEntries mode (value.drop 4) ⟨false, false, none, none, none, none⟩ with
    | .error e => .error e
    | .ok (entries, s) =>
      if s.hasNamedEntry ∧ !s.hasMask then
        .error "POSIX ACL with named entries is missing ACL_MASK"
      else
        match s.userObj, s.aclMask.or s.groupObj, s.other with
        | none, _, _ => .error "POSIX ACL is missing ACL_USER_OBJ"
        | some _, none, _ => .error "POSIX ACL is missing ACL_GROUP_OBJ"
        | some _, some _, none => .error "POSIX ACL is missing ACL_OTHER"
        | some ownerPerm, some groupPerm, some otherPerm =>
          .ok (value.take 4 ++ entries,
            (mode &&& ~~~ 0o777#32) ||| (ownerPerm.setWidth 32 <<< 6) |||
              (groupPerm.setWidth 32 <<< 3) ||| otherPerm.setWidth 32)

structure ModeScan where
  userObjPerm : Option (BitVec 16)
  groupObjPerm : Option (BitVec 16)
  maskPerm : Option (BitVec 16)
  otherPerm : Option (BitVec 16)
  hasNamedEntry : Bool

def modeEntry (s : ModeScan) (e : AclEntry) : ModeScan :=
  let perm := e.perm &&& 0o7
  if e.tag = aclUserObj then { s with userObjPerm := some perm }
  else if e.tag = aclUser ∨ e.tag = aclGroup then { s with hasNamedEntry := true }
  else if e.tag = aclGroupObj then { s with groupObjPerm := some perm }
  else if e.tag = aclMask then { s with maskPerm := some perm }
  else if e.tag = aclOther then { s with otherPerm := some perm }
  else s

def modeFromAclEntries (entries : List AclEntry) (currentPerm : BitVec 16) :
    Except Errno (BitVec 16) :=
  let s := entries.foldl modeEntry ⟨none, none, none, none, false⟩
  if s.hasNamedEntry ∧ s.maskPerm.isNone then .error .einval
  else
    match s.userObjPerm, s.maskPerm.or s.groupObjPerm, s.otherPerm with
    | some userBits, some groupBits, some otherBits =>
      .ok ((currentPerm &&& ~~~ 0o777#16) ||| (userBits <<< 6) ||| (groupBits <<< 3) ||| otherBits)
    | _, _, _ => .error .einval

def aclAccessModeBits (value : Blob) : Except Errno (BitVec 16) := do
  let entries ← parsePosixAclXattr value
  let mode ← modeFromAclEntries entries 0
  return mode &&& 0o777

structure ChmodScan where
  userObj : Bool
  groupObj : Option Nat
  hasMask : Bool
  otherEntry : Bool
  hasNamedEntry : Bool

def chmodEntry (mode : BitVec 32) (index : Nat) (s : ChmodScan) (tag perm : BitVec 16) :
    Except String (BitVec 16 × ChmodScan) :=
  if perm &&& ~~~ 0o7#16 ≠ 0 then .error "invalid POSIX ACL permission bits"
  else if tag = aclUserObj ∧ s.userObj = false then .ok (ownerBits mode, { s with userObj := true })
  else if tag = aclUser ∨ tag = aclGroup then .ok (perm, { s with hasNamedEntry := true })
  else if tag = aclGroupObj ∧ s.groupObj = none then .ok (perm, { s with groupObj := some index })
  else if tag = aclMask ∧ s.hasMask = false then .ok (groupBits mode, { s with hasMask := true })
  else if tag = aclOther ∧ s.otherEntry = false then .ok (otherBits mode, { s with otherEntry := true })
  else .error "invalid or duplicate POSIX ACL entry"

def chmodEntries (mode : BitVec 32) : Blob → Nat → ChmodScan → Except String (Blob × ChmodScan)
  | b0 :: b1 :: b2 :: b3 :: b4 :: b5 :: b6 :: b7 :: rest, index, s =>
    match chmodEntry mode index s (u16FromLe b0 b1) (u16FromLe b2 b3) with
    | .error e => .error e
    | .ok (perm, s) =>
      match chmodEntries mode rest (index + 1) s with
      | .error e => .error e
      | .ok (rest, s) =>
        let (lo, hi) := u16ToLe perm
        .ok (b0 :: b1 :: lo :: hi :: b4 :: b5 :: b6 :: b7 :: rest, s)
  | rest, _, s => .ok (rest, s)

def setPermissions (entries : Blob) (index : Nat) (perm : BitVec 16) : Blob :=
  let (lo, hi) := u16ToLe perm
  (entries.set (index * 8 + 2) lo).set (index * 8 + 3) hi

def chmodAccessAcl (value : Blob) (mode : BitVec 32) : Except String Blob :=
  if value.length < 4 ∨ (value.length - 4) % 8 ≠ 0 then .error "invalid POSIX ACL xattr length"
  else if version value ≠ 2 then .error "unsupported POSIX ACL xattr version"
  else
    match chmodEntries mode (value.drop 4) 0 ⟨false, none, false, false, false⟩ with
    | .error e => .error e
    | .ok (entries, s) =>
      match s.groupObj with
      | none => .error "incomplete POSIX ACL xattr"
      | some groupObj =>
        if !s.userObj ∨ !s.otherEntry ∨ (s.hasNamedEntry ∧ !s.hasMask) then
          .error "incomplete POSIX ACL xattr"
        else if !s.hasMask then
          .ok (value.take 4 ++ setPermissions entries groupObj (groupBits mode))
        else .ok (value.take 4 ++ entries)

end Fod.Acl
