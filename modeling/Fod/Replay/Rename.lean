import Fod.Replay.Operations

/-!
# Renames and promotions

A rename with the removal of the entry that it replaces, and the promotion of a
hardlink to the primary name of its file.
-/

namespace Fod.Replay

open Fod.Data

inductive RenameOutcome where
  | applied
  | busy
  | sourceMissing
  | targetExists
  | targetNotEmpty
  | noOpSameFile
  | invalidDirectoryCycle
  deriving DecidableEq

structure RenameRequest where
  source : Entry
  old : Location
  new : Location
  expectedTarget : Option Entry
  noReplace : Bool
  actor : Nat

def RenameRequest.target (r : RenameRequest) : Option Entry :=
  if r.noReplace then none else r.expectedTarget

/-- The inode of a symlink is not compared. -/
def Entry.sameRow : Entry → Entry → Bool
  | .symlinkHardlink a _, .symlinkHardlink b _ => a == b
  | a, b => a == b

def Entry.matchesTarget : Option Entry → Option Entry → Bool
  | none, none => true
  | some expected, some found => expected.sameRow found
  | _, _ => false

namespace Tables

def linksOf (t : Tables) (f : Nat) : List Nat := t.hardlinks.keysWith fun link => link.file == f

def chosenLink (t : Tables) (f : Nat) : Option (Nat × Hardlink) :=
  (t.linksOf f).min?.bind fun id => (t.hardlinks.lookup id).map (id, ·)

def promote (t : Tables) (f : Nat) (row : File) (id : Nat) (link : Hardlink) : Tables :=
  { t with
    files := t.files.insert f { row with location := link.location }
    hardlinks := t.hardlinks.erase id }

def promoteHardlinkToPrimary (t : Tables) (token f : Nat) : Tables × Bool :=
  match t.files.lookup f with
  | none => (t, false)
  | some row =>
    match t.chosenLink f with
    | none => ({ t with promotionTokens := t.promotionTokens.insert token (f, false) }, false)
    | some (id, link) =>
      ({ t.promote f row id link with
          promotionTokens := t.promotionTokens.insert token (f, true) }, true)

/-- A file goes with the rows that point to it, and its object with the last file. -/
def deleteFile (t : Tables) (f : Nat) : Except Error Tables :=
  match t.data.fileDataObjectInfo f with
  | none => .error .targetDisappeared
  | some (o, object) =>
    let db := { t.data with files := t.data.files.erase f }
    let db :=
      if object.referenceCount ≤ 1 then { db with objects := db.objects.erase o }
      else db.touchOldObject o
    .ok { t.setData db with
      files := t.files.erase f
      hardlinks := t.hardlinks.keep fun _ link => link.file != f
      promotionTokens := t.promotionTokens.keep fun _ outcome => outcome.1 != f
      writeLeases := t.writeLeases.erase f
      opened := t.opened.filter (· != f) }

def hiddenName (f : Nat) : Text := ".fod-unlinked-rename-".toList ++ decimal f

def removePrimaryFile (t : Tables) (f : Nat) : Except Error Tables :=
  match t.files.lookup f with
  | none => .error .targetDisappeared
  | some row =>
    match t.chosenLink f with
    | some (id, link) => .ok (t.promote f row id link)
    | none =>
      if f ∈ t.opened then
        .ok { t with
          files := t.files.insert f
            { row with location := (row.location.1, hiddenName f), unlinked := true } }
      else t.deleteFile f

def chosenAlias (t : Tables) (s : Nat) : Option (Nat × SymlinkHardlink) :=
  (t.symlinkHardlinks.keysWith fun link => link.symlink == s).min?.bind fun id =>
    (t.symlinkHardlinks.lookup id).map (id, ·)

def removeSymlink (t : Tables) (s : Nat) : Tables :=
  match t.chosenAlias s with
  | none => { t with symlinks := t.symlinks.erase s }
  | some (id, link) =>
    { t with
      symlinks := t.symlinks.adjust fun k row =>
        if k = s then { row with location := link.location } else row
      symlinkHardlinks := t.symlinkHardlinks.erase id }

def hasChildren (t : Tables) (d : Nat) : Bool := t.entries.any fun row => row.2.1 == d

/-- No tables if the directory has children.  The rows of hidden files keep their directory. -/
def removeDirectory (t : Tables) (d : Nat) : Except Error (Option Tables) :=
  if t.hasChildren d then .ok none
  else if t.files.entries.any (fun row => row.2.location.1 == d) then .error .foreignKeyViolation
  else .ok (some { t with directories := t.directories.erase d })

def removeTarget (t : Tables) : Entry → Except Error (Option Tables)
  | .file f => (t.removePrimaryFile f).map some
  | .hardlink id _ => .ok (some { t with hardlinks := t.hardlinks.erase id })
  | .symlink s => .ok (some (t.removeSymlink s))
  | .symlinkHardlink id _ => .ok (some { t with symlinkHardlinks := t.symlinkHardlinks.erase id })
  | .directory d => t.removeDirectory d

def moveEntry (t : Tables) (new : Location) : Entry → Tables
  | .file f =>
    { t with files := t.files.adjust fun k row => if k = f then { row with location := new } else row }
  | .hardlink id _ =>
    { t with
      hardlinks := t.hardlinks.adjust fun k row =>
        if k = id then { row with location := new } else row }
  | .symlink s =>
    { t with
      symlinks := t.symlinks.adjust fun k row =>
        if k = s then { row with location := new } else row }
  | .symlinkHardlink id _ =>
    { t with
      symlinkHardlinks := t.symlinkHardlinks.adjust fun k row =>
        if k = id then { row with location := new } else row }
  | .directory d =>
    { t with
      directories := t.directories.adjust fun k row =>
        if k = d then { row with location := new } else row }

def resolve (t : Tables) (location : Location) : Option (Option Entry) :=
  match t.entriesAt location with
  | [] => some none
  | [e] => some (some e)
  | _ => none

def inSubtree (t : Tables) (d : Nat) : Nat → Nat → Bool
  | 0, a => a == d
  | steps + 1, a =>
    a == d || (t.directories.lookup a).any fun row => t.inSubtree d steps row.location.1

def makesCycle (t : Tables) (source : Entry) (parent : Nat) : Bool :=
  match source with
  | .directory d =>
    parent != 0 && (t.directories.lookup d).isSome &&
      t.inSubtree d t.directories.keys.length parent
  | _ => false

def leased (t : Tables) (e : Entry) : Bool := e.fileId.any fun f => (t.writeLeases.lookup f).isSome

def symlinkMissing (t : Tables) (e : Entry) : Bool :=
  e.symlinkId.any fun s => (t.symlinks.lookup s).isNone

def aliasChanged (t : Tables) : Entry → Bool
  | .symlinkHardlink id s => (t.symlinkHardlinks.lookup id).map SymlinkHardlink.symlink != some s
  | _ => false

def renameStopped (t : Tables) (r : RenameRequest) : Option RenameOutcome :=
  if r.old ∈ t.destinationLeases ∨ r.new ∈ t.destinationLeases then some .busy
  else if t.leased r.source || r.target.any t.leased then some .busy
  else
    match t.resolve r.old with
    | none => some .busy
    | some source =>
      if !source.any (Entry.sameRow r.source) then some .sourceMissing
      else
        match t.resolve r.new with
        | none => some .busy
        | some target =>
          if r.noReplace && target.isSome then some .targetExists
          else if !Entry.matchesTarget r.target target then some .busy
          else if t.symlinkMissing r.source || r.target.any t.symlinkMissing then
            some .sourceMissing
          else if t.aliasChanged r.source || r.target.any t.aliasChanged then some .busy
          else if t.makesCycle r.source r.new.1 then some .invalidDirectoryCycle
          else none

def owner (t : Tables) : Entry → Option Nat
  | .file f | .hardlink _ f => (t.files.lookup f).map File.uid
  | .symlink s | .symlinkHardlink _ s => (t.symlinks.lookup s).map Symlink.uid
  | .directory d => (t.directories.lookup d).map Directory.uid

def requireStickyRemoval (t : Tables) (parent : Nat) (e : Entry) (actor : Nat) :
    Except Error Unit :=
  if actor = 0 ∨ parent = 0 then .ok ()
  else
    match t.directories.lookup parent with
    | none => .error .namespaceParentMissing
    | some row =>
      if row.mode &&& 0o1000 = 0 ∨ actor = row.uid then .ok ()
      else
        match t.owner e with
        | none => .error .namespaceSourceChanged
        | some uid => if actor = uid then .ok () else .error .stickyPermissionDenied

def sameInode (a b : Entry) : Bool :=
  (a.fileId.isSome && a.fileId == b.fileId) || (a.symlinkId.isSome && a.symlinkId == b.symlinkId)

def requireParent (t : Tables) (location : Location) : Except Error Unit :=
  if location.1 ≠ 0 ∧ t.directories.lookup location.1 = none then .error .foreignKeyViolation
  else .ok ()

def replaceTarget (t : Tables) (r : RenameRequest) : Except Error (Tables × RenameOutcome) :=
  match r.target with
  | none => do
    t.requireParent r.new
    return (t.moveEntry r.new r.source, .applied)
  | some target => do
    match ← t.removeTarget target with
    | none => return (t, .targetNotEmpty)
    | some removed =>
      removed.requireParent r.new
      return (removed.moveEntry r.new r.source, .applied)

def rename (t : Tables) (r : RenameRequest) : Except Error (Tables × RenameOutcome) :=
  match t.renameStopped r with
  | some outcome => .ok (t, outcome)
  | none => do
    t.requireStickyRemoval r.old.1 r.source r.actor
    match r.target with
    | none => pure ()
    | some target => t.requireStickyRemoval r.new.1 target r.actor
    if r.target.any (sameInode r.source) then return (t, .noOpSameFile)
    t.replaceTarget r

end Tables

end Fod.Replay
