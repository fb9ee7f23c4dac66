import Fod.Namespace.Model

/-!
# The namespace transactions

Each request of the repository API is the list of statements its transaction
runs.  An early return without a write is the end of the list.
-/

namespace Fod.Namespace

def Entry.fileId : Entry → Option Nat
  | .file f | .hardlink _ f => some f
  | _ => none

def Entry.symlinkId : Entry → Option Nat
  | .symlink sl | .symlinkHardlink _ sl => some sl
  | _ => none

def Entry.isAlias : Entry → Bool
  | .symlinkHardlink _ _ => true
  | _ => false

def Entry.owned (e : Entry) : Entry :=
  match e with
  | .hardlink _ f => .file f
  | .symlinkHardlink _ sl => .symlink sl
  | _ => e

def requireNamespaceVacant (p : Place) : List Stmt :=
  p.parentRow.toList.map (.lockRow · .keyShare) ++ [.requireVacant p]

def inheritParentSetgid (p : Place) : List Stmt :=
  match p.parentRow with
  | some d => [.lockRow d .noKeyUpdate]
  | none => [.lockRoot]

def touchParent (p : Place) : List Stmt :=
  p.parentRow.toList.map (.lockRow · .noKeyUpdate)

def createFile (seed : String) (p : Place) (actor : Actor) : List Stmt :=
  [.lock (.inodeSeed seed), .lock (.destination p)] ++
    requireParentWriteSearch actor p.parent ++ requireNamespaceVacant p ++
    inheritParentSetgid p ++ [.write (.insert .file p)] ++ touchParent p

def createNode (new : NewEntry) (p : Place) (actor : Actor) : List Stmt :=
  [.lock (.destination p)] ++ requireParentWriteSearch actor p.parent ++
    requireNamespaceVacant p ++ inheritParentSetgid p ++ [.write (.insert new p)] ++ touchParent p

inductive BindingKind where
  | file
  | hardlink
  | symlink
  | symlinkHardlink
  | directory

structure SourceBinding where
  kind : BindingKind
  entryId : Nat
  place : Place

def SourceBinding.ofFile (b : SourceBinding) (f : Nat) : Option Entry :=
  match b.kind with
  | .file => if b.entryId = f then some (.file f) else none
  | .hardlink => some (.hardlink b.entryId f)
  | _ => none

def SourceBinding.ofSymlink (b : SourceBinding) (sl : Nat) : Option Entry :=
  match b.kind with
  | .symlink => if b.entryId = sl then some (.symlink sl) else none
  | .symlinkHardlink => some (.symlinkHardlink b.entryId sl)
  | _ => none

def insertHardlink (f : Nat) (p : Place) (actor : Actor) : List Stmt :=
  requireParentWriteSearch actor p.parent ++ requireNamespaceVacant p ++
    [.write (.insert (.hardlink f) p)] ++ touchParent p

def createHardlink (f : Nat) (source : Option SourceBinding) (p : Place) (actor : Actor) :
    List Stmt :=
  match source with
  | some b =>
    [.lock (.destination b.place), .lock (.destination p), .lock (.openFile f),
        .lockRow (.file f) .update] ++
      match b.ofFile f with
      | some e =>
        [.requireBound e b.place none, .requireVisible f] ++ insertHardlink f p actor
      | none => []
  | none =>
    [.lock (.openFile f), .lockRow (.file f) .update, .requireVisible f,
      .lock (.destination p)] ++ insertHardlink f p actor

def insertSymlinkHardlink (sl : Nat) (p : Place) (actor : Actor) : List Stmt :=
  requireParentWriteSearch actor p.parent ++ requireNamespaceVacant p ++
    [.write (.insert (.symlinkHardlink sl) p)]

def createSymlinkHardlink (sl : Nat) (source : Option SourceBinding) (p : Place)
    (actor : Actor) : List Stmt :=
  match source with
  | some b =>
    [.lock (.destination b.place), .lock (.destination p), .lockRow (.symlink sl) .update] ++
      match b.ofSymlink sl with
      | some e => .requireBound e b.place none :: insertSymlinkHardlink sl p actor
      | none => []
  | none =>
    [.lock (.destination p), .lockRow (.symlink sl) .update] ++
      insertSymlinkHardlink sl p actor

/-- `unlink_file_entry_internal`; `seed` is the file's stored inode seed. -/
def unlinkFile (f : Nat) (seed hidden : String) (p : Place) (actor : Actor) : List Stmt :=
  if hidden = "" ∨ p.name = "" then []
  else
    [.lock (.inodeSeed seed), .lock (.destination p), .lock (.openFile f),
      .lock (.openFile f), .lockRow (.file f) .update, .unlinkName f hidden p actor]

def unlinkSymlink (sl : Nat) (p : Place) (actor : Actor) : List Stmt :=
  [.lock (.destination p), .requireBound (.symlink sl) p (some .update)] ++
    requireParentWriteSearch actor p.parent ++
    requireStickyRemoval actor p.parent (.symlink sl) ++ [.removeSymlink sl]

def unlinkSymlinkHardlink (id : Nat) (p : Place) (actor : Actor) : List Stmt :=
  [.lock (.destination p), .unlinkAlias id p actor]

def invalidDirectoryName (name : String) : Bool :=
  name == "" || name == "/" || name == "." || name == ".." || name.toList.contains '/'

def unlinkDirectory (d : Nat) (p : Place) (actor : Actor) : List Stmt :=
  if invalidDirectoryName p.name then []
  else
    [.lock (.destination p), .requireBound (.directory d) p none] ++
      requireParentWriteSearch actor p.parent ++
      requireStickyRemoval actor p.parent (.directory d) ++
      [.requireEmpty d, .write (.detach d), .requireBound (.directory d) p (some .update),
        .requireEmpty d, .write (.delete (.directory d))]

def promoteHardlinkToPrimary (f : Nat) : List Stmt :=
  [.lock (.openFile f), .lockRow (.file f) .update, .promoteHardlink f]

def renameKeys (source : Entry) (old new : Place) (expected : Option Entry) : List Key :=
  let files := source.fileId.toList ++ (expected.bind Entry.fileId).toList
  let symlinks := source.symlinkId.toList ++ (expected.bind Entry.symlinkId).toList
  symlinks.map .inodeSymlink ++ files.map .openFile ++
    [.destination old, .destination new] ++ files.map .writeFile

def lockSymlinkRows (source : Entry) (expected : Option Entry) : List Stmt :=
  let entries := source :: expected.toList
  (entries.filterMap Entry.symlinkId).map (fun sl => .lockRow (.symlink sl) .update) ++
    (entries.filter Entry.isAlias).map .validate

def requireNoCycle (source : Entry) (new : Place) : List Stmt :=
  match source, new.parent with
  | .directory d, some q => [.requireOutside d q]
  | _, _ => []

def sameInode (source target : Entry) : Bool :=
  (source.fileId.isSome && source.fileId == target.fileId) ||
    (source.symlinkId.isSome && source.symlinkId == target.symlinkId)

def removeTarget : Entry → List Stmt
  | .file f => removePrimaryFile f
  | .symlink sl => [.removeSymlink sl]
  | .directory d => [.requireEmpty d, .write (.delete (.directory d))]
  | link => [.write (.delete link)]

def applyRename (source : Entry) (new : Place) : Option Entry → List Stmt
  | none => [.write (.rebind source new)]
  | some target =>
    if sameInode source target then []
    else removeTarget target ++ [.write (.rebind source new)]

def rename (source : Entry) (old new : Place) (expected : Option Entry) (noReplace : Bool)
    (actor : Actor) : List Stmt :=
  if old.name = "" ∨ new.name = "" then []
  else
    let expected := if noReplace then none else expected
    (renameKeys source old new expected).map .tryLock ++
      [.requireEntry old (some source), .requireEntry new expected] ++
      lockSymlinkRows source expected ++ requireNoCycle source new ++
      requireParentWriteSearch actor old.parent ++
      (if old.parent = new.parent then [] else requireParentWriteSearch actor new.parent) ++
      requireStickyRemoval actor old.parent source.owned ++
      (expected.toList.flatMap fun target =>
        requireStickyRemoval actor new.parent target.owned) ++
      applyRename source new expected

inductive Request where
  | createFile (seed : String) (p : Place) (actor : Actor)
  | createSpecialFile (seed : String) (p : Place) (actor : Actor)
  | createDirectory (p : Place) (actor : Actor)
  | createSymlink (p : Place) (actor : Actor)
  | createHardlink (file : Nat) (source : Option SourceBinding) (p : Place) (actor : Actor)
  | createSymlinkHardlink (symlink : Nat) (source : Option SourceBinding) (p : Place)
      (actor : Actor)
  | unlinkFile (file : Nat) (seed hidden : String) (p : Place) (actor : Actor)
  | unlinkSymlink (symlink : Nat) (p : Place) (actor : Actor)
  | unlinkSymlinkHardlink (id : Nat) (p : Place) (actor : Actor)
  | unlinkDirectory (directory : Nat) (p : Place) (actor : Actor)
  | promoteHardlinkToPrimary (file : Nat)
  | purgePrimaryFile (file : Nat)
  | rename (source : Entry) (old new : Place) (expected : Option Entry) (noReplace : Bool)
      (actor : Actor)

def Request.program : Request → List Stmt
  | .createFile seed p actor => Namespace.createFile seed p actor
  | .createSpecialFile seed p actor => Namespace.createFile seed p actor
  | .createDirectory p actor => createNode .directory p actor
  | .createSymlink p actor => createNode .symlink p actor
  | .createHardlink f source p actor => Namespace.createHardlink f source p actor
  | .createSymlinkHardlink sl source p actor =>
    Namespace.createSymlinkHardlink sl source p actor
  | .unlinkFile f seed hidden p actor => Namespace.unlinkFile f seed hidden p actor
  | .unlinkSymlink sl p actor => Namespace.unlinkSymlink sl p actor
  | .unlinkSymlinkHardlink id p actor => Namespace.unlinkSymlinkHardlink id p actor
  | .unlinkDirectory d p actor => Namespace.unlinkDirectory d p actor
  | .promoteHardlinkToPrimary f => Namespace.promoteHardlinkToPrimary f
  | .purgePrimaryFile f => Namespace.purgePrimaryFile f
  | .rename source old new expected noReplace actor =>
    Namespace.rename source old new expected noReplace actor

inductive Action where
  | start (request : Request)
  | exec (t : Nat) (choice : Bool)
  | commit (t id : Nat)
  | rollback (t : Nat)

def Write.inserted (id : Nat) : Write → Option Entry
  | .insert new _ => some (new.entry id)
  | _ => none

def inserted (id : Nat) (writes : List Write) : List Entry := writes.filterMap (Write.inserted id)

/-- A commit takes sequence values that were never issued, and fails when the
rows it leaves break a foreign key. -/
def State.commit (s : State) (t id : Nat) (tx : Tx) : Option State :=
  let rows := applyWrites id s.rows tx.facts.writes
  let new := inserted id tx.facts.writes
  if tx.todo = [] ∧ new.Nodup ∧ (∀ e ∈ new, e ∉ s.issued) ∧ References rows then
    some ⟨rows, s.txs.set t .ended, new ++ s.issued⟩
  else none

def step (s : State) : Action → Option State
  | .start request => some { s with txs := s.txs ++ [⟨{}, request.program⟩] }
  | .exec t choice =>
    match s.txs[t]? with
    | some ⟨F, stmt :: rest⟩ =>
      (s.exec t choice F rest stmt).map fun tx => { s with txs := s.txs.set t tx }
    | _ => none
  | .commit t id => s.txs[t]?.bind (s.commit t id)
  | .rollback t => if t < s.txs.length then some { s with txs := s.txs.set t .ended } else none

def init (rows : List Row) : State := ⟨rows, [], rows.map Row.entry⟩

def superuser : Actor := ⟨true, false, false, []⟩

end Fod.Namespace
