import Fod.Mount.Model

/-!
# The requests of one mount
-/

namespace Fod.Mount

structure Named where
  path : Path
  key : Nat × String
  entry : Entry

structure RenamePlan where
  source : Named
  newPath : Path
  newKey : Nat × String
  target : Option Entry

namespace State

def child (s : State) (parent : Nat) (name : String) : Option Named :=
  match s.parentEntry parent with
  | none => none
  | some (path, d) => (s.names.lookup (d, name)).map (⟨name :: path, (d, name), ·⟩)

def lookup (s : State) (parent : Nat) (name : String) : State :=
  match s.child parent name with
  | none => s
  | some named => s.registerLookupPath named.path named.entry.node.ino

def bind (s : State) (key : Nat × String) (e : Entry) : State :=
  { s with names := s.names.insert key e, nextId := s.nextId + 1 }

def vacant (s : State) (parent : Nat) (name : String) : Option (Path × (Nat × String)) :=
  match s.parentEntry parent with
  | none => none
  | some (path, d) =>
    if (s.names.lookup (d, name)).isSome then none else some (name :: path, (d, name))

def makeNode (s : State) (kind : Kind) (parent : Nat) (name : String) (ino : Nat) : State :=
  match s.vacant parent name with
  | none => s
  | some (path, key) =>
    (s.bind key ⟨⟨kind, s.nextId, ino⟩, none⟩).registerLookupPath path ino

def mkdir (s : State) : Nat → String → Nat → State := s.makeNode .dir

def symlink (s : State) : Nat → String → Nat → State := s.makeNode .symlink

/-- A writable `create` takes the ownership of the destination first, and opens a
file that it then finds there.  `granted` is false if an ownership or the check of
the parent directory is refused; each failure of the setup ends with
`remove_cached_path`. -/
def create (s : State) (parent : Nat) (name : String) (ino : Nat)
    (writable excl granted : Bool) (pick : Nat) : State :=
  match s.vacant parent name, s.child parent name with
  | some (path, key), _ =>
    if writable && !granted then s.removeCachedPath pick path
    else
      ((s.bind key ⟨⟨.file, s.nextId, ino⟩, none⟩).insertHandle path s.nextId).registerLookupPath
        path ino
  | none, some named =>
    if !writable then s
    else if named.entry.node.kind = .file ∧ excl = false ∧ granted = true then
      (s.insertHandle named.path named.entry.node.id).registerLookupPath named.path
        named.entry.node.ino
    else s.removeCachedPath pick named.path
  | none, none => s

def link (s : State) (ino newparent : Nat) (newname : String) : State :=
  match s.entryAttrsForIno ino, s.vacant newparent newname with
  | .ok (_, node), some (path, key) =>
    if node.kind = .dir then s
    else (s.bind key ⟨node, some s.nextId⟩).registerLookupPath path node.ino
  | _, _ => s

def unbind (s : State) (key : Nat × String) (e : Entry) : State :=
  { s with names := s.names.unbind key e }

/-- `unlink_file_entry` leaves a hidden row behind if it removes the last name of a
file with an open lease. -/
def deferred (s : State) (key : Nat × String) (e : Entry) : Bool :=
  e.link.isNone && (Names.lowestLink (s.names.erase key) e.node).isNone &&
    s.openLeases.entries.any (·.2 == e.node.id)

def unlinkFile (s : State) (named : Named) (hidden : String) (pick : Nat) : State :=
  let s' := (s.unbind named.key named.entry).removeCachedPath pick named.path
  if s.deferred named.key named.entry then
    s'.moveHandles (fun handle => handle.file == named.entry.node.id && handle.path == named.path)
      (hidden :: named.path.tail)
  else s'

def unlink (s : State) (parent : Nat) (name hidden : String) (pick : Nat) : State :=
  match s.child parent name with
  | none => s
  | some named =>
    match named.entry.node.kind with
    | .dir => s
    | .symlink => (s.unbind named.key named.entry).removeCachedPath pick named.path
    | .file => (s.unlinkFile named hidden pick).removeCachedPath pick named.path

def removable (s : State) (parent : Nat) (name : String) : Option Named :=
  (s.child parent name).filter fun named =>
    named.entry.node.kind == .dir && s.names.emptyDir named.entry.node.id

def rmdir (s : State) (parent : Nat) (name : String) (pick : Nat) : State :=
  match s.removable parent name with
  | none => s
  | some named =>
    ((s.unbind named.key named.entry).removeCachedPath pick named.path).removeCachedHandlePaths
      named.path

def renameable (e : Entry) : Bool := !(e.node.kind == .symlink && e.link.isSome)

def replaceable (s : State) (source target : Entry) (noReplace : Bool) : Bool :=
  !noReplace && renameable target && target.node != source.node &&
    (source.node.kind == .dir) == (target.node.kind == .dir) &&
    (target.node.kind != .dir || s.names.emptyDir target.node.id)

def renamePlan (s : State) (parent : Nat) (name : String) (newparent : Nat) (newname : String)
    (noReplace : Bool) : Option RenamePlan :=
  match s.child parent name, s.parentEntry newparent with
  | some source, some (newParentPath, d) =>
    let target := s.names.lookup (d, newname)
    if source.path ≠ newname :: newParentPath ∧ renameable source.entry = true ∧
        ¬ (source.entry.node.kind = .dir ∧ source.path <:+ newParentPath) ∧
        (∀ e ∈ target, s.replaceable source.entry e noReplace = true) then
      some ⟨source, newname :: newParentPath, (d, newname), target⟩
    else none
  | _, _ => none

def renamed (s : State) (plan : RenamePlan) : State :=
  let rest : Names :=
    match plan.target with
    | none => s.names
    | some e => s.names.unbind plan.newKey e
  { s with names := AList.insert plan.newKey plan.source.entry (AList.erase plan.source.key rest) }

def applyRename (s : State) (plan : RenamePlan) (pick pick' : Nat) : State :=
  let s' :=
    if plan.target.isSome then
      ((s.renamed plan).removeCachedPath pick plan.newPath).removeCachedHandlePaths plan.newPath
    else s.renamed plan
  s'.moveCachedPath pick' plan.source.path plan.newPath plan.source.entry.node.ino

def rename (s : State) (parent : Nat) (name : String) (newparent : Nat) (newname : String)
    (noReplace : Bool) (pick pick' : Nat) : State :=
  match s.renamePlan parent name newparent newname noReplace with
  | none => s
  | some plan => s.applyRename plan pick pick'

def getattr (s : State) (ino : Nat) (fh : Option Nat) : State :=
  if (fh.bind s.fhTable.lookup).isSome then s
  else
    match s.entryAttrsForIno ino with
    | .ok (path, _) => s.registerPath path ino
    | .error _ => s

def openFile (s : State) (ino : Nat) : State :=
  match s.entryAttrsForIno ino with
  | .ok (path, ⟨.file, f, _⟩) => s.insertHandle path f
  | _ => s

end State

inductive Use where
  | read
  | write
  | flush
  | fsync

inductive Action where
  | lookup (parent : Nat) (name : String)
  | create (parent : Nat) (name : String) (ino : Nat) (writable excl granted : Bool) (pick : Nat)
  | mkdir (parent : Nat) (name : String) (ino : Nat)
  | symlink (parent : Nat) (name : String) (ino : Nat)
  | link (ino newparent : Nat) (newname : String)
  | unlink (parent : Nat) (name hidden : String) (pick : Nat)
  | rmdir (parent : Nat) (name : String) (pick : Nat)
  | rename (parent : Nat) (name : String) (newparent : Nat) (newname : String) (noReplace : Bool)
      (pick pick' : Nat)
  | getattr (ino : Nat) (fh : Option Nat)
  | forget (ino nlookup : Nat)
  | openFile (ino : Nat)
  | data (use : Use) (fh : Nat)
  | release (fh : Nat)

def State.handle (s : State) : Action → State
  | .lookup parent name => s.lookup parent name
  | .create parent name ino writable excl granted pick =>
    s.create parent name ino writable excl granted pick
  | .mkdir parent name ino => s.mkdir parent name ino
  | .symlink parent name ino => s.symlink parent name ino
  | .link ino newparent newname => s.link ino newparent newname
  | .unlink parent name hidden pick => s.unlink parent name hidden pick
  | .rmdir parent name pick => s.rmdir parent name pick
  | .rename parent name newparent newname noReplace pick pick' =>
    s.rename parent name newparent newname noReplace pick pick'
  | .getattr ino fh => s.getattr ino fh
  | .forget ino nlookup => s.forgetLookupRefs ino nlookup
  | .openFile ino => s.openFile ino
  | .data _ _ => s
  | .release fh => s.release fh

def step (s : State) (a : Action) : Option State := some (s.handle a)

end Fod.Mount
