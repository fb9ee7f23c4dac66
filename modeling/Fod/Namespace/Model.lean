import Fod.Lib.GuardedRun
import Fod.Lib.LockPool

/-!
# Namespace transactions

The five namespace tables (`files`, `hardlinks`, `symlinks`,
`symlink_hardlinks`, `directories`) are one list of rows.  A transaction is a
list of statements; a statement reads the committed rows, takes locks that last
until the end of the transaction, and collects writes that the commit applies.
No statement of the modelled transactions reads what its own transaction has
written, so reads look at the committed rows only.
-/

namespace Fod.Namespace

inductive Entry where
  | file (id : Nat)
  | hardlink (id file : Nat)
  | symlink (id : Nat)
  | symlinkHardlink (id symlink : Nat)
  | directory (id : Nat)
  deriving DecidableEq

def Entry.id : Entry → Nat
  | .file id | .hardlink id _ | .symlink id | .symlinkHardlink id _ | .directory id => id

structure Place where
  parent : Option Nat
  name : String
  deriving DecidableEq

structure Row where
  entry : Entry
  place : Place
  unlinked : Bool
  deriving DecidableEq

def Place.parentRow (p : Place) : Option Entry := p.parent.map .directory

/-- The advisory keys `fod:write:destination`, `fod:inode-seed`,
`fod:open:file`, `fod:write:file` and `fod:inode:symlink`. -/
inductive Key where
  | destination (p : Place)
  | inodeSeed (seed : String)
  | openFile (id : Nat)
  | writeFile (id : Nat)
  | inodeSymlink (id : Nat)
  deriving DecidableEq

inductive RowLock where
  | keyShare
  | share
  | noKeyUpdate
  | update

def RowLock.conflicts : RowLock → RowLock → Bool
  | .update, _ | _, .update => true
  | .noKeyUpdate, .noKeyUpdate | .noKeyUpdate, .share | .share, .noKeyUpdate => true
  | _, _ => false

inductive Lock where
  | key (k : Key)
  | row (e : Entry) (mode : RowLock)

def Lock.conflicts : Lock → Lock → Bool
  | .key k, .key k' => k == k'
  | .row e mode, .row e' mode' => e == e' && mode.conflicts mode'
  | _, _ => false

lemma Lock.conflicts_comm (l m : Lock) : l.conflicts m = m.conflicts l := by
  cases l with
  | key k =>
    cases m with
    | key k' => simp [Lock.conflicts, Bool.beq_comm]
    | row e' mode' => rfl
  | row e mode =>
    cases m with
    | key k' => rfl
    | row e' mode' =>
      have hmode : mode.conflicts mode' = mode'.conflicts mode := by
        cases mode <;> cases mode' <;> rfl
      simp [Lock.conflicts, Bool.beq_comm, hmode]

inductive NewEntry where
  | file
  | hardlink (file : Nat)
  | symlink
  | symlinkHardlink (symlink : Nat)
  | directory

def NewEntry.entry (id : Nat) : NewEntry → Entry
  | .file => .file id
  | .hardlink f => .hardlink id f
  | .symlink => .symlink id
  | .symlinkHardlink sl => .symlinkHardlink id sl
  | .directory => .directory id

def NewEntry.backing : NewEntry → Option Entry
  | .hardlink f => some (.file f)
  | .symlinkHardlink sl => some (.symlink sl)
  | _ => none

inductive Write where
  | insert (new : NewEntry) (p : Place)
  | rebind (e : Entry) (p : Place)
  | promote (e link : Entry) (p : Place)
  | hide (file : Nat) (name : String)
  | detach (directory : Nat)
  | delete (e : Entry)

/-- Who acts.  `checkParent` is set when the caller passes a `parent_actor`;
`sticky` lists the directories in which the sticky bit makes the check go on to
the owner of the victim. -/
structure Actor where
  root : Bool
  checkParent : Bool
  useAcl : Bool
  sticky : List Nat

inductive Stmt where
  | lock (k : Key)
  | tryLock (k : Key)
  | lockRow (e : Entry) (mode : RowLock)
  | lockRoot
  | requireBound (e : Entry) (p : Place) (mode : Option RowLock)
  | requireEntry (p : Place) (expected : Option Entry)
  | requireVacant (p : Place)
  | validate (e : Entry)
  | requireOutside (directory parent : Nat)
  | requireEmpty (directory : Nat)
  | requireVisible (file : Nat)
  | requireNoHardlinks (file : Nat)
  | removeFile (file : Nat)
  | removeSymlink (symlink : Nat)
  | promoteHardlink (file : Nat)
  | unlinkName (file : Nat) (hidden : String) (p : Place) (actor : Actor)
  | unlinkPrimary (file : Nat) (hidden : String)
  | deleteHardlinkAt (file : Nat) (p : Place)
  | unlinkAlias (id : Nat) (p : Place) (actor : Actor)
  | write (w : Write)

structure Facts where
  locks : List Lock := []
  seen : List (Place × Option Entry) := []
  validated : List Entry := []
  outside : Option (Nat × Nat) := none
  pins : List Row := []
  writes : List Write := []

namespace Facts

def hold (F : Facts) (locks : List Lock) : Facts := { F with locks := locks ++ F.locks }

def see (F : Facts) (p : Place) (found : Option Entry) : Facts :=
  { F with seen := (p, found) :: F.seen }

def trust (F : Facts) (e : Entry) : Facts := { F with validated := e :: F.validated }

def pin (F : Facts) (row : Row) : Facts := { F with pins := row :: F.pins }

def write (F : Facts) (w : Write) : Facts := { F with writes := F.writes ++ [w] }

end Facts

structure Tx where
  facts : Facts
  todo : List Stmt

def Tx.locks (tx : Tx) : List Lock := tx.facts.locks

def Tx.ended : Tx := ⟨{}, []⟩

structure State where
  rows : List Row
  txs : List Tx
  issued : List Entry

def Row.visible (row : Row) : Bool :=
  match row.entry with
  | .file _ => !row.unlinked
  | _ => true

def visibleAt (rows : List Row) (p : Place) : List Row :=
  rows.filter fun row => row.place == p && row.visible

def hasEntry (rows : List Row) (e : Entry) : Bool := rows.any fun row => row.entry == e

def lowest : List Row → Option Row
  | [] => none
  | row :: rest =>
    match lowest rest with
    | none => some row
    | some best => some (if row.entry.id ≤ best.entry.id then row else best)

def Entry.isHardlinkOf (f : Nat) : Entry → Bool
  | .hardlink _ f' => f' == f
  | _ => false

def Entry.isAliasOf (sl : Nat) : Entry → Bool
  | .symlinkHardlink _ sl' => sl' == sl
  | _ => false

def Entry.symlinkOfAlias (id : Nat) : Entry → Option Nat
  | .symlinkHardlink id' sl => if id' = id then some sl else none
  | _ => none

def hardlinksOf (rows : List Row) (f : Nat) : List Row :=
  rows.filter fun row => row.entry.isHardlinkOf f

def aliasesOf (rows : List Row) (sl : Nat) : List Row :=
  rows.filter fun row => row.entry.isAliasOf sl

def childrenOf (rows : List Row) (d : Nat) : List Row :=
  rows.filter fun row => row.place.parent == some d && row.visible

def childDirectories (rows : List Row) (d : Nat) : List Nat :=
  rows.filterMap fun row =>
    match row.entry with
    | .directory id => if row.place.parent = some d then some id else none
    | _ => none

/-- Whether the recursive `subtree` query that starts at `d` finds `q` within
the given number of rounds. -/
def inSubtree (rows : List Row) : Nat → Nat → Nat → Bool
  | 0, d, q => d == q
  | rounds + 1, d, q =>
    d == q || (childDirectories rows d).any fun child => inSubtree rows rounds child q

/-- `id` is the sequence value of an `INSERT`.  Deleting a file cascades to its
hardlinks. -/
def Write.apply (id : Nat) (rows : List Row) : Write → List Row
  | .insert new p => rows ++ [⟨new.entry id, p, false⟩]
  | .rebind e p => rows.map fun row => if row.entry = e then { row with place := p } else row
  | .promote e link p =>
    (rows.map fun row => if row.entry = e then { row with place := p } else row).filter
      fun row => row.entry != link
  | .hide f name =>
    rows.map fun row =>
      if row.entry = .file f ∧ row.visible then
        { row with place := { row.place with name }, unlinked := true }
      else row
  | .detach d =>
    rows.map fun row =>
      if !row.visible && row.place.parent == some d then
        { row with place := { row.place with parent := none } }
      else row
  | .delete e =>
    rows.filter fun row => row.entry != e &&
      match e with
      | .file f => !row.entry.isHardlinkOf f
      | _ => true

def Write.references : Write → List Entry
  | .insert new p => p.parentRow.toList ++ new.backing.toList
  | .rebind _ p | .promote _ _ p => p.parentRow.toList
  | _ => []

def Write.locks (rows : List Row) (w : Write) : List Lock :=
  (match w with
    | .insert _ _ => []
    | .rebind e _ => [.row e .noKeyUpdate]
    | .promote e link _ => [.row e .noKeyUpdate, .row link .update]
    | .hide f _ => [.row (.file f) .noKeyUpdate]
    | .detach d =>
      (rows.filter fun row => !row.visible && row.place.parent == some d).map
        fun row => .row row.entry .noKeyUpdate
    | .delete e => [.row e .update]) ++
    w.references.map (.row · .keyShare)

def applyWrites (id : Nat) (rows : List Row) (writes : List Write) : List Row :=
  writes.foldl (Write.apply id) rows

def References (rows : List Row) : Prop :=
  ∀ row ∈ rows, (∀ d ∈ row.place.parent, hasEntry rows (.directory d) = true) ∧
    match row.entry with
    | .hardlink _ f => hasEntry rows (.file f) = true
    | .symlinkHardlink _ sl => hasEntry rows (.symlink sl) = true
    | _ => True

instance (e : Entry) (rows : List Row) : Decidable (match e with
    | .hardlink _ f => hasEntry rows (.file f) = true
    | .symlinkHardlink _ sl => hasEntry rows (.symlink sl) = true
    | _ => True) :=
  match e with
  | .hardlink _ f => inferInstanceAs (Decidable (hasEntry rows (.file f) = true))
  | .symlinkHardlink _ sl => inferInstanceAs (Decidable (hasEntry rows (.symlink sl) = true))
  | .file _ | .symlink _ | .directory _ => isTrue trivial

instance (rows : List Row) : Decidable (References rows) :=
  inferInstanceAs (Decidable (∀ row ∈ rows, _ ∧ _))

def requireParentWriteSearch (actor : Actor) (parent : Option Nat) : List Stmt :=
  if actor.root || !actor.checkParent then []
  else
    match parent with
    | some d => [.lockRow (.directory d) .noKeyUpdate]
    | none => if actor.useAcl then [.lockRoot] else []

def requireStickyRemoval (actor : Actor) (parent : Option Nat) (victim : Entry) : List Stmt :=
  if actor.root then []
  else
    match parent with
    | some d =>
      .lockRow (.directory d) .share ::
        if actor.sticky.contains d then [.lockRow victim .share] else []
    | none => []

def removePrimaryFile (f : Nat) : List Stmt :=
  [.lock (.openFile f), .lockRow (.file f) .update, .removeFile f]

def purgePrimaryFile (f : Nat) : List Stmt :=
  [.lock (.openFile f), .lockRow (.file f) .update, .requireNoHardlinks f] ++
    removePrimaryFile f

namespace State

def free (s : State) (t : Nat) (wanted : List Lock) : Bool :=
  LockPool.free Tx.locks Lock.conflicts s.txs t wanted

def take (s : State) (t : Nat) (wanted : List Lock) (F : Facts) (rest : List Stmt) :
    Option Tx :=
  if s.free t wanted then some ⟨F.hold wanted, rest⟩ else none

def require (condition : Bool) (next : Option Tx) : Option Tx :=
  if condition then next else some .ended

/-- Run one statement of transaction `t`, which has gathered `F` and goes on with
`rest`.  `choice` is the environment's: whether an active open lease defers the
removal of a file. -/
def exec (s : State) (t : Nat) (choice : Bool) (F : Facts) (rest : List Stmt) :
    Stmt → Option Tx
  | .lock k => s.take t [.key k] F rest
  | .tryLock k => some ((s.take t [.key k] F rest).getD .ended)
  | .lockRow e mode => require (hasEntry s.rows e) (s.take t [.row e mode] F rest)
  | .lockRoot =>
    match visibleAt s.rows ⟨none, "/"⟩ with
    | row :: _ => s.take t [.row row.entry .noKeyUpdate] F rest
    | [] => some .ended
  | .requireBound e p mode =>
    require ((visibleAt s.rows p).any fun row => row.entry == e)
      (s.take t (mode.toList.map (.row e)) F rest)
  | .requireEntry p expected =>
    require ((visibleAt s.rows p).map Row.entry == expected.toList)
      (some ⟨F.see p expected, rest⟩)
  | .requireVacant p =>
    require (visibleAt s.rows p).isEmpty (some ⟨F.see p none, rest⟩)
  | .validate e =>
    require (hasEntry s.rows e) (s.take t [.row e .update] (F.trust e) rest)
  | .requireOutside d q =>
    require (!(hasEntry s.rows (.directory d) && inSubtree s.rows s.rows.length d q))
      (some ⟨{ F with outside := some (d, q) }, rest⟩)
  | .requireEmpty d => require (childrenOf s.rows d).isEmpty (some ⟨F, rest⟩)
  | .requireVisible f =>
    require (s.rows.any fun row => row.entry == .file f && row.visible) (some ⟨F, rest⟩)
  | .requireNoHardlinks f => require (hardlinksOf s.rows f).isEmpty (some ⟨F, rest⟩)
  | .removeFile f =>
    match lowest (hardlinksOf s.rows f) with
    | some row => some ⟨F.pin row, .write (.promote (.file f) row.entry row.place) :: rest⟩
    | none =>
      if choice then some ⟨F, .write (.hide f s!".fod-unlinked-rename-{f}") :: rest⟩
      else some ⟨F, .write (.delete (.file f)) :: rest⟩
  | .removeSymlink sl =>
    match lowest (aliasesOf s.rows sl) with
    | some row =>
      s.take t [.row row.entry .update] (F.pin row)
        (.write (.promote (.symlink sl) row.entry row.place) :: rest)
    | none => some ⟨F, .write (.delete (.symlink sl)) :: rest⟩
  | .promoteHardlink f =>
    match lowest (hardlinksOf s.rows f) with
    | some row => some ⟨F.pin row, .write (.promote (.file f) row.entry row.place) :: rest⟩
    | none => some ⟨F, rest⟩
  | .unlinkName f hidden p actor =>
    let primary := (visibleAt s.rows p).any fun row => row.entry == .file f
    some ⟨F, requireParentWriteSearch actor p.parent ++
      requireStickyRemoval actor p.parent (.file f) ++
      (if primary then .unlinkPrimary f hidden else .deleteHardlinkAt f p) :: rest⟩
  | .unlinkPrimary f hidden =>
    if (hardlinksOf s.rows f).isEmpty then
      some ⟨F, .write (.hide f hidden) ::
        ((if choice then [] else purgePrimaryFile f) ++ rest)⟩
    else some ⟨F, removePrimaryFile f ++ rest⟩
  | .deleteHardlinkAt f p =>
    match (hardlinksOf s.rows f).filter fun row => row.place == p with
    | row :: _ => s.take t [.row row.entry .update] (F.write (.delete row.entry)) rest
    | [] => some .ended
  | .unlinkAlias id p actor =>
    match (visibleAt s.rows p).filterMap fun row => row.entry.symlinkOfAlias id with
    | sl :: _ =>
      some ⟨F, .lockRow (.symlink sl) .update ::
        .requireBound (.symlinkHardlink id sl) p (some .update) ::
        requireParentWriteSearch actor p.parent ++
        requireStickyRemoval actor p.parent (.symlink sl) ++
        .write (.delete (.symlinkHardlink id sl)) :: rest⟩
    | [] => some .ended
  | .write w =>
    require (w.references.all (hasEntry s.rows)) (s.take t (w.locks s.rows) (F.write w) rest)

end State

end Fod.Namespace
