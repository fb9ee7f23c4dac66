import Fod.Mount.Requests

/-!
# Open handles stay usable

The namespace requests find handles by path: `remove_cached_handle_paths` drops
the handles at the path of a replaced file or of a removed directory, also those
that the kernel still holds.  No other request takes a handle away before its
release.
-/

namespace Fod.Mount

/-- Each handle that the kernel holds has its entry, with its file, and no open
lease outlives its handle. -/
structure State.HandlesUsable (s : State) : Prop where
  present : ∀ fh f, s.opened.lookup fh = some f → s.fileIdForHandle fh = .ok f
  leases : ∀ fh f, s.openLeases.lookup fh = some f → s.opened.lookup fh = some f

def State.HandlesClear (s : State) (path : Path) : Prop :=
  ∀ row ∈ s.fhTable.entries, row.2.path ≠ path

instance (s : State) (path : Path) : Decidable (s.HandlesClear path) :=
  inferInstanceAs (Decidable (∀ row ∈ _, _))

/-- No handle stands at the path of a file that is replaced or of a directory that
is removed. -/
def State.KeepsHandles (s : State) : Action → Prop
  | .rename parent name newparent newname noReplace _ _ =>
    ∀ plan ∈ s.renamePlan parent name newparent newname noReplace,
      plan.target.isSome = true → s.HandlesClear plan.newPath
  | .rmdir parent name _ => ∀ named ∈ s.removable parent name, s.HandlesClear named.path
  | _ => True

instance (s : State) : ∀ a, Decidable (s.KeepsHandles a)
  | .rename .. => inferInstanceAs (Decidable (∀ plan ∈ _, _ → _))
  | .rmdir .. => inferInstanceAs (Decidable (∀ named ∈ _, _))
  | .lookup .. | .create .. | .mkdir .. | .symlink .. | .link .. | .unlink .. | .getattr ..
  | .forget .. | .openFile .. | .data .. | .release .. => isTrue trivial

/-! ## Requests that keep the handles -/

structure State.SameHandles (s s' : State) : Prop where
  opened : s'.opened = s.opened
  leases : s'.openLeases = s.openLeases
  files : ∀ fh, s'.fileIdForHandle fh = s.fileIdForHandle fh

namespace State

variable {s s' : State}

lemma SameHandles.refl (s : State) : s.SameHandles s := ⟨rfl, rfl, fun _ => rfl⟩

lemma SameHandles.trans {s'' : State} (h : s.SameHandles s') (h' : s'.SameHandles s'') :
    s.SameHandles s'' :=
  ⟨h'.opened.trans h.opened, h'.leases.trans h.leases,
    fun fh => (h'.files fh).trans (h.files fh)⟩

lemma HandlesUsable.of_same (h : s.HandlesUsable) (hsame : s.SameHandles s') :
    s'.HandlesUsable := by
  constructor
  · intro fh f hopened
    rw [hsame.opened] at hopened
    rw [hsame.files]
    exact h.present fh f hopened
  · intro fh f hlease
    rw [hsame.leases] at hlease
    rw [hsame.opened]
    exact h.leases fh f hlease

lemma fhTable_removeCachedPath (s : State) (pick : Nat) (path : Path) :
    (s.removeCachedPath pick path).fhTable = s.fhTable := by
  unfold removeCachedPath
  split <;> rfl

lemma sameHandles_removeCachedPath (s : State) (pick : Nat) (path : Path) :
    s.SameHandles (s.removeCachedPath pick path) := by
  unfold removeCachedPath
  split <;> exact ⟨rfl, rfl, fun _ => rfl⟩

lemma sameHandles_removeCachedHandlePaths {path : Path} (h : s.HandlesClear path) :
    s.SameHandles (s.removeCachedHandlePaths path) := by
  refine ⟨rfl, rfl, fun fh => ?_⟩
  simp only [fileIdForHandle, removeCachedHandlePaths, Table.lookup_keep]
  cases hfh : s.fhTable.lookup fh with
  | none => rfl
  | some handle =>
    have hpath : handle.path ≠ path := h ⟨fh, handle⟩ (Table.lookup_eq_some.mp hfh)
    simp [Option.filter, hpath]

lemma sameHandles_dropPath {names : Names} {path : Path} (pick : Nat)
    (h : s.HandlesClear path) :
    s.SameHandles
      (({ s with names }.removeCachedPath pick path).removeCachedHandlePaths path) := by
  have hnames : s.SameHandles { s with names } := ⟨rfl, rfl, fun _ => rfl⟩
  have hclear : ({ s with names }.removeCachedPath pick path).HandlesClear path := by
    unfold HandlesClear
    rw [fhTable_removeCachedPath]
    exact h
  exact (hnames.trans (sameHandles_removeCachedPath _ pick path)).trans
    (sameHandles_removeCachedHandlePaths hclear)

lemma sameHandles_moveHandles (s : State) (wanted : Handle → Bool) (path : Path) :
    s.SameHandles (s.moveHandles wanted path) := by
  refine ⟨rfl, rfl, fun fh => ?_⟩
  simp only [fileIdForHandle, moveHandles, Table.lookup_adjust]
  cases s.fhTable.lookup fh with
  | none => rfl
  | some handle =>
    simp only [Option.map_some]
    split <;> rfl

lemma sameHandles_evict (s : State) (ino : Nat) :
    s.SameHandles (s.evictInodeIfUnreferenced ino) := by
  unfold evictInodeIfUnreferenced removeCachedInodePaths
  split
  · exact .refl s
  · split <;> exact ⟨rfl, rfl, fun _ => rfl⟩

lemma sameHandles_forget (s : State) (ino nlookup : Nat) :
    s.SameHandles (s.forgetLookupRefs ino nlookup) := by
  unfold forgetLookupRefs
  split
  · exact .refl s
  · split
    · exact .refl s
    · split
      · exact ⟨rfl, rfl, fun _ => rfl⟩
      · have hrefs : s.SameHandles { s with lookupRefs := s.lookupRefs.erase ino } :=
          ⟨rfl, rfl, fun _ => rfl⟩
        exact hrefs.trans (sameHandles_evict _ ino)

lemma sameHandles_makeNode (s : State) (kind : Kind) (parent : Nat) (name : String)
    (ino : Nat) : s.SameHandles (s.makeNode kind parent name ino) := by
  unfold makeNode
  split <;> exact ⟨rfl, rfl, fun _ => rfl⟩

lemma sameHandles_link (s : State) (ino newparent : Nat) (newname : String) :
    s.SameHandles (s.link ino newparent newname) := by
  unfold link
  split
  · split <;> exact ⟨rfl, rfl, fun _ => rfl⟩
  · exact .refl s

lemma sameHandles_unlink (s : State) (parent : Nat) (name hidden : String) (pick : Nat) :
    s.SameHandles (s.unlink parent name hidden pick) := by
  have hunbind : ∀ named : Named, s.SameHandles
      ((s.unbind named.key named.entry).removeCachedPath pick named.path) := by
    intro named
    have hnames : s.SameHandles (s.unbind named.key named.entry) := ⟨rfl, rfl, fun _ => rfl⟩
    exact hnames.trans (sameHandles_removeCachedPath _ _ _)
  unfold unlink
  split
  · exact .refl s
  · split
    · exact .refl s
    · exact hunbind _
    · refine SameHandles.trans ?_ (sameHandles_removeCachedPath _ _ _)
      unfold unlinkFile
      split
      · exact (hunbind _).trans (sameHandles_moveHandles _ _ _)
      · exact hunbind _

lemma sameHandles_rmdir {parent : Nat} {name : String} (pick : Nat)
    (h : ∀ named ∈ s.removable parent name, s.HandlesClear named.path) :
    s.SameHandles (s.rmdir parent name pick) := by
  unfold rmdir
  split
  · exact .refl s
  · rename_i named hnamed
    exact sameHandles_dropPath pick (h named hnamed)

lemma sameHandles_moveCachedPath (s : State) (pick : Nat) (oldPath newPath : Path)
    (ino : Nat) : s.SameHandles (s.moveCachedPath pick oldPath newPath ino) := by
  have hregister : (s.removeCachedPath pick oldPath).SameHandles
      ((s.removeCachedPath pick oldPath).registerPath newPath ino) := ⟨rfl, rfl, fun _ => rfl⟩
  exact ((sameHandles_removeCachedPath s pick oldPath).trans hregister).trans
    (sameHandles_moveHandles _ _ _)

lemma sameHandles_rename {parent newparent : Nat} {name newname : String} {noReplace : Bool}
    (pick pick' : Nat) (h : ∀ plan ∈ s.renamePlan parent name newparent newname noReplace,
      plan.target.isSome = true → s.HandlesClear plan.newPath) :
    s.SameHandles (s.rename parent name newparent newname noReplace pick pick') := by
  unfold rename
  split
  · exact .refl s
  · rename_i plan hplan
    refine SameHandles.trans ?_ (sameHandles_moveCachedPath _ _ _ _ _)
    split
    · rename_i htarget
      exact sameHandles_dropPath pick (h plan hplan htarget)
    · exact ⟨rfl, rfl, fun _ => rfl⟩

lemma HandlesUsable.insertHandle (h : s.HandlesUsable) (path : Path) (file : Nat) :
    (s.insertHandle path file).HandlesUsable := by
  constructor
  · intro fh f hopened
    simp only [fileIdForHandle, State.insertHandle]
    rcases Table.lookup_insert_cases hopened with ⟨rfl, rfl⟩ | ⟨hne, hold⟩
    · rw [AList.lookup_insert]
    · rw [AList.lookup_insert_ne hne]
      exact h.present fh f hold
  · intro fh f hlease
    simp only [State.insertHandle]
    rcases Table.lookup_insert_cases hlease with ⟨rfl, rfl⟩ | ⟨hne, hold⟩
    · rw [AList.lookup_insert]
    · rw [AList.lookup_insert_ne hne]
      exact h.leases fh f hold

lemma HandlesUsable.create (h : s.HandlesUsable) (parent : Nat) (name : String) (ino : Nat)
    (writable excl granted : Bool) (pick : Nat) :
    (s.create parent name ino writable excl granted pick).HandlesUsable := by
  have hopen : ∀ (t : State) (path : Path) (file ino : Nat), s.SameHandles t →
      ((t.insertHandle path file).registerLookupPath path ino).HandlesUsable := by
    intro t path file ino hsame
    have hinsert := (h.of_same hsame).insertHandle path file
    exact hinsert.of_same ⟨rfl, rfl, fun _ => rfl⟩
  unfold State.create
  split
  · split
    · exact h.of_same (sameHandles_removeCachedPath _ _ _)
    · exact hopen _ _ _ _ ⟨rfl, rfl, fun _ => rfl⟩
  · split
    · exact h
    · split
      · exact hopen s _ _ _ (.refl s)
      · exact h.of_same (sameHandles_removeCachedPath _ _ _)
  · exact h

lemma HandlesUsable.release (h : s.HandlesUsable) (fh : Nat) : (s.release fh).HandlesUsable := by
  -- only the entry and the lease of `fh` go, and the lease goes with the entry
  have hfiles : ∀ fh', fh' ≠ fh →
      (s.takeHandleState fh).fileIdForHandle fh' = s.fileIdForHandle fh' := by
    intro fh' hne
    unfold takeHandleState
    split
    · rfl
    · split
      · rw [(sameHandles_evict _ _).files]
        simp only [fileIdForHandle, AList.lookup_erase_ne hne]
      · simp only [fileIdForHandle, AList.lookup_erase_ne hne]
  have hleases : ∀ f fh', (s.takeHandleState fh).openLeases.lookup fh' = some f →
      fh' ≠ fh ∧ s.openLeases.lookup fh' = some f := by
    intro f fh' hlease
    unfold takeHandleState at hlease
    split at hlease
    · rename_i hmissing
      refine ⟨?_, hlease⟩
      rintro rfl
      have hpresent := h.present fh' f (h.leases fh' f hlease)
      simp [fileIdForHandle, hmissing] at hpresent
    · split at hlease
      · rw [(sameHandles_evict _ _).leases] at hlease
        exact Table.lookup_erase_cases hlease
      · exact Table.lookup_erase_cases hlease
  constructor
  · intro fh' f hopened
    obtain ⟨hne, hold⟩ := Table.lookup_erase_cases hopened
    change (s.takeHandleState fh).fileIdForHandle fh' = .ok f
    rw [hfiles fh' hne]
    exact h.present fh' f hold
  · intro fh' f hlease
    obtain ⟨hne, hold⟩ := hleases f fh' hlease
    change (s.opened.erase fh).lookup fh' = some f
    rw [AList.lookup_erase_ne hne]
    exact h.leases fh' f hold

lemma HandlesUsable.handle (h : s.HandlesUsable) {a : Action} (hguard : s.KeepsHandles a) :
    (s.handle a).HandlesUsable := by
  cases a with
  | lookup parent name =>
    change (s.lookup parent name).HandlesUsable
    unfold State.lookup
    split
    · exact h
    · exact h.of_same ⟨rfl, rfl, fun _ => rfl⟩
  | create parent name ino writable excl granted pick =>
    exact h.create parent name ino writable excl granted pick
  | mkdir parent name ino => exact h.of_same (sameHandles_makeNode s .dir parent name ino)
  | symlink parent name ino => exact h.of_same (sameHandles_makeNode s .symlink parent name ino)
  | link ino newparent newname => exact h.of_same (sameHandles_link s ino newparent newname)
  | unlink parent name hidden pick =>
    exact h.of_same (sameHandles_unlink s parent name hidden pick)
  | rmdir parent name pick => exact h.of_same (sameHandles_rmdir pick hguard)
  | rename parent name newparent newname noReplace pick pick' =>
    exact h.of_same (sameHandles_rename pick pick' hguard)
  | getattr ino fh =>
    change (s.getattr ino fh).HandlesUsable
    unfold State.getattr
    split
    · exact h
    · split
      · exact h.of_same ⟨rfl, rfl, fun _ => rfl⟩
      · exact h
  | forget ino nlookup => exact h.of_same (sameHandles_forget s ino nlookup)
  | openFile ino =>
    change (s.openFile ino).HandlesUsable
    unfold State.openFile
    split
    · exact h.insertHandle _ _
    · exact h
  | data use fh => exact h
  | release fh => exact h.release fh

end State

theorem open_handles_stay_usable (names : Names) (nextId : Nat) (trace : List Action) (s : State)
    (hguard : GuardedRun.Along step State.KeepsHandles (mounted names nextId) trace)
    (hrun : GuardedRun.run step (mounted names nextId) trace = some s) : s.HandlesUsable := by
  have hstart : (mounted names nextId).HandlesUsable := by
    constructor <;> intro fh f h <;> cases h
  refine GuardedRun.run_invariant ?_ hstart hguard hrun
  intro s a s' hs hkeeps hstep
  cases hstep
  exact hs.handle hkeeps

def renamesBesideHandle : List Action :=
  [.create rootIno "a" 10 false false true 0, .create rootIno "b" 11 false false true 0,
    .create rootIno "c" 12 false false true 0, .release 2, .release 3,
    .rename rootIno "b" rootIno "c" false 0 0, .unlink rootIno "a" ".hidden" 0, .data .read 1,
    .release 1]

theorem open_handles_stay_usable_renamesBesideHandle :
    ∃ s, GuardedRun.run step (mounted ∅ 1) renamesBesideHandle = some s ∧
      GuardedRun.Along step State.KeepsHandles (mounted ∅ 1) renamesBesideHandle ∧
      s.HandlesUsable := by
  refine ⟨_, rfl, by decide, ?_⟩
  exact open_handles_stay_usable ∅ 1 renamesBesideHandle _ (by decide) rfl

/-- File `b` is renamed onto the opened file `a`: the handle is gone, and its release
leaves the open lease behind. -/
def renameOntoOpenFile : List Action :=
  [.create rootIno "a" 10 false false true 0, .create rootIno "b" 11 false false true 0,
    .release 2, .rename rootIno "b" rootIno "a" false 0 0]

theorem rename_onto_open_file_drops_its_handle :
    ∃ s, GuardedRun.run step (mounted ∅ 1) renameOntoOpenFile = some s ∧
      s.opened.lookup 1 = some 1 ∧ s.fileIdForHandle 1 = .error .EBADF ∧
      (s.release 1).openLeases.lookup 1 = some 1 ∧ ¬ s.HandlesUsable := by
  refine ⟨_, rfl, by decide, by decide, by decide, ?_⟩
  intro h
  have hpresent := h.present 1 1 (by decide)
  revert hpresent
  decide

end Fod.Mount
