import Fod.Replay.RenameOnce

/-!
# Removing a directory

A directory is removed by `rmdir` and by a rename that replaces it.  Both count the
visible children.  Only `rmdir` detaches the files that are unlinked and still open,
whose rows point to the directory.
-/

namespace Fod.Replay

inductive DirectoryUnlinkOutcome where
  | removed
  | notEmpty
  | sourceChanged

def invalidUnlinkName (name : Text) : Bool :=
  name.isEmpty || name == ['/'] || name == ['.'] || name == ['.', '.'] || name.contains '/'

def File.hiddenIn (row : File) (d : Nat) : Bool := row.unlinked && row.location.1 == d

def File.detach (row : File) (d : Nat) : File :=
  if row.hiddenIn d then { row with location := (0, row.location.2) } else row

namespace Tables

def bound (t : Tables) (d : Nat) (location : Location) : Bool :=
  (t.directories.lookup d).any fun row => row.location == location

def holdsHidden (t : Tables) (d : Nat) : Bool := t.files.entries.any fun row => row.2.hiddenIn d

/-- `uniq_files_root_name`: a detached file would get the name of another file in the root,
and that index has the hidden files too. -/
def rootNameTaken (t : Tables) (d : Nat) : Bool :=
  t.files.entries.any fun row => row.2.hiddenIn d &&
    t.files.entries.any fun other =>
      other.1 != row.1 && (other.2.detach d).location == (row.2.detach d).location

def detached (t : Tables) (d : Nat) : Tables :=
  { t with files := t.files.adjust fun _ row => row.detach d }

def detachUnlinked (t : Tables) (d : Nat) : Except Error Tables :=
  if t.rootNameTaken d then .error .namespaceEntryExists else .ok (t.detached d)

/-- Children that are found after the files were detached roll the transaction back. -/
def unlinkDirectoryEntry (t : Tables) (d : Nat) (location : Location) (actor : Nat) :
    Except Error (Tables × DirectoryUnlinkOutcome) :=
  if invalidUnlinkName location.2 then .error .invalidArgument
  else if !t.bound d location then .ok (t, .sourceChanged)
  else do
    t.requireStickyRemoval location.1 (.directory d) actor
    if t.hasChildren d then return (t, .notEmpty)
    let detached ← t.detachUnlinked d
    if !detached.bound d location then throw .namespaceSourceChanged
    match ← detached.removeDirectory d with
    | none => return (t, .notEmpty)
    | some removed => return (removed, .removed)

/-- The ids of directories start at one, and `id_parent` refers to a directory. -/
structure Rooted (t : Tables) : Prop where
  ids : t.directories.lookup 0 = none
  parents : ∀ d row, t.directories.lookup d = some row →
    row.location.1 = 0 ∨ (t.directories.lookup row.location.1).isSome

/-- A rename of a directory onto another with nothing in its way but what that one holds. -/
structure RenameReady (t : Tables) (r : RenameRequest) (s d : Nat) : Prop where
  source : r.source = .directory s
  target : r.target = some (.directory d)
  oldName : r.old.2 ≠ []
  newName : invalidUnlinkName r.new.2 = false
  goesOn : t.renameStopped r = none
  sourceRemovable : t.requireStickyRemoval r.old.1 r.source r.actor = .ok ()
  targetRemovable : t.requireStickyRemoval r.new.1 (.directory d) r.actor = .ok ()

/-- The rename replaces the directory when `rmdir` removes it, and is refused when
`rmdir` is. -/
def AgreesOnEmptiness (t : Tables) (r : RenameRequest) (target : Nat) : Prop :=
  ((∃ t', t.rename r = .ok (t', .applied)) ↔
      ∃ t', t.unlinkDirectoryEntry target r.new r.actor = .ok (t', .removed)) ∧
    ((∃ t', t.rename r = .ok (t', .targetNotEmpty)) ↔
      ∃ t', t.unlinkDirectoryEntry target r.new r.actor = .ok (t', .notEmpty))

end Tables

variable {t removed : Tables} {r : RenameRequest} {location : Location} {d s : Nat}

lemma hasChildren_iff : t.hasChildren d = true ↔ ∃ name e, t.Located (d, name) e := by
  simp only [Tables.hasChildren, List.any_eq_true, beq_iff_eq]
  constructor
  · rintro ⟨⟨e, parent, name⟩, hmem, rfl⟩
    refine ⟨name, e, Tables.mem_entriesAt.mp ?_⟩
    exact List.mem_map.mpr ⟨_, List.mem_filter.mpr ⟨hmem, by simp⟩, rfl⟩
  · rintro ⟨name, e, hthere⟩
    obtain ⟨row, hrow, rfl⟩ := List.mem_map.mp (Tables.mem_entriesAt.mpr hthere)
    obtain ⟨hmem, hlocation⟩ := List.mem_filter.mp hrow
    exact ⟨row, hmem, congrArg Prod.fst (beq_iff_eq.mp hlocation)⟩

lemma holdsHidden_iff : t.holdsHidden d = true ↔
    ∃ f row, t.files.lookup f = some row ∧ row.unlinked = true ∧ row.location.1 = d := by
  simp [Tables.holdsHidden, File.hiddenIn, Table.lookup_eq_some]

lemma pointed_iff_holdsHidden (hempty : t.hasChildren d = false) :
    t.files.entries.any (fun row => row.2.location.1 == d) = t.holdsHidden d := by
  rw [Bool.eq_iff_iff, holdsHidden_iff]
  simp only [List.any_eq_true, beq_iff_eq]
  constructor
  · rintro ⟨⟨f, row⟩, hmem, hparent⟩
    have hrow : t.files.lookup f = some row := Table.lookup_eq_some.mpr hmem
    refine ⟨f, row, hrow, ?_, hparent⟩
    by_contra hshown
    have hchild : t.hasChildren d = true :=
      hasChildren_iff.mpr ⟨row.location.2, .file f, row, hrow, by simpa using hshown,
        Prod.ext hparent rfl⟩
    rw [hempty] at hchild
    cases hchild
  · rintro ⟨f, row, hrow, -, hparent⟩
    exact ⟨⟨f, row⟩, Table.lookup_eq_some.mp hrow, hparent⟩

lemma removeDirectory_eq (t : Tables) (d : Nat) : t.removeDirectory d =
    if t.hasChildren d then .ok none
    else if t.holdsHidden d then .error .foreignKeyViolation
    else .ok (some { t with directories := t.directories.erase d }) := by
  unfold Tables.removeDirectory
  cases hempty : t.hasChildren d with
  | true => rfl
  | false => rw [pointed_iff_holdsHidden hempty]

lemma detach_unlinked (row : File) : (row.detach d).unlinked = row.unlinked := by
  unfold File.detach
  split <;> rfl

lemma detach_of_shown {row : File} (hshown : row.unlinked = false) : row.detach d = row := by
  simp [File.detach, File.hiddenIn, hshown]

lemma located_detached {e : Entry} : (t.detached d).Located location e ↔ t.Located location e := by
  cases e with
  | file f =>
    simp only [Tables.Located, Tables.detached, Table.lookup_adjust, Option.map_eq_some_iff]
    constructor
    · rintro ⟨_, ⟨row, hrow, rfl⟩, hshown, hlocation⟩
      rw [detach_unlinked] at hshown
      rw [detach_of_shown hshown] at hlocation
      exact ⟨row, hrow, hshown, hlocation⟩
    · rintro ⟨row, hrow, hshown, hlocation⟩
      exact ⟨row, ⟨row, hrow, detach_of_shown hshown⟩, hshown, hlocation⟩
  | hardlink | symlink | symlinkHardlink | directory => exact Iff.rfl

lemma hasChildren_detached : (t.detached d).hasChildren d = t.hasChildren d := by
  rw [Bool.eq_iff_iff, hasChildren_iff, hasChildren_iff]
  simp [located_detached]

lemma holdsHidden_detached (hd : d ≠ 0) : (t.detached d).holdsHidden d = false := by
  rw [← Bool.not_eq_true, holdsHidden_iff]
  rintro ⟨f, moved, hmoved, hhidden, hparent⟩
  simp only [Tables.detached, Table.lookup_adjust, Option.map_eq_some_iff] at hmoved
  obtain ⟨row, -, rfl⟩ := hmoved
  rw [detach_unlinked] at hhidden
  unfold File.detach at hparent
  split at hparent
  · exact hd hparent.symm
  · next hkept => exact hkept (by simp [File.hiddenIn, hhidden, hparent])

lemma rootNameTaken_hidden (htaken : t.rootNameTaken d = true) : t.holdsHidden d = true := by
  simp only [Tables.rootNameTaken, List.any_eq_true, Bool.and_eq_true] at htaken
  obtain ⟨row, hmem, hhidden, -⟩ := htaken
  exact List.any_eq_true.mpr ⟨row, hmem, hhidden⟩

lemma unlinkDirectoryEntry_eq {actor : Nat} (hd : d ≠ 0)
    (hname : invalidUnlinkName location.2 = false)
    (hbound : t.bound d location = true)
    (hremovable : t.requireStickyRemoval location.1 (.directory d) actor = .ok ()) :
    t.unlinkDirectoryEntry d location actor =
      if t.hasChildren d then .ok (t, .notEmpty)
      else if t.rootNameTaken d then .error .namespaceEntryExists
      else .ok ({ t.detached d with directories := t.directories.erase d }, .removed) := by
  have hstill : (t.detached d).bound d location = true := hbound
  have hremove : t.hasChildren d = false → (t.detached d).removeDirectory d =
      .ok (some { t.detached d with directories := t.directories.erase d }) := by
    intro hempty
    rw [removeDirectory_eq, hasChildren_detached, hempty, holdsHidden_detached hd]
    rfl
  rw [Tables.unlinkDirectoryEntry, hname, hbound, hremovable, Tables.detachUnlinked]
  cases hchildren : t.hasChildren d with
  | true => rfl
  | false =>
    cases htaken : t.rootNameTaken d with
    | true => rfl
    | false =>
      simp [hstill, hremove hchildren, bind, Except.bind, pure, Except.pure]

lemma Tables.RenameReady.row (h : t.RenameReady r s d) :
    ∃ row, t.directories.lookup d = some row ∧ row.location = r.new := by
  have hready := (renameStopped_cases h.goesOn).2
  rw [Tables.TargetReady, h.target] at hready
  exact hready.1

lemma Tables.RenameReady.bound (h : t.RenameReady r s d) : t.bound d r.new = true := by
  obtain ⟨row, hrow, hlocation⟩ := h.row
  simp [Tables.bound, hrow, hlocation]

lemma Tables.RenameReady.target_ne_zero (hrooted : t.Rooted) (h : t.RenameReady r s d) : d ≠ 0 := by
  rintro rfl
  obtain ⟨row, hrow, -⟩ := h.row
  rw [hrooted.ids] at hrow
  cases hrow

lemma Tables.RenameReady.requireParent (hrooted : t.Rooted) (h : t.RenameReady r s d)
    (hempty : t.hasChildren d = false) :
    Tables.requireParent { t with directories := t.directories.erase d } r.new = .ok () := by
  obtain ⟨row, hrow, hlocation⟩ := h.row
  have hparent := hrooted.parents d row hrow
  rw [hlocation] at hparent
  have hother : r.new.1 ≠ d := by
    intro hself
    have hchild : t.hasChildren d = true :=
      hasChildren_iff.mpr ⟨r.new.2, .directory d, row, hrow, hlocation.trans (Prod.ext hself rfl)⟩
    rw [hempty] at hchild
    cases hchild
  unfold Tables.requireParent
  rw [if_neg]
  rintro ⟨hnested, hmissing⟩
  rw [AList.lookup_erase_ne hother] at hmissing
  rcases hparent with hroot | hthere
  · exact hnested hroot
  · simp [hmissing] at hthere

lemma Tables.RenameReady.rename_eq (hrooted : t.Rooted) (h : t.RenameReady r s d) :
    t.rename r =
      if t.hasChildren d then .ok (t, .targetNotEmpty)
      else if t.holdsHidden d then .error .foreignKeyViolation
      else .ok (({ t with directories := t.directories.erase d } : Tables).moveEntry r.new r.source,
        .applied) := by
  have hinode : r.target.any (Tables.sameInode r.source) = false := by
    simp [h.source, h.target, Tables.sameInode, Entry.fileId, Entry.symlinkId]
  have hreplace : t.rename r = t.replaceTarget r := by
    rw [Tables.rename, h.goesOn, h.sourceRemovable, hinode]
    simp [h.target, h.targetRemovable, bind, Except.bind]
  rw [hreplace, Tables.replaceTarget, h.target]
  simp only [Tables.removeTarget, removeDirectory_eq]
  cases hchildren : t.hasChildren d with
  | true => rfl
  | false =>
    cases hhidden : t.holdsHidden d with
    | true => rfl
    | false =>
      simp [h.requireParent hrooted hchildren, bind, Except.bind, pure, Except.pure]

/-- A rename onto a directory and `rmdir` agree if the directory has a visible child or
no hidden file, or if a hidden file cannot be detached. -/
theorem rename_rmdir_agree_iff (t : Tables) (r : RenameRequest) (s d : Nat) (hrooted : t.Rooted)
    (hready : t.RenameReady r s d) :
    t.AgreesOnEmptiness r d ↔
      t.hasChildren d = true ∨ t.holdsHidden d = false ∨ t.rootNameTaken d = true := by
  have hrmdir := unlinkDirectoryEntry_eq (hready.target_ne_zero hrooted) hready.newName hready.bound
    hready.targetRemovable
  rw [Tables.AgreesOnEmptiness, hready.rename_eq hrooted, hrmdir]
  cases hchildren : t.hasChildren d with
  | true => simp
  | false =>
    cases hhidden : t.holdsHidden d with
    | true => cases htaken : t.rootNameTaken d <;> simp
    | false =>
      have hfree : t.rootNameTaken d = false := by
        by_contra htaken
        rw [rootNameTaken_hidden (by simpa using htaken)] at hhidden
        cases hhidden
      simp [hfree]

def twoDirectories (files : Table Nat File) : Tables where
  directories :=
    ((∅ : Table Nat Directory).insert 3 ⟨(0, ['b']), 0o755, 0, 0, []⟩).insert 2
      ⟨(0, ['a']), 0o755, 0, 0, []⟩
  files := files
  hardlinks := ∅
  symlinks := ∅
  symlinkHardlinks := ∅
  nextEntry := 5
  data := { files := ∅, objects := ∅, nextObject := 0 }
  hashes := ∅
  dataObjectTokens := ∅
  promotionTokens := ∅
  lockTokens := ∅
  flocks := ∅
  reservations := ∅
  writeLeases := ∅
  destinationLeases := []
  opened := files.keys

lemma twoDirectories_rooted (files : Table Nat File) : (twoDirectories files).Rooted where
  ids := rfl
  parents := Table.forall_insert (.inl rfl) (Table.forall_insert (.inl rfl) (by simp))

def moveOntoB : RenameRequest where
  source := .directory 2
  old := (0, ['a'])
  new := (0, ['b'])
  expectedTarget := some (.directory 3)
  noReplace := false
  actor := 0

def unlinkedInB : Table Nat File :=
  (∅ : Table Nat File).insert 4 ⟨(3, Tables.hiddenName 4), true, 0o644, 0, 0, ['s'], none⟩

lemma moveOntoB_ready (files : Table Nat File)
    (hgoesOn : (twoDirectories files).renameStopped moveOntoB = none) :
    (twoDirectories files).RenameReady moveOntoB 2 3 where
  source := rfl
  target := rfl
  oldName := by decide
  newName := by decide
  goesOn := hgoesOn
  sourceRemovable := rfl
  targetRemovable := rfl

theorem rename_rmdir_agree_empty : (twoDirectories ∅).AgreesOnEmptiness moveOntoB 3 :=
  (rename_rmdir_agree_iff _ _ 2 3 (twoDirectories_rooted ∅) (moveOntoB_ready ∅ (by decide))).mpr
    (.inr (.inl rfl))

/-- The rename runs into the foreign key of the hidden file, and `rmdir` removes the
directory. -/
theorem rename_onto_open_unlinked :
    (twoDirectories unlinkedInB).Rooted ∧ (twoDirectories unlinkedInB).RenameReady moveOntoB 2 3 ∧
      (twoDirectories unlinkedInB).rename moveOntoB = .error .foreignKeyViolation ∧
      ∃ t', (twoDirectories unlinkedInB).unlinkDirectoryEntry 3 (0, ['b']) 0 =
        .ok (t', .removed) :=
  ⟨twoDirectories_rooted _, moveOntoB_ready _ (by decide), rfl, _, rfl⟩

end Fod.Replay
