import Fod.Import.Cleanup
import Fod.Lib.Scan

/-!
# What a cleanup removes and what it leaves

A cleanup deletes exactly the directories and files below the root it finds,
whoever put them there.  Foreign keys and the check for outside hardlinks keep
the names of all other files, and their data objects stay.
-/

namespace Fod.Import.Tables

open Fod.Data
open Scan (ok_of_bind)

variable {t t' : Tables}

inductive HasPath (dirs : Directories) : Option Nat → List Name → Prop
  | root : HasPath dirs none []
  | child {d : Nat} {row : Directory} {above : List Name} (hrow : dirs.lookup d = some row)
      (habove : HasPath dirs row.parent above) : HasPath dirs (some d) (above ++ [row.name])

def NamedAt (t : Tables) (f : Nat) (path : List Name) : Prop :=
  (∃ row above, t.files.lookup f = some row ∧ HasPath t.directories row.directory above ∧
      path = above ++ [row.name]) ∨
    ∃ h link above, t.hardlinks.lookup h = some link ∧ link.file = f ∧
      HasPath t.directories link.directory above ∧ path = above ++ [link.name]

def readable (t : Tables) (f : Nat) : Option (Nat × Option (Table Nat Bytes)) :=
  (t.files.lookup f).map fun row =>
    (row.size, (t.objects.lookup row.dataObject).map DataObject.blocks)

def references (t : Tables) (o : Nat) : Nat :=
  (t.files.keysWith fun row => row.dataObject == o).length

/-- What a cleanup of the plan is for: it deletes rows of the import only, every
file it leaves keeps its names and its content, and the data objects are
deleted and counted with the files that name them. -/
structure RemovesOnlyImport (t t' : Tables) (plan : Nat) : Prop where
  files : ∀ f row, t.files.lookup f = some row → t'.files.lookup f = none →
    row.importedBy = some plan
  directories : ∀ d row, t.directories.lookup d = some row →
    t'.directories.lookup d = none → row.importedBy = some plan
  names : ∀ f, f ∈ t'.files → ∀ path, t'.NamedAt f path ↔ t.NamedAt f path
  content : ∀ f, f ∈ t'.files → t'.readable f = t.readable f
  deleted : ∀ o, o ∈ t.objects →
    (o ∉ t'.objects ↔ ∀ f row, t'.files.lookup f = some row → row.dataObject ≠ o)
  counted : ∀ o object, t'.objects.lookup o = some object →
    object.referenceCount = t'.references o

/-- Every directory and file below a directory with the name of an import root
of the plan was inserted by the plan. -/
structure OnlyImportBelow (t : Tables) (plan : Nat) : Prop where
  directories : ∀ name d row, likeRoot plan name = true → Below t.directories name d →
    t.directories.lookup d = some row → row.importedBy = some plan
  files : ∀ name d f row, likeRoot plan name = true → Below t.directories name d →
    t.files.lookup f = some row → row.directory = some d → row.importedBy = some plan

def Counted (t : Tables) : Prop :=
  ∀ o object, t.objects.lookup o = some object →
    0 < t.references o ∧ object.referenceCount = t.references o

/-! ## The deletions -/

structure Removed (t t' : Tables) (gone rows : List Nat) : Prop where
  directories : ∀ d, t'.directories.lookup d = if d ∈ gone then none else t.directories.lookup d
  files : ∀ f, t'.files.lookup f = if f ∈ rows then none else t.files.lookup f
  hardlinks : ∀ h link, t'.hardlinks.lookup h = some link ↔
    t.hardlinks.lookup h = some link ∧ link.file ∉ rows
  parents : ∀ d row e, t'.directories.lookup d = some row → row.parent = some e → e ∉ gone
  homes : ∀ f row e, t'.files.lookup f = some row → row.directory = some e → e ∉ gone
  linkHomes : ∀ h link e, t'.hardlinks.lookup h = some link → link.directory = some e → e ∉ gone
  kept : ∀ o, o ∉ t.importedObjects rows → t'.objects.lookup o = t.objects.lookup o
  shared : ∀ o ∈ t.importedObjects rows, t.namedOutside rows o = true →
    ∃ object, t.objects.lookup o = some object ∧
      t.removedReferences rows o ≤ object.referenceCount ∧
      t'.objects.lookup o = some { object with
        referenceCount := object.referenceCount - t.removedReferences rows o }
  exclusive : ∀ o ∈ t.importedObjects rows, t.namedOutside rows o = false →
    ∃ object, t.objects.lookup o = some object ∧
      object.referenceCount = t.removedReferences rows o ∧ t'.objects.lookup o = none

section Objects

variable {change : Nat → DataObject → Except CleanupError (Option DataObject)}
  {missing : Nat → CleanupError} {objects objects' : Table Nat DataObject}

lemma ok_changeObject {o : Nat} (h : changeObject change missing objects o = .ok objects') :
    ∃ object new, objects.lookup o = some object ∧ change o object = .ok new ∧
      ∀ o', objects'.lookup o' = if o' = o then new else objects.lookup o' := by
  unfold changeObject at h
  split at h
  next => cases h
  next object hobject =>
    split at h
    next => cases h
    next hchange =>
      cases h
      exact ⟨object, none, hobject, hchange, fun o' => Table.lookup_erase_eq_ite _ _ _⟩
    next object' hchange =>
      cases h
      exact ⟨object, some object', hobject, hchange, fun o' => Table.lookup_insert_eq_ite _ _ _ _⟩

lemma ok_foldlM_changeObject {os : List Nat} (hos : os.Nodup)
    (h : os.foldlM (changeObject change missing) objects = .ok objects') :
    (∀ o, o ∉ os → objects'.lookup o = objects.lookup o) ∧
      ∀ o ∈ os, ∃ object new, objects.lookup o = some object ∧ change o object = .ok new ∧
        objects'.lookup o = new := by
  induction os generalizing objects with
  | nil =>
    cases h
    exact ⟨fun _ _ => rfl, fun o ho => by cases ho⟩
  | cons o os ih =>
    obtain ⟨hnot, hos⟩ := List.nodup_cons.mp hos
    rw [List.foldlM_cons] at h
    cases hfirst : changeObject change missing objects o with
    | error e =>
      rw [hfirst] at h
      cases h
    | ok objects₁ =>
      rw [hfirst] at h
      obtain ⟨object, new, hobject, hchange, hlookup⟩ := ok_changeObject hfirst
      obtain ⟨hothers, hlist⟩ := ih hos h
      constructor
      · intro o' ho'
        have hne : o' ≠ o := fun heq => ho' (heq ▸ List.mem_cons_self)
        have hnotin : o' ∉ os := fun hmem => ho' (List.mem_cons_of_mem _ hmem)
        rw [hothers o' hnotin, hlookup, if_neg hne]
      · intro o' ho'
        obtain rfl | ho' := List.mem_cons.mp ho'
        · exact ⟨object, new, hobject, hchange, by rw [hothers o' hnot, hlookup, if_pos rfl]⟩
        · obtain ⟨object', new', hobject', hchange', hnew'⟩ := hlist o' ho'
          have hne : o' ≠ o := fun heq => hnot (heq ▸ ho')
          rw [hlookup, if_neg hne] at hobject'
          exact ⟨object', new', hobject', hchange', hnew'⟩

end Objects

lemma unreferenced_of_deleteDirectory {d : Nat} (h : t.deleteDirectory d = .ok t') :
    t' = { t with directories := t.directories.erase d } ∧
      (∀ e row, t.directories.lookup e = some row → row.parent ≠ some d) ∧
      (∀ f row, t.files.lookup f = some row → row.directory ≠ some d) ∧
      ∀ h link, t.hardlinks.lookup h = some link → link.directory ≠ some d := by
  unfold deleteDirectory at h
  split at h
  next => cases h
  next hreferenced =>
    cases h
    simp only [referenced, Bool.or_eq_true, List.any_eq_true, beq_iff_eq, not_or, not_exists,
      not_and] at hreferenced
    obtain ⟨⟨⟨hparents, hhomes⟩, hlinks⟩, -⟩ := hreferenced
    exact ⟨rfl, fun e row hrow => hparents ⟨e, row⟩ (Table.lookup_eq_some.mp hrow),
      fun f row hrow => hhomes ⟨f, row⟩ (Table.lookup_eq_some.mp hrow),
      fun h link hlink => hlinks ⟨h, link⟩ (Table.lookup_eq_some.mp hlink)⟩

structure DirectoriesGone (t t' : Tables) (gone : List Nat) : Prop where
  rest : t' = { t with directories := t'.directories }
  directories : ∀ d, t'.directories.lookup d = if d ∈ gone then none else t.directories.lookup d
  parents : ∀ d row e, t'.directories.lookup d = some row → row.parent = some e → e ∉ gone
  homes : ∀ f row e, t.files.lookup f = some row → row.directory = some e → e ∉ gone
  linkHomes : ∀ h link e, t.hardlinks.lookup h = some link → link.directory = some e → e ∉ gone

lemma directoriesGone_of_foldlM (gone : List Nat)
    (h : gone.foldlM deleteDirectory t = .ok t') : DirectoriesGone t t' gone := by
  induction gone generalizing t with
  | nil =>
    cases h
    exact ⟨rfl, fun _ => rfl, fun _ _ _ _ _ hmem => (List.not_mem_nil hmem).elim,
      fun _ _ _ _ _ hmem => (List.not_mem_nil hmem).elim,
      fun _ _ _ _ _ hmem => (List.not_mem_nil hmem).elim⟩
  | cons d gone ih =>
    rw [List.foldlM_cons] at h
    cases hfirst : t.deleteDirectory d with
    | error e =>
      rw [hfirst] at h
      cases h
    | ok t₁ =>
      rw [hfirst] at h
      obtain ⟨rfl, hparents, hhomes, hlinks⟩ := unreferenced_of_deleteDirectory hfirst
      have hrest := ih h
      have hlookup : ∀ e, t'.directories.lookup e =
          if e ∈ d :: gone then none else t.directories.lookup e := by
        intro e
        rw [hrest.directories, Table.lookup_erase_eq_ite]
        by_cases hed : e = d <;> simp [hed]
      refine ⟨hrest.rest, hlookup, fun e row p hrow hparent hmem => ?_,
        fun f row p hrow hhome hmem => ?_, fun k link p hlink hhome hmem => ?_⟩
      · obtain rfl | hmem := List.mem_cons.mp hmem
        · have hold : t.directories.lookup e = some row := by
            rw [hlookup e] at hrow
            split at hrow
            · cases hrow
            · exact hrow
          exact hparents e row hold hparent
        · exact hrest.parents e row p hrow hparent hmem
      · obtain rfl | hmem := List.mem_cons.mp hmem
        · exact hhomes f row hrow hhome
        · exact hrest.homes f row p hrow hhome hmem
      · obtain rfl | hmem := List.mem_cons.mp hmem
        · exact hlinks k link hlink hhome
        · exact hrest.linkHomes k link p hlink hhome hmem

/-! ## A whole cleanup -/

section Collected

variable {rows : List Nat} {o : Nat}

lemma mem_importedObjects : o ∈ t.importedObjects rows ↔
      ∃ f ∈ rows, ∃ row, t.files.lookup f = some row ∧ row.dataObject = o := by
  simp [importedObjects, List.mem_insertionSort, List.mem_dedup]

lemma nodup_importedObjects (t : Tables) (rows : List Nat) : (t.importedObjects rows).Nodup :=
  (List.perm_insertionSort _ _).nodup_iff.mpr (List.nodup_dedup _)

lemma namedOutside_iff : t.namedOutside rows o = true ↔
      ∃ f row, t.files.lookup f = some row ∧ row.dataObject = o ∧ f ∉ rows := by
  simp only [namedOutside, List.any_eq_true, Table.mem_keysWith, beq_iff_eq]
  constructor
  · rintro ⟨f, ⟨row, hrow, hobject⟩, hf⟩
    exact ⟨f, row, hrow, hobject, by simpa using hf⟩
  · rintro ⟨f, row, hrow, hobject, hf⟩
    exact ⟨f, ⟨row, hrow, hobject⟩, by simpa using hf⟩

lemma nodup_collectFileRows (dirs : Directories) (files : Table Nat File) (name : Name) :
    (collectFileRows dirs files name).Nodup :=
  (List.perm_insertionSort _ _).nodup_iff.mpr (Table.nodup_keysWith _)

end Collected

lemma objects_of_loops {rows : List Nat} {objects objects' : Table Nat DataObject}
    (hshared : ((t.importedObjects rows).filter (t.namedOutside rows)).foldlM
      (updateSharedDataObjectReferenceCount (t.removedReferences rows)) t.objects = .ok objects)
    (hexclusive : ((t.importedObjects rows).filter fun o => !t.namedOutside rows o).foldlM
      (deleteDataObjectRows (t.removedReferences rows)) objects = .ok objects') :
    (∀ o, o ∉ t.importedObjects rows → objects'.lookup o = t.objects.lookup o) ∧
      (∀ o ∈ t.importedObjects rows, t.namedOutside rows o = true →
        ∃ object, t.objects.lookup o = some object ∧
          t.removedReferences rows o ≤ object.referenceCount ∧
          objects'.lookup o = some { object with
            referenceCount := object.referenceCount - t.removedReferences rows o }) ∧
      ∀ o ∈ t.importedObjects rows, t.namedOutside rows o = false →
        ∃ object, t.objects.lookup o = some object ∧
          object.referenceCount = t.removedReferences rows o ∧ objects'.lookup o = none := by
  have hnodup := nodup_importedObjects t rows
  obtain ⟨hsame₁, hchanged₁⟩ := ok_foldlM_changeObject (hnodup.filter _) hshared
  obtain ⟨hsame₂, hchanged₂⟩ := ok_foldlM_changeObject (hnodup.filter _) hexclusive
  refine ⟨fun o ho => ?_, fun o ho houtside => ?_, fun o ho houtside => ?_⟩
  · rw [hsame₂ o (by simp [ho]), hsame₁ o (by simp [ho])]
  · obtain ⟨object, new, hobject, hchange, hnew⟩ := hchanged₁ o (by simp [ho, houtside])
    rw [← hsame₂ o (by simp [houtside])] at hnew
    split at hchange
    next hle =>
      cases hchange
      exact ⟨object, hobject, hle, hnew⟩
    next => cases hchange
  · obtain ⟨object, new, hobject, hchange, hnew⟩ := hchanged₂ o (by simp [ho, houtside])
    rw [hsame₁ o (by simp [houtside])] at hobject
    split at hchange
    next heq =>
      cases hchange
      exact ⟨object, hobject, heq, hnew⟩
    next => cases hchange

lemma removed_of_removeTree {clock : Nat} {root : Name} {summary : CleanupFailedSummary}
    (h : t.removeTree clock root = .ok (summary, t')) :
    Removed t t' (collectDirectoryRows t.directories root)
      (collectFileRows t.directories t.files root) := by
  unfold removeTree at h
  simp only at h
  generalize collectDirectoryRows t.directories root = gone at h ⊢
  generalize collectFileRows t.directories t.files root = rows at h ⊢
  obtain ⟨-, -, h⟩ := ok_of_bind h
  obtain ⟨-, -, h⟩ := ok_of_bind h
  obtain ⟨objects, hshared, h⟩ := ok_of_bind h
  obtain ⟨objects', hexclusive, h⟩ := ok_of_bind h
  obtain ⟨t₁, hdirectories, h⟩ := ok_of_bind h
  cases h
  obtain ⟨hkept, hsharedObjects, hexclusiveObjects⟩ := objects_of_loops hshared hexclusive
  have hgone := directoriesGone_of_foldlM gone hdirectories
  have hfiles : ∀ f, t'.files.lookup f = if f ∈ rows then none else t.files.lookup f := by
    intro f
    rw [hgone.rest]
    show (t.files.keep fun f _ => !rows.contains f).lookup f = _
    rw [Table.lookup_keep_key]
    by_cases hf : f ∈ rows <;> simp [hf]
  have hlinks : ∀ k link, t'.hardlinks.lookup k = some link ↔
      t.hardlinks.lookup k = some link ∧ link.file ∉ rows := by
    intro k link
    rw [hgone.rest]
    show (t.hardlinks.keep fun _ link => !rows.contains link.file).lookup k = _ ↔ _
    rw [Table.lookup_keep, Option.filter_eq_some_iff]
    simp
  have hobjects : t'.objects = objects' := by rw [hgone.rest]
  refine ⟨hgone.directories, hfiles, hlinks, hgone.parents, fun f row e hrow => ?_,
    fun k link e hlink => ?_, ?_, ?_, ?_⟩
  · rw [hgone.rest] at hrow
    exact hgone.homes f row e hrow
  · rw [hgone.rest] at hlink
    exact hgone.linkHomes k link e hlink
  · rw [hobjects]
    exact hkept
  · rw [hobjects]
    exact hsharedObjects
  · rw [hobjects]
    exact hexclusiveObjects

lemma removed_nothing (t : Tables) (plan : Nat) (row : ImportPlan) (taken : Bool) :
    Removed t (t.markCleaned plan row taken) [] [] := by
  have hnone : ∀ o, o ∉ t.importedObjects [] := by
    intro o ho
    obtain ⟨f, hf, -⟩ := mem_importedObjects.mp ho
    cases hf
  exact {
    directories := fun _ => rfl
    files := fun _ => rfl
    hardlinks := fun _ _ => by simp [markCleaned]
    parents := fun _ _ _ _ _ => List.not_mem_nil
    homes := fun _ _ _ _ _ => List.not_mem_nil
    linkHomes := fun _ _ _ _ _ => List.not_mem_nil
    kept := fun _ _ => rfl
    shared := fun o ho => absurd ho (hnone o)
    exclusive := fun o ho => absurd ho (hnone o) }

lemma removed_of_cleanup {clock plan : Nat} {summary : CleanupFailedSummary}
    (h : t.cleanupFailedMaterialization clock plan = .ok (summary, t')) :
    ∃ gone rows, Removed t t' gone rows ∧ rows.Nodup ∧
      (∀ d, d ∈ gone ↔ ∃ name, likeRoot plan name = true ∧ Below t.directories name d) ∧
      ∀ f, f ∈ rows ↔ ∃ name d row, likeRoot plan name = true ∧
        Below t.directories name d ∧ t.files.lookup f = some row ∧ row.directory = some d := by
  unfold cleanupFailedMaterialization at h
  obtain ⟨⟨row, taken⟩, -, h⟩ := ok_of_bind h
  obtain ⟨root, hroot, h⟩ := ok_of_bind h
  unfold findRootName at hroot
  split at hroot
  next hroots =>
    -- no directory has the name of a root of the plan
    cases hroot
    cases h
    have hnone : ∀ {name d}, likeRoot plan name = true → ¬ Below t.directories name d := by
      intro name d hlike hbelow
      have hmem := hbelow.mem_rootNames hlike
      rw [hroots] at hmem
      cases hmem
    refine ⟨[], [], removed_nothing t plan row taken, List.nodup_nil, fun d => ?_, fun f => ?_⟩
    · constructor
      · exact fun hd => (List.not_mem_nil hd).elim
      · rintro ⟨name, hlike, hbelow⟩
        exact absurd hbelow (hnone hlike)
    · constructor
      · exact fun hf => (List.not_mem_nil hf).elim
      · rintro ⟨name, d, row, hlike, hbelow, -⟩
        exact absurd hbelow (hnone hlike)
  next name hroots =>
    cases hroot
    obtain ⟨⟨counts, t₁⟩, htree, h⟩ := ok_of_bind h
    cases h
    have hlike : likeRoot plan name = true :=
      likeRoot_of_mem_rootNames (by rw [hroots]; exact List.mem_singleton_self _)
    have honly : ∀ {name' d}, likeRoot plan name' = true → Below t.directories name' d →
        name' = name := by
      intro name' d hlike' hbelow
      have hmem := hbelow.mem_rootNames hlike'
      rw [hroots] at hmem
      exact List.mem_singleton.mp hmem
    have hremoved := removed_of_removeTree htree
    refine ⟨_, _, ⟨hremoved.directories, hremoved.files, hremoved.hardlinks, hremoved.parents,
      hremoved.homes, hremoved.linkHomes, hremoved.kept, hremoved.shared, hremoved.exclusive⟩,
      nodup_collectFileRows _ _ _, fun d => ?_, fun f => ?_⟩
    · rw [mem_collectDirectoryRows]
      constructor
      · exact fun hbelow => ⟨name, hlike, hbelow⟩
      · rintro ⟨name', hlike', hbelow⟩
        rwa [← honly hlike' hbelow]
    · rw [mem_collectFileRows]
      constructor
      · rintro ⟨row, d, hrow, hdirectory, hbelow⟩
        exact ⟨name, d, row, hlike, hbelow, hrow, hdirectory⟩
      · rintro ⟨name', d, row, hlike', hbelow, hrow, hdirectory⟩
        obtain rfl := honly hlike' hbelow
        exact ⟨row, d, hrow, hdirectory, hbelow⟩
  next => cases hroot

/-! ## What is left -/

namespace Removed

variable {gone rows : List Nat} (h : Removed t t' gone rows)

include h

lemma lookup_directory {d : Nat} {row : Directory} (hrow : t'.directories.lookup d = some row) :
    d ∉ gone ∧ t.directories.lookup d = some row := by
  rw [h.directories d] at hrow
  split at hrow
  next => cases hrow
  next hd => exact ⟨hd, hrow⟩

variable {f : Nat}

lemma lookup_file {row : File} (hrow : t'.files.lookup f = some row) :
    f ∉ rows ∧ t.files.lookup f = some row := by
  rw [h.files f] at hrow
  split at hrow
  next => cases hrow
  next hf => exact ⟨hf, hrow⟩

lemma mem_files : f ∈ t'.files ↔ f ∉ rows ∧ f ∈ t.files := by
  rw [← AList.lookup_isSome, ← AList.lookup_isSome, h.files f]
  by_cases hf : f ∈ rows <;> simp [hf]

lemma hasPath_of_left {e : Option Nat} {path : List Name}
    (hpath : HasPath t'.directories e path) : HasPath t.directories e path := by
  induction hpath with
  | root => exact .root
  | child hrow _ ih => exact .child (h.lookup_directory hrow).2 ih

lemma hasPath_left {e : Option Nat} {path : List Name} (hpath : HasPath t.directories e path)
    (he : ∀ d, e = some d → d ∉ gone) : HasPath t'.directories e path := by
  induction hpath with
  | root => exact .root
  | child hrow _ ih =>
    rename_i d row above _
    have hrow' : t'.directories.lookup d = some row := by
      rw [h.directories d, if_neg (he d rfl), hrow]
    exact .child hrow' (ih fun e hparent => h.parents d row e hrow' hparent)

lemma namedAt_iff (hf : f ∈ t'.files) (path : List Name) :
    t'.NamedAt f path ↔ t.NamedAt f path := by
  have hrows : f ∉ rows := (h.mem_files.mp hf).1
  constructor
  · rintro (⟨row, above, hrow, hpath, rfl⟩ | ⟨k, link, above, hlink, hfile, hpath, rfl⟩)
    · exact .inl ⟨row, above, (h.lookup_file hrow).2, h.hasPath_of_left hpath, rfl⟩
    · exact .inr ⟨k, link, above, ((h.hardlinks k link).mp hlink).1, hfile,
        h.hasPath_of_left hpath, rfl⟩
  · rintro (⟨row, above, hrow, hpath, rfl⟩ | ⟨k, link, above, hlink, rfl, hpath, rfl⟩)
    · have hrow' : t'.files.lookup f = some row := by
        rw [h.files f, if_neg hrows, hrow]
      exact .inl ⟨row, above, hrow',
        h.hasPath_left hpath fun d hd => h.homes f row d hrow' hd, rfl⟩
    · have hlink' := (h.hardlinks k link).mpr ⟨hlink, hrows⟩
      exact .inr ⟨k, link, above, hlink', rfl,
        h.hasPath_left hpath fun d hd => h.linkHomes k link d hlink' hd, rfl⟩

lemma readable_eq (hf : f ∈ t'.files) : t'.readable f = t.readable f := by
  have hrows : f ∉ rows := (h.mem_files.mp hf).1
  unfold readable
  rw [h.files f, if_neg hrows]
  cases hrow : t.files.lookup f with
  | none => rfl
  | some row =>
    have houtside : t.namedOutside rows row.dataObject = true :=
      namedOutside_iff.mpr ⟨f, row, hrow, rfl, hrows⟩
    by_cases hobject : row.dataObject ∈ t.importedObjects rows
    · obtain ⟨object, hold, -, hnew⟩ := h.shared _ hobject houtside
      simp [hold, hnew]
    · simp [h.kept _ hobject]

lemma references_add (hrows : rows.Nodup) (o : Nat) :
    t'.references o + t.removedReferences rows o = t.references o := by
  generalize hnamers : (t.files.keysWith fun row => row.dataObject == o) = namers
  have hnodup : namers.Nodup := hnamers ▸ Table.nodup_keysWith _
  have hmem : ∀ f, f ∈ namers ↔ ∃ row, t.files.lookup f = some row ∧ row.dataObject = o := by
    intro f
    rw [← hnamers, Table.mem_keysWith]
    simp
  have hleft : (t'.files.keysWith fun row => row.dataObject == o).Perm
      (namers.filter fun f => !rows.contains f) := by
    refine (List.perm_ext_iff_of_nodup (Table.nodup_keysWith _) (hnodup.filter _)).mpr ?_
    intro f
    rw [Table.mem_keysWith, List.mem_filter, hmem, h.files f]
    by_cases hf : f ∈ rows <;> simp [hf]
  have hremoved : (rows.filter fun f => (t.files.lookup f).any (·.dataObject == o)).Perm
      (namers.filter (rows.contains ·)) := by
    refine (List.perm_ext_iff_of_nodup (hrows.filter _) (hnodup.filter _)).mpr ?_
    intro f
    simp [List.mem_filter, hmem, Option.any_eq_true, and_comm]
  have hlength := (List.filter_append_perm (rows.contains ·) namers).length_eq
  rw [List.length_append] at hlength
  unfold references removedReferences
  rw [hnamers, hleft.length_eq, hremoved.length_eq, Nat.add_comm]
  exact hlength

end Removed

lemma removedReferences_eq_zero {rows : List Nat} {o : Nat}
    (ho : o ∉ t.importedObjects rows) : t.removedReferences rows o = 0 := by
  refine List.length_eq_zero_iff.mpr (List.filter_eq_nil_iff.mpr fun f hf hnames => ?_)
  simp only [Option.any_eq_true, beq_iff_eq] at hnames
  obtain ⟨row, hrow, hobject⟩ := hnames
  exact ho (mem_importedObjects.mpr ⟨f, hf, row, hrow, hobject⟩)

lemma references_pos_iff {o : Nat} :
    0 < t.references o ↔ ∃ f row, t.files.lookup f = some row ∧ row.dataObject = o := by
  rw [references, List.length_pos_iff_exists_mem]
  simp [Table.mem_keysWith]

lemma references_eq_zero_iff {o : Nat} :
    t.references o = 0 ↔ ∀ f row, t.files.lookup f = some row → row.dataObject ≠ o := by
  rw [← Nat.le_zero, ← Nat.not_lt, references_pos_iff]
  simp

namespace Removed

variable {gone rows : List Nat}

section

variable (h : Removed t t' gone rows)

include h

lemma namedOutside_eq (o : Nat) : t.namedOutside rows o = decide (0 < t'.references o) := by
  rw [Bool.eq_iff_iff, decide_eq_true_iff, namedOutside_iff, references_pos_iff]
  constructor
  · rintro ⟨f, row, hrow, hobject, hf⟩
    exact ⟨f, row, by rw [h.files f, if_neg hf, hrow], hobject⟩
  · rintro ⟨f, row, hrow, hobject⟩
    obtain ⟨hf, hrow⟩ := h.lookup_file hrow
    exact ⟨f, row, hrow, hobject, hf⟩

lemma object_cases (hrows : rows.Nodup) {o : Nat}
    {object : DataObject} (hobject : t.objects.lookup o = some object) :
    (∃ object', t'.objects.lookup o = some object' ∧
        object'.referenceCount + t.references o = object.referenceCount + t'.references o ∧
        (0 < t'.references o ∨ t.references o = t'.references o)) ∨
      (t'.objects.lookup o = none ∧ t'.references o = 0 ∧ 0 < t.references o ∧
        object.referenceCount = t.references o) := by
  have hadd := h.references_add hrows o
  by_cases ho : o ∈ t.importedObjects rows
  · cases houtside : t.namedOutside rows o with
    | true =>
      obtain ⟨object₀, hobject₀, hle, hnew⟩ := h.shared o ho houtside
      rw [hobject] at hobject₀
      cases hobject₀
      have hpos : 0 < t'.references o := by
        rw [h.namedOutside_eq] at houtside
        exact of_decide_eq_true houtside
      refine .inl ⟨_, hnew, ?_, .inl hpos⟩
      simp only
      omega
    | false =>
      obtain ⟨object₀, hobject₀, heq, hnew⟩ := h.exclusive o ho houtside
      rw [hobject] at hobject₀
      cases hobject₀
      have hzero : ¬ 0 < t'.references o := by
        rw [h.namedOutside_eq] at houtside
        exact of_decide_eq_false houtside
      obtain ⟨f, -, row, hrow, hnames⟩ := mem_importedObjects.mp ho
      exact .inr ⟨hnew, by omega, references_pos_iff.mpr ⟨f, row, hrow, hnames⟩, by omega⟩
  · have hzero := removedReferences_eq_zero ho
    exact .inl ⟨object, by rw [h.kept o ho, hobject], by omega, .inr (by omega)⟩

lemma object_of_left {o : Nat} {object' : DataObject}
    (hobject' : t'.objects.lookup o = some object') :
    ∃ object, t.objects.lookup o = some object := by
  by_cases ho : o ∈ t.importedObjects rows
  · cases houtside : t.namedOutside rows o with
    | true => exact (h.shared o ho houtside).imp fun _ hobject => hobject.1
    | false => exact (h.exclusive o ho houtside).imp fun _ hobject => hobject.1
  · exact ⟨object', by rw [← h.kept o ho, hobject']⟩

lemma counted_iff (hrows : rows.Nodup) : ((∀ o, o ∈ t.objects →
        (o ∉ t'.objects ↔ ∀ f row, t'.files.lookup f = some row → row.dataObject ≠ o)) ∧
      ∀ o object, t'.objects.lookup o = some object →
        object.referenceCount = t'.references o) ↔ t.Counted := by
  simp only [← references_eq_zero_iff, ← AList.lookup_isSome]
  constructor
  · rintro ⟨hdeleted, hcounted⟩ o object hobject
    obtain ⟨object', hobject', hcount, hnamed⟩ | ⟨-, -, hpos, heq⟩ :=
      h.object_cases hrows hobject
    · have hleft : t'.references o ≠ 0 := by
        intro hzero
        exact ((hdeleted o (by simp [hobject])).mpr hzero) (by simp [hobject'])
      have hexact := hcounted o object' hobject'
      have hadd := h.references_add hrows o
      omega
    · exact ⟨hpos, heq⟩
  · intro hcounted
    refine ⟨fun o ho => ?_, fun o object' hobject' => ?_⟩
    · obtain ⟨object, hobject⟩ := Option.isSome_iff_exists.mp ho
      obtain ⟨hpos, -⟩ := hcounted o object hobject
      obtain ⟨object', hobject', -, hnamed⟩ | ⟨hnone, hzero, -⟩ := h.object_cases hrows hobject
      · have hleft : t'.references o ≠ 0 := by omega
        simp [hobject', hleft]
      · simp [hnone, hzero]
    · obtain ⟨object, hobject⟩ := h.object_of_left hobject'
      obtain ⟨-, hexact⟩ := hcounted o object hobject
      obtain ⟨object₀, hobject₀, hcount, -⟩ | ⟨hnone, -⟩ := h.object_cases hrows hobject
      · rw [hobject'] at hobject₀
        cases hobject₀
        omega
      · rw [hobject'] at hnone
        cases hnone

end

end Removed

/--
A cleanup that commits keeps to what its import created, leaves every other
file its names and its content and accounts for the data objects, exactly when
whatever lies below the directory with the name of the import root was inserted
by the import and the data objects were accounted for before.
-/
theorem cleanup_removes_only_import_iff (t t' : Tables) (clock plan : Nat)
    (summary : CleanupFailedSummary)
    (h : t.cleanupFailedMaterialization clock plan = .ok (summary, t')) :
    RemovesOnlyImport t t' plan ↔ t.OnlyImportBelow plan ∧ t.Counted := by
  obtain ⟨gone, rows, hremoved, hrows, hgone, hcollected⟩ := removed_of_cleanup h
  rw [← hremoved.counted_iff hrows]
  constructor
  · intro hproperty
    refine ⟨⟨fun name d row hlike hbelow hrow => ?_,
      fun name d f row hlike hbelow hrow hdirectory => ?_⟩, hproperty.deleted, hproperty.counted⟩
    · refine hproperty.directories d row hrow ?_
      rw [hremoved.directories d, if_pos ((hgone d).mpr ⟨name, hlike, hbelow⟩)]
    · refine hproperty.files f row hrow ?_
      rw [hremoved.files f,
        if_pos ((hcollected f).mpr ⟨name, d, row, hlike, hbelow, hrow, hdirectory⟩)]
  · rintro ⟨honly, hdeleted, hcounted⟩
    refine ⟨fun f row hrow hnone => ?_, fun d row hrow hnone => ?_,
      fun f hf path => hremoved.namedAt_iff hf path, fun f hf => hremoved.readable_eq hf,
      hdeleted, hcounted⟩
    · rw [hremoved.files f, hrow] at hnone
      split at hnone
      next hf =>
        obtain ⟨name, d, row', hlike, hbelow, hrow', hdirectory⟩ := (hcollected f).mp hf
        rw [hrow] at hrow'
        cases hrow'
        exact honly.files name d f row hlike hbelow hrow hdirectory
      next => cases hnone
    · rw [hremoved.directories d, hrow] at hnone
      split at hnone
      next hd =>
        obtain ⟨name, hlike, hbelow⟩ := (hgone d).mp hd
        exact honly.directories name d row hlike hbelow hrow
      next => cases hnone

/-- The tables after an import of one file has failed under plan `1`.  `extra`
are the rows that others have put into its directory meanwhile. -/
def failedImport (extra : Table Nat File) (objects : Table Nat DataObject) : Tables where
  directories := AList.singleton 1 ⟨none, importRootName 1 1, some 1⟩
  files := extra.insert 1 ⟨some 1, ['a'], 5, 10, some 1⟩
  hardlinks := ∅
  symlinkParents := []
  objects := objects.insert 10 ⟨1, ∅⟩
  plans := AList.singleton 1 ⟨.failed, 1, none, ['s']⟩
  leases := ⟨[], ∅, [], [], []⟩

/-- Nobody has touched the import's directory. -/
theorem cleanup_removes_only_import_iff_untouched :
    ∃ t' summary, (failedImport ∅ ∅).cleanupFailedMaterialization 0 1 = .ok (summary, t') ∧
      (RemovesOnlyImport (failedImport ∅ ∅) t' 1 ↔
        (failedImport ∅ ∅).OnlyImportBelow 1 ∧ (failedImport ∅ ∅).Counted) :=
  ⟨_, _, rfl, cleanup_removes_only_import_iff _ _ 0 1 _ rfl⟩

/-- A user has created a file in the directory of an import while it ran.  The
cleanup of the failed import deletes the file with its content. -/
theorem cleanup_deletes_users_file :
    ∃ t' summary, (failedImport (AList.singleton 2 ⟨some 1, ['n'], 3, 11, none⟩)
        (AList.singleton 11 ⟨1, ∅⟩)).cleanupFailedMaterialization 0 1 = .ok (summary, t') ∧
      2 ∉ t'.files ∧ 11 ∉ t'.objects ∧
      ¬ RemovesOnlyImport (failedImport (AList.singleton 2 ⟨some 1, ['n'], 3, 11, none⟩)
        (AList.singleton 11 ⟨1, ∅⟩)) t' 1 := by
  refine ⟨_, _, rfl, by decide, by decide, fun hproperty => ?_⟩
  exact absurd (hproperty.files 2 ⟨some 1, ['n'], 3, 11, none⟩ rfl rfl) (by decide)

end Fod.Import.Tables
