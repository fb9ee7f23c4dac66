import Fod.Mount.PathMaps

/-!
# Known inodes stay reachable

A directory rename leaves the cached paths below it as they were, so that they no
longer resolve, and `remove_cached_path` leaves an inode without a reverse mapping
if its other names are not cached.  All other steps keep the inodes that the
kernel has looked up reachable.
-/

namespace Fod.Mount

namespace State

/-- `entry_path_for_ino` and `entry_attrs_for_ino` find each inode that the kernel
has looked up and that still has a name. -/
def InodesReachable (s : State) : Prop :=
  ∀ ino, 0 < (s.lookupRefs.lookup ino).getD 0 → s.names.Shows ino →
    ∃ path node, s.entryPathForIno ino = .ok path ∧ s.names.resolve path = some node ∧
      node.ino = ino ∧ s.entryAttrsForIno ino = .ok (path, node)

/-- Dropping `path` from the maps while the rows `removed` go loses no inode: it has
no lookup count, or another cached path, or no other row. -/
def MayDrop (s : State) (path : Path) (removed : List (Nat × String)) : Prop :=
  ∀ ino ∈ s.pathToInode.lookup path,
    (s.lookupRefs.lookup ino).getD 0 = 0 ∨
      (∃ row ∈ s.pathToInode.entries, row.1 ≠ path ∧ row.2 = ino) ∨
      ∀ row ∈ s.names.entries, row.2.node.ino = ino → row.1 ∈ removed

instance (s : State) (path : Path) (removed : List (Nat × String)) :
    Decidable (s.MayDrop path removed) :=
  inferInstanceAs (Decidable (∀ ino ∈ _, _ ∨ _ ∨ _))

/-- No cached path lies strictly below a renamed directory, and an inode that loses
a name keeps another cached path if it has other names. -/
def KeepsPaths (s : State) : Action → Prop
  | .create parent name _ writable excl granted _ =>
    ∀ named ∈ s.child parent name, writable = true →
      (named.entry.node.kind = .file ∧ excl = false ∧ granted = true) ∨ s.MayDrop named.path []
  | .unlink parent name _ _ =>
    ∀ named ∈ s.child parent name,
      named.entry.node.kind = .dir ∨ s.MayDrop named.path [named.key]
  | .rmdir parent name _ => ∀ named ∈ s.removable parent name, s.MayDrop named.path [named.key]
  | .rename parent name newparent newname noReplace _ _ =>
    ∀ plan ∈ s.renamePlan parent name newparent newname noReplace,
      (plan.target.isSome = true → s.MayDrop plan.newPath [plan.newKey]) ∧
        ∀ row ∈ s.pathToInode.entries, plan.source.path <:+ row.1 → row.1 = plan.source.path
  | _ => True

instance (s : State) : ∀ a, Decidable (s.KeepsPaths a)
  | .create .. => inferInstanceAs (Decidable (∀ named ∈ _, _ → _ ∨ _))
  | .unlink .. => inferInstanceAs (Decidable (∀ named ∈ _, _ ∨ _))
  | .rmdir .. => inferInstanceAs (Decidable (∀ named ∈ _, _))
  | .rename .. => inferInstanceAs (Decidable (∀ plan ∈ _, (_ → _) ∧ ∀ row ∈ _, _ → _))
  | .lookup .. | .mkdir .. | .symlink .. | .link .. | .getattr .. | .forget .. | .openFile ..
  | .data .. | .release .. => isTrue trivial

variable {s : State} {path : Path}

structure PathsKnown (s : State) : Prop where
  tree : s.names.WellFormed s.nextId
  coherent : s.Coherent s.names
  known : ∀ ino, ino ≠ rootIno → (s.lookupRefs.lookup ino).getD 0 ≠ 0 → s.names.Shows ino →
    s.Known ino

lemma PathsKnown.inodesReachable (h : s.PathsKnown) : s.InodesReachable := by
  intro ino hrefs hshows
  by_cases hroot : ino = rootIno
  · refine ⟨[], root, ?_, rfl, hroot.symm, ?_⟩
    · rw [entryPathForIno, if_pos hroot]
    · rw [entryAttrsForIno, entryPathForIno, if_pos hroot]
      exact if_pos hroot.symm
  · obtain ⟨path, hpath⟩ := h.known ino hroot (Nat.ne_of_gt hrefs) hshows
    obtain ⟨node, hnode, hino⟩ := h.coherent.cached path ino (h.coherent.canonical ino path hpath)
    have hentry : s.entryPathForIno ino = .ok path := by
      rw [entryPathForIno, if_neg hroot, hpath]
    refine ⟨path, node, hentry, hnode, hino, ?_⟩
    rw [entryAttrsForIno, hentry]
    simp [hnode, hino]

lemma resolve_of_parentEntry {parent d : Nat} (h : s.parentEntry parent = some (path, d)) :
    ∃ ino, s.names.resolve path = some ⟨.dir, d, ino⟩ := by
  unfold parentEntry at h
  split at h
  · obtain ⟨rfl, rfl⟩ := Prod.mk.inj (Option.some.inj h)
    exact ⟨rootIno, rfl⟩
  · split at h
    · rename_i d' ino' hattrs
      obtain ⟨rfl, rfl⟩ := Prod.mk.inj (Option.some.inj h)
      refine ⟨ino', ?_⟩
      unfold entryAttrsForIno at hattrs
      split at hattrs
      · cases hattrs
      · split at hattrs
        · rename_i node hnode
          split at hattrs
          · obtain ⟨rfl, rfl⟩ := Prod.mk.inj (Except.ok.inj hattrs)
            exact hnode
          · cases hattrs
        · cases hattrs
    · cases h

structure NamedAt (s : State) (named : Named) (name : String) (parentPath : Path) (d ino : Nat) :
    Prop where
  path : named.path = name :: parentPath
  key : named.key = (d, name)
  parent : s.names.resolve parentPath = some ⟨.dir, d, ino⟩
  node : s.names.nodeAt (d, name) = some named.entry.node

variable {name : String} {named : Named} {parent : Nat} {node : Node} {key : Nat × String}

lemma namedAt_of_child (h : s.child parent name = some named) :
    ∃ parentPath d ino, s.NamedAt named name parentPath d ino := by
  unfold child at h
  split at h
  · cases h
  · rename_i parentPath d hparent
    obtain ⟨e, he, rfl⟩ := Option.map_eq_some_iff.mp h
    obtain ⟨ino, hresolve⟩ := resolve_of_parentEntry hparent
    refine ⟨parentPath, d, ino, rfl, rfl, hresolve, ?_⟩
    rw [Names.nodeAt, he, Option.map_some]

lemma NamedAt.resolve {parentPath : Path} {d ino : Nat}
    (h : s.NamedAt named name parentPath d ino) :
    s.names.resolve named.path = some named.entry.node := by
  rw [h.path]
  exact Names.resolve_cons.mpr ⟨d, ino, h.parent, h.node⟩

lemma resolve_of_entryAttrs {i : Nat} (h : s.entryAttrsForIno i = .ok (path, node)) :
    s.names.resolve path = some node ∧ node.ino = i := by
  unfold entryAttrsForIno at h
  split at h
  · cases h
  · split at h
    · rename_i node' hnode
      split at h
      · rename_i hino
        obtain ⟨rfl, rfl⟩ := Prod.mk.inj (Except.ok.inj h)
        exact ⟨hnode, hino⟩
      · cases h
    · cases h

lemma pathsKnown_registerLookupPath {ino : Nat}
    (htree : s.names.WellFormed s.nextId) (hcoherent : s.Coherent s.names)
    (hpath : s.names.resolve path = some node) (hino : node.ino = ino)
    (hknown : ∀ i, i ≠ ino → i ≠ rootIno → (s.lookupRefs.lookup i).getD 0 ≠ 0 →
      s.names.Shows i → s.Known i) : (s.registerLookupPath path ino).PathsKnown := by
  refine ⟨htree, hcoherent.registerLookupPath hpath hino, ?_⟩
  intro i hroot hrefs hshows
  unfold Known registerLookupPath
  dsimp only
  by_cases hi : i = ino
  · subst hi
    split
    · rename_i hsome
      exact Option.isSome_iff_exists.mp hsome
    · exact ⟨path, AList.lookup_insert _⟩
  · have hrefs' : (s.lookupRefs.lookup i).getD 0 ≠ 0 := by
      simpa [registerLookupPath, AList.lookup_insert_ne hi] using hrefs
    obtain ⟨p, hp⟩ := hknown i hi hroot hrefs' hshows
    split
    · exact ⟨p, hp⟩
    · exact ⟨p, (AList.lookup_insert_ne hi).trans hp⟩

lemma PathsKnown.lookup (h : s.PathsKnown) (parent : Nat) (name : String) :
    (s.lookup parent name).PathsKnown := by
  unfold State.lookup
  split
  · exact h
  · rename_i named hnamed
    obtain ⟨parentPath, d, ino, hat⟩ := namedAt_of_child hnamed
    exact pathsKnown_registerLookupPath h.tree h.coherent hat.resolve rfl fun i _ => h.known i

lemma vacant_eq_some (h : s.vacant parent name = some (path, key)) :
    ∃ parentPath d ino, path = name :: parentPath ∧ key = (d, name) ∧
      s.names.resolve parentPath = some ⟨.dir, d, ino⟩ ∧ s.names.nodeAt key = none := by
  unfold vacant at h
  split at h
  · cases h
  · rename_i parentPath d hparent
    split at h
    · cases h
    · rename_i hfree
      obtain ⟨rfl, rfl⟩ := Prod.mk.inj (Option.some.inj h)
      obtain ⟨ino, hresolve⟩ := resolve_of_parentEntry hparent
      refine ⟨parentPath, d, ino, rfl, rfl, hresolve, ?_⟩
      rw [Names.nodeAt, Option.not_isSome_iff_eq_none.mp hfree, Option.map_none]

lemma PathsKnown.bind (h : s.PathsKnown)
    {e : Entry} (hvacant : s.vacant parent name = some (path, key)) (hid : e.node.id ≤ s.nextId)
    (hdir : e.node.kind = .dir → e.node.id = s.nextId) (t : State)
    (ht : t.names = (s.bind key e).names ∧ t.nextId = s.nextId + 1 ∧
      t.pathToInode = s.pathToInode ∧ t.inodeToPath = s.inodeToPath ∧
      t.lookupRefs = s.lookupRefs) : (t.registerLookupPath path e.node.ino).PathsKnown := by
  obtain ⟨hnames, hnext, hpaths, hinodes, hcounts⟩ := ht
  obtain ⟨parentPath, d, ino, rfl, rfl, hparent, hfree⟩ := vacant_eq_some hvacant
  have hlt : d < s.nextId := h.tree.id_lt hparent
  have hkept : ∀ {p node}, s.names.resolve p = some node → t.names.resolve p = some node := by
    intro p node hp
    rw [hnames]
    exact Names.resolve_insert hfree hp
  have hnew : t.names.resolve (name :: parentPath) = some e.node := by
    refine Names.resolve_cons.mpr ⟨d, ino, hkept hparent, ?_⟩
    rw [hnames]
    exact (Names.nodeAt_insert _ _ _).trans (if_pos rfl)
  refine pathsKnown_registerLookupPath ?_ ?_ hnew rfl ?_
  · rw [hnames, hnext]
    exact h.tree.insert hlt hid hdir
  · constructor
    · intro p i hp
      rw [hpaths] at hp
      obtain ⟨node, hnode, hino⟩ := h.coherent.cached p i hp
      exact ⟨node, hkept hnode, hino⟩
    · rw [hpaths, hinodes]
      exact h.coherent.canonical
  · intro i hi hroot hrefs hshows
    rw [hcounts] at hrefs
    obtain ⟨node, hvisible, hino⟩ := hshows
    rw [hnames] at hvisible
    rcases Names.visible_insert h.tree hlt hdir hvisible with hold | rfl
    · unfold Known
      rw [hinodes]
      exact h.known i hroot hrefs ⟨node, hold, hino⟩
    · exact absurd hino.symm hi

lemma PathsKnown.makeNode (h : s.PathsKnown) (kind : Kind) (parent : Nat) (name : String)
    (ino : Nat) : (s.makeNode kind parent name ino).PathsKnown := by
  unfold State.makeNode
  split
  · exact h
  · rename_i path key hvacant
    exact h.bind hvacant (Nat.le_refl _) (fun _ => rfl) _ ⟨rfl, rfl, rfl, rfl, rfl⟩

lemma PathsKnown.link (h : s.PathsKnown) (ino newparent : Nat) (newname : String) :
    (s.link ino newparent newname).PathsKnown := by
  unfold State.link
  split
  · rename_i source node path key hattrs hvacant
    split
    · exact h
    · rename_i hkind
      obtain ⟨hnode, -⟩ := resolve_of_entryAttrs hattrs
      exact h.bind hvacant (Nat.le_of_lt (h.tree.id_lt hnode)) (fun hdir => absurd hdir hkind) _
        ⟨rfl, rfl, rfl, rfl, rfl⟩
  · exact h

/-! ## Removed names -/

lemma MayDrop.spare {removed : List (Nat × String)} {i : Nat}
    (h : s.MayDrop path removed) (hcached : s.pathToInode.lookup path = some i)
    (hrefs : (s.lookupRefs.lookup i).getD 0 ≠ 0) (hnode : s.names.nodeAt key = some node)
    (hino : node.ino = i) (hkey : key ∉ removed) :
    ∃ q, q ≠ path ∧ s.pathToInode.lookup q = some i := by
  rcases h i hcached with hzero | ⟨⟨q, i'⟩, hrow, hq, rfl⟩ | hgone
  · exact absurd hzero hrefs
  · exact ⟨q, hq, Table.lookup_eq_some.mpr hrow⟩
  · obtain ⟨e, he, rfl⟩ := Option.map_eq_some_iff.mp hnode
    exact absurd (hgone ⟨key, e⟩ (Table.lookup_eq_some.mp he) hino) hkey

lemma eq_of_below {p q : Path} {node node' : Node} (hq : s.names.resolve q = some node)
    (hleaf : node.kind ≠ .dir ∨ s.names.emptyDir node.id = true)
    (hp : s.names.resolve p = some node') (hsuffix : q <:+ p) : p = q := by
  by_contra hne
  obtain ⟨d, ino, name, child, hdir, hchild⟩ :=
    Names.dir_of_strict_suffix hp hsuffix (Ne.symm hne)
  obtain rfl := Option.some.inj (hq.symm.trans hdir)
  rcases hleaf with hkind | hempty
  · exact hkind rfl
  · obtain ⟨e, he, -⟩ := Option.map_eq_some_iff.mp hchild
    have hkey : (d, name) ∈ s.names.keys := by
      rw [← AList.mem_keys, ← AList.lookup_isSome, he]
      rfl
    have hall := List.all_eq_true.mp hempty (d, name) hkey
    simp at hall

section

variable (h : s.PathsKnown)

include h

lemma PathsKnown.unbind {parentPath : Path}
    {d ino : Nat} (hat : s.NamedAt named name parentPath d ino)
    (hleaf : named.entry.node.kind ≠ .dir ∨ s.names.emptyDir named.entry.node.id = true)
    (hdrop : s.MayDrop named.path [named.key]) (pick : Nat) :
    ((s.unbind named.key named.entry).removeCachedPath pick named.path).PathsKnown := by
  have hcoherent : (s.unbind named.key named.entry).Coherent s.names :=
    ⟨h.coherent.cached, h.coherent.canonical⟩
  have hmaps := hcoherent.removeCachedPath pick named.path
  refine ⟨?_, ⟨?_, hmaps.canonical⟩, ?_⟩
  · rw [names_removeCachedPath, nextId_removeCachedPath]
    exact h.tree.unbind _ _
  · intro p i hp
    obtain ⟨node, hnode, hino⟩ := hmaps.cached p i hp
    refine ⟨node, ?_, hino⟩
    rw [names_removeCachedPath]
    change (s.names.unbind named.key named.entry).resolve p = some node
    rw [hat.key]
    refine Names.resolve_unbind h.tree _ hat.parent hnode ?_
    intro hsuffix
    rw [← hat.path] at hsuffix
    rw [lookup_removeCachedPath, if_pos (eq_of_below hat.resolve hleaf hnode hsuffix)] at hp
    cases hp
  · intro i hroot hrefs hshows
    rw [lookupRefs_removeCachedPath] at hrefs
    rw [names_removeCachedPath] at hshows
    obtain ⟨node, hvisible, hino⟩ := hshows
    have hknown : (s.unbind named.key named.entry).Known i :=
      h.known i hroot hrefs ⟨node, Names.visible_unbind hvisible, hino⟩
    refine hknown.removeCachedPath hcoherent pick fun hpath => ?_
    obtain ⟨key, hkey⟩ := hvisible.exists_key fun heq => hroot (hino ▸ heq ▸ rfl)
    change (s.names.unbind named.key named.entry).nodeAt key = some node at hkey
    rw [Names.nodeAt_unbind] at hkey
    split at hkey
    · cases hkey
    · rename_i hne
      exact hdrop.spare (h.coherent.canonical i _ hpath) hrefs hkey hino (by simpa using hne)

lemma PathsKnown.moveHandles (wanted : Handle → Bool) (path : Path) :
    (s.moveHandles wanted path).PathsKnown :=
  ⟨h.tree, ⟨h.coherent.cached, h.coherent.canonical⟩, h.known⟩

lemma PathsKnown.unlink (hidden : String) (pick : Nat) (hguard : ∀ named ∈ s.child parent name,
      named.entry.node.kind = .dir ∨ s.MayDrop named.path [named.key]) :
    (s.unlink parent name hidden pick).PathsKnown := by
  unfold State.unlink
  split
  · exact h
  · rename_i named hnamed
    obtain ⟨parentPath, d, ino, hat⟩ := namedAt_of_child hnamed
    have hremoved : named.entry.node.kind ≠ .dir →
        ((s.unbind named.key named.entry).removeCachedPath pick named.path).PathsKnown := by
      intro hkind
      exact h.unbind hat (.inl hkind) ((hguard named hnamed).resolve_left hkind) pick
    split
    · exact h
    · rename_i hkind
      exact hremoved (by simp [hkind])
    · rename_i hkind
      have hfile := hremoved (by simp [hkind])
      -- the path is gone from the map, so the second removal does nothing
      have hgone : (s.unlinkFile named hidden pick).pathToInode.lookup named.path = none := by
        have hfirst := lookup_removeCachedPath (s.unbind named.key named.entry) pick named.path
          named.path
        rw [if_pos rfl] at hfirst
        unfold unlinkFile
        split <;> exact hfirst
      rw [removeCachedPath_of_none hgone]
      unfold unlinkFile
      split
      · exact hfile.moveHandles _ _
      · exact hfile

lemma PathsKnown.rmdir (pick : Nat)
    (hguard : ∀ named ∈ s.removable parent name, s.MayDrop named.path [named.key]) :
    (s.rmdir parent name pick).PathsKnown := by
  unfold State.rmdir
  split
  · exact h
  · rename_i named hnamed
    obtain ⟨hchild, hempty⟩ := Option.filter_eq_some_iff.mp hnamed
    simp only [Bool.and_eq_true, beq_iff_eq] at hempty
    obtain ⟨parentPath, d, ino, hat⟩ := namedAt_of_child hchild
    have hremoved := h.unbind hat (.inr hempty.2) (hguard named hnamed) pick
    exact ⟨hremoved.tree, ⟨hremoved.coherent.cached, hremoved.coherent.canonical⟩,
      hremoved.known⟩

lemma PathsKnown.dropPath (hdrop : s.MayDrop path []) (pick : Nat) :
    (s.removeCachedPath pick path).PathsKnown := by
  refine ⟨?_, ?_, ?_⟩
  · rw [names_removeCachedPath, nextId_removeCachedPath]
    exact h.tree
  · rw [names_removeCachedPath]
    exact h.coherent.removeCachedPath pick path
  · intro i hroot hrefs hshows
    rw [lookupRefs_removeCachedPath] at hrefs
    rw [names_removeCachedPath] at hshows
    refine (h.known i hroot hrefs hshows).removeCachedPath h.coherent pick fun hpath => ?_
    obtain ⟨node, hvisible, hino⟩ := hshows
    obtain ⟨key, hkey⟩ := hvisible.exists_key fun heq => hroot (hino ▸ heq ▸ rfl)
    exact hdrop.spare (h.coherent.canonical i _ hpath) hrefs hkey hino List.not_mem_nil

lemma PathsKnown.create (ino : Nat) {writable excl granted : Bool} (pick : Nat)
    (hguard : ∀ named ∈ s.child parent name, writable = true →
      (named.entry.node.kind = .file ∧ excl = false ∧ granted = true) ∨ s.MayDrop named.path []) :
    (s.create parent name ino writable excl granted pick).PathsKnown := by
  unfold State.create
  split
  · rename_i path key hvacant
    split
    · -- a free name is not cached
      rw [removeCachedPath_of_none]
      · exact h
      · obtain ⟨parentPath, d, i, rfl, rfl, hparent, hfree⟩ := vacant_eq_some hvacant
        rw [Option.eq_none_iff_forall_ne_some]
        intro i' hcached
        obtain ⟨node, hnode, -⟩ := h.coherent.cached _ i' hcached
        obtain ⟨d', i'', hparent', hnode'⟩ := Names.resolve_cons.mp hnode
        obtain ⟨-, rfl, -⟩ : Kind.dir = Kind.dir ∧ d = d' ∧ i = i'' := by
          simpa using hparent.symm.trans hparent'
        rw [hfree] at hnode'
        cases hnode'
    · exact h.bind (e := ⟨⟨.file, s.nextId, ino⟩, none⟩) hvacant (Nat.le_refl _) (fun _ => rfl) _
        ⟨rfl, rfl, rfl, rfl, rfl⟩
  · rename_i named _ hnamed
    obtain ⟨parentPath, d, i, hat⟩ := namedAt_of_child hnamed
    split
    · exact h
    · rename_i hwritable
      split
      · exact pathsKnown_registerLookupPath h.tree ⟨h.coherent.cached, h.coherent.canonical⟩
          hat.resolve rfl fun i _ => h.known i
      · rename_i hrefused
        have hwritable : writable = true := by simpa using hwritable
        exact h.dropPath ((hguard named hnamed hwritable).resolve_left hrefused) pick
  · exact h

end

/-! ## Rename -/

structure PlanAt (s : State) (plan : RenamePlan) (name newname : String) (oldDir newDir : Path)
    (d ino d' ino' : Nat) : Prop where
  source : s.NamedAt plan.source name oldDir d ino
  newPath : plan.newPath = newname :: newDir
  newKey : plan.newKey = (d', newname)
  newParent : s.names.resolve newDir = some ⟨.dir, d', ino'⟩
  moves : plan.source.path ≠ plan.newPath
  outside : plan.source.entry.node.kind = .dir → ¬ plan.source.path <:+ newDir
  target : s.names.nodeAt plan.newKey = plan.target.map Entry.node
  replaced : ∀ e ∈ plan.target, e.node.kind ≠ .dir ∨ s.names.emptyDir e.node.id = true

lemma planAt_of_renamePlan {parent newparent : Nat} {name newname : String} {noReplace : Bool}
    {plan : RenamePlan} (h : s.renamePlan parent name newparent newname noReplace = some plan) :
    ∃ oldDir newDir d ino d' ino', s.PlanAt plan name newname oldDir newDir d ino d' ino' := by
  unfold renamePlan at h
  split at h
  · rename_i source newDir d' hsource hparent
    dsimp only at h
    split at h
    · rename_i hchecks
      obtain ⟨hmoves, -, houtside, hreplace⟩ := hchecks
      cases h
      obtain ⟨oldDir, d, ino, hat⟩ := namedAt_of_child hsource
      obtain ⟨ino', hresolve⟩ := resolve_of_parentEntry hparent
      refine ⟨oldDir, newDir, d, ino, d', ino', hat, rfl, rfl, hresolve, hmoves,
        fun hdir hsuffix => houtside ⟨hdir, hsuffix⟩, rfl, ?_⟩
      intro e he
      have hok := hreplace e he
      simp only [replaceable, Bool.and_eq_true, Bool.or_eq_true, bne_iff_ne] at hok
      exact hok.2
    · cases h
  · cases h

section Rename

variable {plan : RenamePlan} {name newname : String} {oldDir newDir : Path}
  {d ino d' ino' : Nat}

section

variable (h : s.PlanAt plan name newname oldDir newDir d ino d' ino')

include h

lemma PlanAt.renames (hwf : s.names.WellFormed s.nextId) :
    Names.Renames s.names (s.renamed plan).names (d, name) (d', newname)
      plan.source.entry.node := by
  have hne : (d, name) ≠ (d', newname) := by
    intro heq
    obtain ⟨rfl, rfl⟩ := Prod.mk.inj heq
    refine h.moves ?_
    rw [h.source.path, h.newPath, Names.path_unique hwf h.source.parent h.newParent]
  refine ⟨hne, h.source.node, fun k => ?_⟩
  unfold renamed
  dsimp only
  rw [Names.nodeAt_insert, Names.nodeAt_erase, h.newKey, h.source.key]
  split
  · rfl
  · rename_i hk
    split
    · rfl
    · split
      · rfl
      · rw [Names.nodeAt_unbind, if_neg hk]

lemma PlanAt.not_through_newPath {p : Path} {node : Node}
    (hp : s.names.resolve p = some node) (hne : p ≠ plan.newPath) : ¬ plan.newPath <:+ p := by
  intro hsuffix
  obtain ⟨d₀, i₀, child, node', hdir, hchild⟩ :=
    Names.dir_of_strict_suffix hp hsuffix (Ne.symm hne)
  rw [h.newPath] at hdir
  obtain ⟨d₁, i₁, hparent, hnode⟩ := Names.resolve_cons.mp hdir
  obtain ⟨-, rfl, -⟩ : Kind.dir = Kind.dir ∧ d' = d₁ ∧ ino' = i₁ := by
    simpa using h.newParent.symm.trans hparent
  rw [← h.newKey, h.target] at hnode
  obtain ⟨e, he, hnode⟩ := Option.map_eq_some_iff.mp hnode
  have htarget : s.names.resolve plan.newPath = some e.node := by
    rw [h.newPath, hdir, hnode]
  exact hne (eq_of_below htarget (h.replaced e he) hp hsuffix)

lemma PlanAt.newDir_kept (hwf : s.names.WellFormed s.nextId) :
    (s.renamed plan).names.resolve newDir = some ⟨.dir, d', ino'⟩ := by
  refine (h.renames hwf).resolve hwf h.source.parent h.newParent h.newParent ?_ ?_
  · rw [← h.source.path]
    intro hsuffix
    -- a path through the source passes through a directory
    by_cases hdir : plan.source.entry.node.kind = .dir
    · exact h.outside hdir hsuffix
    · have heq := eq_of_below h.source.resolve (.inl hdir) h.newParent hsuffix
      have hnode := h.source.resolve
      rw [← heq, h.newParent] at hnode
      rw [← Option.some.inj hnode] at hdir
      exact hdir rfl
  · intro hsuffix
    have hlength := hsuffix.length_le
    rw [List.length_cons] at hlength
    omega

end

lemma PathsKnown.renamed (h : s.PathsKnown)
    (hplan : s.PlanAt plan name newname oldDir newDir d ino d' ino') {t : State}
    (hnames : t.names = (s.renamed plan).names) (hnext : t.nextId = s.nextId)
    (hcoherent : t.Coherent s.names) (hold : t.pathToInode.lookup plan.source.path = none)
    (hnew : t.pathToInode.lookup plan.newPath = none)
    (hbelow : ∀ p i, t.pathToInode.lookup p = some i → plan.source.path <:+ p →
      p = plan.source.path) (hknown : ∀ i, i ≠ plan.source.entry.node.ino → i ≠ rootIno →
      (t.lookupRefs.lookup i).getD 0 ≠ 0 → t.names.Shows i → t.Known i) :
    (t.registerPath plan.newPath plan.source.entry.node.ino).PathsKnown := by
  have hrenames := hplan.renames h.tree
  have hnewPath : t.names.resolve plan.newPath = some plan.source.entry.node := by
    rw [hplan.newPath, hnames]
    refine Names.resolve_cons.mpr ⟨d', ino', hplan.newDir_kept h.tree, ?_⟩
    exact (hrenames.nodeAt _).trans (if_pos rfl)
  have hcoherent' : t.Coherent t.names := by
    refine ⟨fun p i hp => ?_, hcoherent.canonical⟩
    obtain ⟨node, hnode, hino⟩ := hcoherent.cached p i hp
    refine ⟨node, ?_, hino⟩
    rw [hnames]
    refine hrenames.resolve h.tree hplan.source.parent hplan.newParent hnode ?_ ?_
    · rw [← hplan.source.path]
      intro hsuffix
      rw [hbelow p i hp hsuffix, hold] at hp
      cases hp
    · rw [← hplan.newPath]
      refine hplan.not_through_newPath hnode fun heq => ?_
      rw [heq, hnew] at hp
      cases hp
  refine ⟨?_, hcoherent'.registerPath hnewPath rfl, ?_⟩
  · change t.names.WellFormed t.nextId
    rw [hnames, hnext]
    exact hrenames.wellFormed h.tree (h.tree.id_lt hplan.newParent)
  · intro i hroot hrefs hshows
    by_cases hi : i = plan.source.entry.node.ino
    · exact ⟨plan.newPath, hi ▸ AList.lookup_insert _⟩
    · obtain ⟨p, hp⟩ := hknown i hi hroot hrefs hshows
      exact ⟨p, (AList.lookup_insert_ne hi).trans hp⟩

structure TargetDropped (s : State) (plan : RenamePlan) (t : State) : Prop where
  names : t.names = (s.renamed plan).names
  nextId : t.nextId = s.nextId
  refs : t.lookupRefs = s.lookupRefs
  coherent : t.Coherent s.names
  newPath : t.pathToInode.lookup plan.newPath = none
  paths : ∀ p i, t.pathToInode.lookup p = some i → s.pathToInode.lookup p = some i
  known : ∀ i, i ≠ plan.source.entry.node.ino → i ≠ rootIno →
    (s.lookupRefs.lookup i).getD 0 ≠ 0 → (s.renamed plan).names.Shows i → t.Known i

lemma PathsKnown.known_before (h : s.PathsKnown)
    (hplan : s.PlanAt plan name newname oldDir newDir d ino d' ino') {i : Nat}
    (hroot : i ≠ rootIno) (hrefs : (s.lookupRefs.lookup i).getD 0 ≠ 0)
    (hshows : (s.renamed plan).names.Shows i) : s.Known i := by
  obtain ⟨node, hvisible, hino⟩ := hshows
  have hsource : s.names.Visible plan.source.entry.node := ⟨_, hplan.source.resolve⟩
  exact h.known i hroot hrefs ⟨node, (hplan.renames h.tree).visible hsource hvisible, hino⟩

lemma PathsKnown.targetDropped (h : s.PathsKnown)
    (hplan : s.PlanAt plan name newname oldDir newDir d ino d' ino')
    (hdrop : plan.target.isSome = true → s.MayDrop plan.newPath [plan.newKey]) (pick : Nat) :
    s.TargetDropped plan
      (if plan.target.isSome = true then
        ((s.renamed plan).removeCachedPath pick plan.newPath).removeCachedHandlePaths plan.newPath
      else s.renamed plan) := by
  have hcoherent : (s.renamed plan).Coherent s.names :=
    ⟨h.coherent.cached, h.coherent.canonical⟩
  split
  · rename_i htarget
    have hmaps := hcoherent.removeCachedPath pick plan.newPath
    refine ⟨?_, ?_, ?_, ⟨hmaps.cached, hmaps.canonical⟩, ?_, ?_, ?_⟩
    · exact names_removeCachedPath _ _ _
    · exact nextId_removeCachedPath _ _ _
    · exact lookupRefs_removeCachedPath _ _ _
    · exact (lookup_removeCachedPath _ _ _ _).trans (if_pos rfl)
    · intro p i hp
      change ((s.renamed plan).removeCachedPath pick plan.newPath).pathToInode.lookup p = some i
        at hp
      rw [lookup_removeCachedPath] at hp
      split at hp
      · cases hp
      · exact hp
    · intro i hi hroot hrefs hshows
      have hknown : (s.renamed plan).Known i := h.known_before hplan hroot hrefs hshows
      refine hknown.removeCachedPath hcoherent pick fun hpath => ?_
      obtain ⟨node, hvisible, hino⟩ := hshows
      obtain ⟨key, hkey⟩ := hvisible.exists_key fun heq => hroot (hino ▸ heq ▸ rfl)
      rcases (hplan.renames h.tree).nodeAt_cases hkey with ⟨-, rfl⟩ | ⟨hne, -, hold⟩
      · exact absurd hino.symm hi
      · refine (hdrop htarget).spare (h.coherent.canonical i _ hpath) hrefs hold hino ?_
        rw [hplan.newKey]
        simpa using hne
  · rename_i htarget
    refine ⟨rfl, rfl, rfl, hcoherent, ?_, fun p i hp => hp, ?_⟩
    · -- a free name is not cached
      rw [Option.eq_none_iff_forall_ne_some]
      intro i hcached
      obtain ⟨node, hnode, -⟩ := h.coherent.cached _ i hcached
      rw [hplan.newPath] at hnode
      obtain ⟨d₁, i₁, hparent, hchild⟩ := Names.resolve_cons.mp hnode
      obtain ⟨-, rfl, -⟩ : Kind.dir = Kind.dir ∧ d' = d₁ ∧ ino' = i₁ := by
        simpa using hplan.newParent.symm.trans hparent
      rw [← hplan.newKey, hplan.target, Option.not_isSome_iff_eq_none.mp htarget] at hchild
      cases hchild
    · intro i _ hroot hrefs hshows
      exact h.known_before hplan hroot hrefs hshows

lemma PathsKnown.applyRename (h : s.PathsKnown)
    (hplan : s.PlanAt plan name newname oldDir newDir d ino d' ino') {t : State}
    (ht : s.TargetDropped plan t)
    (hbelow : ∀ row ∈ s.pathToInode.entries, plan.source.path <:+ row.1 →
      row.1 = plan.source.path) (pick : Nat) :
    (t.moveCachedPath pick plan.source.path plan.newPath plan.source.entry.node.ino).PathsKnown := by
  refine PathsKnown.moveHandles ?_ _ _
  have hlookup := lookup_removeCachedPath t pick plan.source.path
  refine h.renamed hplan ?_ ?_ (ht.coherent.removeCachedPath pick _) ?_ ?_ ?_ ?_
  · rw [names_removeCachedPath]
    exact ht.names
  · rw [nextId_removeCachedPath]
    exact ht.nextId
  · rw [hlookup, if_pos rfl]
  · rw [hlookup, if_neg hplan.moves.symm]
    exact ht.newPath
  · intro p i hp hsuffix
    rw [hlookup] at hp
    split at hp
    · cases hp
    · exact hbelow ⟨p, i⟩ (Table.lookup_eq_some.mp (ht.paths p i hp)) hsuffix
  · intro i hi hroot hrefs hshows
    rw [lookupRefs_removeCachedPath, ht.refs] at hrefs
    rw [names_removeCachedPath, ht.names] at hshows
    refine (ht.known i hi hroot hrefs hshows).removeCachedPath ht.coherent pick fun hpath => ?_
    -- the old path is that of the source
    obtain ⟨node, hnode, hino⟩ := ht.coherent.cached _ i (ht.coherent.canonical i _ hpath)
    rw [hplan.source.resolve] at hnode
    cases hnode
    exact absurd hino.symm hi

end Rename

lemma PathsKnown.rename (h : s.PathsKnown) {parent newparent : Nat} {name newname : String}
    {noReplace : Bool} (pick pick' : Nat)
    (hguard : ∀ plan ∈ s.renamePlan parent name newparent newname noReplace,
      (plan.target.isSome = true → s.MayDrop plan.newPath [plan.newKey]) ∧
        ∀ row ∈ s.pathToInode.entries, plan.source.path <:+ row.1 → row.1 = plan.source.path) :
    (s.rename parent name newparent newname noReplace pick pick').PathsKnown := by
  unfold State.rename
  split
  · exact h
  · rename_i plan hplan
    obtain ⟨hdrop, hbelow⟩ := hguard plan hplan
    obtain ⟨oldDir, newDir, d, ino, d', ino', hat⟩ := planAt_of_renamePlan hplan
    exact h.applyRename hat (h.targetDropped hat hdrop pick) hbelow pick'

/-! ## Counts and handles -/

section

variable (h : s.PathsKnown)

include h

lemma PathsKnown.evict (ino : Nat) : (s.evictInodeIfUnreferenced ino).PathsKnown := by
  have hsame : (s.evictInodeIfUnreferenced ino).names = s.names ∧
      (s.evictInodeIfUnreferenced ino).nextId = s.nextId ∧
      (s.evictInodeIfUnreferenced ino).lookupRefs = s.lookupRefs := by
    unfold evictInodeIfUnreferenced removeCachedInodePaths
    split
    · exact ⟨rfl, rfl, rfl⟩
    · split <;> exact ⟨rfl, rfl, rfl⟩
  obtain ⟨hnames, hnext, hcounts⟩ := hsame
  refine ⟨?_, ?_, ?_⟩
  · rw [hnames, hnext]
    exact h.tree
  · rw [hnames]
    exact h.coherent.evict ino
  · intro i hroot hrefs hshows
    rw [hcounts] at hrefs
    rw [hnames] at hshows
    exact (h.known i hroot hrefs hshows).evict hrefs ino

lemma PathsKnown.forget (ino nlookup : Nat) : (s.forgetLookupRefs ino nlookup).PathsKnown := by
  unfold forgetLookupRefs
  split
  · exact h
  · split
    · exact h
    · rename_i current hcurrent
      split
      · refine ⟨h.tree, ⟨h.coherent.cached, h.coherent.canonical⟩, ?_⟩
        intro i hroot hrefs hshows
        refine h.known i hroot ?_ hshows
        by_cases hi : i = ino
        · rw [hi, hcurrent, Option.getD_some]
          omega
        · simpa [AList.lookup_insert_ne hi] using hrefs
      · have hdropped : PathsKnown { s with lookupRefs := s.lookupRefs.erase ino } := by
          refine ⟨h.tree, ⟨h.coherent.cached, h.coherent.canonical⟩, ?_⟩
          intro i hroot hrefs hshows
          refine h.known i hroot ?_ hshows
          by_cases hi : i = ino
          · subst hi
            exact absurd (congrArg (·.getD 0) (AList.lookup_erase i s.lookupRefs)) hrefs
          · simpa [AList.lookup_erase_ne hi] using hrefs
        exact hdropped.evict ino

lemma PathsKnown.release (fh : Nat) : (s.release fh).PathsKnown := by
  have htaken : (s.takeHandleState fh).PathsKnown := by
    unfold takeHandleState
    split
    · exact h
    · have hdropped : ∀ fhTable openLeases, PathsKnown { s with fhTable, openLeases } :=
        fun _ _ => ⟨h.tree, ⟨h.coherent.cached, h.coherent.canonical⟩, h.known⟩
      split
      · exact (hdropped _ _).evict _
      · exact hdropped _ _
  exact ⟨htaken.tree, ⟨htaken.coherent.cached, htaken.coherent.canonical⟩, htaken.known⟩

lemma PathsKnown.getattr (ino : Nat) (fh : Option Nat) : (s.getattr ino fh).PathsKnown := by
  unfold State.getattr
  split
  · exact h
  · split
    · rename_i path node hattrs
      obtain ⟨hnode, hino⟩ := resolve_of_entryAttrs hattrs
      refine ⟨h.tree, h.coherent.registerPath hnode hino, ?_⟩
      intro i hroot hrefs hshows
      by_cases hi : i = ino
      · exact ⟨path, hi ▸ AList.lookup_insert _⟩
      · obtain ⟨p, hp⟩ := h.known i hroot hrefs hshows
        exact ⟨p, (AList.lookup_insert_ne hi).trans hp⟩
    · exact h

lemma PathsKnown.openFile (ino : Nat) : (s.openFile ino).PathsKnown := by
  unfold State.openFile
  split
  · exact ⟨h.tree, ⟨h.coherent.cached, h.coherent.canonical⟩, h.known⟩
  · exact h

lemma PathsKnown.handle {a : Action} (hguard : s.KeepsPaths a) : (s.handle a).PathsKnown := by
  cases a with
  | lookup parent name => exact h.lookup parent name
  | create parent name ino writable excl granted pick => exact h.create ino pick hguard
  | mkdir parent name ino => exact h.makeNode .dir parent name ino
  | symlink parent name ino => exact h.makeNode .symlink parent name ino
  | link ino newparent newname => exact h.link ino newparent newname
  | unlink parent name hidden pick => exact h.unlink hidden pick hguard
  | rmdir parent name pick => exact h.rmdir pick hguard
  | rename parent name newparent newname noReplace pick pick' => exact h.rename pick pick' hguard
  | getattr ino fh => exact h.getattr ino fh
  | forget ino nlookup => exact h.forget ino nlookup
  | openFile ino => exact h.openFile ino
  | data use fh => exact h
  | release fh => exact h.release fh

end

end State

lemma pathsKnown_mounted {names : Names} {nextId : Nat} (h : names.WellFormed nextId) :
    (mounted names nextId).PathsKnown := by
  refine ⟨h, ⟨?_, ?_⟩, ?_⟩
  · intro p ino hp
    have hmem := Table.lookup_eq_some.mp hp
    obtain ⟨rfl, rfl⟩ : p = [] ∧ ino = rootIno := by simpa [mounted] using hmem
    exact ⟨root, rfl, rfl⟩
  · intro ino p hp
    have hmem := Table.lookup_eq_some.mp hp
    obtain ⟨rfl, rfl⟩ : ino = rootIno ∧ p = [] := by simpa [mounted] using hmem
    rfl
  · intro ino _ hrefs
    simp [mounted] at hrefs

theorem known_inodes_stay_reachable (names : Names) (nextId : Nat)
    (hwf : names.WellFormed nextId) (trace : List Action) (s : State)
    (hguard : GuardedRun.Along step State.KeepsPaths (mounted names nextId) trace)
    (hrun : GuardedRun.run step (mounted names nextId) trace = some s) : s.InodesReachable := by
  have hknown : s.PathsKnown := by
    refine GuardedRun.run_invariant ?_ (pathsKnown_mounted hwf) hguard hrun
    intro s a s' hs hkeeps hstep
    cases hstep
    exact hs.handle hkeeps
  exact hknown.inodesReachable

lemma wellFormed_empty : Names.WellFormed ∅ 1 := by
  constructor <;> simp [Names.nodeAt]

def linkBeforeRename : List Action :=
  [.mkdir rootIno "d" 10, .create 10 "f" 11 false false true 0, .link 11 rootIno "g",
    .unlink 10 "f" ".hidden" 0, .rename rootIno "d" rootIno "e" false 0 0, .lookup rootIno "e",
    .getattr 11 none, .release 1, .forget 10 1]

theorem known_inodes_stay_reachable_linkBeforeRename :
    ∃ s, GuardedRun.run step (mounted ∅ 1) linkBeforeRename = some s ∧
      GuardedRun.Along step State.KeepsPaths (mounted ∅ 1) linkBeforeRename ∧
      s.InodesReachable := by
  refine ⟨_, rfl, by decide, ?_⟩
  exact known_inodes_stay_reachable ∅ 1 wellFormed_empty linkBeforeRename _ (by decide) rfl

/-- A cached path leads to the inode that it names, and the path kept of an inode leads back
to it. -/
theorem path_maps_coherent (names : Names) (nextId : Nat) (hwf : names.WellFormed nextId)
    (trace : List Action) (s : State)
    (hguard : GuardedRun.Along step State.KeepsPaths (mounted names nextId) trace)
    (hrun : GuardedRun.run step (mounted names nextId) trace = some s) :
    s.Coherent s.names ∧ s.names.WellFormed s.nextId := by
  have hknown : s.PathsKnown := by
    refine GuardedRun.run_invariant ?_ (pathsKnown_mounted hwf) hguard hrun
    intro s a s' hs hkeeps hstep
    cases hstep
    exact hs.handle hkeeps
  exact ⟨hknown.coherent, hknown.tree⟩

theorem path_maps_coherent_linkBeforeRename :
    ∃ s, GuardedRun.run step (mounted ∅ 1) linkBeforeRename = some s ∧ s.Coherent s.names :=
  ⟨_, rfl, (path_maps_coherent ∅ 1 wellFormed_empty linkBeforeRename _ (by decide) rfl).1⟩

def renameParent : List Action :=
  [.mkdir rootIno "d" 10, .create 10 "f" 11 false false true 0,
    .rename rootIno "d" rootIno "e" false 0 0]

theorem directory_rename_loses_known_inode :
    ∃ s, GuardedRun.run step (mounted ∅ 1) renameParent = some s ∧
      s.lookupRefs.lookup 11 = some 1 ∧ s.names.resolve ["f", "e"] = some ⟨.file, 2, 11⟩ ∧
      s.entryAttrsForIno 11 = .error .ENOENT ∧ ¬ s.InodesReachable := by
  refine ⟨_, rfl, by decide, by decide, by decide, ?_⟩
  intro h
  obtain ⟨path, node, -, -, -, hattrs⟩ :=
    h 11 (by decide) ⟨⟨.file, 2, 11⟩, ⟨["f", "e"], by decide⟩, rfl⟩
  cases hattrs

end Fod.Mount
