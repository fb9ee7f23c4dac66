import Fod.Mount.Names

/-!
# The two path maps

Every cached path resolves to its inode and every reverse mapping is a cached
path; each cache operation keeps this.  What an operation may lose is the reverse
mapping of an inode.
-/

namespace Fod.Mount.State

structure Coherent (s : State) (names : Names) : Prop where
  cached : ∀ p ino, s.pathToInode.lookup p = some ino →
    ∃ node, names.resolve p = some node ∧ node.ino = ino
  canonical : ∀ ino p, s.inodeToPath.lookup ino = some p → s.pathToInode.lookup p = some ino

def Known (s : State) (ino : Nat) : Prop := ∃ p, s.inodeToPath.lookup ino = some p

variable {s : State} {names : Names} {path : Path} {pick ino : Nat}

lemma removeCachedPath_of_none (h : s.pathToInode.lookup path = none) :
    s.removeCachedPath pick path = s := by
  unfold removeCachedPath
  rw [h]

lemma lookup_removeCachedPath (s : State) (pick : Nat) (path q : Path) :
    (s.removeCachedPath pick path).pathToInode.lookup q =
      if q = path then none else s.pathToInode.lookup q := by
  by_cases hq : q = path
  · rw [if_pos hq, hq]
    unfold removeCachedPath
    split
    · rename_i hnone
      exact hnone
    · exact AList.lookup_erase _ _
  · rw [if_neg hq]
    unfold removeCachedPath
    split
    · rfl
    · exact AList.lookup_erase_ne hq

@[simp] lemma names_removeCachedPath (s : State) (pick : Nat) (path : Path) :
    (s.removeCachedPath pick path).names = s.names := by
  unfold removeCachedPath
  split <;> rfl

@[simp] lemma nextId_removeCachedPath (s : State) (pick : Nat) (path : Path) :
    (s.removeCachedPath pick path).nextId = s.nextId := by
  unfold removeCachedPath
  split <;> rfl

@[simp] lemma lookupRefs_removeCachedPath (s : State) (pick : Nat) (path : Path) :
    (s.removeCachedPath pick path).lookupRefs = s.lookupRefs := by
  unfold removeCachedPath
  split <;> rfl

lemma inodeToPath_removeCachedPath (h : s.Coherent names) (pick : Nat) (path : Path) (ino : Nat) :
    (s.removeCachedPath pick path).inodeToPath.lookup ino = s.inodeToPath.lookup ino ∧
        s.inodeToPath.lookup ino ≠ some path ∨ s.inodeToPath.lookup ino = some path ∧
        ((∃ q, (s.removeCachedPath pick path).inodeToPath.lookup ino = some q ∧ q ≠ path ∧
            s.pathToInode.lookup q = some ino) ∨
          (s.removeCachedPath pick path).inodeToPath.lookup ino = none ∧
            ∀ q, q ≠ path → s.pathToInode.lookup q ≠ some ino) := by
  by_cases hpath : s.inodeToPath.lookup ino = some path
  · refine .inr ⟨hpath, ?_⟩
    have hcached := h.canonical ino path hpath
    simp only [removeCachedPath, hcached, hpath, if_true]
    have hothers : ∀ q, q ∈ Table.keysWith (· == ino) (s.pathToInode.erase path) ↔
        q ≠ path ∧ s.pathToInode.lookup q = some ino := by
      intro q
      rw [Table.mem_keysWith]
      constructor
      · rintro ⟨v, hv, hino⟩
        obtain ⟨hq, hold⟩ := Table.lookup_erase_cases hv
        rw [eq_of_beq hino] at hold
        exact ⟨hq, hold⟩
      · rintro ⟨hq, hold⟩
        exact ⟨ino, (AList.lookup_erase_ne hq).trans hold, beq_self_eq_true ino⟩
    split
    · rename_i other hother
      have hmem := (hothers other).mp (List.mem_of_getElem? hother)
      exact .inl ⟨other, AList.lookup_insert _, hmem⟩
    · rename_i hnone
      refine .inr ⟨AList.lookup_erase _ _, fun q hq hold => ?_⟩
      have hmem := (hothers q).mpr ⟨hq, hold⟩
      have hpos := List.length_pos_of_mem hmem
      rw [List.getElem?_eq_none_iff] at hnone
      exact absurd (Nat.mod_lt pick hpos) (Nat.not_lt.mpr hnone)
  · refine .inl ⟨?_, hpath⟩
    unfold removeCachedPath
    split
    · rfl
    · rename_i other hother
      dsimp only
      split
      · rename_i hreverse
        have hne : ino ≠ other := fun heq => hpath (heq ▸ hreverse)
        split
        · exact AList.lookup_insert_ne hne
        · exact AList.lookup_erase_ne hne
      · rfl

lemma Coherent.removeCachedPath (h : s.Coherent names) (pick : Nat) (path : Path) :
    (s.removeCachedPath pick path).Coherent names := by
  constructor
  · intro p ino hp
    rw [lookup_removeCachedPath] at hp
    split at hp
    · cases hp
    · exact h.cached p ino hp
  · intro ino p hp
    rw [lookup_removeCachedPath]
    rcases inodeToPath_removeCachedPath h pick path ino with
      ⟨heq, hne⟩ | ⟨-, ⟨q, hq, hne, hold⟩ | ⟨hnone, -⟩⟩
    · rw [heq] at hp
      rw [hp] at hne
      rw [if_neg fun hpath => hne (congrArg some hpath)]
      exact h.canonical ino p hp
    · obtain rfl := Option.some.inj (hq.symm.trans hp)
      rw [if_neg hne]
      exact hold
    · rw [hnone] at hp
      cases hp

lemma Known.removeCachedPath (hknown : s.Known ino) (h : s.Coherent names) (pick : Nat)
    (hspare : s.inodeToPath.lookup ino = some path →
      ∃ q, q ≠ path ∧ s.pathToInode.lookup q = some ino) :
    (s.removeCachedPath pick path).Known ino := by
  rcases inodeToPath_removeCachedPath h pick path ino with
    ⟨heq, -⟩ | ⟨hpath, ⟨q, hq, -⟩ | ⟨-, hnone⟩⟩
  · unfold Known
    rw [heq]
    exact hknown
  · exact ⟨q, hq⟩
  · obtain ⟨q, hq, hold⟩ := hspare hpath
    exact absurd hold (hnone q hq)

lemma Coherent.registerPath (h : s.Coherent names) {node : Node}
    (hpath : names.resolve path = some node) (hino : node.ino = ino) :
    (s.registerPath path ino).Coherent names := by
  constructor
  · intro p i hp
    rcases Table.lookup_insert_cases hp with ⟨rfl, rfl⟩ | ⟨-, hold⟩
    · exact ⟨node, hpath, hino⟩
    · exact h.cached p i hold
  · intro i p hp
    change (s.pathToInode.insert path ino).lookup p = some i
    rcases Table.lookup_insert_cases hp with ⟨rfl, rfl⟩ | ⟨hne, hold⟩
    · exact AList.lookup_insert _
    · have hcached := h.canonical i p hold
      obtain ⟨node', hnode', hino'⟩ := h.cached p i hcached
      rw [AList.lookup_insert_ne]
      · exact hcached
      · -- the path resolves to one node only
        rintro rfl
        rw [hpath] at hnode'
        cases hnode'
        exact hne (hino'.symm.trans hino)

lemma Coherent.registerLookupPath (h : s.Coherent names) {node : Node}
    (hpath : names.resolve path = some node) (hino : node.ino = ino) :
    (s.registerLookupPath path ino).Coherent names := by
  unfold State.registerLookupPath
  split
  · constructor
    · intro p i hp
      rcases Table.lookup_insert_cases hp with ⟨rfl, rfl⟩ | ⟨-, hold⟩
      · exact ⟨node, hpath, hino⟩
      · exact h.cached p i hold
    · intro i p hp
      have hcached := h.canonical i p hp
      by_cases heq : p = path
      · subst heq
        obtain ⟨node', hnode', hino'⟩ := h.cached p i hcached
        rw [hpath] at hnode'
        cases hnode'
        rw [← hino', hino]
        exact AList.lookup_insert _
      · exact (AList.lookup_insert_ne heq).trans hcached
  · have hregister := h.registerPath hpath hino
    exact ⟨hregister.cached, hregister.canonical⟩

lemma Coherent.evict (h : s.Coherent names) (ino : Nat) :
    (s.evictInodeIfUnreferenced ino).Coherent names := by
  unfold evictInodeIfUnreferenced removeCachedInodePaths
  split
  · exact h
  · split
    · exact h
    · constructor
      · intro p i hp
        rw [Table.lookup_keep, Option.filter_eq_some_iff] at hp
        exact h.cached p i hp.1
      · intro i p hp
        obtain ⟨hne, hold⟩ := Table.lookup_erase_cases hp
        rw [Table.lookup_keep, h.canonical i p hold]
        simp [Option.filter, hne]

lemma Known.evict {i : Nat} (h : s.Known i) (hrefs : (s.lookupRefs.lookup i).getD 0 ≠ 0)
    (ino : Nat) : (s.evictInodeIfUnreferenced ino).Known i := by
  unfold evictInodeIfUnreferenced removeCachedInodePaths
  split
  · exact h
  · rename_i hfree
    split
    · exact h
    · have hne : i ≠ ino := by
        rintro rfl
        exact hfree (.inr (.inl hrefs))
      obtain ⟨p, hp⟩ := h
      exact ⟨p, (AList.lookup_erase_ne hne).trans hp⟩

end Fod.Mount.State
