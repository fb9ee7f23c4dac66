import Fod.Rename.Frontend
import Fod.Replay.RenameOnce

/-!
# Paths of directories

A path that was right when it was cached leads the frontend to the rows that the
transaction reads.  A text below the text of a directory belongs to a directory below it.
-/

namespace Fod.Rename

open Fod.Replay SeparatedPath

/-- Ids of directories start at one, and a name has one visible entry. -/
structure OnePerName (t : Tables) : Prop where
  ids : t.directories.lookup 0 = none
  one : ∀ location e e', t.Located location e → t.Located location e' → e = e'

inductive PathTo (t : Tables) : List Text → Nat → Prop
  | root : PathTo t [] 0
  | child {cs : List Text} {parent d : Nat} {name : Text} (hparent : PathTo t cs parent)
      (hthere : t.Located (parent, name) (.directory d)) (hname : Component '/' name) :
      PathTo t (cs ++ [name]) d

def Mount.KnowsPath (m : Mount) (t : Tables) (ino : Nat) : Prop :=
  ∃ cs, PathTo t cs ino ∧ (ino ≠ 0 → m.pathForInode ino = some (render '/' cs))

def entryAt (t : Tables) (location : Location) : Option Entry := (t.entriesAt location).head?

variable {t : Tables} {m : Mount} {cs ds : List Text} {name : Text} {d p ino : Nat}
  {location : Location}

lemma OnePerName.resolve (h : OnePerName t) (location : Location) :
    t.resolve location = some (entryAt t location) := by
  unfold entryAt Tables.resolve
  split
  next hnone => rw [hnone]; rfl
  next e hone => rw [hone]; rfl
  next hnil hmore =>
    exfalso
    match hlist : t.entriesAt location with
    | [] => exact hnil hlist
    | [e] => exact hmore e hlist
    | e :: e' :: rest =>
      have heq : e = e' := h.one location e e' (Tables.mem_entriesAt.mp (by simp [hlist]))
        (Tables.mem_entriesAt.mp (by simp [hlist]))
      have hnodup := Tables.nodup_entriesAt t location
      simp [hlist, heq] at hnodup

lemma located_of_entryAt {e : Entry} (h : entryAt t location = some e) : t.Located location e :=
  Tables.mem_entriesAt.mp (List.mem_of_head? h)

lemma OnePerName.entryAt_eq (h : OnePerName t) {e : Entry} (hthere : t.Located location e) :
    entryAt t location = some e := by
  have hmem := Tables.mem_entriesAt.mpr hthere
  cases hlist : t.entriesAt location with
  | nil => simp [hlist] at hmem
  | cons e' rest =>
    have hfirst : entryAt t location = some e' := by rw [entryAt, hlist]; rfl
    rw [hfirst, h.one location e' e (located_of_entryAt hfirst) hthere]

/-! ## Paths -/

lemma PathTo.components (h : PathTo t cs d) : Components '/' cs := by
  induction h with
  | root => exact fun c hc => by cases hc
  | child _ _ hname ih => exact ih.concat hname

section

variable (hspace : OnePerName t)

include hspace

lemma PathTo.root_iff (h : PathTo t cs d) : d = 0 ↔ cs = [] := by
  cases h with
  | root => simp
  | child hparent hthere hname =>
    obtain ⟨row, hrow, -⟩ := hthere
    have hne : d ≠ 0 := by
      rintro rfl
      rw [hspace.ids] at hrow
      cases hrow
    simp [hne]

lemma PathTo.unique (h : PathTo t cs d) (h' : PathTo t ds d) : cs = ds := by
  induction h generalizing ds with
  | root => exact ((h'.root_iff hspace).mp rfl).symm
  | @child cs parent d name hparent hthere hname ih =>
    cases h' with
    | root => exact absurd (((PathTo.child hparent hthere hname).root_iff hspace).mp rfl) (by simp)
    | child hparent' hthere' hname' =>
      obtain ⟨row, hrow, hlocation⟩ := hthere
      obtain ⟨row', hrow', hlocation'⟩ := hthere'
      rw [hrow] at hrow'
      cases hrow'
      rw [hlocation] at hlocation'
      cases hlocation'
      rw [ih hparent']

lemma PathTo.functional (h : PathTo t cs d) (h' : PathTo t cs p) : d = p := by
  induction h generalizing p with
  | root => exact ((h'.root_iff hspace).mpr rfl).symm
  | @child cs parent d name hparent hthere hname ih =>
    generalize hcs : cs ++ [name] = cs' at h'
    cases h' with
    | root => simp at hcs
    | child hparent' hthere' hname' =>
      obtain ⟨rfl, hname⟩ := List.append_inj' hcs rfl
      cases hname
      obtain rfl := ih hparent'
      cases hspace.one _ _ _ hthere hthere'
      rfl

lemma PathTo.walk (h : PathTo t cs d) : cs.foldl (fun ids part => ids.flatMap fun parent =>
      t.directories.keysWith fun row => row.location == (parent, part)) [0] = [d] := by
  induction h with
  | root => rfl
  | @child cs parent d name hparent hthere hname ih =>
    rw [List.foldl_append, ih]
    simp only [List.foldl_cons, List.foldl_nil, List.flatMap_singleton]
    rw [Table.keysWith_eq_singleton]
    constructor
    · obtain ⟨row, hrow, hlocation⟩ := hthere
      exact ⟨row, hrow, by simpa using hlocation⟩
    · intro d' row' hrow' hlocation'
      have hthere' : t.Located (parent, name) (.directory d') :=
        ⟨row', hrow', by simpa using hlocation'⟩
      cases hspace.one _ _ _ hthere hthere'
      rfl

lemma PathTo.lookupDirectory (h : PathTo t cs d) :
    lookupDirectory t (render '/' cs) = if d = 0 then .root else .directory d := by
  have hroot := h.root_iff hspace
  unfold Rename.lookupDirectory
  by_cases hd : d = 0
  · rw [hroot.mp hd, if_pos hd]
    rfl
  · have hne : cs ≠ [] := fun hnil => hd (hroot.mpr hnil)
    have hwalk : getDirId t (render '/' cs) = some d := by
      rw [getDirId, split_render h.components hne, h.walk hspace]
      rfl
    rw [if_neg hd, if_neg, hwalk]
    intro hall
    -- the text of a component has a character that is no separator
    obtain ⟨c, rest, rfl⟩ := List.exists_cons_of_ne_nil hne
    obtain ⟨hcne, hc⟩ := h.components c List.mem_cons_self
    obtain ⟨x, c', rfl⟩ := List.exists_cons_of_ne_nil hcne
    have hx := List.all_eq_true.mp hall x (by simp [render, body])
    exact hc (beq_iff_eq.mp hx ▸ List.mem_cons_self)

lemma PathTo.resolvePath (h : PathTo t cs p) (hname : Component '/' name) :
    resolvePath t (render '/' (cs ++ [name])) = .ok (entryAt t (p, name)) := by
  have hsplit : splitPath (render '/' (cs ++ [name])) = (render '/' cs, name) := by
    rw [splitPath, render_concat, rsplitOnce_concat _ hname.2]
    dsimp only
    rw [if_neg hname.1]
    cases cs with
    | nil => rfl
    | cons c cs => rw [if_neg (by simp [body])]; rfl
  have hne : render '/' (cs ++ [name]) ≠ [] := by
    rw [render_concat]
    simp
  rw [Rename.resolvePath, if_neg hne, hsplit]
  dsimp only
  rw [h.lookupDirectory hspace]
  by_cases hp : p = 0
  · rw [if_pos hp]
    dsimp only
    rw [hspace.resolve, hp]
  · rw [if_neg hp]
    dsimp only
    rw [hspace.resolve]

lemma Mount.KnowsPath.entryPathForIno (h : PathTo t cs ino)
    (hcached : ino ≠ 0 → m.pathForInode ino = some (render '/' cs)) :
    m.entryPathForIno ino = .ok (render '/' cs) := by
  unfold Mount.entryPathForIno
  split
  next hroot => rw [(h.root_iff hspace).mp hroot]; rfl
  next hnested => rw [hcached hnested]

lemma Mount.KnowsPath.parentEntryIdForInode (h : m.KnowsPath t ino) :
    m.parentEntryIdForInode t ino = .ok ino := by
  obtain ⟨cs, hpath, hcached⟩ := h
  unfold Mount.parentEntryIdForInode
  split
  next hroot => rw [hroot]
  next hnested =>
    rw [entryPathForIno hspace hpath hcached]
    cases hpath with
    | root => exact absurd rfl hnested
    | child hparent hthere hname =>
      simp only [bind, Except.bind, hparent.resolvePath hspace hname, hspace.entryAt_eq hthere,
        if_true]

end

lemma inSubtree_mono {n k : Nat} (hle : n ≤ k) (h : t.inSubtree d n p = true) :
    t.inSubtree d k p = true := by
  induction n generalizing k p with
  | zero =>
    have hself : p = d := by simpa [Tables.inSubtree] using h
    cases k <;> simp [Tables.inSubtree, hself]
  | succ n ih =>
    obtain ⟨k, rfl⟩ := Nat.exists_eq_add_of_le' (Nat.lt_of_lt_of_le (Nat.succ_pos n) hle)
    rw [Tables.inSubtree, Bool.or_eq_true] at h ⊢
    refine h.imp_right fun hany => ?_
    cases hrow : t.directories.lookup p with
    | none => simp [hrow] at hany
    | some row =>
      rw [hrow, Option.any_some] at hany
      rw [Option.any_some]
      exact ih (by omega) hany

lemma PathTo.through (h : PathTo t (cs ++ ds) d) :
    ∃ p, PathTo t cs p ∧ t.inSubtree p ds.length d = true := by
  induction ds using List.reverseRecOn generalizing d with
  | nil =>
    rw [List.append_nil] at h
    exact ⟨d, h, by simp [Tables.inSubtree]⟩
  | append_singleton ds x ih =>
    rw [← List.append_assoc] at h
    generalize hpath : cs ++ ds ++ [x] = path at h
    cases h with
    | root => simp at hpath
    | child hparent hthere hname =>
      obtain ⟨rfl, hx⟩ := List.append_inj' hpath rfl
      cases hx
      obtain ⟨p, hp, hbelow⟩ := ih hparent
      obtain ⟨row, hrow, hlocation⟩ := hthere
      refine ⟨p, hp, ?_⟩
      rw [List.length_append, List.length_singleton, Tables.inSubtree, hrow, Option.any_some,
        hlocation, hbelow, Bool.or_true]

lemma PathTo.length_le (hspace : OnePerName t) (h : PathTo t cs d) :
    cs.length ≤ t.directories.keys.length := by
  have hvisit : ∀ i, ∃ p, i < cs.length → PathTo t (cs.take (i + 1)) p := by
    intro i
    rw [← List.take_append_drop (i + 1) cs] at h
    obtain ⟨p, hp, -⟩ := h.through
    exact ⟨p, fun _ => hp⟩
  choose visit hvisit using hvisit
  have hmaps : ∀ i ∈ Finset.range cs.length, visit i ∈ t.directories.keys.toFinset := by
    intro i hi
    have hi := Finset.mem_range.mp hi
    have hpath := hvisit i hi
    generalize htake : cs.take (i + 1) = path at hpath
    generalize visit i = p at hpath ⊢
    cases hpath with
    | root =>
      have hnil : cs = [] := by simpa [List.take_eq_nil_iff] using htake
      simp [hnil] at hi
    | child _ hthere _ =>
      obtain ⟨row, hrow, -⟩ := hthere
      exact List.mem_toFinset.mpr (AList.mem_keys.mp (AList.lookup_isSome.mp (by simp [hrow])))
  have hinj : Set.InjOn visit (Finset.range cs.length) := by
    intro i hi j hj heq
    have hi := Finset.mem_range.mp hi
    have hj := Finset.mem_range.mp hj
    have hsame := (hvisit i hi).unique hspace (heq ▸ hvisit j hj)
    have hlength := congrArg List.length hsame
    rw [List.length_take, List.length_take] at hlength
    omega
  calc cs.length = (Finset.range cs.length).card := (Finset.card_range _).symm
    _ ≤ t.directories.keys.toFinset.card := Finset.card_le_card_of_injOn visit hmaps hinj
    _ ≤ t.directories.keys.length := List.toFinset_card_le _

lemma PathTo.makesCycle (hspace : OnePerName t) (hsource : PathTo t cs d) (hne : cs ≠ [])
    (hnew : PathTo t ds p)
    (htext : render '/' ds = render '/' cs ∨ trimEnd '/' (render '/' cs) ++ ['/'] <+: render '/' ds) :
    t.makesCycle (.directory d) p = true := by
  have hcs := hsource.components
  have hds := hnew.components
  have hbelow : cs <+: ds := by
    rcases htext with heq | hbelow
    · rw [render_injective hds hcs heq]
    · rw [trimEnd_render hcs] at hbelow
      cases ds with
      | nil =>
        have hlength := hbelow.length_le
        obtain ⟨c, rest, rfl⟩ := List.exists_cons_of_ne_nil hne
        simp [render, body] at hlength
      | cons c ds => exact prefix_of_body hcs hds hbelow
  obtain ⟨rest, rfl⟩ := hbelow
  obtain ⟨d', hd', hsubtree⟩ := hnew.through
  obtain rfl := hd'.functional hspace hsource
  have hlength := hnew.length_le hspace
  have hp : p ≠ 0 := fun hzero => by simpa [hne] using (hnew.root_iff hspace).mp hzero
  have hthere : (t.directories.lookup d').isSome = true := by
    cases hsource with
    | root => exact absurd rfl hne
    | child _ hthere _ =>
      obtain ⟨row, hrow, -⟩ := hthere
      rw [hrow]
      rfl
  rw [List.length_append] at hlength
  simp only [Tables.makesCycle, bne_iff_ne, ne_eq, hp, not_false_eq_true, Bool.and_eq_true, hthere,
    true_and]
  exact inSubtree_mono (by omega) hsubtree

end Fod.Rename
