import Fod.Mount.Requests

/-!
# Paths in a tree of names

A directory has one name, so a path that resolves to it is the only one.  A
change at one name therefore leaves every path as it is that does not pass
through the path of that name.
-/

namespace Fod.Mount.Names

variable {names names' : Names}

def nodeAt (names : Names) (key : Nat × String) : Option Node :=
  (names.lookup key).map Entry.node

variable {node : Node} {nextId : Nat}

lemma resolve_cons {name : String} {parent : Path} : names.resolve (name :: parent) = some node ↔
      ∃ d ino, names.resolve parent = some ⟨.dir, d, ino⟩ ∧ names.nodeAt (d, name) = some node := by
  rw [resolve]
  constructor
  · intro h
    split at h
    · rename_i d ino hparent
      exact ⟨d, ino, hparent, h⟩
    · cases h
  · rintro ⟨d, ino, hparent, hnode⟩
    rw [hparent]
    exact hnode

lemma nodeAt_insert (key key' : Nat × String) (e : Entry) :
    nodeAt (AList.insert key e names) key' = if key' = key then some e.node else names.nodeAt key' := by
  unfold nodeAt
  split
  · rename_i h
    rw [h, AList.lookup_insert, Option.map_some]
  · rename_i h
    rw [AList.lookup_insert_ne h]

lemma nodeAt_erase (key key' : Nat × String) :
    nodeAt (AList.erase key names) key' = if key' = key then none else names.nodeAt key' := by
  unfold nodeAt
  split
  · rename_i h
    rw [h, AList.lookup_erase, Option.map_none]
  · rename_i h
    rw [AList.lookup_erase_ne h]

lemma nodeAt_unbind (key key' : Nat × String) (e : Entry) :
    (names.unbind key e).nodeAt key' = if key' = key then none else names.nodeAt key' := by
  rw [← nodeAt_erase]
  unfold unbind
  dsimp only
  split
  · rfl
  · split
    · rfl
    · unfold nodeAt
      rw [Table.lookup_adjust, Option.map_map]
      apply Option.map_congr
      intro x _
      dsimp only [Function.comp_apply]
      split <;> rfl

structure WellFormed (names : Names) (nextId : Nat) : Prop where
  unique : ∀ key key' d ino ino', names.nodeAt key = some ⟨.dir, d, ino⟩ →
    names.nodeAt key' = some ⟨.dir, d, ino'⟩ → key = key'
  notRoot : ∀ key ino, names.nodeAt key ≠ some ⟨.dir, 0, ino⟩
  positive : 0 < nextId
  fresh : ∀ key node, names.nodeAt key = some node → node.id < nextId ∧ key.1 < nextId

lemma path_unique (h : names.WellFormed nextId) {p q : Path} {d i j : Nat}
    (hp : names.resolve p = some ⟨.dir, d, i⟩) (hq : names.resolve q = some ⟨.dir, d, j⟩) :
    p = q := by
  induction p generalizing q d i j with
  | nil =>
    obtain ⟨-, rfl, -⟩ : Kind.dir = Kind.dir ∧ 0 = d ∧ rootIno = i := by
      simpa [resolve, root] using hp
    cases q with
    | nil => rfl
    | cons name parent =>
      obtain ⟨d', i', -, hnode⟩ := resolve_cons.mp hq
      exact absurd hnode (h.notRoot _ _)
  | cons name parent ih =>
    obtain ⟨d₁, i₁, hparent, hnode⟩ := resolve_cons.mp hp
    cases q with
    | nil =>
      obtain ⟨-, rfl, -⟩ : Kind.dir = Kind.dir ∧ 0 = d ∧ rootIno = j := by
        simpa [resolve, root] using hq
      exact absurd hnode (h.notRoot _ _)
    | cons name' parent' =>
      obtain ⟨d₂, i₂, hparent', hnode'⟩ := resolve_cons.mp hq
      obtain ⟨rfl, rfl⟩ := Prod.mk.inj (h.unique _ _ _ _ _ hnode hnode')
      rw [ih hparent hparent']

lemma resolve_of_agree {p : Path} (hp : names.resolve p = some node)
    (hagree : ∀ name parent d ino node', (name :: parent) <:+ p →
      names.resolve parent = some ⟨.dir, d, ino⟩ → names.nodeAt (d, name) = some node' →
      names'.nodeAt (d, name) = some node') : names'.resolve p = some node := by
  induction p generalizing node with
  | nil => exact hp
  | cons name parent ih =>
    obtain ⟨d, ino, hparent, hnode⟩ := resolve_cons.mp hp
    have hsame := ih hparent fun name' parent' d' ino' node' hsuffix =>
      hagree name' parent' d' ino' node' (hsuffix.trans (List.suffix_cons name parent))
    exact resolve_cons.mpr
      ⟨d, ino, hsame, hagree name parent d ino node List.suffix_rfl hparent hnode⟩

lemma key_ne_of_not_through (h : names.WellFormed nextId) {path p : Path}
    {d ino : Nat} {name : String}
    (hpath : names.resolve path = some ⟨.dir, d, ino⟩) (hnot : ¬ (name :: path) <:+ p)
    {name' : String} {parent : Path} {d' ino' : Nat} (hsuffix : (name' :: parent) <:+ p)
    (hparent : names.resolve parent = some ⟨.dir, d', ino'⟩) : (d', name') ≠ (d, name) := by
  intro heq
  obtain ⟨rfl, rfl⟩ := Prod.mk.inj heq
  rw [path_unique h hparent hpath] at hsuffix
  exact hnot hsuffix

lemma dir_of_strict_suffix {p q : Path} (hp : names.resolve p = some node)
    (hsuffix : q <:+ p) (hne : q ≠ p) : ∃ d ino name node', names.resolve q = some ⟨.dir, d, ino⟩ ∧
      names.nodeAt (d, name) = some node' := by
  induction p generalizing node with
  | nil => exact absurd (List.suffix_nil.mp hsuffix) hne
  | cons name parent ih =>
    obtain ⟨d, ino, hparent, hnode⟩ := resolve_cons.mp hp
    rcases List.suffix_cons_iff.mp hsuffix with heq | hsuffix
    · exact absurd heq hne
    · by_cases hq : q = parent
      · exact ⟨d, ino, name, node, hq ▸ hparent, hnode⟩
      · exact ih hparent hsuffix hq

def Visible (names : Names) (node : Node) : Prop := ∃ p, names.resolve p = some node

def Shows (names : Names) (ino : Nat) : Prop := ∃ node, names.Visible node ∧ node.ino = ino

lemma visible_of_changed (isNew : Node → Prop)
    (hchanged : ∀ key node, names'.nodeAt key = some node →
      names.nodeAt key = some node ∨ names.Visible node ∨ isNew node)
    (hleaf : ∀ d ino name node, isNew ⟨.dir, d, ino⟩ → names'.nodeAt (d, name) ≠ some node)
    (h : names'.Visible node) : names.Visible node ∨ isNew node := by
  obtain ⟨p, hp⟩ := h
  induction p generalizing node with
  | nil => exact .inl ⟨[], hp⟩
  | cons name parent ih =>
    obtain ⟨d, ino, hparent, hnode⟩ := resolve_cons.mp hp
    rcases ih hparent with ⟨q, hq⟩ | hnew
    · rcases hchanged _ _ hnode with hold | hnode'
      · exact .inl ⟨name :: q, resolve_cons.mpr ⟨d, ino, hq, hold⟩⟩
      · exact hnode'
    · exact absurd hnode (hleaf d ino name node hnew)

lemma Visible.exists_key (h : names.Visible node) (hroot : node ≠ root) :
    ∃ key, names.nodeAt key = some node := by
  obtain ⟨p, hp⟩ := h
  cases p with
  | nil => exact absurd (Option.some.inj hp).symm hroot
  | cons name parent =>
    obtain ⟨d, ino, -, hnode⟩ := resolve_cons.mp hp
    exact ⟨_, hnode⟩

lemma WellFormed.id_lt (h : names.WellFormed nextId) {p : Path}
    (hp : names.resolve p = some node) : node.id < nextId := by
  cases p with
  | nil =>
    rw [← Option.some.inj hp]
    exact h.positive
  | cons name parent =>
    obtain ⟨d, ino, -, hnode⟩ := resolve_cons.mp hp
    exact (h.fresh _ _ hnode).1

section Insert

variable {nextId : Nat} {key : Nat × String} {e : Entry}

lemma WellFormed.insert (h : names.WellFormed nextId) (hparent : key.1 < nextId)
    (hid : e.node.id ≤ nextId) (hdir : e.node.kind = .dir → e.node.id = nextId) :
    WellFormed (AList.insert key e names) (nextId + 1) := by
  have hnew : ∀ {d ino}, e.node = ⟨.dir, d, ino⟩ → d = nextId := by
    intro d ino he
    rw [he] at hdir
    exact hdir rfl
  have hold : ∀ {k d ino}, names.nodeAt k = some ⟨.dir, d, ino⟩ → d < nextId :=
    fun hk => (h.fresh _ _ hk).1
  refine ⟨?_, ?_, Nat.succ_pos nextId, ?_⟩
  · intro k k' d ino ino' hk hk'
    rw [nodeAt_insert] at hk hk'
    split at hk
    · rename_i heq
      split at hk'
      · rename_i heq'
        rw [heq, heq']
      · have hd := hnew (Option.some.inj hk)
        have hd' := hold hk'
        omega
    · split at hk'
      · have hd := hnew (Option.some.inj hk')
        have hd' := hold hk
        omega
      · exact h.unique k k' d ino ino' hk hk'
  · intro k ino hk
    rw [nodeAt_insert] at hk
    split at hk
    · have hd := hnew (Option.some.inj hk)
      have hpos := h.positive
      omega
    · exact h.notRoot k ino hk
  · intro k node hk
    rw [nodeAt_insert] at hk
    split at hk
    · rename_i heq
      rw [← Option.some.inj hk, heq]
      omega
    · have hfresh := h.fresh k node hk
      omega

lemma resolve_insert (hvacant : names.nodeAt key = none) {p : Path} {node : Node}
    (hp : names.resolve p = some node) : resolve (AList.insert key e names) p = some node := by
  refine resolve_of_agree hp fun name parent d ino node' _ _ hnode => ?_
  rw [nodeAt_insert, if_neg]
  · exact hnode
  · intro heq
    rw [heq, hvacant] at hnode
    cases hnode

lemma visible_insert (h : names.WellFormed nextId) (hparent : key.1 < nextId)
    (hdir : e.node.kind = .dir → e.node.id = nextId) {node : Node}
    (hvisible : Visible (AList.insert key e names) node) : names.Visible node ∨ node = e.node := by
  refine visible_of_changed (· = e.node) ?_ ?_ hvisible
  · intro k node' hk
    rw [nodeAt_insert] at hk
    split at hk
    · exact .inr (.inr (Option.some.inj hk).symm)
    · exact .inl hk
  · -- a new directory is empty, because its id is fresh
    intro d ino name node' hnew hnode
    rw [← hnew] at hdir
    obtain rfl : d = nextId := hdir rfl
    rw [nodeAt_insert] at hnode
    split at hnode
    · rename_i heq
      rw [← heq] at hparent
      exact absurd hparent (Nat.lt_irrefl _)
    · exact absurd (h.fresh _ _ hnode).2 (Nat.lt_irrefl _)

end Insert

section Unbind

variable {nextId : Nat}

lemma WellFormed.unbind (h : names.WellFormed nextId) (key : Nat × String) (e : Entry) :
    (names.unbind key e).WellFormed nextId := by
  have hsub : ∀ {k node}, (names.unbind key e).nodeAt k = some node →
      names.nodeAt k = some node := by
    intro k node hk
    rw [nodeAt_unbind] at hk
    split at hk
    · cases hk
    · exact hk
  exact ⟨fun k k' d ino ino' hk hk' => h.unique k k' d ino ino' (hsub hk) (hsub hk'),
    fun k ino hk => h.notRoot k ino (hsub hk), h.positive,
    fun k node hk => h.fresh k node (hsub hk)⟩

lemma visible_unbind {key : Nat × String} {e : Entry} {node : Node}
    (h : (names.unbind key e).Visible node) : names.Visible node := by
  have hchanged : ∀ k node, (names.unbind key e).nodeAt k = some node →
      names.nodeAt k = some node ∨ names.Visible node ∨ False := by
    intro k node hk
    rw [nodeAt_unbind] at hk
    split at hk
    · cases hk
    · exact .inl hk
  exact (visible_of_changed (fun _ => False) hchanged (fun _ _ _ _ hnew => hnew.elim) h).resolve_right
    id

lemma resolve_unbind (h : names.WellFormed nextId) {path p : Path} {d ino : Nat}
    {name : String} {node : Node} (e : Entry) (hpath : names.resolve path = some ⟨.dir, d, ino⟩)
    (hp : names.resolve p = some node) (hnot : ¬ (name :: path) <:+ p) :
    (names.unbind (d, name) e).resolve p = some node := by
  refine resolve_of_agree hp fun name' parent d' ino' node' hsuffix hparent hnode => ?_
  rw [nodeAt_unbind, if_neg (key_ne_of_not_through h hpath hnot hsuffix hparent)]
  exact hnode

end Unbind

structure Renames (names names' : Names) (key key' : Nat × String) (node : Node) : Prop where
  ne : key ≠ key'
  source : names.nodeAt key = some node
  nodeAt : ∀ k, names'.nodeAt k =
    if k = key' then some node else if k = key then none else names.nodeAt k

namespace Renames

variable {key key' : Nat × String} {node : Node} {nextId : Nat}

variable {node' : Node}

section

variable (h : Renames names names' key key' node)

include h

lemma nodeAt_cases {k : Nat × String} (hk : names'.nodeAt k = some node') :
    (k = key' ∧ node' = node) ∨ (k ≠ key' ∧ k ≠ key ∧ names.nodeAt k = some node') := by
  rw [h.nodeAt] at hk
  split at hk
  · rename_i heq
    exact .inl ⟨heq, (Option.some.inj hk).symm⟩
  · split at hk
    · cases hk
    · rename_i hne hne'
      exact .inr ⟨hne, hne', hk⟩

lemma wellFormed (hwf : names.WellFormed nextId)
    (hparent : key'.1 < nextId) : names'.WellFormed nextId := by
  refine ⟨?_, ?_, hwf.positive, ?_⟩
  · intro k k' d ino ino' hk hk'
    rcases h.nodeAt_cases hk with ⟨rfl, hnode⟩ | ⟨-, hne, hold⟩
    · rcases h.nodeAt_cases hk' with ⟨rfl, -⟩ | ⟨-, hne', hold'⟩
      · rfl
      · have hsource := h.source
        rw [← hnode] at hsource
        exact absurd (hwf.unique _ _ _ _ _ hold' hsource) hne'
    · rcases h.nodeAt_cases hk' with ⟨rfl, hnode'⟩ | ⟨-, -, hold'⟩
      · have hsource := h.source
        rw [← hnode'] at hsource
        exact absurd (hwf.unique _ _ _ _ _ hold hsource) hne
      · exact hwf.unique _ _ _ _ _ hold hold'
  · intro k ino hk
    rcases h.nodeAt_cases hk with ⟨-, hnode⟩ | ⟨-, -, hold⟩
    · exact hwf.notRoot key ino (hnode ▸ h.source)
    · exact hwf.notRoot k ino hold
  · intro k node' hk
    rcases h.nodeAt_cases hk with ⟨rfl, rfl⟩ | ⟨-, -, hold⟩
    · exact ⟨(hwf.fresh _ _ h.source).1, hparent⟩
    · exact hwf.fresh k node' hold

lemma visible (hsource : names.Visible node)
    (hvisible : names'.Visible node') : names.Visible node' := by
  have hchanged : ∀ k node', names'.nodeAt k = some node' →
      names.nodeAt k = some node' ∨ names.Visible node' ∨ False := by
    intro k node' hk
    rcases h.nodeAt_cases hk with ⟨-, rfl⟩ | ⟨-, -, hold⟩
    · exact .inr (.inl hsource)
    · exact .inl hold
  exact (visible_of_changed (fun _ => False) hchanged (fun _ _ _ _ hnew => hnew.elim)
    hvisible).resolve_right id

end

lemma resolve {path path' p : Path} {d d' ino ino' : Nat} {name name' : String}
    (h : Renames names names' (d, name) (d', name') node) (hwf : names.WellFormed nextId)
    (hpath : names.resolve path = some ⟨.dir, d, ino⟩)
    (hpath' : names.resolve path' = some ⟨.dir, d', ino'⟩) (hp : names.resolve p = some node')
    (hnot : ¬ (name :: path) <:+ p) (hnot' : ¬ (name' :: path') <:+ p) :
    names'.resolve p = some node' := by
  refine resolve_of_agree hp fun m parent d₀ i₀ node₀ hsuffix hparent hnode => ?_
  rw [h.nodeAt, if_neg (key_ne_of_not_through hwf hpath' hnot' hsuffix hparent),
    if_neg (key_ne_of_not_through hwf hpath hnot hsuffix hparent)]
  exact hnode

end Renames

end Fod.Mount.Names
