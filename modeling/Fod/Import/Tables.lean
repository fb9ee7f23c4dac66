import Fod.Lib.ParentChain
import Fod.Lib.Table

/-!
# The tables of an import, and the tree a cleanup finds

An import creates a root directory `index-source-<source>-import-<plan>` and
everything else below it.  A cleanup of the plan looks for a root directory by
a name pattern and collects whatever is below it.
-/

namespace Fod.Import

abbrev Name := List Char

/-- A row of `directories`.  `importedBy` is no column: it records the plan
whose fenced transaction inserted the row. -/
structure Directory where
  parent : Option Nat
  name : Name
  importedBy : Option Nat

structure File where
  directory : Option Nat
  name : Name
  size : Nat
  dataObject : Nat
  importedBy : Option Nat

abbrev Directories := Table Nat Directory

def rootHead : Name := ['i', 'n', 'd', 'e', 'x', '-', 's', 'o', 'u', 'r', 'c', 'e', '-']

def rootTail (plan : Nat) : Name :=
  ['-', 'i', 'm', 'p', 'o', 'r', 't', '-'] ++ Nat.toDigits 10 plan

def importRootName (source plan : Nat) : Name :=
  rootHead ++ Nat.toDigits 10 source ++ rootTail plan

def likeRoot (plan : Nat) (name : Name) : Bool :=
  decide (rootHead.length + (rootTail plan).length ≤ name.length) &&
    name.take rootHead.length == rootHead &&
    name.drop (name.length - (rootTail plan).length) == rootTail plan

lemma likeRoot_importRootName (source plan : Nat) :
    likeRoot plan (importRootName source plan) = true := by
  unfold likeRoot importRootName
  rw [List.append_assoc, List.take_left, ← List.append_assoc]
  simp only [List.length_append, Nat.add_sub_cancel, List.drop_left']
  simp

def rootNames (dirs : Directories) (plan : Nat) : List Name :=
  (dirs.entries.filter fun row => row.2.parent.isNone && likeRoot plan row.2.name).map
    fun row => row.2.name

variable {dirs : Directories} {name : Name} {d : Nat}

lemma mem_rootNames {plan d : Nat} {row : Directory}
    (hrow : dirs.lookup d = some row) (hparent : row.parent = none)
    (hname : likeRoot plan row.name = true) : row.name ∈ rootNames dirs plan := by
  refine List.mem_map.mpr ⟨⟨d, row⟩, ?_, rfl⟩
  simp [Table.lookup_eq_some.mp hrow, hparent, hname]

lemma likeRoot_of_mem_rootNames {plan : Nat}
    (h : name ∈ rootNames dirs plan) : likeRoot plan name = true := by
  obtain ⟨row, hrow, rfl⟩ := List.mem_map.mp h
  have hwanted := (List.mem_filter.mp hrow).2
  simp only [Bool.and_eq_true] at hwanted
  exact hwanted.2

/-! ## The tree below a root -/

inductive Below (dirs : Directories) (name : Name) : Nat → Prop
  | root {d : Nat} {row : Directory} (hrow : dirs.lookup d = some row)
      (hparent : row.parent = none) (hname : row.name = name) : Below dirs name d
  | child {d e : Nat} {row : Directory} (hrow : dirs.lookup d = some row)
      (hparent : row.parent = some e) (habove : Below dirs name e) : Below dirs name d

lemma Below.mem (h : Below dirs name d) : d ∈ dirs := by
  cases h with
  | root hrow _ _ => exact AList.lookup_isSome.mp (by simp [hrow])
  | child hrow _ _ => exact AList.lookup_isSome.mp (by simp [hrow])

lemma Below.exists_root (h : Below dirs name d) :
    ∃ r row, dirs.lookup r = some row ∧ row.parent = none ∧ row.name = name := by
  induction h with
  | root hrow hparent hname => exact ⟨_, _, hrow, hparent, hname⟩
  | child _ _ _ ih => exact ih

lemma Below.mem_rootNames {plan d : Nat}
    (h : Below dirs name d) (hname : likeRoot plan name = true) : name ∈ rootNames dirs plan := by
  obtain ⟨r, row, hrow, hparent, rfl⟩ := h.exists_root
  exact Import.mem_rootNames hrow hparent hname

lemma Below.transfer {dirs dirs' : Directories} {P : Nat → Prop}
    (hkeep : ∀ d row, dirs.lookup d = some row → P d → dirs'.lookup d = some row)
    (hup : ∀ d row e, dirs.lookup d = some row → P d → row.parent = some e → P e)
    (h : Below dirs name d) (hd : P d) : Below dirs' name d := by
  induction h with
  | root hrow hparent hname => exact .root (hkeep _ _ hrow hd) hparent hname
  | child hrow hparent _ ih =>
    exact .child (hkeep _ _ hrow hd) hparent (ih (hup _ _ _ hrow hd hparent))

def topName (dirs : Directories) : Nat → Nat → Option Name
  | 0, _ => none
  | rounds + 1, d => do
    let row ← dirs.lookup d
    match row.parent with
    | none => some row.name
    | some e => topName dirs rounds e

lemma below_of_topName (rounds : Nat)
    (h : topName dirs rounds d = some name) : Below dirs name d := by
  induction rounds generalizing d with
  | zero => cases h
  | succ rounds ih =>
    obtain ⟨row, hrow, hrest⟩ := Option.bind_eq_some_iff.mp h
    split at hrest
    next hparent => exact .root hrow hparent (Option.some.inj hrest)
    next e hparent => exact .child hrow hparent (ih hrest)

def childrenOf (dirs : Directories) (level : List Nat) : List Nat :=
  dirs.keysWith fun row => row.parent.any (level.contains ·)

/-- The rounds of the recursive query, one list of directories for each depth. -/
def subtreeLevels (dirs : Directories) : Nat → List Nat → List (List Nat)
  | 0, level => [level]
  | rounds + 1, level => level :: subtreeLevels dirs rounds (childrenOf dirs level)

def rootsNamed (dirs : Directories) (name : Name) : List Nat :=
  dirs.keysWith fun row => row.parent.isNone && row.name == name

/-- The rows of `collect_directory_rows`: the deepest first, and of one depth
the greatest number first.  No chain of parents is longer than the table. -/
def collectDirectoryRows (dirs : Directories) (name : Name) : List Nat :=
  ((subtreeLevels dirs dirs.entries.length (rootsNamed dirs name)).reverse.map
    fun level => level.insertionSort (· ≥ ·)).flatten

def collectFileRows (dirs : Directories) (files : Table Nat File) (name : Name) : List Nat :=
  (files.keysWith fun row =>
    row.directory.any ((collectDirectoryRows dirs name).contains ·)).insertionSort (· ≤ ·)

section Collect

variable {dirs : Directories} {name : Name} {d : Nat}

variable {level : List Nat}

lemma mem_childrenOf : d ∈ childrenOf dirs level ↔
      ∃ row e, dirs.lookup d = some row ∧ row.parent = some e ∧ e ∈ level := by
  simp only [childrenOf, Table.mem_keysWith, Option.any_eq_true, List.contains_iff_mem]
  constructor
  · rintro ⟨row, hrow, e, hparent, he⟩
    exact ⟨row, e, hrow, hparent, he⟩
  · rintro ⟨row, e, hrow, hparent, he⟩
    exact ⟨row, hrow, e, hparent, he⟩

lemma mem_rootsNamed : d ∈ rootsNamed dirs name ↔
      ∃ row, dirs.lookup d = some row ∧ row.parent = none ∧ row.name = name := by
  simp [rootsNamed, Table.mem_keysWith]

lemma mem_collectDirectoryRows_iff_levels : d ∈ collectDirectoryRows dirs name ↔
      ∃ level ∈ subtreeLevels dirs dirs.entries.length (rootsNamed dirs name), d ∈ level := by
  simp [collectDirectoryRows, List.mem_flatten, List.mem_insertionSort]

lemma below_of_mem_subtreeLevels (rounds : Nat) (hlevel : ∀ e ∈ level, Below dirs name e) :
    ∀ found ∈ subtreeLevels dirs rounds level, ∀ d ∈ found, Below dirs name d := by
  induction rounds generalizing level with
  | zero =>
    intro found hfound
    obtain rfl := List.mem_singleton.mp hfound
    exact hlevel
  | succ rounds ih =>
    intro found hfound
    obtain rfl | hfound := List.mem_cons.mp hfound
    · exact hlevel
    · refine ih (fun d hd => ?_) found hfound
      obtain ⟨row, e, hrow, hparent, he⟩ := mem_childrenOf.mp hd
      exact .child hrow hparent (hlevel e he)

def Up (dirs : Directories) (name : Name) (d e : Nat) : Prop :=
  ∃ row, dirs.lookup d = some row ∧ row.parent = some e ∧ Below dirs name d

lemma grounded_up : ParentChain.Grounded (Up dirs name) := by
  have hbelow : ∀ d, Below dirs name d → Acc (fun e d => Up dirs name d e) d := by
    intro d hd
    induction hd with
    | root hrow hparent hname =>
      refine ⟨_, fun e he => ?_⟩
      obtain ⟨row', hrow', hparent', -⟩ := he
      rw [hrow] at hrow'
      cases hrow'
      rw [hparent] at hparent'
      cases hparent'
    | child hrow hparent habove ih =>
      refine ⟨_, fun e he => ?_⟩
      obtain ⟨row', hrow', hparent', -⟩ := he
      rw [hrow] at hrow'
      cases hrow'
      rw [hparent] at hparent'
      cases hparent'
      exact ih
  refine ⟨fun d => ⟨d, fun e he => ?_⟩⟩
  obtain ⟨row, hrow, hparent, hd⟩ := he
  exact (hbelow d hd).inv ⟨row, hrow, hparent, hd⟩

lemma reach_root (h : Below dirs name d) :
    ∃ r ∈ rootsNamed dirs name, Relation.ReflTransGen (Up dirs name) d r := by
  induction h with
  | root hrow hparent hname =>
    exact ⟨_, mem_rootsNamed.mpr ⟨_, hrow, hparent, hname⟩, .refl⟩
  | child hrow hparent habove ih =>
    obtain ⟨r, hr, hreach⟩ := ih
    exact ⟨r, hr, .head ⟨_, hrow, hparent, .child hrow hparent habove⟩ hreach⟩

lemma mem_subtreeLevels_of_steps {rounds n a : Nat} (ha : a ∈ level)
    (hsteps : ParentChain.Steps (Up dirs name) d n a) (hn : n ≤ rounds) :
    ∃ found ∈ subtreeLevels dirs rounds level, d ∈ found := by
  induction n generalizing rounds level a with
  | zero =>
    obtain rfl : d = a := hsteps
    cases rounds with
    | zero => exact ⟨level, List.mem_singleton_self _, ha⟩
    | succ rounds => exact ⟨level, List.mem_cons_self, ha⟩
  | succ n ih =>
    obtain ⟨y, hsteps, row, hrow, hparent, -⟩ := hsteps
    cases rounds with
    | zero => omega
    | succ rounds =>
      have hy : y ∈ childrenOf dirs level := mem_childrenOf.mpr ⟨row, a, hrow, hparent, ha⟩
      obtain ⟨found, hfound, hd⟩ := ih hy hsteps (Nat.le_of_succ_le_succ hn)
      exact ⟨found, List.mem_cons_of_mem _ hfound, hd⟩

lemma mem_collectDirectoryRows : d ∈ collectDirectoryRows dirs name ↔ Below dirs name d := by
  rw [mem_collectDirectoryRows_iff_levels]
  constructor
  · rintro ⟨level, hlevel, hd⟩
    refine below_of_mem_subtreeLevels _ (fun e he => ?_) level hlevel d hd
    obtain ⟨row, hrow, hparent, hname⟩ := mem_rootsNamed.mp he
    exact .root hrow hparent hname
  · intro hd
    obtain ⟨r, hr, hreach⟩ := reach_root hd
    have hnodes : ∀ x y, Up dirs name x y → x ∈ dirs.keys := by
      rintro x y ⟨row, hrow, -, -⟩
      exact AList.mem_keys.mp (AList.lookup_isSome.mp (by simp [hrow]))
    obtain ⟨n, hn, hsteps⟩ := grounded_up.exists_steps hnodes hreach
    refine mem_subtreeLevels_of_steps hr hsteps (Nat.le_trans hn ?_)
    simp [AList.keys, List.keys]

lemma mem_collectFileRows {files : Table Nat File} {f : Nat} : f ∈ collectFileRows dirs files name ↔
      ∃ row d, files.lookup f = some row ∧ row.directory = some d ∧ Below dirs name d := by
  simp only [collectFileRows, List.mem_insertionSort, Table.mem_keysWith, Option.any_eq_true,
    List.contains_iff_mem, mem_collectDirectoryRows]
  constructor
  · rintro ⟨row, hrow, d, hdir, hd⟩
    exact ⟨row, d, hrow, hdir, hd⟩
  · rintro ⟨row, d, hrow, hdir, hd⟩
    exact ⟨row, hrow, d, hdir, hd⟩

end Collect

end Fod.Import
