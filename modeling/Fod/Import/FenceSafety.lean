import Fod.Import.Fence

/-!
# A cleaned plan stays clean

The row lock of the plan lets only one transaction at a time be past its fence
check.  While a cleanup holds it, no row of the plan is added, so what the
cleanup has collected contains every row of the plan that is still there; and
once the plan is cleaned no fence check of it succeeds.
-/

namespace Fod.Import.Fencing

open GuardedRun

namespace Db

def ImportedDirectory (db : Db) (plan d : Nat) : Prop :=
  ∃ row, db.directories.lookup d = some row ∧ row.importedBy = some plan

def ImportedFile (db : Db) (plan f : Nat) : Prop :=
  ∃ row, db.files.lookup f = some row ∧ row.importedBy = some plan

def Clean (db : Db) (plan : Nat) : Prop :=
  (∀ d, ¬ db.ImportedDirectory plan d) ∧ ∀ f, ¬ db.ImportedFile plan f

def HasStatus (db : Db) (plan : Nat) (status : PlanStatus) : Prop :=
  ∃ row, db.plans.lookup plan = some row ∧ row.status = status

def Cleanable (db : Db) (plan : Nat) : Prop :=
  ∃ status, db.HasStatus plan status ∧ status ≠ .completed

def FilesHang (db : Db) (plan : Nat) (name : Name) : Prop :=
  ∀ f row, db.files.lookup f = some row → row.importedBy = some plan →
    ∃ d, row.directory = some d ∧ Below db.directories name d

def DirectoriesHang (db : Db) (plan : Nat) (name : Name) : Prop :=
  ∀ d, db.ImportedDirectory plan d → Below db.directories name d

structure Ok (db : Db) : Prop where
  freshDirectory : ∀ d row, db.directories.lookup d = some row → d < db.nextDirectory
  freshFile : ∀ f row, db.files.lookup f = some row → f < db.nextFile
  freshPlan : ∀ p row, db.plans.lookup p = some row → p < db.nextPlan
  referential : Referential db
  hung : ∀ p d, db.ImportedDirectory p d →
    ∃ name, likeRoot p name = true ∧ Below db.directories name d
  filed : ∀ p f row, db.files.lookup f = some row → row.importedBy = some p →
    ∃ name d, likeRoot p name = true ∧ row.directory = some d ∧ Below db.directories name d
  clean : ∀ p, db.HasStatus p .cleaned → db.Clean p

lemma HasStatus.unique {db : Db} {p : Nat} {status status' : PlanStatus}
    (h : db.HasStatus p status) (h' : db.HasStatus p status') : status = status' := by
  obtain ⟨row, hrow, hstatus⟩ := h
  obtain ⟨row', hrow', hstatus'⟩ := h'
  rw [hrow] at hrow'
  cases hrow'
  exact hstatus.symm.trans hstatus'

end Db

variable {db : Db}

lemma Referential.parent (h : Referential db) {d e : Nat} {row : Directory}
    (hrow : db.directories.lookup d = some row) (hparent : row.parent = some e) :
    e ∈ db.directories :=
  h.1 ⟨d, row⟩ (Table.lookup_eq_some.mp hrow) e hparent

lemma Referential.home (h : Referential db) {f e : Nat} {row : File}
    (hrow : db.files.lookup f = some row) (hdirectory : row.directory = some e) :
    e ∈ db.directories :=
  h.2 ⟨f, row⟩ (Table.lookup_eq_some.mp hrow) e hdirectory

lemma referential_of_lookup
    (hparent : ∀ d row e, db.directories.lookup d = some row → row.parent = some e →
      e ∈ db.directories)
    (hhome : ∀ f row e, db.files.lookup f = some row → row.directory = some e →
      e ∈ db.directories) : Referential db :=
  ⟨fun row hrow e he => hparent row.1 row.2 e (Table.lookup_eq_some.mpr hrow) he,
    fun row hrow e he => hhome row.1 row.2 e (Table.lookup_eq_some.mpr hrow) he⟩

structure Quiet (db db' : Db) (p : Nat) : Prop where
  plan : db'.plans.lookup p = db.plans.lookup p
  directory : ∀ d, db'.ImportedDirectory p d → db.ImportedDirectory p d
  file : ∀ f row', db'.files.lookup f = some row' → row'.importedBy = some p →
    ∃ row, db.files.lookup f = some row ∧ row.importedBy = some p ∧
      row.directory = row'.directory
  below : ∀ name d, Below db.directories name d → d ∈ db'.directories →
    Below db'.directories name d

namespace Quiet

variable {db db' : Db} {p : Nat}

lemma refl (db : Db) (p : Nat) : Quiet db db p where
  plan := rfl
  directory _ h := h
  file _ row h himported := ⟨row, h, himported, rfl⟩
  below _ _ h _ := h

section

variable (h : Quiet db db' p)

include h

lemma importedFile {f : Nat} (hf : db'.ImportedFile p f) : db.ImportedFile p f := by
  obtain ⟨row', hrow', himported⟩ := hf
  obtain ⟨row, hrow, himported', -⟩ := h.file f row' hrow' himported
  exact ⟨row, hrow, himported'⟩

lemma clean (hclean : db.Clean p) : db'.Clean p :=
  ⟨fun d hd => hclean.1 d (h.directory d hd), fun f hf => hclean.2 f (h.importedFile hf)⟩

lemma hasStatus {status : PlanStatus} (hs : db.HasStatus p status) : db'.HasStatus p status := by
  unfold Db.HasStatus
  rw [h.plan]
  exact hs

lemma directoriesHang {name : Name}
    (hhang : db.DirectoriesHang p name) : db'.DirectoriesHang p name := by
  rintro d ⟨row, hrow, himported⟩
  refine h.below name d (hhang d (h.directory d ⟨row, hrow, himported⟩)) ?_
  exact AList.lookup_isSome.mp (by simp [hrow])

lemma filesHang (href : Referential db') {name : Name}
    (hhang : db.FilesHang p name) : db'.FilesHang p name := by
  intro f row' hrow' himported'
  obtain ⟨row, hrow, himported, hsame⟩ := h.file f row' hrow' himported'
  obtain ⟨d, hdirectory, hbelow⟩ := hhang f row hrow himported
  rw [hsame] at hdirectory
  exact ⟨d, hdirectory, h.below name d hbelow (href.home hrow' hdirectory)⟩

end

end Quiet

def CleanupOk (db : Db) (plan : Nat) : CleanupStage → Prop
  | .started => True
  | .locked => ∃ status, db.HasStatus plan status
  | .claimed _ => db.Cleanable plan
  | .rooted _ none => db.Cleanable plan ∧ db.Clean plan
  | .rooted _ (some name) =>
    db.Cleanable plan ∧ db.DirectoriesHang plan name ∧ db.FilesHang plan name
  | .directoriesCollected _ name directories =>
    db.Cleanable plan ∧
      (∀ d, db.ImportedDirectory plan d → d ∈ directories) ∧ db.FilesHang plan name
  | .collected _ directories files =>
    db.Cleanable plan ∧
      (∀ d, db.ImportedDirectory plan d → d ∈ directories) ∧
      ∀ f, db.ImportedFile plan f → f ∈ files

def TxOk (db : Db) : Tx → Prop
  | .importing plan _ _ _ (.validated _) => db.HasStatus plan .running
  | .importing plan _ _ _ (.revalidated _) => db.HasStatus plan .running
  | .importing _ _ _ _ _ => True
  | .cleaning plan stage => CleanupOk db plan stage

lemma CleanupOk.quiet {db db' : Db} {plan : Nat} {stage : CleanupStage}
    (h : CleanupOk db plan stage) (hquiet : Quiet db db' plan) (href : Referential db') :
    CleanupOk db' plan stage := by
  have hstatus : db.Cleanable plan → db'.Cleanable plan :=
    fun ⟨status, hhas, hne⟩ => ⟨status, hquiet.hasStatus hhas, hne⟩
  cases stage with
  | started => trivial
  | locked =>
    obtain ⟨status, hhas⟩ := h
    exact ⟨status, hquiet.hasStatus hhas⟩
  | claimed taken => exact hstatus h
  | rooted taken root =>
    cases root with
    | none => exact ⟨hstatus h.1, hquiet.clean h.2⟩
    | some name =>
      exact ⟨hstatus h.1, hquiet.directoriesHang h.2.1, hquiet.filesHang href h.2.2⟩
  | directoriesCollected taken name directories =>
    exact ⟨hstatus h.1, fun d hd => h.2.1 d (hquiet.directory d hd),
      hquiet.filesHang href h.2.2⟩
  | collected taken directories files =>
    exact ⟨hstatus h.1, fun d hd => h.2.1 d (hquiet.directory d hd),
      fun f hf => h.2.2 f (hquiet.importedFile hf)⟩

lemma TxOk.quiet {db db' : Db} {tx : Tx} (h : TxOk db tx)
    (hquiet : ∀ p, tx.holds = some p → Quiet db db' p) (href : Referential db') : TxOk db' tx := by
  cases tx with
  | importing plan token source op stage =>
    cases stage with
    | started => trivial
    | confirmed => trivial
    | validated lease => exact (hquiet plan rfl).hasStatus h
    | revalidated lease => exact (hquiet plan rfl).hasStatus h
  | cleaning plan stage =>
    have hstage : CleanupOk db plan stage := h
    show CleanupOk db' plan stage
    cases stage with
    | started => trivial
    | _ => exact hstage.quiet (hquiet plan rfl) href

lemma Db.Cleanable.exists {p : Nat} (h : db.Cleanable p) : ∃ status, db.HasStatus p status :=
  h.imp fun _ hstatus => hstatus.1

lemma TxOk.exists {tx : Tx} {p : Nat} (h : TxOk db tx) (hholds : tx.holds = some p) :
    ∃ status, db.HasStatus p status := by
  cases tx with
  | importing plan token source op stage =>
    cases stage with
    | started => cases hholds
    | confirmed => cases hholds
    | validated lease =>
      cases hholds
      exact ⟨_, h⟩
    | revalidated lease =>
      cases hholds
      exact ⟨_, h⟩
  | cleaning plan stage =>
    have hstage : CleanupOk db plan stage := h
    cases stage with
    | started => cases hholds
    | locked =>
      cases hholds
      exact hstage
    | claimed taken =>
      cases hholds
      exact hstage.exists
    | rooted taken root =>
      cases hholds
      cases root with
      | none => exact hstage.1.exists
      | some name => exact hstage.1.exists
    | directoriesCollected taken name directories =>
      cases hholds
      exact hstage.1.exists
    | collected taken directories files =>
      cases hholds
      exact hstage.1.exists

/-! ## What the commits do to the tables -/

section Changes

variable {db : Db} {p : Nat}

lemma lookup_updatePlan (change : ImportPlan → ImportPlan) (q : Nat) :
    (updatePlan db p change).plans.lookup q =
      (db.plans.lookup q).map fun row => if q = p then change row else row :=
  Table.lookup_adjust _

variable {change : ImportPlan → ImportPlan} {q : Nat} {d : Nat} {parent : Option Nat} {name : Name}

lemma hasStatus_updatePlan_of_ne (hne : q ≠ p) (status : PlanStatus) :
    (updatePlan db p change).HasStatus q status ↔ db.HasStatus q status := by
  unfold Db.HasStatus
  rw [lookup_updatePlan]
  simp [hne]

lemma hasStatus_updatePlan {status status' : PlanStatus}
    (h : db.HasStatus p status) (hchange : ∀ row, (change row).status = status') :
    (updatePlan db p change).HasStatus p status' := by
  obtain ⟨row, hrow, -⟩ := h
  exact ⟨change row, by rw [lookup_updatePlan, hrow]; simp, hchange row⟩

lemma Quiet.updatePlan {db' : Db} (h : Quiet db db' q) (hne : q ≠ p)
    (change : ImportPlan → ImportPlan) : Quiet db (updatePlan db' p change) q where
  plan := by
    rw [lookup_updatePlan, ← h.plan]
    simp [hne]
  directory := h.directory
  file := h.file
  below := h.below

lemma Db.Ok.updatePlan (h : db.Ok)
    (hclean : (updatePlan db p change).HasStatus p .cleaned → db.Clean p) :
    (updatePlan db p change).Ok where
  freshDirectory := h.freshDirectory
  freshFile := h.freshFile
  freshPlan q row hrow := by
    rw [lookup_updatePlan] at hrow
    obtain ⟨row', hrow', -⟩ := Option.map_eq_some_iff.mp hrow
    exact h.freshPlan q row' hrow'
  referential := h.referential
  hung := h.hung
  filed := h.filed
  clean q hq := by
    by_cases hqp : q = p
    · subst hqp
      exact hclean hq
    · exact h.clean q ((hasStatus_updatePlan_of_ne hqp _).mp hq)

lemma lookup_insert_of_lookup {κ ν : Type} [DecidableEq κ] {t : Table κ ν} {k k' : κ}
    {v v' : ν} (hrow : t.lookup k = some v) (hne : k ≠ k') :
    (t.insert k' v').lookup k = some v := by
  rw [AList.lookup_insert_ne hne, hrow]

lemma below_insertDirectory (h : db.Ok) {name name' : Name}
    (hbelow : Below db.directories name' d) :
    Below (insertDirectory db parent name p).directories name' d := by
  refine hbelow.transfer (P := fun _ => True) (fun d row hrow _ => ?_) (fun _ _ _ _ _ _ => trivial)
    trivial
  exact lookup_insert_of_lookup hrow (Nat.ne_of_lt (h.freshDirectory d row hrow))

lemma mem_insertDirectory
    (hd : d ∈ db.directories) : d ∈ (insertDirectory db parent name p).directories :=
  (AList.mem_insert _).mpr (.inr hd)

lemma Db.Ok.insertDirectory (h : db.Ok) {name root : Name}
    (hrunning : db.HasStatus p .running) (hlike : likeRoot p root = true)
    (hparent : (parent = none ∧ name = root) ∨ ∃ e, parent = some e ∧ Below db.directories root e) :
    (insertDirectory db parent name p).Ok := by
  have hmem : ∀ e, parent = some e → e ∈ db.directories := by
    rintro e rfl
    obtain ⟨hnone, -⟩ | ⟨e', he, hbelow⟩ := hparent
    · cases hnone
    · cases he
      exact hbelow.mem
  have hnew : Below (Fencing.insertDirectory db parent name p).directories root
      db.nextDirectory := by
    obtain ⟨rfl, rfl⟩ | ⟨e, rfl, hbelow⟩ := hparent
    · exact .root (AList.lookup_insert _) rfl rfl
    · exact .child (AList.lookup_insert _) rfl (below_insertDirectory h hbelow)
  constructor
  case freshDirectory =>
    intro d row hrow
    obtain ⟨rfl, -⟩ | ⟨-, hold⟩ := Table.lookup_insert_cases hrow
    · exact Nat.lt_succ_self _
    · exact Nat.lt_succ_of_lt (h.freshDirectory d row hold)
  case freshFile => exact h.freshFile
  case freshPlan => exact h.freshPlan
  case referential =>
    refine referential_of_lookup (fun d row e hrow he => ?_) fun f row e hrow he => ?_
    · obtain ⟨-, rfl⟩ | ⟨-, hold⟩ := Table.lookup_insert_cases hrow
      · exact mem_insertDirectory (hmem e he)
      · exact mem_insertDirectory (h.referential.parent hold he)
    · exact mem_insertDirectory (h.referential.home hrow he)
  case hung =>
    rintro q d ⟨row, hrow, himported⟩
    obtain ⟨rfl, rfl⟩ | ⟨-, hold⟩ := Table.lookup_insert_cases hrow
    · cases himported
      exact ⟨root, hlike, hnew⟩
    · obtain ⟨name', hlike', hbelow⟩ := h.hung q d ⟨row, hold, himported⟩
      exact ⟨name', hlike', below_insertDirectory h hbelow⟩
  case filed =>
    intro q f row hrow himported
    obtain ⟨name', d, hlike', hdirectory, hbelow⟩ := h.filed q f row hrow himported
    exact ⟨name', d, hlike', hdirectory, below_insertDirectory h hbelow⟩
  case clean =>
    intro q hq
    refine ⟨fun d hd => ?_, (h.clean q hq).2⟩
    obtain ⟨row, hrow, himported⟩ := hd
    obtain ⟨-, rfl⟩ | ⟨-, hold⟩ := Table.lookup_insert_cases hrow
    · cases himported
      cases hrunning.unique hq
    · exact (h.clean q hq).1 d ⟨row, hold, himported⟩

lemma quiet_insertDirectory (h : db.Ok)
    (hne : q ≠ p) : Quiet db (insertDirectory db parent name p) q where
  plan := rfl
  directory d := by
    rintro ⟨row, hrow, himported⟩
    obtain ⟨-, rfl⟩ | ⟨-, hold⟩ := Table.lookup_insert_cases hrow
    · exact absurd (Option.some.inj himported).symm hne
    · exact ⟨row, hold, himported⟩
  file _ row hrow himported := ⟨row, hrow, himported, rfl⟩
  below _ _ hbelow _ := below_insertDirectory h hbelow

lemma Db.Ok.insertFile (h : db.Ok) {directory object : Nat} {name root : Name}
    (hrunning : db.HasStatus p .running) (hlike : likeRoot p root = true)
    (hbelow : Below db.directories root directory) :
    (insertFile db directory name object p).Ok where
  freshDirectory := h.freshDirectory
  freshFile f row hrow := by
    obtain ⟨rfl, -⟩ | ⟨-, hold⟩ := Table.lookup_insert_cases hrow
    · exact Nat.lt_succ_self _
    · exact Nat.lt_succ_of_lt (h.freshFile f row hold)
  freshPlan := h.freshPlan
  referential := by
    refine referential_of_lookup (fun _ _ _ hrow he => h.referential.parent hrow he) ?_
    intro f row e hrow he
    obtain ⟨-, rfl⟩ | ⟨-, hold⟩ := Table.lookup_insert_cases hrow
    · cases he
      exact hbelow.mem
    · exact h.referential.home hold he
  hung := h.hung
  filed q f row hrow himported := by
    obtain ⟨-, rfl⟩ | ⟨-, hold⟩ := Table.lookup_insert_cases hrow
    · cases himported
      exact ⟨root, directory, hlike, rfl, hbelow⟩
    · exact h.filed q f row hold himported
  clean q hq := by
    refine ⟨(h.clean q hq).1, ?_⟩
    rintro f ⟨row, hrow, himported⟩
    obtain ⟨-, rfl⟩ | ⟨-, hold⟩ := Table.lookup_insert_cases hrow
    · cases himported
      cases hrunning.unique hq
    · exact (h.clean q hq).2 f ⟨row, hold, himported⟩

lemma quiet_insertFile {directory object : Nat} (hne : q ≠ p) :
    Quiet db (insertFile db directory name object p) q where
  plan := rfl
  directory _ hd := hd
  file f row hrow himported := by
    obtain ⟨-, rfl⟩ | ⟨-, hold⟩ := Table.lookup_insert_cases hrow
    · exact absurd (Option.some.inj himported).symm hne
    · exact ⟨row, hold, himported, rfl⟩
  below _ _ hbelow _ := hbelow

lemma lookup_updateFile {f size object g : Nat} {row' : File}
    (hrow' : (updateFile db f size object).files.lookup g = some row') :
    ∃ row, db.files.lookup g = some row ∧ row.importedBy = row'.importedBy ∧
      row.directory = row'.directory := by
  have hlookup := (Table.lookup_adjust (t := db.files) (k := g) _).symm.trans hrow'
  obtain ⟨row, hrow, rfl⟩ := Option.map_eq_some_iff.mp hlookup
  refine ⟨row, hrow, ?_⟩
  split
  · exact ⟨rfl, rfl⟩
  · exact ⟨rfl, rfl⟩

lemma quiet_updateFile (f size object q : Nat) : Quiet db (updateFile db f size object) q where
  plan := rfl
  directory _ hd := hd
  file g row' hrow' himported := by
    obtain ⟨row, hrow, hby, hdirectory⟩ := lookup_updateFile hrow'
    exact ⟨row, hrow, hby.trans himported, hdirectory⟩
  below _ _ hbelow _ := hbelow

lemma Db.Ok.updateFile (h : db.Ok) (f size object : Nat) : (updateFile db f size object).Ok where
  freshDirectory := h.freshDirectory
  freshFile g row' hrow' := by
    obtain ⟨row, hrow, -⟩ := lookup_updateFile hrow'
    exact h.freshFile g row hrow
  freshPlan := h.freshPlan
  referential := by
    refine referential_of_lookup (fun _ _ _ hrow he => h.referential.parent hrow he) ?_
    intro g row' e hrow' he
    obtain ⟨row, hrow, -, hdirectory⟩ := lookup_updateFile hrow'
    exact h.referential.home hrow (hdirectory.trans he)
  hung := h.hung
  filed q g row' hrow' himported := by
    obtain ⟨row, hrow, hby, hdirectory⟩ := lookup_updateFile hrow'
    rw [← hdirectory]
    exact h.filed q g row hrow (hby.trans himported)
  clean q hq := (quiet_updateFile f size object q).clean (h.clean q hq)

lemma applyImport_ok (h : db.Ok) {db' : Db} {source : Nat} {op : ImportOp}
    (hrunning : db.HasStatus p .running) (happly : applyImport db source p op = some db') :
    db'.Ok ∧ db'.HasStatus p .running ∧ ∀ q, q ≠ p → Quiet db db' q := by
  have hlike := likeRoot_importRootName source p
  unfold applyImport at happly
  split at happly
  next name =>
    split at happly
    next hcheck =>
      cases happly
      exact ⟨h.insertDirectory hrunning hlike (.inl ⟨rfl, hcheck.1⟩), hrunning,
        fun q hne => quiet_insertDirectory h hne⟩
    next => cases happly
  next parent name =>
    split at happly
    next hcheck =>
      cases happly
      have hbelow := below_of_topName _ (beq_iff_eq.mp hcheck.1)
      exact ⟨h.insertDirectory hrunning hlike (.inr ⟨parent, rfl, hbelow⟩), hrunning,
        fun q hne => quiet_insertDirectory h hne⟩
    next => cases happly
  next directory name object =>
    split at happly
    next hcheck =>
      cases happly
      have hbelow := below_of_topName _ (beq_iff_eq.mp hcheck.1)
      exact ⟨h.insertFile hrunning hlike hbelow, hrunning, fun q hne => quiet_insertFile hne⟩
    next => cases happly
  next f size object =>
    split at happly
    next =>
      cases happly
      exact ⟨h.updateFile f size object, hrunning, fun q _ => quiet_updateFile f size object q⟩
    next => cases happly
  next src dst =>
    obtain ⟨row, -, rfl⟩ := Option.map_eq_some_iff.mp happly
    exact ⟨h.updateFile dst _ _, hrunning, fun q _ => quiet_updateFile dst _ _ q⟩
  next =>
    cases happly
    exact ⟨h, hrunning, fun q _ => .refl db q⟩
  next => cases happly

lemma lookup_removeRows_directory {directories files : List Nat} {row : Directory} :
    (removeRows db directories files).directories.lookup d = some row ↔
      d ∉ directories ∧ db.directories.lookup d = some row := by
  unfold removeRows
  rw [Table.lookup_keep_key]
  by_cases hd : d ∈ directories <;> simp [hd]

lemma lookup_removeRows_file {directories files : List Nat} {f : Nat} {row : File} :
    (removeRows db directories files).files.lookup f = some row ↔
      f ∉ files ∧ db.files.lookup f = some row := by
  unfold removeRows
  rw [Table.lookup_keep_key]
  by_cases hf : f ∈ files <;> simp [hf]

lemma below_removeRows {directories files : List Nat}
    (href : Referential (removeRows db directories files)) (hbelow : Below db.directories name d)
    (hd : d ∈ (removeRows db directories files).directories) :
    Below (removeRows db directories files).directories name d := by
  have hkeep : ∀ d row, db.directories.lookup d = some row →
      d ∈ (removeRows db directories files).directories →
      (removeRows db directories files).directories.lookup d = some row := by
    intro d row hrow hmem
    obtain ⟨row', hrow'⟩ := Option.isSome_iff_exists.mp (AList.lookup_isSome.mpr hmem)
    exact lookup_removeRows_directory.mpr ⟨(lookup_removeRows_directory.mp hrow').1, hrow⟩
  exact hbelow.transfer hkeep
    (fun d row e hrow hmem he => href.parent (hkeep d row hrow hmem) he) hd

lemma quiet_removeRows {directories files : List Nat}
    (href : Referential (removeRows db directories files)) (q : Nat) :
    Quiet db (removeRows db directories files) q where
  plan := rfl
  directory d := by
    rintro ⟨row, hrow, himported⟩
    exact ⟨row, (lookup_removeRows_directory.mp hrow).2, himported⟩
  file f row hrow himported := ⟨row, (lookup_removeRows_file.mp hrow).2, himported, rfl⟩
  below _ _ := below_removeRows href

lemma Db.Ok.removeRows (h : db.Ok) {directories files : List Nat}
    (href : Referential (removeRows db directories files)) :
    (removeRows db directories files).Ok where
  freshDirectory d row hrow := h.freshDirectory d row (lookup_removeRows_directory.mp hrow).2
  freshFile f row hrow := h.freshFile f row (lookup_removeRows_file.mp hrow).2
  freshPlan := h.freshPlan
  referential := href
  hung q d := by
    rintro ⟨row, hrow, himported⟩
    obtain ⟨name, hlike, hbelow⟩ :=
      h.hung q d ⟨row, (lookup_removeRows_directory.mp hrow).2, himported⟩
    exact ⟨name, hlike, below_removeRows href hbelow (AList.lookup_isSome.mp (by simp [hrow]))⟩
  filed q f row hrow himported := by
    obtain ⟨name, d, hlike, hdirectory, hbelow⟩ :=
      h.filed q f row (lookup_removeRows_file.mp hrow).2 himported
    exact ⟨name, d, hlike, hdirectory, below_removeRows href hbelow (href.home hrow hdirectory)⟩
  clean q hq := (quiet_removeRows href q).clean (h.clean q hq)

lemma clean_removeRows {directories files : List Nat}
    (hdirectories : ∀ d, db.ImportedDirectory p d → d ∈ directories)
    (hfiles : ∀ f, db.ImportedFile p f → f ∈ files) :
    (removeRows db directories files).Clean p := by
  constructor
  · rintro d ⟨row, hrow, himported⟩
    obtain ⟨hnot, hold⟩ := lookup_removeRows_directory.mp hrow
    exact hnot (hdirectories d ⟨row, hold, himported⟩)
  · rintro f ⟨row, hrow, himported⟩
    obtain ⟨hnot, hold⟩ := lookup_removeRows_file.mp hrow
    exact hnot (hfiles f ⟨row, hold, himported⟩)

end Changes

/-! ## Whole states -/

def Fenced (log : List Event) (p : Nat) : Prop :=
  ∀ later earlier, log = later ++ .cleaned p :: earlier → ∀ op, .imported p op ∉ later

lemma Fenced.cons {log : List Event} {p : Nat} (h : Fenced log p) {event : Event}
    (hevent : ∀ op, event = .imported p op → .cleaned p ∉ log) : Fenced (event :: log) p := by
  intro later earlier heq op hmem
  cases later with
  | nil => cases hmem
  | cons first later =>
    obtain ⟨rfl, hlog⟩ := List.cons.inj heq
    obtain rfl | hmem := List.mem_cons.mp hmem
    · exact hevent op rfl (by rw [hlog]; simp)
    · exact h later earlier hlog op hmem

structure State.Ok (s : State) : Prop where
  db : s.db.Ok
  locks : ∀ i j ti tj p, s.txs.lookup i = some ti → s.txs.lookup j = some tj →
    ti.holds = some p → tj.holds = some p → i = j
  txs : ∀ i tx, s.txs.lookup i = some tx → TxOk s.db tx
  cleaned : ∀ p, .cleaned p ∈ s.log → s.db.HasStatus p .cleaned
  completed : ∀ p, .imported p (.updateImportPlan .completed) ∈ s.log →
    s.db.HasStatus p .completed
  fenced : ∀ p, Fenced s.log p

namespace State

variable {s s' : State} {id p : Nat} {tx : Tx}

lemma planFree_iff : s.planFree id p = true ↔
    ∀ j tj, s.txs.lookup j = some tj → tj.holds = some p → j = id := by
  simp only [planFree, List.all_eq_true, Bool.or_eq_true, beq_iff_eq, bne_iff_ne]
  constructor
  · intro h j tj hj hholds
    exact (h ⟨j, tj⟩ (Table.lookup_eq_some.mp hj)).resolve_right fun hne => hne hholds
  · intro h row hrow
    by_cases hholds : row.2.holds = some p
    · exact .inl (h row.1 row.2 (Table.lookup_eq_some.mpr hrow) hholds)
    · exact .inr hholds

lemma Ok.setTx (h : s.Ok) (htx : TxOk s.db tx)
    (hfree : ∀ p, tx.holds = some p → s.planFree id p = true) : (s.setTx id tx).Ok where
  db := h.db
  locks i j ti tj p hi hj hholds hholds' := by
    obtain ⟨rfl, rfl⟩ | ⟨-, hiold⟩ := Table.lookup_insert_cases hi
    · obtain ⟨rfl, -⟩ | ⟨-, hjold⟩ := Table.lookup_insert_cases hj
      · rfl
      · exact (planFree_iff.mp (hfree p hholds) j tj hjold hholds').symm
    · obtain ⟨rfl, rfl⟩ | ⟨-, hjold⟩ := Table.lookup_insert_cases hj
      · exact planFree_iff.mp (hfree p hholds') i ti hiold hholds
      · exact h.locks i j ti tj p hiold hjold hholds hholds'
  txs i t hi := by
    obtain ⟨-, rfl⟩ | ⟨-, hi⟩ := Table.lookup_insert_cases hi
    · exact htx
    · exact h.txs i t hi
  cleaned := h.cleaned
  completed := h.completed
  fenced := h.fenced

lemma Ok.planFree (h : s.Ok) (hid : s.txs.lookup id = some tx) (hholds : tx.holds = some p) :
    s.planFree id p = true :=
  planFree_iff.mpr fun j tj hj hholds' => h.locks j id tj tx p hj hid hholds' hholds

lemma Ok.ended (h : s.Ok) (id : Nat) : (s.ended id).Ok where
  db := h.db
  locks i j ti tj p hi hj :=
    h.locks i j ti tj p (Table.lookup_erase_cases hi).2 (Table.lookup_erase_cases hj).2
  txs i t hi := h.txs i t (Table.lookup_erase_cases hi).2
  cleaned := h.cleaned
  completed := h.completed
  fenced := h.fenced

variable {db : Db} {op : ImportOp}

lemma Ok.committed (h : s.Ok) {event : Event}
    (hid : s.txs.lookup id = some tx) (hholds : tx.holds = some p) (hdb : db.Ok)
    (hquiet : ∀ q, q ≠ p → Quiet s.db db q)
    (hcleaned : .cleaned p ∈ event :: s.log → db.HasStatus p .cleaned)
    (hcompleted : .imported p (.updateImportPlan .completed) ∈ event :: s.log →
      db.HasStatus p .completed)
    (hevent : (∃ op, event = .imported p op ∧ .cleaned p ∉ s.log) ∨ event = .cleaned p) :
    (s.committed id db event).Ok where
  db := hdb
  locks i j ti tj p hi hj :=
    h.locks i j ti tj p (Table.lookup_erase_cases hi).2 (Table.lookup_erase_cases hj).2
  txs i t hi := by
    obtain ⟨hne, hi⟩ := Table.lookup_erase_cases hi
    refine (h.txs i t hi).quiet (fun q hq => hquiet q ?_) hdb.referential
    rintro rfl
    exact hne (h.locks i id t tx q hi hid hq hholds)
  cleaned q hq := by
    by_cases hqp : q = p
    · subst hqp
      exact hcleaned hq
    · refine (hquiet q hqp).hasStatus (h.cleaned q ?_)
      obtain heq | hq := List.mem_cons.mp hq
      · obtain ⟨op, rfl, -⟩ | rfl := hevent
        · cases heq
        · exact absurd (Event.cleaned.inj heq) hqp
      · exact hq
  completed q hq := by
    by_cases hqp : q = p
    · subst hqp
      exact hcompleted hq
    · refine (hquiet q hqp).hasStatus (h.completed q ?_)
      obtain heq | hq := List.mem_cons.mp hq
      · obtain ⟨op, rfl, -⟩ | rfl := hevent
        · exact absurd (Event.imported.inj heq).1 hqp
        · cases heq
      · exact hq
  fenced q := by
    refine (h.fenced q).cons fun op heq => ?_
    obtain ⟨op', rfl, hnot⟩ | rfl := hevent
    · obtain ⟨rfl, -⟩ := Event.imported.inj heq
      exact hnot
    · cases heq

lemma Ok.imported (h : s.Ok) (hid : s.txs.lookup id = some tx)
    (hholds : tx.holds = some p) (hrunning : s.db.HasStatus p .running) (hdb : db.Ok)
    (hquiet : ∀ q, q ≠ p → Quiet s.db db q)
    (hcompleted : op = .updateImportPlan .completed → db.HasStatus p .completed) :
    (s.committed id db (.imported p op)).Ok := by
  have hnot : Event.cleaned p ∉ s.log := fun hmem => by
    cases hrunning.unique (h.cleaned p hmem)
  refine h.committed hid hholds hdb hquiet (fun hmem => ?_) (fun hmem => ?_)
    (.inl ⟨op, rfl, hnot⟩)
  · obtain heq | hmem := List.mem_cons.mp hmem
    · cases heq
    · exact absurd hmem hnot
  · obtain heq | hmem := List.mem_cons.mp hmem
    · exact hcompleted (Event.imported.inj heq).2.symm
    · cases hrunning.unique (h.completed p hmem)

lemma Ok.cleanedPlan (h : s.Ok) (hid : s.txs.lookup id = some tx)
    (hholds : tx.holds = some p) (hstatus : s.db.Cleanable p) (hdb : db.Ok)
    (hquiet : ∀ q, q ≠ p → Quiet s.db db q) (hcleaned : db.HasStatus p .cleaned) :
    (s.committed id db (.cleaned p)).Ok := by
  refine h.committed hid hholds hdb hquiet (fun _ => hcleaned) (fun hmem => ?_) (.inr rfl)
  obtain heq | hmem := List.mem_cons.mp hmem
  · cases heq
  · obtain ⟨status, hhas, hne⟩ := hstatus
    exact absurd (hhas.unique (h.completed p hmem)) hne

/-! ## Steps -/

lemma Ok.insertPlan (h : s.Ok) (sourceFilter : Name) : (s.insertPlan sourceFilter).Ok := by
  have hquiet : ∀ p, p < s.db.nextPlan → Quiet s.db (s.insertPlan sourceFilter).db p := by
    intro p hp
    exact ⟨AList.lookup_insert_ne (Nat.ne_of_lt hp), fun _ hd => hd,
      fun _ row hrow himported => ⟨row, hrow, himported, rfl⟩, fun _ _ hbelow _ => hbelow⟩
  have hlt : ∀ {p status}, s.db.HasStatus p status → p < s.db.nextPlan := by
    rintro p status ⟨row, hrow, -⟩
    exact h.db.freshPlan p row hrow
  have hold : ∀ {p status}, (s.insertPlan sourceFilter).db.HasStatus p status →
      status ≠ .running → s.db.HasStatus p status := by
    rintro p status ⟨row, hrow, hstatus⟩ hne
    obtain ⟨-, rfl⟩ | ⟨-, hrow⟩ := Table.lookup_insert_cases hrow
    · exact absurd hstatus.symm hne
    · exact ⟨row, hrow, hstatus⟩
  refine ⟨?_, h.locks, fun i tx hi => ?_, fun p hp => ?_, fun p hp => ?_, h.fenced⟩
  · exact {
      freshDirectory := h.db.freshDirectory
      freshFile := h.db.freshFile
      freshPlan := fun q row hrow => by
        obtain ⟨rfl, -⟩ | ⟨-, hrow⟩ := Table.lookup_insert_cases hrow
        · exact Nat.lt_succ_self _
        · exact Nat.lt_succ_of_lt (h.db.freshPlan q row hrow)
      referential := h.db.referential
      hung := h.db.hung
      filed := h.db.filed
      clean := fun q hq => h.db.clean q (hold hq (by decide)) }
  · have htx := h.txs i tx hi
    refine htx.quiet (fun p hholds => ?_) h.db.referential
    obtain ⟨status, hstatus⟩ := htx.exists hholds
    exact hquiet p (hlt hstatus)
  · exact (hquiet p (hlt (h.cleaned p hp))).hasStatus (h.cleaned p hp)
  · exact (hquiet p (hlt (h.completed p hp))).hasStatus (h.completed p hp)

lemma Ok.begin (h : s.Ok) (htx : TxOk s.db tx) (hholds : tx.holds = none)
    (hstep : s.begin id tx = some s') : s'.Ok := by
  unfold State.begin at hstep
  split at hstep
  next =>
    cases hstep
    refine h.setTx htx fun p hp => ?_
    rw [hholds] at hp
    cases hp
  next => cases hstep

lemma hasStatus_of_fenceHolds {clock plan token : Nat}
    (h : fenceHolds db clock plan token = true) : db.HasStatus plan .running := by
  simp only [fenceHolds, Bool.and_eq_true, Option.any_eq_true, beq_iff_eq] at h
  obtain ⟨-, row, hrow, ⟨hstatus, -⟩, -⟩ := h
  exact ⟨row, hrow, hstatus⟩

lemma Ok.validate (h : s.Ok) (hstep : s.validate id tx = some s') : s'.Ok := by
  unfold State.validate at hstep
  split at hstep
  next plan token source op =>
    split at hstep
    next hfree =>
      split at hstep
      next hfence =>
        cases hstep
        refine h.setTx (hasStatus_of_fenceHolds hfence) fun p hp => ?_
        cases hp
        exact hfree
      next =>
        cases hstep
        exact h.ended id
    next => cases hstep
  next => cases hstep

lemma Ok.revalidate (h : s.Ok) (hid : s.txs.lookup id = some tx)
    (hstep : s.revalidate id tx = some s') : s'.Ok := by
  unfold State.revalidate at hstep
  split at hstep
  next plan token source op lease =>
    split at hstep
    next =>
      cases hstep
      have hrunning : s.db.HasStatus plan .running := h.txs id _ hid
      refine h.setTx hrunning fun p hp => ?_
      exact h.planFree hid hp
    next =>
      cases hstep
      exact h.ended id
  next => cases hstep

lemma Ok.probe (h : s.Ok) (hstep : s.probe id tx = some s') : s'.Ok := by
  unfold State.probe at hstep
  split at hstep
  next plan token source src dst =>
    split at hstep
    next =>
      cases hstep
      exact h.setTx trivial fun p hp => by cases hp
    next =>
      cases hstep
      exact h
  next => cases hstep

lemma Ok.setCleanup (h : s.Ok) {plan : Nat} {stage stage' : CleanupStage}
    (hid : s.txs.lookup id = some (.cleaning plan stage)) (hstage : stage ≠ .started)
    (hok : CleanupOk s.db plan stage') : (s.setTx id (.cleaning plan stage')).Ok := by
  refine h.setTx hok fun p hp => h.planFree hid ?_
  cases stage with
  | started => exact absurd rfl hstage
  | _ =>
    cases stage' with
    | started => cases hp
    | _ => exact hp

lemma Ok.lockPlan (h : s.Ok) (hstep : s.lockPlan id tx = some s') : s'.Ok := by
  unfold State.lockPlan at hstep
  split at hstep
  next plan =>
    split at hstep
    next =>
      cases hstep
      exact h.ended id
    next row hrow =>
      split at hstep
      next hfree =>
        cases hstep
        have hlocked : TxOk s.db (.cleaning plan .locked) := ⟨row.status, row, hrow, rfl⟩
        refine h.setTx hlocked fun p hp => ?_
        cases hp
        exact hfree
      next => cases hstep
  next => cases hstep

lemma status_of_claim {clock : Nat} {row : ImportPlan} {taken : Bool}
    (h : Import.claim clock row = some taken) : row.status ≠ .completed := by
  intro hstatus
  simp [Import.claim, hstatus] at h

lemma Ok.claim (h : s.Ok) (hid : s.txs.lookup id = some tx)
    (hstep : s.claim id tx = some s') : s'.Ok := by
  unfold State.claim at hstep
  split at hstep
  next plan =>
    split at hstep
    next =>
      cases hstep
      exact h.ended id
    next taken hclaim =>
      cases hstep
      obtain ⟨row, hrow, hclaim⟩ := Option.bind_eq_some_iff.mp hclaim
      exact h.setCleanup hid (by simp)
        ⟨row.status, ⟨row, hrow, rfl⟩, status_of_claim hclaim⟩
  next => cases hstep

lemma clean_of_rootNames_nil (h : s.db.Ok) (hroots : rootNames s.db.directories p = []) :
    s.db.Clean p := by
  have hnone : ∀ {name d}, likeRoot p name = true → ¬ Below s.db.directories name d := by
    intro name d hlike hbelow
    have hmem := hbelow.mem_rootNames hlike
    rw [hroots] at hmem
    cases hmem
  constructor
  · intro d hd
    obtain ⟨name, hlike, hbelow⟩ := h.hung p d hd
    exact hnone hlike hbelow
  · rintro f ⟨row, hrow, himported⟩
    obtain ⟨name, d, hlike, -, hbelow⟩ := h.filed p f row hrow himported
    exact hnone hlike hbelow

lemma hang_of_rootNames_singleton (h : s.db.Ok) {root : Name}
    (hroots : rootNames s.db.directories p = [root]) :
    s.db.DirectoriesHang p root ∧ s.db.FilesHang p root := by
  have honly : ∀ {name d}, likeRoot p name = true → Below s.db.directories name d →
      name = root := by
    intro name d hlike hbelow
    have hmem := hbelow.mem_rootNames hlike
    rw [hroots] at hmem
    exact List.mem_singleton.mp hmem
  constructor
  · intro d hd
    obtain ⟨name, hlike, hbelow⟩ := h.hung p d hd
    rwa [← honly hlike hbelow]
  · intro f row hrow himported
    obtain ⟨name, d, hlike, hdirectory, hbelow⟩ := h.filed p f row hrow himported
    refine ⟨d, hdirectory, ?_⟩
    rwa [← honly hlike hbelow]

lemma Ok.findRoot (h : s.Ok) (hid : s.txs.lookup id = some tx)
    (hstep : s.findRoot id tx = some s') : s'.Ok := by
  unfold State.findRoot at hstep
  split at hstep
  next plan taken =>
    have hcleanable : s.db.Cleanable plan := h.txs id _ hid
    split at hstep
    next hroots =>
      cases hstep
      exact h.setCleanup hid (by simp) ⟨hcleanable, clean_of_rootNames_nil h.db hroots⟩
    next name hroots =>
      cases hstep
      exact h.setCleanup hid (by simp) ⟨hcleanable, hang_of_rootNames_singleton h.db hroots⟩
    next =>
      cases hstep
      exact h.ended id
  next => cases hstep

lemma Ok.collectDirectories (h : s.Ok) (hid : s.txs.lookup id = some tx)
    (hstep : s.collectDirectories id tx = some s') : s'.Ok := by
  unfold State.collectDirectories at hstep
  split at hstep
  next plan taken =>
    cases hstep
    obtain ⟨hcleanable, hclean⟩ : s.db.Cleanable plan ∧ s.db.Clean plan := h.txs id _ hid
    exact h.setCleanup hid (by simp) ⟨hcleanable, fun d hd => absurd hd (hclean.1 d),
      fun f hf => absurd hf (hclean.2 f)⟩
  next plan taken name =>
    cases hstep
    obtain ⟨hcleanable, hdirectories, hfiles⟩ : s.db.Cleanable plan ∧
      s.db.DirectoriesHang plan name ∧ s.db.FilesHang plan name := h.txs id _ hid
    exact h.setCleanup hid (by simp)
      ⟨hcleanable, fun d hd => mem_collectDirectoryRows.mpr (hdirectories d hd), hfiles⟩
  next => cases hstep

lemma Ok.collectFiles (h : s.Ok) (hid : s.txs.lookup id = some tx)
    (hstep : s.collectFiles id tx = some s') : s'.Ok := by
  unfold State.collectFiles at hstep
  split at hstep
  next plan taken name directories =>
    cases hstep
    obtain ⟨hcleanable, hdirectories, hfiles⟩ : s.db.Cleanable plan ∧
      (∀ d, s.db.ImportedDirectory plan d → d ∈ directories) ∧
      s.db.FilesHang plan name := h.txs id _ hid
    refine h.setCleanup hid (by simp) ⟨hcleanable, hdirectories, ?_⟩
    rintro f ⟨row, hrow, himported⟩
    obtain ⟨d, hdirectory, hbelow⟩ := hfiles f row hrow himported
    exact mem_collectFileRows.mpr ⟨row, d, hrow, hdirectory, hbelow⟩
  next => cases hstep

lemma hasStatus_of_renew {lease : Nat} {status : PlanStatus}
    (h : (renew db p lease).HasStatus p status) : db.HasStatus p status := by
  obtain ⟨row, hrow, hstatus⟩ := h
  obtain ⟨row', hrow', rfl⟩ := Option.map_eq_some_iff.mp ((lookup_updatePlan _ p).symm.trans hrow)
  rw [if_pos rfl] at hstatus
  exact ⟨row', hrow', hstatus⟩

lemma Ok.importedRenewed (h : s.Ok) {lease : Nat}
    (hid : s.txs.lookup id = some tx) (hholds : tx.holds = some p)
    (hrunning : s.db.HasStatus p .running) (hdb : db.Ok) (hstatus : db.HasStatus p .running)
    (hquiet : ∀ q, q ≠ p → Quiet s.db db q) (hop : op ≠ .updateImportPlan .completed) :
    (s.committed id (renew db p lease) (.imported p op)).Ok := by
  refine h.imported hid hholds hrunning (hdb.updatePlan fun hcleaned => ?_)
    (fun q hne => (hquiet q hne).updatePlan hne _) fun heq => absurd heq hop
  cases hstatus.unique (hasStatus_of_renew hcleaned)

lemma Ok.commitImport (h : s.Ok) {plan token source : Nat}
    {stage : ImportStage} (hid : s.txs.lookup id = some (.importing plan token source op stage))
    (hstep : s.commitImport id plan source op stage = some s') : s'.Ok := by
  unfold State.commitImport at hstep
  split at hstep
  next => cases hstep
  next =>
    -- a confirmed adoption changes nothing but the log
    cases hstep
    have hended := h.ended id
    refine ⟨h.db, hended.locks, hended.txs, fun q hq => h.cleaned q ?_,
      fun q hq => h.completed q ?_, fun q => (h.fenced q).cons fun op heq => by cases heq⟩
    · exact (List.mem_cons.mp hq).resolve_left (by simp)
    · exact (List.mem_cons.mp hq).resolve_left (by simp)
  next lease =>
    have hrunning : s.db.HasStatus plan .running := h.txs id _ hid
    split at hstep
    next outcome =>
      cases hstep
      have hstatus : (setStatus s.db plan outcome lease).HasStatus plan outcome.status :=
        hasStatus_updatePlan hrunning fun _ => rfl
      refine h.imported hid rfl hrunning (h.db.updatePlan fun hcleaned => ?_)
        (fun q hne => (Quiet.refl s.db q).updatePlan hne _) fun heq => ?_
      · have := hstatus.unique hcleaned
        cases outcome <;> cases this
      · obtain rfl : outcome = .completed := ImportOp.updateImportPlan.inj heq
        exact hstatus
    next src dst =>
      split at hstep
      next =>
        cases hstep
        exact h.importedRenewed hid rfl hrunning h.db hrunning (fun q _ => .refl s.db q)
          (by simp)
      next => cases hstep
    next => cases hstep
  next lease =>
    have hrunning : s.db.HasStatus plan .running := h.txs id _ hid
    split at hstep
    next =>
      cases hstep
      exact h.ended id
    next db happly =>
      cases hstep
      obtain ⟨hdb, hstatus, hquiet⟩ := applyImport_ok h.db hrunning happly
      refine h.importedRenewed hid rfl hrunning hdb hstatus hquiet ?_
      rintro rfl
      cases happly

lemma Ok.commit (h : s.Ok) (hid : s.txs.lookup id = some tx)
    (hstep : s.commit id tx = some s') : s'.Ok := by
  unfold State.commit at hstep
  split at hstep
  next plan token source op stage => exact h.commitImport hid hstep
  next plan taken directories files =>
    obtain ⟨hcleanable, hdirectories, hfiles⟩ : s.db.Cleanable plan ∧
      (∀ d, s.db.ImportedDirectory plan d → d ∈ directories) ∧
      (∀ f, s.db.ImportedFile plan f → f ∈ files) := h.txs id _ hid
    simp only at hstep
    split at hstep
    next href =>
      cases hstep
      have href' : Referential (removeRows s.db directories files) := href
      obtain ⟨status, hstatus⟩ := hcleanable.exists
      refine h.cleanedPlan hid rfl hcleanable
        ((h.db.removeRows href').updatePlan fun _ => clean_removeRows hdirectories hfiles)
        (fun q hne => (quiet_removeRows href' q).updatePlan hne _) ?_
      exact hasStatus_updatePlan ((quiet_removeRows href' plan).hasStatus hstatus) fun _ => rfl
    next =>
      cases hstep
      exact h.ended id
  next => cases hstep

lemma Ok.step (h : s.Ok) {a : Action} (hstep : step s a = some s') : s'.Ok := by
  cases a with
  | tick milliseconds =>
    cases hstep
    exact ⟨h.db, h.locks, h.txs, h.cleaned, h.completed, h.fenced⟩
  | insertPlan sourceFilter =>
    unfold Fencing.step at hstep
    simp only at hstep
    split at hstep
    next => cases hstep
    next =>
      cases hstep
      exact h.insertPlan sourceFilter
  | start id plan token source op =>
    have htx : TxOk s.db (.importing plan token source op .started) := trivial
    exact h.begin htx rfl hstep
  | startCleanup id plan =>
    have htx : TxOk s.db (.cleaning plan .started) := trivial
    exact h.begin htx rfl hstep
  | probe id =>
    obtain ⟨tx, -, hstep⟩ := Option.bind_eq_some_iff.mp hstep
    exact h.probe hstep
  | validate id =>
    obtain ⟨tx, -, hstep⟩ := Option.bind_eq_some_iff.mp hstep
    exact h.validate hstep
  | revalidate id =>
    obtain ⟨tx, hid, hstep⟩ := Option.bind_eq_some_iff.mp hstep
    exact h.revalidate hid hstep
  | lockPlan id =>
    obtain ⟨tx, -, hstep⟩ := Option.bind_eq_some_iff.mp hstep
    exact h.lockPlan hstep
  | claim id =>
    obtain ⟨tx, hid, hstep⟩ := Option.bind_eq_some_iff.mp hstep
    exact h.claim hid hstep
  | findRoot id =>
    obtain ⟨tx, hid, hstep⟩ := Option.bind_eq_some_iff.mp hstep
    exact h.findRoot hid hstep
  | collectDirectories id =>
    obtain ⟨tx, hid, hstep⟩ := Option.bind_eq_some_iff.mp hstep
    exact h.collectDirectories hid hstep
  | collectFiles id =>
    obtain ⟨tx, hid, hstep⟩ := Option.bind_eq_some_iff.mp hstep
    exact h.collectFiles hid hstep
  | commit id =>
    obtain ⟨tx, hid, hstep⟩ := Option.bind_eq_some_iff.mp hstep
    exact h.commit hid hstep
  | abort id =>
    obtain ⟨tx, -, hstep⟩ := Option.bind_eq_some_iff.mp hstep
    cases hstep
    exact h.ended id

/-- A database before its first fenced import: the files and directories there
are nobody's import, the sequences are ahead of the tables, and no transaction
runs.  There may be plans of before. -/
structure Fresh (s : State) : Prop where
  directories : ∀ d row, s.db.directories.lookup d = some row →
    d < s.db.nextDirectory ∧ row.importedBy = none
  files : ∀ f row, s.db.files.lookup f = some row → f < s.db.nextFile ∧ row.importedBy = none
  referential : Referential s.db
  plans : ∀ p row, s.db.plans.lookup p = some row → p < s.db.nextPlan
  txs : s.txs = ∅
  log : s.log = []

lemma Fresh.ok (h : s.Fresh) : s.Ok := by
  have htxs : ∀ {i tx}, s.txs.lookup i ≠ some tx := by simp [h.txs]
  have hfile : ∀ p f row, s.db.files.lookup f = some row → row.importedBy ≠ some p := by
    intro p f row hrow
    simp [(h.files f row hrow).2]
  have hclean : ∀ p, s.db.Clean p := by
    intro p
    constructor
    · rintro d ⟨row, hrow, himported⟩
      rw [(h.directories d row hrow).2] at himported
      cases himported
    · rintro f ⟨row, hrow, himported⟩
      exact hfile p f row hrow himported
  have hdb : s.db.Ok := {
    freshDirectory := fun d row hrow => (h.directories d row hrow).1
    freshFile := fun f row hrow => (h.files f row hrow).1
    freshPlan := h.plans
    referential := h.referential
    hung := fun p d hd => absurd hd ((hclean p).1 d)
    filed := fun p f row hrow himported => absurd himported (hfile p f row hrow)
    clean := fun p _ => hclean p }
  refine ⟨hdb, fun i _ ti _ _ hi => absurd hi htxs, fun i tx hi => absurd hi htxs,
    by simp [h.log], by simp [h.log], fun p later earlier heq => ?_⟩
  rw [h.log] at heq
  simp at heq

/--
Whatever fenced transactions, cleanups and waits interleave: after a cleanup of
a plan has committed, no transaction that passed a fence check of the plan
commits; a plan that was completed is never cleaned; and once a plan has been
cleaned, no file or directory that it imported is in the database.
-/
theorem cleaned_plan_stays_clean (hfresh : s.Fresh) (trace : List Action)
    (hrun : run step s trace = some s') (p : Nat) :
    (∀ later earlier, s'.log = later ++ .cleaned p :: earlier → ∀ op, .imported p op ∉ later) ∧
      (.imported p (.updateImportPlan .completed) ∈ s'.log → .cleaned p ∉ s'.log) ∧
      (.cleaned p ∈ s'.log → s'.db.Clean p) := by
  have hok : s'.Ok :=
    run_invariant_of_step (fun _ _ _ h hstep => h.step hstep) hfresh.ok hrun
  refine ⟨hok.fenced p, fun hcompleted hcleaned => ?_, fun hcleaned => ?_⟩
  · cases (hok.completed p hcompleted).unique (hok.cleaned p hcleaned)
  · exact hok.db.clean p (hok.cleaned p hcleaned)

def empty : State := ⟨0, ⟨∅, ∅, ∅, 1, 1, 1⟩, ∅, []⟩

def fenced (id : Nat) (op : ImportOp) : List Action :=
  [.start id 1 1 1 op, .validate id, .revalidate id, .commit id]

/-- An import of two equal files.  The last adoption is replayed because the
answer to its `COMMIT` was lost, and is still open when the plan, whose lease
has expired, is cleaned. -/
def replayedAdoption : List Action :=
  [.insertPlan ['s']] ++ fenced 1 (.createDirectory none (importRootName 1 1)) ++
    fenced 2 (.createFile 1 ['a'] 10) ++ fenced 3 (.persistFileBlocksFromPath 1 5 10) ++
    fenced 4 (.createFile 1 ['b'] 11) ++ fenced 5 (.adoptSourceDataObject 1 2) ++
    [.start 6 1 1 1 (.adoptSourceDataObject 1 2), .probe 6, .tick 60001, .startCleanup 7 1,
      .lockPlan 7, .claim 7, .findRoot 7, .collectDirectories 7, .collectFiles 7, .commit 7,
      .commit 6]

lemma fresh_empty : empty.Fresh where
  directories _ _ hrow := by cases hrow
  files _ _ hrow := by cases hrow
  referential := ⟨fun _ hrow => (List.not_mem_nil hrow).elim,
    fun _ hrow => (List.not_mem_nil hrow).elim⟩
  plans _ _ hrow := by cases hrow
  txs := rfl
  log := rfl

theorem cleaned_plan_stays_clean_replayed :
    ∃ s, run step empty replayedAdoption = some s ∧ .cleaned 1 ∈ s.log ∧
      (∀ later earlier, s.log = later ++ .cleaned 1 :: earlier →
        ∀ op, .imported 1 op ∉ later) ∧
      (.imported 1 (.updateImportPlan .completed) ∈ s.log → .cleaned 1 ∉ s.log) ∧
      (.cleaned 1 ∈ s.log → s.db.Clean 1) :=
  ⟨_, rfl, by decide, cleaned_plan_stays_clean fresh_empty replayedAdoption rfl 1⟩

/-- In every interleaving one transaction at a time is past the fence of a plan, what a plan
imported hangs below a directory named as its root, and no row names a parent that is gone. -/
theorem imported_rows_hang (hfresh : s.Fresh) (trace : List Action)
    (hrun : run step s trace = some s') :
    s'.db.Ok ∧ ∀ i j ti tj p, s'.txs.lookup i = some ti → s'.txs.lookup j = some tj →
      ti.holds = some p → tj.holds = some p → i = j := by
  have hok : s'.Ok := run_invariant_of_step (fun _ _ _ h hstep => h.step hstep) hfresh.ok hrun
  exact ⟨hok.db, hok.locks⟩

theorem imported_rows_hang_adopted :
    ∃ s, run step empty (replayedAdoption.take 13) = some s ∧ s.db.ImportedFile 1 1 ∧ s.db.Ok :=
  ⟨_, rfl, ⟨_, rfl, rfl⟩, (imported_rows_hang fresh_empty (replayedAdoption.take 13) rfl).1⟩

/-- The replayed adoption finds its result in place, does not come to a fence
check, and commits after the cleanup. -/
theorem confirmation_after_cleanup :
    ∃ s later earlier, run step empty replayedAdoption = some s ∧
      s.log = later ++ .cleaned 1 :: earlier ∧ .confirmed 1 ∈ later :=
  ⟨_, [.confirmed 1], _, rfl, rfl, List.mem_singleton_self _⟩

end State

end Fod.Import.Fencing
