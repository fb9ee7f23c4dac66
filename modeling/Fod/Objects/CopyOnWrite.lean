import Fod.Objects.Counts

/-!
# Copy on write under interleaving

The count of an object is read without a lock, so transactions on several files of
one object can all decide to leave it.  As long as one file stays, and no file is
deleted while an adoption uses it, every committed state counts its objects rightly
and a write changes no other file.
-/

namespace Fod.Objects

open Fod.Data

def Tx.leaves (o : Nat) (tx : Tx) : Bool := tx.plan.bind Plan.released == some (o, .touch)

def State.leavers (s : State) (o : Nat) : Nat :=
  s.txs.sumWith fun _ tx => if tx.leaves o then 1 else 0

def decidedObject (s : State) : Action → Option Nat
  | .decide id => do
    let tx ← s.txs.lookup id
    match tx.transaction with
    | .adoptSourceDataObject _ _ => none
    | transaction => (s.db.files.lookup transaction.file).map FileRow.dataObject
  | .count id => do
    let tx ← s.txs.lookup id
    match tx.plan with
    | some (.adopt _ _ _ _ old none) => some old
    | _ => none
  | _ => none

/-- A running adoption does not use the file, or uses it as its source and has no
other file to share the object with. -/
def Tx.spares (db : Db) (f o : Nat) (tx : Tx) : Bool :=
  match tx.plan with
  | some (.adopt src dst _ _ _ _) => dst != f && (src != f || decide (db.references o ≤ 1))
  | _ => true

def Tx.removed (tx : Tx) : Option (Nat × Nat) :=
  match tx.plan with
  | some (.remove f o _) => some (f, o)
  | _ => none

/-- If others are about to leave an object, a step that decides on it leaves it at
least one file; and no deletion commits under an adoption that uses the file. -/
def Guard (s : State) (a : Action) : Prop :=
  (∀ o ∈ decidedObject s a, s.leavers o = 0 ∨ s.leavers o + 1 < s.db.references o) ∧
    match a with
    | .commit id => ∀ removed ∈ (s.txs.lookup id).bind Tx.removed,
        ∀ row ∈ s.txs.entries, row.2.spares s.db removed.1 removed.2
    | _ => True

instance (s : State) (a : Action) : Decidable (Guard s a) :=
  have : Decidable (match a with
      | .commit id => ∀ removed ∈ (s.txs.lookup id).bind Tx.removed,
          ∀ row ∈ s.txs.entries, row.2.spares s.db removed.1 removed.2
      | _ => True) := by
    cases a <;> infer_instance
  inferInstanceAs (Decidable (_ ∧ _))

def Held (db : Db) (tx : Tx) (f : Nat) : Prop :=
  .fileRow f ∈ tx.locks ∧ (db.files.lookup f).isSome

def PlanOk (db : Db) (tx : Tx) : Plan → Prop
  | .inPlace f _ o _ =>
    .write f ∈ tx.locks ∧
      (∀ row, db.files.lookup f = some row → row.dataObject = o ∧
        ∀ g row', db.files.lookup g = some row' → row'.dataObject = o → g = f) ∧
      (1 < tx.executed → Held db tx f)
  | .swap f _ o _ _ =>
    .write f ∈ tx.locks ∧ (∀ row, db.files.lookup f = some row → row.dataObject = o) ∧
      (0 < tx.executed → Held db tx f)
  | .adopt src dst _ o old _ =>
    (.write src ∈ tx.locks ∧ .write dst ∈ tx.locks ∧ o ≠ old ∧
      (1 < tx.executed → .fileRow dst ∈ tx.locks)) ∧
      (∃ row, db.files.lookup dst = some row ∧ row.dataObject = old) ∧
      ((∃ row, db.files.lookup src = some row ∧ row.dataObject = o) ∨
        (db.objects.lookup o = none ∧ o < db.nextObject))
  | .remove f o _ =>
    .fileRow f ∈ tx.locks ∧ ∃ row, db.files.lookup f = some row ∧ row.dataObject = o

structure Consistent (s : State) : Prop where
  counted : Counted s.db
  exclusive : ∀ i j ti tj l, s.txs.lookup i = some ti → s.txs.lookup j = some tj →
    l ∈ ti.locks → l ∈ tj.locks → i = j
  held : ∀ id tx, s.txs.lookup id = some tx → tx.transaction.locks ⊆ tx.locks
  file : ∀ id tx plan, s.txs.lookup id = some tx → tx.plan = some plan →
    plan.file = tx.transaction.file
  plans : ∀ id tx plan, s.txs.lookup id = some tx → tx.plan = some plan → PlanOk s.db tx plan
  leavers : ∀ o, s.leavers o = 0 ∨ s.leavers o < s.db.references o

section Steps

variable {s s' : State} {id : Nat} {tx tx' : Tx}

variable {db : Db} {o : Nat} {plan : Plan} {row : FileRow}

lemma consistent_idle (h : Counted db) : Consistent (State.idle db) where
  counted := h
  exclusive _ _ _ _ _ hi := by simp [State.idle] at hi
  held _ _ hi := by simp [State.idle] at hi
  file _ _ _ hi := by simp [State.idle] at hi
  plans _ _ _ hi := by simp [State.idle] at hi
  leavers _ := .inl rfl

lemma leavers_eq (s : State) (id o : Nat) :
    s.leavers o = ((s.txs.lookup id).elim 0 fun tx => if tx.leaves o then 1 else 0) +
      (s.ended id).leavers o := Table.sumWith_erase

lemma leavers_setTx (s : State) (id o : Nat) (tx : Tx) :
    (s.setTx id tx).leavers o = (if tx.leaves o then 1 else 0) + (s.ended id).leavers o :=
  Table.sumWith_insert tx

lemma Consistent.ended (h : Consistent s) (id : Nat) : Consistent (s.ended id) where
  counted := h.counted
  exclusive i j ti tj l hi hj :=
    h.exclusive i j ti tj l (Table.lookup_erase_cases hi).2 (Table.lookup_erase_cases hj).2
  held i ti hi := h.held i ti (Table.lookup_erase_cases hi).2
  file i ti plan hi := h.file i ti plan (Table.lookup_erase_cases hi).2
  plans i ti plan hi := h.plans i ti plan (Table.lookup_erase_cases hi).2
  leavers o := by
    have hle := leavers_eq s id o
    have hold := h.leavers o
    change _ ∨ _ < s.db.references o
    omega

lemma not_held_of_free {l : Lock} (hfree : s.free id l = true) {j : Nat} {tj : Tx}
    (hj : s.txs.lookup j = some tj) (hl : l ∈ tj.locks) : j = id := by
  have hall := List.all_eq_true.mp hfree ⟨j, tj⟩ (Table.lookup_eq_some.mp hj)
  by_contra hne
  simp [hne, hl] at hall

lemma Consistent.setTx (h : Consistent s)
    (hlocks : ∀ l ∈ tx'.locks, (∃ tx, s.txs.lookup id = some tx ∧ l ∈ tx.locks) ∨ s.free id l = true)
    (hheld : tx'.transaction.locks ⊆ tx'.locks)
    (hfile : ∀ plan, tx'.plan = some plan → plan.file = tx'.transaction.file)
    (hplan : ∀ plan, tx'.plan = some plan → PlanOk s.db tx' plan)
    (hleavers : ∀ o, tx'.leaves o = true → (∃ tx, s.txs.lookup id = some tx ∧ tx.leaves o = true) ∨
        (s.leavers o + 1 < s.db.references o)) : Consistent (s.setTx id tx') where
  counted := h.counted
  exclusive i j ti tj l hi hj hli hlj := by
    have hother : ∀ k tk, k ≠ id → s.txs.lookup k = some tk → l ∈ tk.locks → l ∉ tx'.locks := by
      intro k tk hk htk hl hl'
      rcases hlocks l hl' with ⟨tx, htx, hmem⟩ | hfree
      · exact hk (h.exclusive k id tk tx l htk htx hl hmem)
      · exact hk (not_held_of_free hfree htk hl)
    rcases Table.lookup_insert_cases hi with ⟨hid, rfl⟩ | ⟨hne, hold⟩
    · rcases Table.lookup_insert_cases hj with ⟨hjd, rfl⟩ | ⟨hne', hold'⟩
      · rw [hid, hjd]
      · exact absurd hli (hother j tj hne' hold' hlj)
    · rcases Table.lookup_insert_cases hj with ⟨-, rfl⟩ | ⟨-, hold'⟩
      · exact absurd hlj (hother i ti hne hold hli)
      · exact h.exclusive i j ti tj l hold hold' hli hlj
  held := Table.forall_insert hheld h.held
  file i ti plan := Table.forall_insert (hfile plan) (fun j tj => h.file j tj plan) i ti
  plans i ti plan := Table.forall_insert (hplan plan) (fun j tj => h.plans j tj plan) i ti
  leavers o := by
    have hsum := leavers_eq s id o
    have hold := h.leavers o
    rw [leavers_setTx]
    change _ ∨ _ < s.db.references o
    by_cases hleaves : tx'.leaves o = true
    · rw [if_pos hleaves]
      rcases hleavers o hleaves with ⟨tx, htx, hbefore⟩ | hroom
      · simp only [htx, Option.elim_some, hbefore, if_true] at hsum
        omega
      · omega
    · rw [if_neg hleaves]
      omega

/-! ### Decisions -/

lemma fileDataObjectInfo_eq_some {f o : Nat} {object : DataObject}
    (h : db.fileDataObjectInfo f = some (o, object)) :
    ∃ row, db.files.lookup f = some row ∧ row.dataObject = o ∧ db.objects.lookup o = some object := by
  simp only [Db.fileDataObjectInfo, Option.bind_eq_bind, Option.bind_eq_some_iff,
    Option.pure_def, Option.some.injEq, Prod.mk.injEq] at h
  obtain ⟨row, hrow, object', hobject, rfl, rfl⟩ := h
  exact ⟨row, hrow, rfl, hobject⟩

structure Decision (db : Db) (tx : Tx) (plan : Plan) : Prop where
  file : plan.file = tx.transaction.file
  ok : PlanOk db { tx with plan := some plan, executed := 0 } plan
  leaves : ∀ o, plan.released = some (o, .touch) → 2 ≤ db.references o ∧
    ∃ row, db.files.lookup plan.file = some row ∧ row.dataObject = o

lemma Counted.two_le (h : Counted db) {object : DataObject}
    (hobject : db.objects.lookup o = some object) (hcount : ¬object.referenceCount ≤ 1) :
    2 ≤ db.references o := by
  have := (h.counted o object hobject).1
  omega

lemma decision_writeTarget (h : Counted s.db) {f size : Nat} {preferReplacement : Bool}
    {rows : List BlockRow} (hfile : tx.transaction.file = f) (hlock : .write f ∈ tx.locks)
    (hdecide : dataObjectWriteTarget s.db f size preferReplacement rows = some plan) :
    Decision s.db tx plan := by
  simp only [dataObjectWriteTarget, Option.bind_eq_bind, Option.bind_eq_some_iff, Prod.exists] at hdecide
  obtain ⟨o, object, hinfo, hdecide⟩ := hdecide
  obtain ⟨row, hrow, ho, hobject⟩ := fileDataObjectInfo_eq_some hinfo
  have hnames : ∀ row', s.db.files.lookup f = some row' → row'.dataObject = o := by
    intro row' hrow'
    rw [hrow] at hrow'
    cases hrow'
    exact ho
  split at hdecide
  · cases hdecide
    refine ⟨hfile.symm, ⟨hlock, hnames, by simp⟩, ?_⟩
    intro o' hreleased
    obtain ⟨rfl, hrelease⟩ := Prod.mk.inj (Option.some.inj hreleased)
    refine ⟨h.two_le hobject fun hle => ?_, row, hrow, ho⟩
    simp [releaseOf, hle] at hrelease
  · split at hdecide
    next hle =>
      cases hdecide
      refine ⟨hfile.symm, ⟨hlock, fun row' hrow' => ⟨hnames row' hrow', ?_⟩, by simp⟩, ?_⟩
      · intro g row'' hrow'' hsame
        have hone : s.db.references row.dataObject ≤ 1 := by
          rw [ho, ← (h.counted o object hobject).1]
          exact hle
        exact Db.eq_of_references_le_one hone hrow hrow'' (hsame.trans ho.symm)
      · intro o' hreleased
        cases hreleased
    next hle =>
      cases hdecide
      refine ⟨hfile.symm, ⟨hlock, hnames, by simp⟩, ?_⟩
      intro o' hreleased
      obtain ⟨rfl, -⟩ := Prod.mk.inj (Option.some.inj hreleased)
      exact ⟨h.two_le hobject hle, row, hrow, ho⟩

lemma decision_of_decide (h : Counted s.db) (hlocks : tx.transaction.locks ⊆ tx.locks)
    (hdecide : tx.transaction.decide s.db = some plan) : Decision s.db tx plan := by
  cases htransaction : tx.transaction with
  | persistFileBlocks f size preferReplacement rows =>
    rw [htransaction] at hdecide hlocks
    exact decision_writeTarget h (by rw [htransaction]; rfl) (hlocks (by simp [Transaction.locks]))
      hdecide
  | punchHoleKeepSize f rows =>
    rw [htransaction] at hdecide hlocks
    obtain ⟨size, -, hdecide⟩ := Option.bind_eq_some_iff.mp hdecide
    exact decision_writeTarget h (by rw [htransaction]; rfl) (hlocks (by simp [Transaction.locks]))
      hdecide
  | adoptSourceDataObject src dst =>
    rw [htransaction] at hdecide hlocks
    obtain ⟨srcRow, hsrc, hdecide⟩ := Option.bind_eq_some_iff.mp hdecide
    obtain ⟨dstRow, hdst, hdecide⟩ := Option.bind_eq_some_iff.mp hdecide
    split at hdecide
    · cases hdecide
    · split at hdecide
      · cases hdecide
      next hne =>
        cases hdecide
        refine ⟨by rw [htransaction]; rfl, ⟨⟨?_, ?_, ?_, by simp⟩, ⟨dstRow, hdst, rfl⟩,
          .inl ⟨srcRow, hsrc, rfl⟩⟩, ?_⟩
        · exact hlocks (by simp [Transaction.locks])
        · exact hlocks (by simp [Transaction.locks])
        · exact fun heq => hne (.inr heq)
        · intro o hreleased
          cases hreleased
  | removePrimaryFile f =>
    rw [htransaction] at hdecide hlocks
    obtain ⟨⟨o, object⟩, hinfo, hdecide⟩ := Option.bind_eq_some_iff.mp hdecide
    obtain ⟨row, hrow, ho, hobject⟩ := fileDataObjectInfo_eq_some hinfo
    cases hdecide
    refine ⟨by rw [htransaction]; rfl, ⟨hlocks (by simp [Transaction.locks]), row, hrow, ho⟩, ?_⟩
    intro o' hreleased
    obtain ⟨rfl, hrelease⟩ := Prod.mk.inj (Option.some.inj hreleased)
    refine ⟨h.two_le hobject fun hle => ?_, row, hrow, ho⟩
    simp [releaseOf, hle] at hrelease

lemma leaves_iff (hplan : tx.plan = some plan) :
    tx.leaves o = true ↔ plan.released = some (o, .touch) := by
  simp [Tx.leaves, hplan]

lemma decidedObject_decide
    (htx : s.txs.lookup id = some tx) (hdecide : tx.transaction.decide s.db = some plan)
    (hreleased : plan.released = some (o, .touch))
    (hrow : s.db.files.lookup tx.transaction.file = some row) (ho : row.dataObject = o) :
    decidedObject s (.decide id) = some o := by
  simp only [decidedObject, htx, Option.bind_eq_bind, Option.bind_some]
  split
  next src dst htransaction =>
    rw [htransaction] at hdecide
    obtain ⟨srcRow, -, hdecide⟩ := Option.bind_eq_some_iff.mp hdecide
    obtain ⟨dstRow, -, hdecide⟩ := Option.bind_eq_some_iff.mp hdecide
    split at hdecide
    · cases hdecide
    · split at hdecide
      · cases hdecide
      · cases hdecide
        cases hreleased
  next => rw [hrow, Option.map_some, ho]

lemma Consistent.decide (h : Consistent s) (hguard : Guard s (.decide id))
    (htx : s.txs.lookup id = some tx) (hdecide : tx.transaction.decide s.db = some plan) :
    Consistent (s.setTx id { tx with plan := some plan, executed := 0 }) := by
  have hdecision := decision_of_decide h.counted (h.held id tx htx) hdecide
  refine h.setTx (fun l hl => .inl ⟨tx, htx, hl⟩) (h.held id tx htx) ?_ ?_ ?_
  · intro plan' hplan'
    cases hplan'
    exact hdecision.file
  · intro plan' hplan'
    cases hplan'
    exact hdecision.ok
  · intro o hleaves
    have hreleased := (leaves_iff rfl).mp hleaves
    obtain ⟨htwo, row, hrow, ho⟩ := hdecision.leaves o hreleased
    rw [hdecision.file] at hrow
    have hroom := hguard.1 o (decidedObject_decide htx hdecide hreleased hrow ho)
    exact .inr (by omega)

lemma PlanOk.exec {w : Write} (h : PlanOk db tx plan)
    (hw : plan.writes[tx.executed]? = some w) (hfails : w.fails (view db plan tx.executed) = false) :
    PlanOk db { tx with locks := w.rowLock.toList ++ tx.locks, executed := tx.executed + 1 } plan := by
  have hmem : ∀ {l}, l ∈ tx.locks → l ∈ w.rowLock.toList ++ tx.locks :=
    fun hl => List.mem_append_right _ hl
  cases plan with
  | inPlace f size o rows =>
    obtain ⟨hlock, hnames, hheld⟩ := h
    refine ⟨hmem hlock, hnames, fun hexecuted => ?_⟩
    have hone : tx.executed = 1 := by
      have hlt : tx.executed < 2 := (List.getElem?_eq_some_iff.mp hw).1
      dsimp only at hexecuted
      omega
    rw [hone] at hw hfails
    cases hw
    have hfiles : (view db (.inPlace f size o rows) 1).files = db.files := Db.files_updateObject _
    refine ⟨by simp [Write.rowLock], ?_⟩
    simpa [Write.fails, hfiles, Option.isSome_iff_ne_none] using hfails
  | swap f size o blocks r =>
    obtain ⟨hlock, hnames, hheld⟩ := h
    refine ⟨hmem hlock, hnames, fun _ => ?_⟩
    by_cases hexecuted : 0 < tx.executed
    · exact ⟨hmem (hheld hexecuted).1, (hheld hexecuted).2⟩
    · have hzero : tx.executed = 0 := by omega
      rw [hzero] at hw hfails
      cases hw
      refine ⟨by simp [Write.rowLock], ?_⟩
      simpa [Write.fails, view, Option.isSome_iff_ne_none] using hfails
  | adopt src dst size o old r =>
    obtain ⟨⟨hsrc, hdst, hne, hrow⟩, hrest⟩ := h
    refine ⟨⟨hmem hsrc, hmem hdst, hne, fun hexecuted => ?_⟩, hrest⟩
    by_cases hbefore : 1 < tx.executed
    · exact hmem (hrow hbefore)
    · have hone : tx.executed = 1 := by
        dsimp only at hexecuted
        omega
      rw [hone] at hw
      cases r with
      | none =>
        cases hw
        simp [Write.rowLock]
      | some r =>
        cases hw
        simp [Write.rowLock]
  | remove f o r => exact ⟨hmem h.1, h.2⟩

lemma Consistent.exec (h : Consistent s) (htx : s.txs.lookup id = some tx)
    (hplan : tx.plan = some plan) (hstep : execStep s id tx plan = some s') : Consistent s' := by
  obtain ⟨w, hw, hstep⟩ := Option.bind_eq_some_iff.mp hstep
  split at hstep
  next hfree =>
    split at hstep
    · cases hstep
      exact h.ended id
    next hfails =>
      cases hstep
      refine h.setTx ?_ (fun l hl => List.mem_append_right _ (h.held id tx htx hl))
        (fun plan' => h.file id tx plan' htx) ?_ ?_
      · intro l hl
        rcases List.mem_append.mp hl with hrow | hold
        · right
          rw [Option.mem_toList] at hrow
          simpa [hrow] using hfree
        · exact .inl ⟨tx, htx, hold⟩
      · intro plan' hplan'
        obtain rfl : plan = plan' := Option.some.inj (hplan.symm.trans hplan')
        exact (h.plans id tx plan htx hplan).exec hw (by simpa using hfails)
      · intro o hleaves
        exact .inl ⟨tx, htx, hleaves⟩
  · cases hstep

lemma references_view_adopt (src size : Nat) {dst o old : Nat}
    (hrow : db.files.lookup dst = some row) (hold : row.dataObject = old) (hne : o ≠ old) :
    (view db (.adopt src dst size o old none) 2).references old + 1 = db.references old := by
  let added := Write.apply db (.addReference o)
  have hadded : added.files = db.files := Db.files_updateObject _
  have hview : view db (.adopt src dst size o old none) 2 = added.setFile dst ⟨size, o⟩ :=
    updateFile_eq (hadded ▸ hrow) _
  have hset := Db.references_setFile (hadded ▸ hrow) ⟨size, o⟩ old
  rw [references_congr hadded] at hset
  simpa [hview, hold, hne] using hset

lemma Consistent.count (h : Consistent s) (hguard : Guard s (.count id))
    (htx : s.txs.lookup id = some tx) (hplan : tx.plan = some plan)
    (hstep : countStep s id tx plan = some s') : Consistent s' := by
  unfold countStep at hstep
  split at hstep
  next src dst size o old =>
    dsimp only at hstep
    split at hstep
    next hexecuted =>
      cases hstep
      have hok := h.plans id tx _ htx hplan
      have hfile := h.file id tx _ htx hplan
      have ⟨⟨_, _, hne, _⟩, ⟨row, hrow, hold⟩, _⟩ := hok
      refine h.setTx (fun l hl => .inl ⟨tx, htx, hl⟩) (h.held id tx htx) ?_ ?_ ?_
      · intro plan' hplan'
        cases hplan'
        exact hfile
      · intro plan' hplan'
        cases hplan'
        exact hok
      · intro o' hleaves
        have hreleased := (leaves_iff rfl).mp hleaves
        obtain ⟨rfl, hrelease⟩ := Prod.mk.inj (Option.some.inj hreleased)
        have hrefs := references_view_adopt src size hrow hold hne
        have hdecided : decidedObject s (.count id) = some old := by
          simp [decidedObject, htx, hplan]
        have hroom := hguard.1 old hdecided
        have hsome : (view s.db (.adopt src dst size o old none) tx.executed).references old ≠ 0 := by
          intro hzero
          simp [hzero] at hrelease
        rw [hexecuted] at hsome
        change (view s.db (.adopt src dst size o old none) 2).references old ≠ 0 at hsome
        exact .inr (by omega)
    · cases hstep
  · cases hstep

/-! ### Commits -/

lemma Consistent.two_le (h : Consistent s)
    (htx : s.txs.lookup id = some tx) (hplan : tx.plan = some plan)
    (hreleased : plan.released = some (o, .touch)) : 2 ≤ s.db.references o := by
  have hsum := leavers_eq s id o
  simp only [htx, Option.elim_some, (leaves_iff hplan).mpr hreleased, if_true] at hsum
  have := h.leavers o
  omega

lemma Consistent.effect (h : Consistent s) (htx : s.txs.lookup id = some tx)
    (hplan : tx.plan = some plan) (hcounted : plan.counted = true)
    (hexecuted : tx.executed = plan.writes.length) (href : Referential (view s.db plan tx.executed)) :
    Effect s.db (view s.db plan tx.executed) plan := by
  have hok := h.plans id tx plan htx hplan
  have htwo := fun o => h.two_le (o := o) htx hplan
  rw [hexecuted] at href ⊢
  cases plan with
  | inPlace f size o rows =>
    obtain ⟨-, hnames, hheld⟩ := hok
    obtain ⟨row, hrow⟩ := Option.isSome_iff_exists.mp (hheld (by simp [hexecuted, Plan.writes])).2
    exact effect_inPlace h.counted hrow (hnames row hrow).1 rows
  | swap f size o blocks r =>
    obtain ⟨-, hnames, hheld⟩ := hok
    obtain ⟨row, hrow⟩ := Option.isSome_iff_exists.mp (hheld (by simp [hexecuted, Plan.writes])).2
    exact effect_swap h.counted hrow (hnames row hrow) blocks (fun hr => htwo o (by rw [hr]; rfl)) href
  | adopt src dst size o old r =>
    obtain ⟨-, ⟨row, hrow, hold⟩, -⟩ := hok
    cases r with
    | none => cases hcounted
    | some r =>
      exact effect_adopt h.counted hrow hold (fun hr => htwo old (by rw [hr]; rfl)) href
  | remove f o r =>
    obtain ⟨-, row, hrow, ho⟩ := hok
    cases r with
    | delete => exact effect_remove h.counted hrow ho (fun hr => htwo o (by rw [hr]; rfl)) href
    | touch => exact effect_remove h.counted hrow ho (fun hr => htwo o (by rw [hr]; rfl)) href

lemma PlanOk.locked (h : PlanOk db tx plan)
    (hcounted : plan.counted = true) (hexecuted : tx.executed = plan.writes.length) :
    .fileRow plan.file ∈ tx.locks ∧
      (.write plan.file ∈ tx.locks ∨ ∃ f o r, plan = .remove f o r) := by
  cases plan with
  | inPlace f size o rows =>
    exact ⟨(h.2.2 (by simp [hexecuted, Plan.writes])).1, .inl h.1⟩
  | swap f size o blocks r =>
    exact ⟨(h.2.2 (by simp [hexecuted, Plan.writes])).1, .inl h.1⟩
  | adopt src dst size o old r =>
    cases r with
    | none => cases hcounted
    | some r => exact ⟨h.1.2.2.2 (by simp [hexecuted, Plan.writes]), .inl h.1.2.1⟩
  | remove f o r => exact ⟨h.1, .inr ⟨f, o, r, rfl⟩⟩

lemma exists_of_references_pos (h : 1 ≤ db.references o) :
    ∃ g row, db.files.lookup g = some row ∧ row.dataObject = o := by
  obtain ⟨g, hg⟩ := List.exists_mem_of_length_pos (Nat.lt_of_lt_of_le Nat.zero_lt_one h)
  obtain ⟨row, hrow, hsame⟩ := (Table.mem_keysWith _).mp hg
  exact ⟨g, row, hrow, beq_iff_eq.mp hsame⟩

lemma Effect.gone {db db' : Db} {f o : Nat} {r : Release}
    (h : Effect db db' (.remove f o r)) (hrow : db.files.lookup f = some row)
    (ho : row.dataObject = o) (hone : db.references o ≤ 1) : db'.objects.lookup o = none := by
  refine Option.eq_none_iff_forall_ne_some.mpr fun object hobject => ?_
  obtain ⟨g, row', hrow', hsame⟩ := exists_of_references_pos (h.counted.counted o object hobject).2
  have hg : g ≠ f := by
    rintro rfl
    cases h.object row' hrow'
  rw [h.others g hg] at hrow'
  subst ho
  exact hg (Db.eq_of_references_le_one hone hrow hrow' hsame)

lemma Consistent.other (h : Consistent s) {db' : Db}
    (htx : s.txs.lookup id = some tx) (hplan : tx.plan = some plan)
    (hcounted : plan.counted = true) (hexecuted : tx.executed = plan.writes.length)
    (heffect : Effect s.db db' plan) (hguard : Guard s (.commit id))
    {j : Nat} {tj : Tx} {other : Plan} (hj : s.txs.lookup j = some tj) (hne : j ≠ id)
    (hother : tj.plan = some other) : PlanOk db' tj other := by
  have hok := h.plans j tj other hj hother
  have hmine := h.plans id tx plan htx hplan
  obtain ⟨hrowLock, hwriteLock⟩ := hmine.locked hcounted hexecuted
  have happart : ∀ {l}, l ∈ tj.locks → l ∉ tx.locks :=
    fun hl hl' => hne (h.exclusive j id tj tx _ hj htx hl hl')
  have hrowOf : ∀ {f}, .fileRow f ∈ tj.locks → db'.files.lookup f = s.db.files.lookup f := by
    intro f hf
    refine heffect.others f ?_
    rintro rfl
    exact happart hf hrowLock
  -- a file whose write lock is held elsewhere is the same, or it was deleted
  have hwriteOf : ∀ {f}, .write f ∈ tj.locks → db'.files.lookup f = s.db.files.lookup f ∨
      (db'.files.lookup f = none ∧ ∃ o r, plan = .remove f o r) := by
    intro f hf
    by_cases hfile : f = plan.file
    · subst hfile
      rcases hwriteLock with hmine | ⟨f, o, r, rfl⟩
      · exact absurd hmine (happart hf)
      · refine .inr ⟨Option.eq_none_iff_forall_ne_some.mpr fun row hrow => ?_, o, r, rfl⟩
        cases heffect.object row hrow
    · exact .inl (heffect.others f hfile)
  have hheldOf : ∀ {f}, Held s.db tj f → Held db' tj f := by
    intro f hf
    exact ⟨hf.1, by rw [hrowOf hf.1]; exact hf.2⟩
  cases other with
  | inPlace f size o rows =>
    obtain ⟨hlock, hnames, hheld⟩ := hok
    refine ⟨hlock, fun row hrow => ?_, fun hlt => hheldOf (hheld hlt)⟩
    rcases hwriteOf hlock with hsame | ⟨hnone, -⟩
    · rw [hsame] at hrow
      obtain ⟨ho, honly⟩ := hnames row hrow
      refine ⟨ho, fun g row' hrow' hnamed => ?_⟩
      by_cases hfile : g = plan.file
      · -- the file that comes to the object would have to come from this one
        subst hfile
        have hobject := heffect.object row' hrow'
        rw [hnamed] at hobject
        cases plan with
        | inPlace f' size' o' rows' =>
          cases hobject
          have hheld' := hmine.2.2 (by simp [hexecuted, Plan.writes])
          obtain ⟨row₁, hrow₁⟩ := Option.isSome_iff_exists.mp hheld'.2
          exact honly f' row₁ hrow₁ (hmine.2.1 row₁ hrow₁).1
        | swap f' size' o' blocks r =>
          have hnext : s.db.nextObject = o := Option.some.inj hobject
          have hlt := h.counted.lt_next hrow
          omega
        | adopt src dst size' o' old r =>
          cases hobject
          rcases hmine.2.2 with ⟨srcRow, hsrc, hsrcObject⟩ | ⟨hnone, -⟩
          · obtain rfl := honly src srcRow hsrc hsrcObject
            exact absurd hmine.1.1 (happart hlock)
          · obtain ⟨object, hobject⟩ := h.counted.stored f row hrow
            rw [ho, hnone] at hobject
            cases hobject
        | remove f' o' r => cases hobject
      · rw [heffect.others g hfile] at hrow'
        exact honly g row' hrow' hnamed
    · rw [hnone] at hrow
      cases hrow
  | swap f size o blocks r =>
    obtain ⟨hlock, hnames, hheld⟩ := hok
    refine ⟨hlock, fun row hrow => ?_, fun hlt => hheldOf (hheld hlt)⟩
    rcases hwriteOf hlock with hsame | ⟨hnone, -⟩
    · exact hnames row (hsame ▸ hrow)
    · rw [hnone] at hrow
      cases hrow
  | adopt src dst size o old r =>
    obtain ⟨hlocks, ⟨row, hrow, hold⟩, hsource⟩ := hok
    have hspares : ∀ f o' r', plan = .remove f o' r' →
        dst ≠ f ∧ (src = f → s.db.references o' ≤ 1) := by
      intro f o' r' hremove
      have hremoved : (f, o') ∈ (s.txs.lookup id).bind Tx.removed := by
        simp [htx, Tx.removed, hplan, hremove]
      have hspares := hguard.2 (f, o') hremoved ⟨j, tj⟩ (Table.lookup_eq_some.mp hj)
      simp only [Tx.spares, hother, bne_iff_ne, Bool.and_eq_true, Bool.or_eq_true,
        decide_eq_true_eq] at hspares
      exact ⟨hspares.1, fun heq => hspares.2.resolve_left fun hne => hne heq⟩
    refine ⟨hlocks, ⟨row, ?_, hold⟩, ?_⟩
    · rcases hwriteOf hlocks.2.1 with hsame | ⟨-, o', r', hremove⟩
      · rw [hsame, hrow]
      · exact absurd rfl (hspares dst o' r' hremove).1
    · rcases hsource with ⟨srcRow, hsrc, hsrcObject⟩ | ⟨hnone, hlt⟩
      · rcases hwriteOf hlocks.1 with hsame | ⟨-, o', r', rfl⟩
        · exact .inl ⟨srcRow, hsame.trans hsrc, hsrcObject⟩
        · -- the deletion of the source took its object with it
          right
          have hone := (hspares src o' r' rfl).2 rfl
          obtain ⟨-, row₁, hrow₁, ho₁⟩ := hmine
          obtain rfl : row₁ = srcRow := Option.some.inj (hrow₁.symm.trans hsrc)
          obtain rfl : o' = o := ho₁.symm.trans hsrcObject
          exact ⟨heffect.gone hrow₁ ho₁ hone,
            (hsrcObject ▸ h.counted.lt_next hsrc).trans_le heffect.next⟩
      · exact .inr ⟨heffect.absent o hlt hnone, hlt.trans_le heffect.next⟩
  | remove f o r =>
    obtain ⟨hlock, row, hrow, ho⟩ := hok
    exact ⟨hlock, row, by rw [hrowOf hlock, hrow], ho⟩

lemma commitStep_cases (hstep : commitStep s id tx plan = some s') :
    plan.counted = true ∧ tx.executed = plan.writes.length ∧
      (s' = s.ended id ∨
        (Referential (view s.db plan tx.executed) ∧
          s' = { s with db := view s.db plan tx.executed }.ended id)) := by
  unfold commitStep at hstep
  split at hstep
  next hready =>
    refine ⟨hready.1, hready.2, ?_⟩
    dsimp only at hstep
    split at hstep
    next href => exact .inr ⟨href, (Option.some.inj hstep).symm⟩
    next => exact .inl (Option.some.inj hstep).symm
  · cases hstep

lemma Consistent.commit (h : Consistent s) (hguard : Guard s (.commit id))
    (htx : s.txs.lookup id = some tx) (hplan : tx.plan = some plan)
    (hstep : commitStep s id tx plan = some s') : Consistent s' := by
  obtain ⟨hcounted, hexecuted, rfl | ⟨href, rfl⟩⟩ := commitStep_cases hstep
  · exact h.ended id
  have heffect := h.effect htx hplan hcounted hexecuted href
  have hended := h.ended id
  refine ⟨heffect.counted, hended.exclusive, hended.held, hended.file, ?_, ?_⟩
  · intro j tj other hj hother
    obtain ⟨hne, hj⟩ := Table.lookup_erase_cases hj
    exact h.other htx hplan hcounted hexecuted heffect hguard hj hne hother
  · intro o
    change (s.ended id).leavers o = 0 ∨
      (s.ended id).leavers o < (view s.db plan tx.executed).references o
    have hsum := leavers_eq s id o
    have hold := h.leavers o
    have hrefs := heffect.references o
    simp only [htx, Option.elim_some] at hsum
    rcases hreleased : plan.released with _ | ⟨o', r⟩
    · simp only [hreleased, Option.map_none, reduceCtorEq, if_false] at hrefs
      omega
    · simp only [hreleased, Option.map_some, Option.some.injEq] at hrefs
      by_cases ho : o' = o
      · subst ho
        rw [if_pos rfl] at hrefs
        cases r with
        | touch =>
          rw [if_pos ((leaves_iff hplan).mpr hreleased)] at hsum
          omega
        | delete =>
          -- nobody has a deleted object, so it had no other file to be left by
          have hnone : Db.references (view s.db plan tx.executed) o' = 0 := by
            refine references_eq_zero_of fun g row hrow hsame => ?_
            obtain ⟨object, hobject⟩ := heffect.counted.stored g row hrow
            rw [hsame, heffect.deleted o' hreleased] at hobject
            cases hobject
          omega
      · rw [if_neg ho] at hrefs
        omega

lemma Consistent.step (a : Action) (h : Consistent s) (hguard : Guard s a)
    (hstep : step s a = some s') : Consistent s' := by
  cases a with
  | start id transaction =>
    simp only [Objects.step, Option.ite_none_right_eq_some, Option.some.injEq] at hstep
    obtain ⟨⟨-, hfree⟩, rfl⟩ := hstep
    refine h.setTx (fun l hl => .inr (List.all_eq_true.mp hfree l hl)) (List.Subset.refl _) ?_ ?_ ?_
    · intro plan hplan
      cases hplan
    · intro plan hplan
      cases hplan
    · intro o hleaves
      simp [Tx.leaves] at hleaves
  | decide id =>
    obtain ⟨tx, htx, hstep⟩ := Option.bind_eq_some_iff.mp hstep
    split at hstep
    · cases hstep
    · split at hstep
      · cases hstep
        exact h.ended id
      next plan hdecide =>
        cases hstep
        exact h.decide hguard htx hdecide
  | exec id =>
    obtain ⟨tx, htx, hstep⟩ := Option.bind_eq_some_iff.mp hstep
    obtain ⟨plan, hplan, hstep⟩ := Option.bind_eq_some_iff.mp hstep
    exact h.exec htx hplan hstep
  | count id =>
    obtain ⟨tx, htx, hstep⟩ := Option.bind_eq_some_iff.mp hstep
    obtain ⟨plan, hplan, hstep⟩ := Option.bind_eq_some_iff.mp hstep
    exact h.count hguard htx hplan hstep
  | commit id =>
    obtain ⟨tx, htx, hstep⟩ := Option.bind_eq_some_iff.mp hstep
    obtain ⟨plan, hplan, hstep⟩ := Option.bind_eq_some_iff.mp hstep
    exact h.commit hguard htx hplan hstep
  | rollback id =>
    obtain ⟨tx, htx, hstep⟩ := Option.bind_eq_some_iff.mp hstep
    cases hstep
    exact h.ended id

lemma consistent_run {trace : List Action} (h : Counted db)
    (hguard : GuardedRun.Along Objects.step Guard (State.idle db) trace)
    (hrun : GuardedRun.run Objects.step (State.idle db) trace = some s) : Consistent s :=
  GuardedRun.run_invariant (fun _ a _ hs hg => hs.step a hg) (consistent_idle h) hguard hrun

/-! ## Committed states -/

lemma Consistent.alone (h : Consistent s)
    (htx : s.txs.lookup id = some tx) (hplan : tx.plan = some plan)
    (hexecuted : tx.executed = plan.writes.length) (hchanged : plan.changed = some o) :
    (s.db.files.lookup plan.file).map FileRow.dataObject = some o ∧
      ∀ g row, s.db.files.lookup g = some row → row.dataObject = o → g = plan.file := by
  have hok := h.plans id tx plan htx hplan
  cases plan with
  | inPlace f size o' rows =>
    cases hchanged
    obtain ⟨-, hnames, hheld⟩ := hok
    obtain ⟨row, hrow⟩ := Option.isSome_iff_exists.mp (hheld (by simp [hexecuted, Plan.writes])).2
    exact ⟨by simp [Plan.file, hrow, (hnames row hrow).1], (hnames row hrow).2⟩
  | swap f size o' blocks r => cases hchanged
  | adopt src dst size o' old r => cases hchanged
  | remove f o' r => cases hchanged

lemma references_eq_one {f o : Nat} (hobject : (db.files.lookup f).map FileRow.dataObject = some o)
    (honly : ∀ g row, db.files.lookup g = some row → row.dataObject = o → g = f) :
    db.references o = 1 := by
  obtain ⟨row, hrow, ho⟩ := Option.map_eq_some_iff.mp hobject
  have hdelete := references_deleteFile hrow o
  have hrest : Db.references { db with files := db.files.erase f } o = 0 := by
    refine references_eq_zero_of fun g row' hrow' hsame => ?_
    obtain ⟨hne, hold⟩ := Table.lookup_erase_cases hrow'
    exact hne (honly g row' hold hsame)
  rw [if_pos ho] at hdelete
  omega

lemma Consistent.find_commit (h : Consistent s) {g : Nat}
    (htx : s.txs.lookup id = some tx) (hplan : tx.plan = some plan)
    (hstep : commitStep s id tx plan = some s') (hg : g ≠ plan.file) (b : Nat) :
    s'.db.find g b = s.db.find g b := by
  obtain ⟨hcounted, hexecuted, rfl | ⟨href, rfl⟩⟩ := commitStep_cases hstep
  · rfl
  have heffect := h.effect htx hplan hcounted hexecuted href
  refine Db.find_congr (heffect.others g hg) (fun row hrow => ?_) b
  obtain ⟨object, hobject⟩ := h.counted.stored g row hrow
  obtain ⟨object', hobject'⟩ := heffect.counted.stored g row ((heffect.others g hg).trans hrow)
  have hblocks : object'.blocks = object.blocks := by
    refine heffect.blocks _ object object' (fun hchanged => ?_) hobject hobject'
    exact hg ((h.alone htx hplan hexecuted hchanged).2 g row hrow rfl)
  change (AList.lookup _ (view s.db plan tx.executed).objects).map _ = _
  rw [hobject, hobject', Option.map_some, Option.map_some, hblocks]

end Steps

/-- In every run whose steps meet the condition, each file of a committed state has its
object, each object counts its files, of which there is at least one, an object that
changes in place has one file, and a commit changes no file but its own. -/
theorem objects_stay_counted {db : Db} {trace : List Action} {s : State} (hdb : Counted db)
    (hguard : GuardedRun.Along step Guard (State.idle db) trace)
    (hrun : GuardedRun.run step (State.idle db) trace = some s) :
    Counted s.db ∧
      ∀ id tx plan s', s.txs.lookup id = some tx → tx.plan = some plan →
        step s (.commit id) = some s' →
        (∀ o, plan.changed = some o → s.db.references o = 1 ∧
          (s.db.files.lookup tx.transaction.file).map FileRow.dataObject = some o) ∧
        ∀ g, g ≠ tx.transaction.file → ∀ b, s'.db.find g b = s.db.find g b := by
  have h : Consistent s := consistent_run hdb hguard hrun
  refine ⟨h.counted, fun id tx plan s' htx hplan hstep => ?_⟩
  have hcommit : commitStep s id tx plan = some s' := by
    simpa [step, htx, hplan] using hstep
  have hexecuted := (commitStep_cases hcommit).2.1
  rw [← h.file id tx plan htx hplan]
  refine ⟨fun o hchanged => ?_, fun g hg b => h.find_commit htx hplan hcommit hg b⟩
  obtain ⟨hobject, honly⟩ := h.alone htx hplan hexecuted hchanged
  exact ⟨references_eq_one hobject honly, hobject⟩

def sharedDb : Db :=
  ⟨AList.insert 1 ⟨4, 0⟩ (AList.insert 2 ⟨4, 0⟩ ∅), AList.insert 0 ⟨2, ∅⟩ ∅, 1⟩

lemma sharedDb_counted : Counted sharedDb where
  stored f row hrow := by
    have hzero : row.dataObject = 0 := by
      rcases Table.lookup_insert_cases hrow with ⟨-, rfl⟩ | ⟨-, hrow⟩
      · rfl
      · rcases Table.lookup_insert_cases hrow with ⟨-, rfl⟩ | ⟨-, hrow⟩
        · rfl
        · simp at hrow
    exact ⟨⟨2, ∅⟩, by rw [hzero]; rfl⟩
  counted := Table.forall_insert (by decide) (by simp)
  fresh := Table.forall_insert (by decide) (by simp)

def oneAfterOther : List Action :=
  [.start 1 (.persistFileBlocks 1 4 false [(0, some [7])]), .decide 1, .exec 1, .exec 1, .commit 1,
    .start 2 (.persistFileBlocks 2 4 false [(0, some [9])]), .decide 2, .exec 2, .exec 2]

theorem objects_stay_counted_oneAfterOther :
    ∃ s, GuardedRun.run step (State.idle sharedDb) oneAfterOther = some s ∧ Counted s.db := by
  have h : ∃ s, GuardedRun.run step (State.idle sharedDb) oneAfterOther = some s := ⟨_, rfl⟩
  obtain ⟨s, hs⟩ := h
  exact ⟨s, hs, (objects_stay_counted sharedDb_counted (by decide) hs).1⟩

/-- Both files leave the object: each transaction reads that the other file has it. -/
theorem both_files_leave_object :
    Counted sharedDb ∧
      ∃ s, GuardedRun.run step (State.idle sharedDb)
          [.start 1 (.persistFileBlocks 1 4 false [(0, some [7])]),
            .start 2 (.persistFileBlocks 2 4 false [(0, some [9])]), .decide 1, .decide 2,
            .exec 1, .exec 1, .commit 1, .exec 2, .exec 2, .commit 2] = some s ∧
        s.txs = ∅ ∧ (s.db.objects.lookup 0).map DataObject.referenceCount = some 0 ∧
        s.db.references 0 = 0 :=
  ⟨sharedDb_counted, _, rfl, rfl, rfl, rfl⟩

end Fod.Objects
