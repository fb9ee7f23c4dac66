import Fod.Index.Model

/-!
# Cleaning a source over a connection that is lost

`clean_source` sends its transaction statement by statement through the pool.  When the
connection is lost, some statements are sent again on a fresh connection, and there
no transaction is open.
-/

namespace Fod.Index.LostClean

/-- A row of `index_import_plan_entries`. -/
structure PlanEntry where
  file : Nat
  canonical : Option Nat

def PlanEntry.names (ids : List Nat) (e : PlanEntry) : Bool :=
  ids.contains e.file || e.canonical.any ids.contains

structure Database where
  catalogue : Catalogue
  entries : List PlanEntry

def Database.deleteEntries (db : Database) (ids : List Nat) : Database :=
  { db with entries := db.entries.filter fun e => !e.names ids }

/-- The entries of a file go with it, but a canonical file has to stay. -/
def Database.deleteFiles (db : Database) (ids : List Nat) : Option Database :=
  let entries := db.entries.filter fun e => !ids.contains e.file
  if entries.any fun e => e.canonical.any ids.contains then none
  else some ⟨deleteStaleRows db.catalogue ids, entries⟩

def Database.setDuplicateSets (db : Database) (sets : Table DuplicateKey DuplicateSet) : Database :=
  { db with catalogue := { db.catalogue with duplicateSets := sets } }

def Database.upsertIndexDuplicateSetsStaged (db : Database) (rows : List (DuplicateKey × DuplicateSet)) :
    Option Database :=
  if rows.all fun row => row.2.fits then
    some (db.setDuplicateSets (rows.foldl (fun t row => t.insert row.1 row.2) ∅))
  else none

/-- What `clean_source` asks the repository for.  `upsertSets` is a transaction of its own,
and the others are single statements. -/
inductive Operation where
  | query (index : Nat)
  | begin
  | deleteEntries (ids : List Nat)
  | deleteFiles (ids : List Nat)
  | deleteSets
  | loadHashes
  | upsertSets
  | commit
  deriving DecidableEq

/-- The stored tables, what an open transaction has made of them, and the duplicate sets
that the client has computed. -/
structure Session where
  committed : Database
  transaction : Option Database
  rows : List (DuplicateKey × DuplicateSet)

namespace Session

def seen (s : Session) : Database := s.transaction.getD s.committed

def write (s : Session) (db : Database) : Session :=
  match s.transaction with
  | none => { s with committed := db }
  | some _ => { s with transaction := some db }

def commit (s : Session) (db : Database) : Session := { s with committed := db, transaction := none }

def disconnect (s : Session) : Session := { s with transaction := none }

/-- `BEGIN` in a transaction and `COMMIT` without one are warnings, so the transaction of
`upsertSets` ends the one around it.  `none` is an error of the server. -/
def run (settings : IndexerSettings) (s : Session) : Operation → Option Session
  | .query _ => some s
  | .begin => some { s with transaction := some s.seen }
  | .deleteEntries ids => some (s.write (s.seen.deleteEntries ids))
  | .deleteFiles ids => (s.seen.deleteFiles ids).map s.write
  | .deleteSets => some (s.write (s.seen.setDuplicateSets ∅))
  | .loadHashes =>
    let c := s.seen.catalogue
    some { s with rows := (duplicateKeys settings c).map fun key => (key, duplicateRow settings c key) }
  | .upsertSets => (s.seen.upsertIndexDuplicateSetsStaged s.rows).map s.commit
  | .commit => some (s.commit s.seen)

end Session

/-- `sql_is_replayable_after_disconnect` for the texts of the statements. -/
def Operation.replayable : Operation → Bool
  | .begin | .commit => false
  | _ => true

/-- An operation in `with_connection`.  `lost` tells whether the connection is lost at it, and
then whether the server had done it; an error closes the connection. -/
def attempt (settings : IndexerSettings) (lost : Option Bool) (s : Session) (op : Operation) :
    Except Session Session :=
  let again (s : Session) : Except Session Session :=
    match s.run settings op with
    | none => .error s.disconnect
    | some s' => .ok s'
  match lost with
  | none => again s
  | some done =>
    let s' := (if done then (s.run settings op).getD s else s).disconnect
    if op.replayable then again s' else .error s'

def runAll (settings : IndexerSettings) (lost : Operation → Option Bool) :
    List Operation → Session → Except Session Session
  | [], s => .ok s
  | op :: ops, s =>
    match attempt settings (lost op) s op with
    | .error s' => .error s'
    | .ok s' => runAll settings lost ops s'

def chunks : Nat → List Nat → List (List Nat)
  | 0, _ => []
  | fuel + 1, ids => if ids = [] then [] else ids.take 512 :: chunks fuel (ids.drop 512)

/-- The operations of `clean_source`.  The last `ROLLBACK` after an error finds a connection
without a transaction. -/
def program (stale : List Nat) : List Operation :=
  let chunks := chunks stale.length stale
  (List.range (2 + chunks.length)).map .query ++
    if stale = [] then []
    else .begin :: (chunks.map .deleteEntries ++ (chunks.map .deleteFiles ++
      [.deleteSets, .loadHashes, .upsertSets, .commit]))

def cleanSource (settings : IndexerSettings) (lost : Operation → Option Bool) (stale : List Nat)
    (db : Database) : Except Session Session :=
  runAll settings lost (program stale) ⟨db, none, []⟩

/-! ## All or nothing -/

def Deleted (stale : List Nat) (db : Database) : Prop :=
  (∀ id ∈ stale, db.catalogue.files.lookup id = none) ∧ ∀ e ∈ db.entries, e.names stale = false

def AllOrNothing (stale : List Nat) (db : Database) : Except Session Session → Prop
  | .ok s => Deleted stale s.committed
  | .error s => s.committed.catalogue.files = db.catalogue.files ∧ s.committed.entries = db.entries

/-- The connection is not lost inside the transaction.  It may be lost once the transaction
of the duplicate sets has committed. -/
def Harmless (lost : Operation → Option Bool) : Prop :=
  ∀ op done, lost op = some done →
    (∃ index, op = .query index) ∨ op = .begin ∨ (op = .upsertSets ∧ done = true)

section

variable {settings : IndexerSettings} {lost : Operation → Option Bool} {stale ids : List Nat}
  {db w : Database} {rows : List (DuplicateKey × DuplicateSet)}

lemma flatten_chunks {fuel : Nat} (h : ids.length ≤ fuel) : (chunks fuel ids).flatten = ids := by
  induction fuel generalizing ids with
  | zero => simp [chunks, List.length_eq_zero_iff.mp (Nat.le_zero.mp h)]
  | succ fuel ih =>
    rw [chunks]
    split
    next hnil => simp [hnil]
    next =>
      rw [List.flatten_cons, ih (by rw [List.length_drop]; omega), List.take_append_drop]

lemma names_eq_false {e : PlanEntry} :
    e.names ids = false ↔ e.file ∉ ids ∧ ∀ c ∈ e.canonical, c ∉ ids := by
  cases hc : e.canonical <;> simp [PlanEntry.names, hc]

lemma attempt_calm {op : Operation} (h : lost op = none) {s s' : Session}
    (hrun : s.run settings op = some s') : attempt settings (lost op) s op = .ok s' := by
  simp [attempt, h, hrun]

lemma runAll_append (ops ops' : List Operation) (s : Session) :
    runAll settings lost (ops ++ ops') s =
      match runAll settings lost ops s with
      | .error s' => .error s'
      | .ok s' => runAll settings lost ops' s' := by
  induction ops generalizing s with
  | nil => rfl
  | cons op ops ih =>
    simp only [List.cons_append, runAll]
    cases attempt settings (lost op) s op with
    | error s' => rfl
    | ok s' => exact ih s'

lemma runAll_queries (indices : List Nat) :
    runAll settings lost (indices.map .query) ⟨db, none, rows⟩ = .ok ⟨db, none, rows⟩ := by
  induction indices with
  | nil => rfl
  | cons index indices ih =>
    have hone : attempt settings (lost (.query index)) ⟨db, none, rows⟩ (.query index) = .ok ⟨db, none, rows⟩ := by
      cases lost (.query index) <;> simp [attempt, Session.run, Operation.replayable, Session.disconnect]
    simp [runAll, hone, ih]

/-- Statements for the chunks of the stale files, inside the transaction: `P` says what it
sees after those for `before`. -/
lemma runAll_chunks {f : List Nat → Operation} {P : List Nat → Database → Prop}
    (hlost : ∀ ids, lost (f ids) = none) (hstep : ∀ before ids w, ids ⊆ stale → P before w →
      ∃ w', Session.run settings ⟨db, some w, rows⟩ (f ids) = some ⟨db, some w', rows⟩ ∧ P (before ++ ids) w')
    (h : P [] w) :
    ∃ w', runAll settings lost ((chunks stale.length stale).map f) ⟨db, some w, rows⟩ =
      .ok ⟨db, some w', rows⟩ ∧ P stale w' := by
  have hrun (cs : List (List Nat)) (hcs : cs.flatten ⊆ stale) {before : List Nat} {w : Database}
      (hw : P before w) : ∃ w', runAll settings lost (cs.map f) ⟨db, some w, rows⟩ =
        .ok ⟨db, some w', rows⟩ ∧ P (before ++ cs.flatten) w' := by
    induction cs generalizing before w with
    | nil => exact ⟨w, rfl, by simpa using hw⟩
    | cons ids cs ih =>
      rw [List.flatten_cons] at hcs
      obtain ⟨w₁, hone, hw₁⟩ := hstep before ids w (fun id hid => hcs (List.mem_append_left _ hid)) hw
      obtain ⟨w', hrest, hw'⟩ := ih (fun id hid => hcs (List.mem_append_right _ hid)) hw₁
      refine ⟨w', ?_, by simpa using hw'⟩
      simp [runAll, attempt_calm (hlost ids) hone, hrest]
  have hflat : (chunks stale.length stale).flatten = stale := flatten_chunks le_rfl
  simpa [hflat] using hrun (chunks stale.length stale) (fun id hid => hflat ▸ hid) h

lemma run_deleteEntries (before ids : List Nat) (h : ∀ e ∈ w.entries, e.names before = false) :
    ∃ w', Session.run settings ⟨db, some w, rows⟩ (.deleteEntries ids) = some ⟨db, some w', rows⟩ ∧
      ∀ e ∈ w'.entries, e.names (before ++ ids) = false := by
  refine ⟨w.deleteEntries ids, rfl, fun e he => ?_⟩
  obtain ⟨hold, hids⟩ := List.mem_filter.mp he
  have hids' : e.names ids = false := by simpa using hids
  have hbefore := names_eq_false.mp (h e hold)
  grind [names_eq_false]

lemma run_deleteFiles (before : List Nat) (hids : ids ⊆ stale)
    (h : (∀ e ∈ w.entries, e.names stale = false) ∧ ∀ id ∈ before, w.catalogue.files.lookup id = none) :
    ∃ w', Session.run settings ⟨db, some w, rows⟩ (.deleteFiles ids) = some ⟨db, some w', rows⟩ ∧
      (∀ e ∈ w'.entries, e.names stale = false) ∧
      ∀ id ∈ before ++ ids, w'.catalogue.files.lookup id = none := by
  have hclear (e : PlanEntry) (he : e ∈ w.entries) := names_eq_false.mp (h.1 e he)
  have hkept : w.entries.filter (fun e => !ids.contains e.file) = w.entries :=
    List.filter_eq_self.mpr fun e he => by simpa using mt (@hids _) (hclear e he).1
  have hfree : (w.entries.any fun e => e.canonical.any ids.contains) = false := by
    simp only [List.any_eq_false]
    intro e he
    have := (hclear e he).2
    cases hc : e.canonical <;> grind
  have hdelete : w.deleteFiles ids = some ⟨deleteStaleRows w.catalogue ids, w.entries⟩ := by
    rw [Database.deleteFiles, hkept, hfree]
    rfl
  refine ⟨_, congrArg (Option.map _) hdelete, h.1, fun id hid => ?_⟩
  simp only [deleteStaleRows, Table.lookup_keep_key]
  grind

/-- The transaction of the duplicate sets commits what the transaction around it has done. -/
lemma attempt_upsertSets (hlost : lost .upsertSets ≠ some false) (hw : Deleted stale w) :
    (attempt settings (lost .upsertSets) ⟨db, some w, rows⟩ .upsertSets = .error ⟨db, none, rows⟩) ∨
    ∃ db', Deleted stale db' ∧
      attempt settings (lost .upsertSets) ⟨db, some w, rows⟩ .upsertSets = .ok ⟨db', none, rows⟩ := by
  by_cases hfits : rows.all fun row => row.2.fits
  · refine .inr ⟨w.setDuplicateSets (rows.foldl (fun t row => t.insert row.1 row.2) ∅), hw, ?_⟩
    cases hlose : lost .upsertSets with
    | none => simp [attempt, Session.run, Session.seen, Session.commit,
        Database.upsertIndexDuplicateSetsStaged, hfits]
    | some done =>
      cases done with
      | false => exact absurd hlose hlost
      | true => simp [attempt, Session.run, Session.seen, Session.commit, Session.disconnect,
          Operation.replayable, Database.upsertIndexDuplicateSetsStaged, hfits, Database.setDuplicateSets]
  · left
    cases lost .upsertSets <;>
      simp [attempt, Session.run, Session.disconnect, Operation.replayable,
        Database.upsertIndexDuplicateSetsStaged, hfits]

end

def lostAt (op : Operation) (done : Bool) : Operation → Option Bool :=
  fun op' => if op' = op then some done else none

def oneFile : Database where
  catalogue := { Catalogue.empty with
    files := (∅ : Table Nat IndexFile).insert 7 ⟨1, [['a']], ⟨1, none, none, none⟩, .regular, .ok⟩ }
  entries := []

end Fod.Index.LostClean
