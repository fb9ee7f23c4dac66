import Fod.Replay.ExactlyOnce

/-!
# A link is made by the call that returns it

`create_hardlink` and `create_symlink_hardlink` explain a unique violation by a link
with the same inode and owner at the name.  The explanation is meant for the second
run, which finds the link of the first, and it is used for the first run as well.
-/

namespace Fod.Replay

namespace Tables

def createSymlinkHardlink (t : Tables) (symlink : Nat) (location : Location) :
    Except Error (Tables × Nat) := do
  if (t.symlinks.lookup symlink).isNone then throw .linkSourceUnavailable
  t.requireNamespaceVacant location
  return ({ t with
      symlinkHardlinks := t.symlinkHardlinks.insert t.nextEntry ⟨symlink, location⟩
      nextEntry := t.nextEntry + 1 },
    t.nextEntry)

def confirmCreatedSymlinkHardlink (t : Tables) (symlink : Nat) (location : Location) : Option Nat :=
  confirmCreated t.symlinkHardlinks
    (fun row => row.location == location && row.symlink == symlink) fun _ _ => true

end Tables

inductive Link where
  | file (file uid gid : Nat)
  | symlink (symlink : Nat)

inductive Fate where
  | acknowledged
  | lostAfterCommit
  | lostBeforeCommit

/-- A call: `replay` and `look` are what the other clients make of the tables until the
second run and until the explanation of a unique violation. -/
structure LinkCall where
  link : Link
  location : Location
  start : Tables
  fate : Fate
  replay : Tables → Tables
  look : Tables → Tables

namespace Link

def create (t : Tables) (location : Location) : Link → Except Error (Tables × Nat)
  | file f uid gid => t.createHardlink f location uid gid
  | symlink s => t.createSymlinkHardlink s location

def confirmCreated (t : Tables) (location : Location) : Link → Option Nat
  | file f uid gid => t.confirmCreatedHardlink f location uid gid
  | symlink s => t.confirmCreatedSymlinkHardlink s location

def confirmUniqueViolation (t : Tables) (location : Location) (link : Link) (e : Error) :
    Except Error Nat :=
  if e.isUniqueViolation then
    match link.confirmCreated t location with
    | some id => .ok id
    | none => .error e
  else .error e

end Link

namespace LinkCall

def lastRun (c : LinkCall) : Tables × List Nat :=
  match c.link.create c.start c.location, c.fate with
  | .ok (committed, id), .lostAfterCommit => (c.replay committed, [id])
  | .ok _, .lostBeforeCommit => (c.replay c.start, [])
  | _, _ => (c.start, [])

def outcome (c : LinkCall) : Except Error Nat × List Nat :=
  let (t, inserted) := c.lastRun
  match c.link.create t c.location with
  | .ok (_, id) => (.ok id, inserted ++ [id])
  | .error e => (c.link.confirmUniqueViolation (c.look t) c.location e, inserted)

end LinkCall

/-! ## What the explanation finds -/

lemma confirmCreated_eq_some {ν : Type} {rows : Table Nat ν} {wanted : ν → Bool}
    {asked : Nat → ν → Bool} {id : Nat} : Tables.confirmCreated rows wanted asked = some id ↔
      (∃ row, rows.lookup id = some row ∧ wanted row = true ∧ asked id row = true) ∧
        ∀ id' row, rows.lookup id' = some row → wanted row = true → id' = id := by
  unfold Tables.confirmCreated
  constructor
  · intro h
    split at h
    next id' hkeys =>
      obtain ⟨row, hrow, hasked⟩ := Option.bind_eq_some_iff.mp h
      split at hasked
      next hasked' =>
        cases hasked
        obtain ⟨⟨row', hrow', hwanted⟩, honly⟩ := (Table.keysWith_eq_singleton wanted).mp hkeys
        obtain rfl := Option.some.inj (hrow.symm.trans hrow')
        exact ⟨⟨row, hrow, hwanted, hasked'⟩, honly⟩
      next => cases hasked
    next => cases h
  · rintro ⟨⟨row, hrow, hwanted, hasked⟩, honly⟩
    rw [(Table.keysWith_eq_singleton wanted).mpr ⟨⟨row, hrow, hwanted⟩, honly⟩]
    simp [hrow, hasked]

namespace Link

def Names (t : Tables) (location : Location) (id : Nat) : Link → Prop
  | file f uid gid =>
    t.hardlinks.lookup id = some ⟨f, location, uid, gid⟩ ∧
      ∀ id' row, t.hardlinks.lookup id' = some row → row.location = location → id' = id
  | symlink s =>
    t.symlinkHardlinks.lookup id = some ⟨s, location⟩ ∧
      ∀ id', t.symlinkHardlinks.lookup id' = some ⟨s, location⟩ → id' = id

def Available (t : Tables) : Link → Prop
  | file f _ _ => ∃ row, t.files.lookup f = some row ∧ row.unlinked = false
  | symlink s => t.symlinks.lookup s ≠ none

def FindsTaken (t : Tables) (location : Location) (link : Link) : Prop :=
  link.Available t ∧ (location.1 = 0 ∨ t.directories.lookup location.1 ≠ none) ∧
    t.entriesAt location ≠ []

variable {t : Tables} {location : Location} {link : Link}

lemma confirmCreated_eq_some_iff {id : Nat} :
    link.confirmCreated t location = some id ↔ link.Names t location id := by
  cases link with
  | file f uid gid =>
    rw [confirmCreated, Tables.confirmCreatedHardlink, Fod.Replay.confirmCreated_eq_some, Names]
    simp only [beq_iff_eq, Bool.and_eq_true]
    refine and_congr_left fun _ => ⟨?_, fun h => ⟨_, h, rfl, ⟨rfl, rfl⟩, rfl⟩⟩
    rintro ⟨⟨f', location', uid', gid'⟩, hrow, rfl, ⟨rfl, rfl⟩, rfl⟩
    exact hrow
  | symlink s =>
    rw [confirmCreated, Tables.confirmCreatedSymlinkHardlink, Fod.Replay.confirmCreated_eq_some, Names]
    simp only [beq_iff_eq, Bool.and_eq_true, and_true]
    constructor
    · rintro ⟨⟨⟨s', location'⟩, hrow, rfl, rfl⟩, honly⟩
      exact ⟨hrow, fun id' hid' => honly id' _ hid' ⟨rfl, rfl⟩⟩
    · rintro ⟨hrow, honly⟩
      refine ⟨⟨_, hrow, rfl, rfl⟩, ?_⟩
      rintro id' ⟨s', location'⟩ hrow' ⟨rfl, rfl⟩
      exact honly id' hrow'

lemma requireNamespaceVacant_eq_taken :
    t.requireNamespaceVacant location = .error .namespaceEntryExists ↔
      (location.1 = 0 ∨ t.directories.lookup location.1 ≠ none) ∧ t.entriesAt location ≠ [] := by
  unfold Tables.requireNamespaceVacant
  by_cases hparent : location.1 ≠ 0 ∧ t.directories.lookup location.1 = none
  · rw [if_pos hparent]
    grind
  · rw [if_neg hparent]
    grind

def insert (t : Tables) (location : Location) : Link → Tables
  | file f uid gid =>
    { t with
      hardlinks := t.hardlinks.insert t.nextEntry ⟨f, location, uid, gid⟩
      nextEntry := t.nextEntry + 1 }
  | symlink s =>
    { t with
      symlinkHardlinks := t.symlinkHardlinks.insert t.nextEntry ⟨s, location⟩
      nextEntry := t.nextEntry + 1 }

lemma create_of_available (h : link.Available t) : link.create t location =
      (t.requireNamespaceVacant location).map fun _ => (link.insert t location, t.nextEntry) := by
  cases link with
  | file f uid gid =>
    obtain ⟨row, hrow, hlinked⟩ := h
    have hsource : ¬ (t.files.lookup f).all File.unlinked = true := by simp [hrow, hlinked]
    simp only [create, Tables.createHardlink, hsource]
    cases t.requireNamespaceVacant location <;> rfl
  | symlink s =>
    obtain ⟨row, hrow⟩ := Option.ne_none_iff_exists'.mp h
    simp only [create, Tables.createSymlinkHardlink, hrow]
    cases t.requireNamespaceVacant location <;> rfl

lemma create_of_unavailable (h : ¬ link.Available t) :
    link.create t location = .error .linkSourceUnavailable := by
  cases link with
  | file f uid gid =>
    have hsource : (t.files.lookup f).all File.unlinked = true := by
      cases hrow : t.files.lookup f with
      | none => rfl
      | some row =>
        by_contra hlinked
        exact h ⟨row, hrow, by simpa using hlinked⟩
    simp only [create, Tables.createHardlink, hsource]
    rfl
  | symlink s =>
    have hnone : t.symlinks.lookup s = none := not_not.mp h
    simp only [create, Tables.createSymlinkHardlink, hnone]
    rfl

lemma create_eq_taken :
    link.create t location = .error .namespaceEntryExists ↔ link.FindsTaken t location := by
  unfold FindsTaken
  by_cases h : link.Available t
  · rw [create_of_available h, and_iff_right h, ← requireNamespaceVacant_eq_taken]
    cases t.requireNamespaceVacant location <;> simp [Except.map]
  · simp [create_of_unavailable h, h]

lemma create_of_taken (h : t.entriesAt location ≠ []) : ∃ e, link.create t location = .error e := by
  by_cases havailable : link.Available t
  · rw [create_of_available havailable]
    cases hvacant : t.requireNamespaceVacant location with
    | error e => exact ⟨e, rfl⟩
    | ok _ => exact absurd (vacant_cases hvacant).2 h
  · exact ⟨_, create_of_unavailable havailable⟩

lemma confirmUniqueViolation_eq_ok {e : Error} {id : Nat} :
    link.confirmUniqueViolation t location e = .ok id ↔
      e = .namespaceEntryExists ∧ link.Names t location id := by
  rw [← confirmCreated_eq_some_iff, confirmUniqueViolation]
  by_cases he : e = .namespaceEntryExists
  · rw [he]
    cases link.confirmCreated t location <;> simp [Error.isUniqueViolation]
  · have hother : e.isUniqueViolation = false := by
      cases e <;> first | rfl | exact absurd rfl he
    simp [hother, he]

end Link

namespace LinkCall

/-- The name is taken at the last run, and then the link that is found there is one
that the call has made. -/
def FindsOwnLink (c : LinkCall) : Prop :=
  c.link.FindsTaken c.lastRun.1 c.location →
    ∀ id, c.link.Names (c.look c.lastRun.1) c.location id → id ∈ c.lastRun.2

/-- A link that is returned was inserted by the call exactly if the last run does not
find an equal link of somebody else. -/
theorem returned_link_inserted_iff (c : LinkCall) :
    ((∀ id, c.outcome.1 = .ok id → id ∈ c.outcome.2) ∧
        (c.start.entriesAt c.location ≠ [] → ∃ e, c.outcome.1 = .error e)) ↔
      c.FindsOwnLink := by
  have hfailed : ∀ {e}, c.link.create c.lastRun.1 c.location = .error e →
      c.outcome = (c.link.confirmUniqueViolation (c.look c.lastRun.1) c.location e, c.lastRun.2) := by
    intro e he
    simp [outcome, he]
  constructor
  · rintro ⟨hinserted, -⟩ htaken id hnames
    have houtcome := hfailed (Link.create_eq_taken.mpr htaken)
    rw [houtcome] at hinserted
    exact hinserted id (Link.confirmUniqueViolation_eq_ok.mpr ⟨rfl, hnames⟩)
  · intro hown
    have hreturned : ∀ {e id}, c.link.create c.lastRun.1 c.location = .error e →
        c.outcome.1 = .ok id → id ∈ c.lastRun.2 := by
      intro e id he hid
      rw [hfailed he] at hid
      obtain ⟨rfl, hnames⟩ := Link.confirmUniqueViolation_eq_ok.mp hid
      exact hown (Link.create_eq_taken.mp he) id hnames
    constructor
    · intro id hid
      cases hlast : c.link.create c.lastRun.1 c.location with
      | error e =>
        rw [hfailed hlast]
        exact hreturned hlast hid
      | ok inserted =>
        simp only [outcome, hlast] at hid ⊢
        rw [← Except.ok.inj hid]
        simp
    · intro hbound
      obtain ⟨e, he⟩ : ∃ e, c.link.create c.start c.location = .error e := Link.create_of_taken hbound
      have hlast : c.lastRun = (c.start, []) := by
        simp [lastRun, he]
      cases hreply : c.outcome.1 with
      | error e => exact ⟨e, rfl⟩
      | ok id =>
        have hnone := hreturned (by rw [hlast]; exact he) hreply
        rw [hlast] at hnone
        cases hnone

/-- The name was bound by another client to the same inode with the same owner, and
the call returns the link of that client. -/
theorem foreign_link_returned :
    let call : LinkCall :=
      { link := .file 2 5 5
        location := (0, ['b'])
        start := { oneFile with
          hardlinks := (∅ : Table Nat Hardlink).insert 3 ⟨2, (0, ['b']), 5, 5⟩
          nextEntry := 4 }
        fate := .acknowledged
        replay := id
        look := id }
    call.start.entriesAt call.location = [.hardlink 3 2] ∧ call.outcome = (.ok 3, []) :=
  ⟨rfl, rfl⟩

end LinkCall

end Fod.Replay
