import Fod.Lib.GuardedRun

/-!
# Leases of whole-file locks

`lock_leases` holds one row for each session and owner that has a `flock` on a
resource.  An acquisition takes the advisory lock of the resource, prunes the rows
that its `NOW()` calls expired, looks at one of the others and then writes its own
row, each in a statement of its own.  Heartbeats, releases and prunes take no lock
and may come between these statements.
-/

namespace Fod.Flock

open GuardedRun

inductive LockType where
  | shared
  | exclusive
  deriving DecidableEq

structure Owner where
  session : Nat
  key : Nat
  deriving DecidableEq

structure Lease where
  owner : Owner
  typ : LockType
  expiresAt : Nat
  deriving DecidableEq

def Lease.before (a b : Lease) : Bool :=
  decide (a.owner.session < b.owner.session) ||
    (a.owner.session == b.owner.session && decide (a.owner.key ≤ b.owner.key))

def Lease.renew (owner : Owner) (expiresAt : Nat) (row : Lease) : Lease :=
  if row.owner = owner then { row with expiresAt := expiresAt } else row

/-- What an acquisition has done under the advisory lock.  The rows that it has pruned stay
locked until it ends. -/
inductive Stage where
  | locked
  | pruned (deleted : List Owner)
  | granted (deleted : List Owner)
  | refused (deleted : List Owner)

/-- The acquisition that holds the advisory lock; `now` is the `NOW()` of its transaction. -/
structure Acquisition where
  owner : Owner
  typ : LockType
  ttl : Nat
  now : Nat
  stage : Stage

structure State where
  clock : Nat
  rows : List Lease
  acquiring : Option Acquisition

/-- A statement comes with the `NOW()` of its transaction, which may have begun earlier. -/
inductive Action where
  | lock (owner : Owner) (typ : LockType) (ttl now : Nat)
  | pruneExpired
  | check
  | commit
  | rollback
  | heartbeat (owner : Owner) (ttl now : Nat)
  | release (owner : Owner)
  | prune (now : Nat)
  | tick (duration : Nat)

namespace State

def init : State := ⟨0, [], none⟩

def Stage.deleted : Stage → List Owner
  | .locked => []
  | .pruned deleted | .granted deleted | .refused deleted => deleted

def deleted (s : State) : List Owner :=
  match s.acquiring with
  | none => []
  | some acquisition => Stage.deleted acquisition.stage

def firstRow : List Lease → Option Lease
  | [] => none
  | row :: rest =>
    match firstRow rest with
    | none => some row
    | some other => if row.before other then some row else some other

def conflictRow (rows : List Lease) (deleted : List Owner) (owner : Owner) (now : Nat) :
    Option Lease :=
  firstRow (rows.filter fun row =>
    !deleted.contains row.owner && decide (now < row.expiresAt) && row.owner != owner)

def blocked (requested : LockType) (other : Lease) : Bool :=
  match requested with
  | .shared => other.typ == .exclusive
  | .exclusive => other.typ == .shared || other.typ == .exclusive

def step (s : State) : Action → Option State
  | .lock owner typ ttl now =>
    if s.clock < now then none
    else
      match s.acquiring with
      | none => some { s with acquiring := some ⟨owner, typ, ttl, now, .locked⟩ }
      -- `pg_try_advisory_xact_lock` fails and the request is refused
      | some _ => some s
  | .pruneExpired =>
    match s.acquiring with
    | some ⟨owner, typ, ttl, now, .locked⟩ =>
      let expired := s.rows.filter fun row => decide (row.expiresAt ≤ now)
      some { s with
        acquiring := some ⟨owner, typ, ttl, now, .pruned (expired.map Lease.owner)⟩ }
    | _ => none
  | .check =>
    match s.acquiring with
    | some ⟨owner, typ, ttl, now, .pruned deleted⟩ =>
      let stage :=
        match conflictRow s.rows deleted owner now with
        | none => .granted deleted
        | some other => if blocked typ other then .refused deleted else .granted deleted
      some { s with acquiring := some ⟨owner, typ, ttl, now, stage⟩ }
    | _ => none
  | .commit =>
    match s.acquiring with
    | some ⟨owner, typ, ttl, now, .granted deleted⟩ =>
      let rows := s.rows.filter fun row => !deleted.contains row.owner
      some { s with
        rows := rows.filter (fun row => row.owner != owner) ++ [⟨owner, typ, now + ttl⟩]
        acquiring := none }
    | some ⟨_, _, _, _, .refused deleted⟩ =>
      some { s with
        rows := s.rows.filter fun row => !deleted.contains row.owner
        acquiring := none }
    | _ => none
  | .rollback => some { s with acquiring := none }
  | .heartbeat owner ttl now =>
    if s.clock < now ∨ owner ∈ s.deleted then none
    else
      some { s with rows := s.rows.map (Lease.renew owner (now + ttl)) }
  | .release owner =>
    if owner ∈ s.deleted then none
    else some { s with rows := s.rows.filter fun row => row.owner != owner }
  | .prune now =>
    let expired := s.rows.filter fun row => decide (row.expiresAt ≤ now)
    if s.clock < now ∨ ∃ row ∈ expired, row.owner ∈ s.deleted then none
    else some { s with rows := s.rows.filter fun row => decide (now < row.expiresAt) }
  | .tick duration => some { s with clock := s.clock + duration }

/-- A heartbeat that falls between the prune and the check of another owner's acquisition
gives its lease more time than that acquisition has seen. -/
def timely (s : State) : Action → Bool
  | .heartbeat owner ttl now =>
    match s.acquiring with
    | some ⟨other, _, _, now', .pruned _⟩ => other == owner || decide (now' < now + ttl)
    | _ => true
  | _ => true

/-- If one owner holds an unexpired exclusive lease, no other holds an unexpired lease. -/
def Exclusive (s : State) : Prop :=
  ∀ held ∈ s.rows, held.typ = .exclusive → s.clock < held.expiresAt →
    ∀ row ∈ s.rows, s.clock < row.expiresAt → row.owner = held.owner

/-! ## The invariant -/

def Ready (rows : List Lease) : Acquisition → Prop
  | ⟨_, _, _, _, .locked⟩ | ⟨_, _, _, _, .refused _⟩ => True
  | ⟨owner, _, _, now, .pruned deleted⟩ =>
    ∀ row ∈ rows, row.owner ∉ deleted → row.owner ≠ owner → now < row.expiresAt
  | ⟨owner, typ, _, _, .granted deleted⟩ =>
    ∀ row ∈ rows, row.owner ∉ deleted → row.owner ≠ owner → typ = .shared ∧ row.typ = .shared

structure Inv (s : State) : Prop where
  alone : ∀ held ∈ s.rows, held.typ = .exclusive → ∀ row ∈ s.rows, row = held
  ready : ∀ acquisition ∈ s.acquiring, Ready s.rows acquisition

lemma inv_init : Inv init := ⟨by simp [init], by simp [init]⟩

section Steps

variable {s s' : State} {rows rows' : List Lease} {deleted : List Owner} {owner : Owner} {now : Nat}

lemma Ready.subset {acquisition : Acquisition} (h : Ready rows acquisition)
    (hsubset : rows' ⊆ rows) : Ready rows' acquisition := by
  obtain ⟨owner, typ, ttl, now, stage⟩ := acquisition
  cases stage with
  | locked | refused => trivial
  | pruned | granted => exact fun row hrow => h row (hsubset hrow)

lemma Inv.shrink (h : Inv s) (hsubset : rows' ⊆ s.rows) : Inv { s with rows := rows' } :=
  ⟨fun held hheld htyp row hrow => h.alone held (hsubset hheld) htyp row (hsubset hrow),
    fun acquisition hacquisition => (h.ready acquisition hacquisition).subset hsubset⟩

lemma Inv.ended (h : Inv s) : Inv { s with acquiring := none } := ⟨h.alone, by simp⟩

lemma firstRow_mem {row : Lease} (hrow : row ∈ rows) : ∃ other ∈ rows, firstRow rows = some other := by
  induction rows generalizing row with
  | nil => cases hrow
  | cons head rest ih =>
    rw [firstRow]
    cases rest with
    | nil => exact ⟨head, by simp [firstRow]⟩
    | cons next rest =>
      obtain ⟨other, hother, hfirst⟩ := ih List.mem_cons_self
      rw [hfirst]
      dsimp only
      split
      · exact ⟨head, List.mem_cons_self, rfl⟩
      · exact ⟨other, List.mem_cons_of_mem _ hother, rfl⟩

lemma mem_conflictRow {row : Lease} (hrow : row ∈ rows) (hkept : row.owner ∉ deleted)
    (hexpires : now < row.expiresAt) (hother : row.owner ≠ owner) :
    ∃ other ∈ rows, conflictRow rows deleted owner now = some other := by
  have hmem : row ∈ rows.filter fun row =>
      !deleted.contains row.owner && decide (now < row.expiresAt) && row.owner != owner := by
    simp [hrow, hkept, hexpires, hother]
  obtain ⟨other, hother, hfirst⟩ := firstRow_mem hmem
  exact ⟨other, (List.mem_filter.mp hother).1, hfirst⟩

lemma Inv.check (h : Inv s) {typ : LockType} {ttl : Nat}
    (hacquiring : s.acquiring = some ⟨owner, typ, ttl, now, .pruned deleted⟩)
    (hgranted : ∀ other, conflictRow s.rows deleted owner now = some other →
      blocked typ other = false) : Ready s.rows ⟨owner, typ, ttl, now, .granted deleted⟩ := by
  intro row hrow hkept hother
  have hexpires := h.ready _ hacquiring row hrow hkept hother
  obtain ⟨other, hmem, hconflict⟩ := mem_conflictRow hrow hkept hexpires hother
  have hfree := hgranted other hconflict
  -- nothing is exclusive here, since the row looked at would be the same row
  cases htyp : row.typ with
  | exclusive =>
    rw [h.alone row hrow htyp other hmem] at hfree
    cases typ <;> simp [blocked, htyp] at hfree
  | shared =>
    cases typ with
    | shared => exact ⟨rfl, rfl⟩
    | exclusive => cases hother : other.typ <;> simp [blocked, hother] at hfree

lemma owner_renew (expiresAt : Nat) (row : Lease) : (row.renew owner expiresAt).owner = row.owner := by
  rw [Lease.renew]
  split <;> rfl

lemma typ_renew (expiresAt : Nat) (row : Lease) : (row.renew owner expiresAt).typ = row.typ := by
  rw [Lease.renew]
  split <;> rfl

lemma Inv.heartbeat (h : Inv s) {ttl : Nat} (hguard : s.timely (.heartbeat owner ttl now)) :
    Inv { s with rows := s.rows.map (Lease.renew owner (now + ttl)) } := by
  constructor
  · simp only [List.forall_mem_map, typ_renew]
    intro held hheld htyp row hrow
    rw [h.alone held hheld htyp row hrow]
  · rintro ⟨other, typ, ttl', now', stage⟩ hacquisition
    have hready := h.ready _ hacquisition
    cases stage with
    | locked | refused => trivial
    | pruned deleted =>
      simp only [Ready, List.forall_mem_map, owner_renew]
      intro row hrow hkept hother
      rw [Lease.renew]
      split
      next heq =>
        rw [timely, show s.acquiring = some _ from hacquisition] at hguard
        simpa [← heq, Ne.symm hother] using hguard
      next => exact hready row hrow hkept hother
    | granted deleted =>
      simp only [Ready, List.forall_mem_map, owner_renew, typ_renew]
      exact hready

lemma Inv.grant (h : Inv s) {typ : LockType} {ttl : Nat}
    (hacquiring : s.acquiring = some ⟨owner, typ, ttl, now, .granted deleted⟩) :
    Inv { s with
      rows := (s.rows.filter fun row => !deleted.contains row.owner).filter
        (fun row => row.owner != owner) ++ [⟨owner, typ, now + ttl⟩]
      acquiring := none } := by
  have hready : ∀ row ∈ (s.rows.filter fun row => !deleted.contains row.owner).filter
      (fun row => row.owner != owner), typ = .shared ∧ row.typ = .shared := by
    intro row hrow
    simp only [List.mem_filter, Bool.not_eq_true', List.contains_eq_mem, decide_eq_false_iff_not,
      bne_iff_ne] at hrow
    exact h.ready _ hacquiring row hrow.1.1 hrow.1.2 hrow.2
  refine ⟨fun held hheld htyp row hrow => ?_, by simp⟩
  rcases List.mem_append.mp hheld with hheld | hheld
  · rw [(hready held hheld).2] at htyp
    cases htyp
  obtain rfl := List.mem_singleton.mp hheld
  rcases List.mem_append.mp hrow with hrow | hrow
  · exact absurd ((hready row hrow).1.symm.trans htyp) LockType.noConfusion
  · exact List.mem_singleton.mp hrow

lemma Inv.step (h : Inv s) {a : Action} (hguard : s.timely a)
    (hstep : step s a = some s') : Inv s' := by
  cases a with
  | lock owner typ ttl now =>
    simp only [State.step] at hstep
    split at hstep
    · cases hstep
    split at hstep
    · cases hstep
      refine ⟨h.alone, ?_⟩
      rintro acquisition ⟨⟩
      trivial
    · cases hstep
      exact h
  | pruneExpired =>
    simp only [State.step] at hstep
    split at hstep
    · cases hstep
      refine ⟨h.alone, ?_⟩
      rintro acquisition ⟨⟩ row hrow hkept -
      by_contra hexpired
      refine hkept (List.mem_map_of_mem (List.mem_filter.mpr ⟨hrow, ?_⟩))
      simpa using hexpired
    · cases hstep
  | check =>
    simp only [State.step] at hstep
    split at hstep
    next owner typ ttl now deleted hacquiring =>
      cases hstep
      refine ⟨h.alone, ?_⟩
      rintro acquisition ⟨⟩
      split
      next hnone => exact h.check hacquiring (by simp [hnone])
      next other hother =>
        split
        · trivial
        next hfree => exact h.check hacquiring (by simpa [hother] using hfree)
    · cases hstep
  | commit =>
    simp only [State.step] at hstep
    split at hstep
    next hacquiring =>
      cases hstep
      exact h.grant hacquiring
    next =>
      cases hstep
      exact (h.shrink (List.filter_subset_self _)).ended
    · cases hstep
  | rollback =>
    cases hstep
    exact h.ended
  | heartbeat owner ttl now =>
    simp only [State.step] at hstep
    split at hstep
    · cases hstep
    · cases hstep
      exact h.heartbeat hguard
  | release owner =>
    simp only [State.step] at hstep
    split at hstep
    · cases hstep
    · cases hstep
      exact h.shrink (List.filter_subset_self _)
  | prune now =>
    simp only [State.step] at hstep
    split at hstep
    · cases hstep
    · cases hstep
      exact h.shrink (List.filter_subset_self _)
  | tick duration =>
    cases hstep
    exact ⟨h.alone, h.ready⟩

/-- Without a heartbeat that comes too late, an exclusive lease excludes every other. -/
theorem flock_leases_exclusive {trace : List Action}
    (hguard : Along State.step (fun s a => s.timely a = true) init trace)
    (hrun : run State.step init trace = some s) : s.Exclusive := by
  have hinv : Inv s :=
    run_invariant (fun _ _ _ h hguard hstep => h.step hguard hstep) inv_init hguard hrun
  intro held hheld htyp _ row hrow _
  rw [hinv.alone held hheld htyp row hrow]

end Steps

section Examples

def first : Owner := ⟨1, 1⟩

def second : Owner := ⟨2, 2⟩

def acquire (owner : Owner) (typ : LockType) (ttl now : Nat) : List Action :=
  [.lock owner typ ttl now, .pruneExpired, .check, .commit]

def shared : List Action :=
  acquire first .shared 30 0 ++ acquire second .shared 30 0 ++
    [.tick 31, .heartbeat first 30 31, .heartbeat second 30 20] ++ acquire first .exclusive 30 31

theorem flock_leases_exclusive_shared :
    ∃ s, run step init shared = some s ∧ s.rows = [⟨first, .shared, 61⟩, ⟨second, .shared, 50⟩] ∧
      s.Exclusive :=
  ⟨_, rfl, rfl, @flock_leases_exclusive _ shared (by decide) rfl⟩

/-- The first owner takes the lock again while a heartbeat of its is held up; the heartbeat gets
through between the prune and the check of the second owner's acquisition. -/
def heldUp : List Action :=
  acquire first .exclusive 30 0 ++ [.tick 20] ++ acquire first .exclusive 30 20 ++
    [.tick 16, .lock second .exclusive 30 36, .pruneExpired, .heartbeat first 30 5, .check, .commit,
      .tick 1, .heartbeat first 30 37]

theorem flock_leases_overlap :
    ∃ s, run step init heldUp = some s ∧ s.clock = 37 ∧
      s.rows = [⟨first, .exclusive, 67⟩, ⟨second, .exclusive, 66⟩] ∧ ¬ s.Exclusive := by
  refine ⟨_, rfl, rfl, rfl, fun hexclusive => ?_⟩
  have hsame := hexclusive ⟨first, .exclusive, 67⟩ (by decide) rfl (by decide)
    ⟨second, .exclusive, 66⟩ (by decide) (by decide)
  exact absurd hsame (by decide)

end Examples

end State

end Fod.Flock
