import Fod.Lib.GuardedRun
import Fod.Lib.Table

/-!
# Client sessions and the schema upgrade

`mkfs upgrade` holds an advisory lock that registrations share, counts the live
sessions, creates a trigger on insertions, which locks the table to the end of the
transaction, and counts again.  A heartbeat is an update by the id of the session
alone, so neither the lock nor the trigger stops it once the transaction has committed.
-/

namespace Fod.Upgrade

/-- Where `mkfs upgrade` is.  `start` is the time of the `BEGIN` of
`begin_schema_upgrade`, which is the `NOW()` of both counts. -/
inductive Phase where
  | locked
  | begun (start : Nat)
  | counted (start : Nat)
  | guarded (start : Nat)
  | recounted (start : Nat)
  | migrating

/-- An open transaction of `register_client_session`: its start, and the id and the
expiry of the row that it has inserted. -/
structure Registration where
  start : Nat
  row : Option (Nat × Nat)

/-- `sessions` has the expiry of the committed rows, and `version` the column
`upgrade_in_progress` of the row of `schema_version`, if there is one.  `upgrading` says
that `begin_schema_upgrade` has committed and `write_schema_version` has not. -/
structure State where
  now : Nat
  sessions : Table Nat Nat
  nextSession : Nat
  registrations : Table Nat Registration
  version : Option Bool
  trigger : Bool
  mkfs : Option Phase
  upgrading : Bool

/-- `sent` is the `NOW()` of a statement, which may have waited for the table. -/
inductive Action where
  | tick (seconds : Nat)
  | openRegistration (r : Nat)
  | insertSession (r ttl : Nat)
  | commitRegistration (r : Nat)
  | endRegistration (r : Nat)
  | heartbeat (session sent ttl : Nat)
  | prune (sent : Nat)
  | acquireSchemaUpgradeLock
  | beginUpgrade
  | countSessions
  | createTrigger
  | recountSessions
  | commitUpgrade
  | writeSchemaVersion
  | exit

namespace State

def tableLocked (s : State) : Bool :=
  match s.mkfs with
  | some (.guarded _) | some (.recounted _) => true
  | _ => false

def anyActive (s : State) (start : Nat) : Bool := s.sessions.entries.any fun row => start < row.2

def count (s : State) (start : Nat) (next : Phase) : State :=
  { s with mkfs := if s.anyActive start then none else some next }

/-- An action that has to wait or that fails without an effect is refused. -/
def step (s : State) : Action → Option State
  | .tick seconds => some { s with now := s.now + seconds }
  | .openRegistration r =>
    if s.mkfs.isSome ∨ s.version ≠ some false ∨ (s.registrations.lookup r).isSome then none
    else some { s with registrations := s.registrations.insert r ⟨s.now, none⟩ }
  | .insertSession r ttl =>
    match s.registrations.lookup r with
    | some ⟨start, none⟩ =>
      if s.tableLocked ∨ (s.trigger ∧ s.version = some true) then none
      else some { s with
        registrations := s.registrations.insert r ⟨start, some (s.nextSession, start + ttl)⟩
        nextSession := s.nextSession + 1 }
    | _ => none
  | .commitRegistration r =>
    match s.registrations.lookup r with
    | some ⟨_, some (id, expiry)⟩ =>
      some { s with
        sessions := s.sessions.insert id expiry
        registrations := s.registrations.erase r }
    | _ => none
  | .endRegistration r => some { s with registrations := s.registrations.erase r }
  | .heartbeat session sent ttl =>
    if s.tableLocked ∨ s.now < sent then none
    else if (s.sessions.lookup session).isNone then some s
    else some { s with sessions := s.sessions.insert session (sent + ttl) }
  | .prune sent =>
    if s.tableLocked ∨ s.now < sent then none
    else some { s with sessions := s.sessions.keep fun _ expiry => decide (sent < expiry) }
  | .acquireSchemaUpgradeLock =>
    if s.mkfs.isSome ∨ !s.registrations.keys.isEmpty then none
    else some { s with mkfs := some .locked }
  | .beginUpgrade =>
    match s.mkfs with
    | some .locked => some { s with mkfs := some (.begun s.now) }
    | _ => none
  | .countSessions =>
    match s.mkfs with
    | some (.begun start) => some (s.count start (.counted start))
    | _ => none
  | .createTrigger =>
    match s.mkfs with
    | some (.counted start) =>
      if s.registrations.entries.any fun row => row.2.row.isSome then none
      else some { s with mkfs := some (.guarded start) }
    | _ => none
  | .recountSessions =>
    match s.mkfs with
    | some (.guarded start) => some (s.count start (.recounted start))
    | _ => none
  | .commitUpgrade =>
    match s.mkfs with
    | some (.recounted _) =>
      some { s with
        mkfs := some .migrating
        version := s.version.map fun _ => true
        trigger := true
        upgrading := true }
    | _ => none
  | .writeSchemaVersion =>
    match s.mkfs with
    | some .migrating => some { s with mkfs := none, version := some false, upgrading := false }
    | _ => none
  | .exit => some { s with mkfs := none }

end State

structure Initial (s : State) : Prop where
  mkfs : s.mkfs = none
  upgrading : s.upgrading = false

def ExpiredBy (s : State) (time : Nat) : Prop :=
  ∀ {id expiry}, s.sessions.lookup id = some expiry → expiry ≤ time

def Phase.start? : Phase → Option Nat
  | .begun start | .counted start | .guarded start | .recounted start => some start
  | _ => none

structure Excluded (s : State) : Prop where
  closed : s.mkfs ≠ none ∨ s.upgrading = true → ∀ r, s.registrations.lookup r = none
  version : s.upgrading = true → s.version ≠ some false
  started : ∀ {phase start}, s.mkfs = some phase → phase.start? = some start → start ≤ s.now
  recounted : ∀ {start}, s.mkfs = some (.recounted start) → ExpiredBy s start
  expired : s.upgrading = true → ExpiredBy s s.now

lemma Initial.excluded {s : State} (h : Initial s) : Excluded s where
  closed hbusy := by simp [h.mkfs, h.upgrading] at hbusy
  version hup := by simp [h.upgrading] at hup
  started hphase := by simp [h.mkfs] at hphase
  recounted hphase := by simp [h.mkfs] at hphase
  expired hup := by simp [h.upgrading] at hup

/-- While an upgrade is in progress, a heartbeat does not come late: the row of its
session is gone, or the lease that it writes has run out already. -/
def NoLateHeartbeat (s : State) : Action → Prop
  | .heartbeat session sent ttl =>
    s.upgrading = true → s.sessions.lookup session = none ∨ sent + ttl ≤ s.now
  | _ => True

instance (s : State) : DecidablePred (NoLateHeartbeat s)
  | .heartbeat _ _ _ => inferInstanceAs (Decidable (_ → _ ∨ _))
  | .tick _ | .openRegistration _ | .insertSession _ _ | .commitRegistration _ | .endRegistration _
  | .prune _ | .acquireSchemaUpgradeLock | .beginUpgrade | .countSessions | .createTrigger
  | .recountSessions | .commitUpgrade | .writeSchemaVersion | .exit => isTrue trivial

/-! ## The steps -/

variable {s s' : State}

namespace Excluded

lemma mkfs_none_of_registration (h : Excluded s) {r : Nat} {registration : Registration}
    (hr : s.registrations.lookup r = some registration) : s.mkfs = none ∧ s.upgrading = false := by
  have hidle : ¬ (s.mkfs ≠ none ∨ s.upgrading = true) := by
    intro hbusy
    rw [h.closed hbusy r] at hr
    cases hr
  push Not at hidle
  exact ⟨hidle.1, by simpa using hidle.2⟩

lemma of_idle (hmkfs : s'.mkfs = none) (hup : s'.upgrading = false) : Excluded s' :=
  Initial.excluded ⟨hmkfs, hup⟩

lemma of_sessions (h : Excluded s) {sessions : Table Nat Nat}
    (hkept : ∀ {id expiry}, sessions.lookup id = some expiry →
      s.sessions.lookup id = some expiry ∨ (s.tableLocked = false ∧ (s.upgrading = true → expiry ≤ s.now))) :
    Excluded { s with sessions := sessions } := by
  refine ⟨h.closed, h.version, h.started, fun {start} hphase id expiry hid => ?_,
    fun hup id expiry hid => ?_⟩
  · rcases hkept hid with hold | ⟨hfree, -⟩
    · exact h.recounted hphase hold
    · have hphase' : s.mkfs = some (.recounted start) := hphase
      simp [State.tableLocked, hphase'] at hfree
  · rcases hkept hid with hold | ⟨-, hexpired⟩
    · exact h.expired hup hold
    · exact hexpired hup

lemma not_active {start : Nat} (h : s.anyActive start = false) : ExpiredBy s start := by
  intro id expiry hid
  have hrow := List.any_eq_false.mp h ⟨id, expiry⟩ (Table.lookup_eq_some.mp hid)
  simpa using hrow

section

variable (h : Excluded s)

include h

lemma of_exit : Excluded { s with mkfs := none } where
  closed hbusy := h.closed (.inr (hbusy.resolve_left fun hnone => hnone rfl))
  version := h.version
  started hphase := by cases hphase
  recounted hphase := by cases hphase
  expired := h.expired

lemma of_phase {next : Phase} (hclosed : ∀ r, s.registrations.lookup r = none)
    (hstart : ∀ start, next.start? = some start → start ≤ s.now)
    (hcounted : ∀ start, next = .recounted start → ExpiredBy s start) :
    Excluded { s with mkfs := some next } where
  closed _ := hclosed
  version := h.version
  started hphase := by
    cases hphase
    exact hstart _
  recounted hphase := hcounted _ (Option.some.inj hphase)
  expired := h.expired

lemma of_count {phase next : Phase} {start : Nat} (hphase : s.mkfs = some phase)
    (hstart : phase.start? = some start) (hnext : next.start? = some start) :
    Excluded (s.count start next) := by
  unfold State.count
  split
  · exact h.of_exit
  next hactive =>
    refine h.of_phase (h.closed (.inl (by simp [hphase]))) (fun start' hstart' => ?_) (fun start' heq => ?_)
    · obtain rfl := Option.some.inj (hnext.symm.trans hstart')
      exact h.started hphase hstart
    · rw [heq] at hnext
      cases hnext
      exact not_active (by simpa using hactive)

lemma heartbeat {session sent ttl : Nat} (hguard : NoLateHeartbeat s (.heartbeat session sent ttl))
    (hstep : s.step (.heartbeat session sent ttl) = some s') : Excluded s' := by
  simp only [State.step] at hstep
  split at hstep
  · cases hstep
  next hfree =>
    split at hstep
    · cases hstep
      exact h
    next hrow =>
      cases hstep
      refine h.of_sessions fun {id expiry} hid => ?_
      rcases Table.lookup_insert_cases hid with ⟨rfl, rfl⟩ | ⟨-, hold⟩
      · refine .inr ⟨by simpa using fun hlocked => hfree (.inl hlocked), fun hup => ?_⟩
        rcases hguard hup with hnone | hlate
        · simp [hnone] at hrow
        · exact hlate
      · exact .inl hold

lemma prune {sent : Nat} (hstep : s.step (.prune sent) = some s') : Excluded s' := by
  simp only [State.step] at hstep
  split at hstep
  · cases hstep
  · cases hstep
    refine h.of_sessions fun {id expiry} hid => .inl ?_
    rw [Table.lookup_keep] at hid
    exact (Option.filter_eq_some_iff.mp hid).1

lemma tick (seconds : Nat) : Excluded { s with now := s.now + seconds } where
  closed := h.closed
  version := h.version
  started hphase hstart := Nat.le_add_right_of_le (h.started hphase hstart)
  recounted := h.recounted
  expired hup _ _ hid := Nat.le_add_right_of_le (h.expired hup hid)

end

/-! Registrations run only outside of upgrades. -/

lemma openRegistration (h : Excluded s) {r : Nat}
    (hstep : s.step (.openRegistration r) = some s') : Excluded s' := by
  simp only [State.step] at hstep
  split at hstep
  · cases hstep
  next hopen =>
    cases hstep
    push Not at hopen
    refine of_idle (by simpa using hopen.1) ?_
    by_contra hup
    exact h.version (by simpa using hup) hopen.2.1

lemma insertSession (h : Excluded s) {r ttl : Nat}
    (hstep : s.step (.insertSession r ttl) = some s') : Excluded s' := by
  simp only [State.step] at hstep
  split at hstep
  next start hr =>
    split at hstep
    · cases hstep
    · cases hstep
      obtain ⟨hmkfs, hup⟩ := h.mkfs_none_of_registration hr
      exact of_idle hmkfs hup
  next => cases hstep

lemma commitRegistration (h : Excluded s) {r : Nat}
    (hstep : s.step (.commitRegistration r) = some s') : Excluded s' := by
  simp only [State.step] at hstep
  split at hstep
  next start id expiry hr =>
    cases hstep
    obtain ⟨hmkfs, hup⟩ := h.mkfs_none_of_registration hr
    exact of_idle hmkfs hup
  next => cases hstep

lemma endRegistration (h : Excluded s) (r : Nat) :
    Excluded { s with registrations := s.registrations.erase r } := by
  refine ⟨fun hbusy r' => ?_, h.version, h.started, h.recounted, h.expired⟩
  exact (Table.lookup_erase_eq_ite _ _ _).trans (by rw [h.closed hbusy r', ite_self])

/-! The phases of `mkfs`. -/

lemma acquireSchemaUpgradeLock (h : Excluded s)
    (hstep : s.step .acquireSchemaUpgradeLock = some s') : Excluded s' := by
  simp only [State.step] at hstep
  split at hstep
  · cases hstep
  next hfree =>
    cases hstep
    push Not at hfree
    refine h.of_phase (fun r => ?_) (fun _ hstart => by cases hstart) (fun _ heq => by cases heq)
    have hkeys : s.registrations.keys = [] := by simpa using hfree.2
    refine AList.lookup_eq_none.mpr fun hr => ?_
    rw [AList.mem_keys, hkeys] at hr
    cases hr

lemma beginUpgrade (h : Excluded s) (hstep : s.step .beginUpgrade = some s') : Excluded s' := by
  simp only [State.step] at hstep
  split at hstep
  next hphase =>
    cases hstep
    refine h.of_phase (h.closed (.inl (by simp [hphase]))) (fun start hstart => ?_)
      (fun _ heq => by cases heq)
    exact (Option.some.inj hstart).symm.le
  next => cases hstep

lemma createTrigger (h : Excluded s) (hstep : s.step .createTrigger = some s') : Excluded s' := by
  simp only [State.step] at hstep
  split at hstep
  next start hphase =>
    split at hstep
    · cases hstep
    · cases hstep
      refine h.of_phase (h.closed (.inl (by simp [hphase]))) (fun start' hstart => ?_)
        (fun _ heq => by cases heq)
      exact h.started hphase hstart
  next => cases hstep

lemma commitUpgrade (h : Excluded s) (hstep : s.step .commitUpgrade = some s') : Excluded s' := by
  simp only [State.step] at hstep
  split at hstep
  next start hphase =>
    cases hstep
    refine ⟨fun _ => h.closed (.inl (by simp [hphase])), fun _ hversion => ?_,
      fun hphase' hstart => ?_, fun hphase' => ?_, fun _ id expiry hid => ?_⟩
    · obtain ⟨_, -, hfalse⟩ := Option.map_eq_some_iff.mp hversion
      cases hfalse
    · cases hphase'
      cases hstart
    · cases hphase'
    · exact (h.recounted hphase hid).trans (h.started hphase rfl)
  next => cases hstep

lemma writeSchemaVersion (hstep : s.step .writeSchemaVersion = some s') : Excluded s' := by
  simp only [State.step] at hstep
  split at hstep
  next =>
    cases hstep
    exact of_idle rfl rfl
  next => cases hstep

lemma step (h : Excluded s) {a : Action} (hguard : NoLateHeartbeat s a)
    (hstep : s.step a = some s') : Excluded s' := by
  cases a with
  | tick seconds =>
    cases hstep
    exact h.tick seconds
  | openRegistration r => exact h.openRegistration hstep
  | insertSession r ttl => exact h.insertSession hstep
  | commitRegistration r => exact h.commitRegistration hstep
  | endRegistration r =>
    cases hstep
    exact h.endRegistration r
  | heartbeat session sent ttl => exact h.heartbeat hguard hstep
  | prune sent => exact h.prune hstep
  | acquireSchemaUpgradeLock => exact h.acquireSchemaUpgradeLock hstep
  | beginUpgrade => exact h.beginUpgrade hstep
  | countSessions =>
    simp only [State.step] at hstep
    split at hstep
    next start hphase =>
      cases hstep
      exact h.of_count hphase rfl rfl
    next => cases hstep
  | createTrigger => exact h.createTrigger hstep
  | recountSessions =>
    simp only [State.step] at hstep
    split at hstep
    next start hphase =>
      cases hstep
      exact h.of_count hphase rfl rfl
    next => cases hstep
  | commitUpgrade => exact h.commitUpgrade hstep
  | writeSchemaVersion => exact writeSchemaVersion hstep
  | exit =>
    cases hstep
    exact h.of_exit

end Excluded

/-- Between the two commits no session has a lease that ends in the future, if no
heartbeat comes late. -/
theorem no_client_active_during_upgrade (start : State) (hstart : Initial start)
    (trace : List Action) (hguard : GuardedRun.Along State.step NoLateHeartbeat start trace)
    (s : State) (hrun : GuardedRun.run State.step start trace = some s) (hup : s.upgrading = true)
    (session expiry : Nat) (hsession : s.sessions.lookup session = some expiry) :
    expiry ≤ s.now := by
  have hexcluded : Excluded s :=
    GuardedRun.run_invariant (fun _ _ _ h hguard hstep => h.step hguard hstep) hstart.excluded hguard
      hrun
  exact hexcluded.expired hup hsession

def staleSession : State where
  now := 100
  sessions := AList.insert 1 90 ∅
  nextSession := 2
  registrations := ∅
  version := some false
  trigger := false
  mkfs := none
  upgrading := false

def upgradeBegun : List Action :=
  [.acquireSchemaUpgradeLock, .beginUpgrade, .countSessions, .createTrigger, .recountSessions,
    .commitUpgrade]

theorem no_client_active_during_upgrade_stale :
    ∃ s, GuardedRun.run State.step staleSession (upgradeBegun ++ [.heartbeat 2 100 30, .tick 5]) =
        some s ∧ s.upgrading = true ∧ s.sessions.lookup 1 = some 90 ∧ 90 ≤ s.now :=
  ⟨_, rfl, rfl, rfl, no_client_active_during_upgrade staleSession ⟨rfl, rfl⟩
    (upgradeBegun ++ [.heartbeat 2 100 30, .tick 5]) (by decide) _ rfl rfl 1 90 rfl⟩

/-- The heartbeat of the stale session makes it live in the middle of the upgrade. -/
theorem late_heartbeat_during_upgrade :
    ∃ s, Initial staleSession ∧
      GuardedRun.run State.step staleSession (upgradeBegun ++ [.heartbeat 1 100 30]) = some s ∧
      s.upgrading = true ∧ s.sessions.lookup 1 = some 130 ∧ s.now = 100 :=
  ⟨_, ⟨rfl, rfl⟩, rfl, rfl, rfl, rfl⟩

end Fod.Upgrade
