import Fod.Lib.EdgeClosure
import Fod.Locks.RangeLeases

/-!
# The wait-for graph of range locks

A request that has to wait records in `lock_wait_edges` which processes it waits
for, and looks for a path from them back to its own process.  All transactions on
the table hold the advisory lock of the wait graph, so each of them is one step.
-/

namespace Fod.Locks.WaitGraph

open EdgeClosure GuardedRun Relation

/-- A row of `client_sessions`.  Host names are stored trimmed. -/
structure ClientSession where
  id : Nat
  hostName : String
  expiresAt : Nat

abbrev Process := String × Nat

structure WaitEdge where
  waiterSession : Nat
  waitId : Nat
  waiterOwner : Nat
  waiter : Process
  blockedSession : Nat
  blockedOwner : Nat
  blocked : Process
  expiresAt : Nat

def WaitEdge.ends (edge : WaitEdge) : Process × Process := (edge.waiter, edge.blocked)

structure Tables where
  sessions : List ClientSession
  leases : List LeaseRow
  edges : List WaitEdge

structure Registration where
  session : Nat
  owner : Nat
  pid : Nat
  waitId : Nat
  resource : Nat
  typ : LockType
  start : Nat
  stop : Nat
  ttl : Nat
  now : Nat
  start_le : start ≤ u64Max

structure Blocker where
  session : Nat
  owner : Nat
  process : Process
  deriving DecidableEq

def Blocker.key (blocker : Blocker) : Nat × Nat := (blocker.session, blocker.owner)

inductive RegisterError where
  | unknownSession
  | cardinalityViolation

namespace Registration

def selects (r : Registration) (self : Process) (row : LeaseRow) (session : ClientSession) : Bool :=
  row.resource == r.resource && decide (r.now < row.expiresAt) && decide (r.now < session.expiresAt) &&
    (session.hostName, row.record.pid) != self &&
    (row.record.typ == .write || r.typ == .write) &&
    decide (row.record.start ≤ r.stop) && row.record.stop.all fun stop => r.start ≤ stop

def own (r : Registration) (edge : WaitEdge) : Bool :=
  edge.waiterSession == r.session && edge.waitId == r.waitId

end Registration

namespace Tables

def session? (t : Tables) (id : Nat) : Option ClientSession :=
  t.sessions.find? fun session => session.id == id

def selected (t : Tables) (r : Registration) (self : Process) : List Blocker :=
  (t.leases.filterMap fun row =>
    (t.session? row.session).bind fun session =>
      if r.selects self row session then
        some ⟨row.session, row.record.owner, (session.hostName, row.record.pid)⟩
      else none).dedup

/-- The `INSERT`.  A command that proposes two rows with one key fails. -/
def newEdges (t : Tables) (r : Registration) (self : Process) :
    Except RegisterError (List WaitEdge) :=
  if ((t.selected r self).map Blocker.key).Nodup then
    .ok ((t.selected r self).map fun blocker =>
      ⟨r.session, r.waitId, r.owner, self, blocker.session, blocker.owner, blocker.process,
        r.now + max r.ttl 1⟩)
  else .error .cardinalityViolation

def others (t : Tables) (r : Registration) : List WaitEdge :=
  (t.edges.filter fun edge => r.now < edge.expiresAt).filter fun edge => !r.own edge

def hasCycle (r : Registration) (self : Process) (edges : List WaitEdge) : Bool :=
  let live := edges.filter fun edge => r.now < edge.expiresAt
  let graph := live.map WaitEdge.ends
  decide (self ∈ closure graph.length graph ((live.filter r.own).map WaitEdge.blocked))

def register (t : Tables) (r : Registration) : Except RegisterError (Tables × Bool) :=
  match t.session? r.session with
  | none => .error .unknownSession
  | some session =>
    let self := (session.hostName, r.pid)
    match t.newEdges r self with
    | .error error => .error error
    | .ok new =>
      let edges := t.others r ++ new
      if hasCycle r self edges then
        .ok ({ t with edges := edges.filter fun edge => !r.own edge }, true)
      else .ok ({ t with edges := edges }, false)

def clearLockWaitEdges (t : Tables) (session waitId : Nat) : Tables :=
  { t with edges := t.edges.filter fun edge =>
      !(edge.waiterSession == session && edge.waitId == waitId) }

def clearLockWaitEdgesForOwner (t : Tables) (session owner : Nat) : Tables :=
  { t with edges := t.edges.filter fun edge =>
      !((edge.waiterSession == session && edge.waiterOwner == owner) ||
        (edge.blockedSession == session && edge.blockedOwner == owner)) }

def updateLockRange (t : Tables) (session owner : Nat) (leases : List LeaseRow) : Tables :=
  { t with
    leases := leases
    edges := t.edges.filter fun edge =>
      !(edge.blockedSession == session && edge.blockedOwner == owner) }

def deleteSession (t : Tables) (session : Nat) : Tables :=
  { sessions := t.sessions.filter fun row => row.id != session
    leases := t.leases.filter fun row => row.session != session
    edges := t.edges.filter fun edge =>
      !(edge.waiterSession == session || edge.blockedSession == session) }

end Tables

/-- Heartbeats, clean-ups and new sessions change the leases and sessions in any way. -/
inductive Action where
  | register (r : Registration)
  | clearWait (session waitId : Nat)
  | clearOwner (session owner : Nat)
  | updateRange (session owner : Nat) (leases : List LeaseRow)
  | deleteSession (session : Nat)
  | change (sessions : List ClientSession) (leases : List LeaseRow)

def step (t : Tables) : Action → Option Tables
  | .register r =>
    match t.register r with
    | .ok (t', _) => some t'
    | .error _ => some t
  | .clearWait session waitId => some (t.clearLockWaitEdges session waitId)
  | .clearOwner session owner => some (t.clearLockWaitEdgesForOwner session owner)
  | .updateRange session owner leases => some (t.updateLockRange session owner leases)
  | .deleteSession session => some (t.deleteSession session)
  | .change sessions leases => some { t with sessions := sessions, leases := leases }

/-! ## No cycle -/

def Tables.graph (t : Tables) (now : Nat) : List (Process × Process) :=
  (t.edges.filter fun edge => now < edge.expiresAt).map WaitEdge.ends

section Acyclic

variable {t t' : Tables} {r : Registration} {self : Process} {new : List WaitEdge} {found : Bool}

variable {edge : WaitEdge}

lemma newEdges_spec (h : t.newEdges r self = .ok new) (hedge : edge ∈ new) :
    edge.waiter = self ∧ r.own edge = true ∧ r.now < edge.expiresAt := by
  rw [Tables.newEdges] at h
  split at h
  · obtain rfl := Except.ok.inj h
    obtain ⟨blocker, -, rfl⟩ := List.mem_map.mp hedge
    refine ⟨rfl, by simp [Registration.own], ?_⟩
    simp only
    omega
  · cases h

lemma others_subset : t.others r ⊆ t.edges := fun _ hedge =>
  (List.mem_filter.mp (List.mem_filter.mp hedge).1).1

lemma others_live (hedge : edge ∈ t.others r) : r.now < edge.expiresAt := by
  simpa using (List.mem_filter.mp (List.mem_filter.mp hedge).1).2

lemma others_not_own (hedge : edge ∈ t.others r) : r.own edge = false := by
  simpa using (List.mem_filter.mp hedge).2

lemma hasCycle_iff (hnew : t.newEdges r self = .ok new) :
    Tables.hasCycle r self (t.others r ++ new) = true ↔ ∃ b ∈ (new.map WaitEdge.ends).map Prod.snd,
        ReflTransGen (Edge ((t.others r).map WaitEdge.ends ++ new.map WaitEdge.ends)) b self := by
  have hlive : ((t.others r ++ new).filter fun edge => r.now < edge.expiresAt) = t.others r ++ new := by
    refine List.filter_eq_self.mpr fun edge hedge => ?_
    rcases List.mem_append.mp hedge with hedge | hedge
    · simpa using others_live hedge
    · simpa using (newEdges_spec hnew hedge).2.2
  have hown : (t.others r ++ new).filter r.own = new := by
    rw [List.filter_append, List.filter_eq_nil_iff.mpr, List.filter_eq_self.mpr, List.nil_append]
    · exact fun edge hedge => (newEdges_spec hnew hedge).2.1
    · exact fun edge hedge => by simp [others_not_own hedge]
  rw [Tables.hasCycle, hlive, hown, List.map_append]
  simp only [decide_eq_true_eq, EdgeClosure.mem_closure_iff, List.map_map]
  rfl

lemma acyclic_others (h : Acyclic (t.edges.map WaitEdge.ends)) :
    Acyclic ((t.others r).map WaitEdge.ends) :=
  h.subset (List.map_subset _ others_subset)

lemma waiter_of_mem_ends (hnew : t.newEdges r self = .ok new) :
    ∀ edge ∈ new.map WaitEdge.ends, edge.1 = self := by
  intro edge hedge
  obtain ⟨edge, hmem, rfl⟩ := List.mem_map.mp hedge
  exact (newEdges_spec hnew hmem).1

lemma hasCycle_iff_transGen (h : Acyclic (t.edges.map WaitEdge.ends))
    (hnew : t.newEdges r self = .ok new) : Tables.hasCycle r self (t.others r ++ new) = true ↔
      TransGen (Edge ((t.others r).map WaitEdge.ends ++ new.map WaitEdge.ends)) self self :=
  (hasCycle_iff hnew).trans (cycle_append_iff (acyclic_others h) (waiter_of_mem_ends hnew)).symm

lemma register_eq_ok (hregister : t.register r = .ok (t', found)) :
    ∃ session new, t.session? r.session = some session ∧
      t.newEdges r (session.hostName, r.pid) = .ok new ∧
      found = Tables.hasCycle r (session.hostName, r.pid) (t.others r ++ new) ∧
      t'.edges = (if found then (t.others r ++ new).filter fun edge => !r.own edge
        else t.others r ++ new) := by
  rw [Tables.register] at hregister
  split at hregister
  · cases hregister
  next session hsession =>
    dsimp only at hregister
    split at hregister
    · cases hregister
    next new hnew =>
      refine ⟨session, new, hsession, hnew, ?_⟩
      split at hregister
      next hcycle =>
        cases hregister
        exact ⟨hcycle.symm, rfl⟩
      next hcycle =>
        cases hregister
        exact ⟨(Bool.eq_false_iff.mpr hcycle).symm, rfl⟩

lemma acyclic_register (h : Acyclic (t.edges.map WaitEdge.ends))
    (hregister : t.register r = .ok (t', found)) : Acyclic (t'.edges.map WaitEdge.ends) := by
  obtain ⟨session, new, -, hnew, hfound, hedges⟩ := register_eq_ok hregister
  rw [hedges]
  split
  next =>
    refine (acyclic_others (r := r) h).subset (List.map_subset _ fun edge hedge => ?_)
    obtain ⟨hmem, hother⟩ := List.mem_filter.mp hedge
    rcases List.mem_append.mp hmem with hmem | hmem
    · exact hmem
    · simp [(newEdges_spec hnew hmem).2.1] at hother
  next hfree =>
    rw [hfound, hasCycle_iff_transGen h hnew] at hfree
    rw [List.map_append]
    exact acyclic_append (acyclic_others h) (waiter_of_mem_ends hnew) hfree

lemma acyclic_step {a : Action} (h : Acyclic (t.edges.map WaitEdge.ends))
    (hstep : step t a = some t') : Acyclic (t'.edges.map WaitEdge.ends) := by
  cases a with
  | register r =>
    rw [step] at hstep
    split at hstep
    next hregister =>
      cases hstep
      exact acyclic_register h hregister
    next =>
      cases hstep
      exact h
  | clearWait | clearOwner | updateRange | deleteSession =>
    cases hstep
    exact h.subset (List.map_subset _ (List.filter_subset_self _))
  | change =>
    cases hstep
    exact h

/-- After every commit the graph has no cycle, and a registration reports a deadlock exactly
when its process has come to wait for itself. -/
theorem deadlock_detection_exact (trace : List Action) (t₀ t : Tables) (hempty : t₀.edges = [])
    (hrun : run step t₀ trace = some t) :
    (∀ now, Acyclic (t.graph now)) ∧
      ∀ r t' found session new, t.register r = .ok (t', found) →
        t.session? r.session = some session → t.newEdges r (session.hostName, r.pid) = .ok new →
        (found = true ↔
          TransGen (Edge ((t.others r).map WaitEdge.ends ++ new.map WaitEdge.ends))
            (session.hostName, r.pid) (session.hostName, r.pid)) := by
  have hacyclic : Acyclic (t.edges.map WaitEdge.ends) := by
    refine run_invariant_of_step (fun _ _ _ h hstep => acyclic_step h hstep) ?_ hrun
    rw [hempty]
    exact acyclic_nil
  refine ⟨fun now => hacyclic.subset (List.map_subset _ (List.filter_subset_self _)), ?_⟩
  intro r t' found session new hregister hsession hnew
  obtain ⟨session', new', hsession', hnew', hfound, -⟩ := register_eq_ok hregister
  obtain rfl := Option.some.inj (hsession.symm.trans hsession')
  obtain rfl := Except.ok.inj (hnew.symm.trans hnew')
  rw [hfound]
  exact hasCycle_iff_transGen hacyclic hnew

end Acyclic

section Crossed

def crossed : Tables :=
  ⟨[⟨1, "a", 100⟩], [⟨1, 1, ⟨10, .write, 0, some 9, 100⟩, 50⟩, ⟨2, 1, ⟨20, .write, 0, some 9, 200⟩, 50⟩],
    []⟩

def secondWaits : Registration := ⟨1, 20, 200, 1, 1, .write, 0, 9, 30, 0, by decide⟩

def firstWaits : Registration := ⟨1, 10, 100, 2, 2, .read, 5, 5, 30, 1, by decide⟩

theorem deadlock_detection_crossed :
    ∃ t t', run step crossed [.register secondWaits] = some t ∧
      t.graph 1 = [(("a", 200), ("a", 100))] ∧
      t.register firstWaits = .ok (t', true) ∧ t'.edges = t.edges ∧
      TransGen (Edge [(("a", 200), ("a", 100)), (("a", 100), ("a", 200))]) ("a", 100) ("a", 100) := by
  refine ⟨_, _, rfl, rfl, rfl, rfl, ?_⟩
  exact ((deadlock_detection_exact [.register secondWaits] crossed _ rfl rfl).2 firstWaits _
    true _ _ rfl rfl rfl).mp rfl

end Crossed

/-! ## Who is waited for -/

/-- The process holds a range that `lock_conflict` reports: of another owner, in conflict with
the request, in an unexpired lease of an unexpired session. -/
def Tables.Blocks (t : Tables) (r : Registration) (process : Process) : Prop :=
  ∃ row ∈ t.leases, ∃ session, t.session? row.session = some session ∧
    row.resource = r.resource ∧ r.now < row.expiresAt ∧ r.now < session.expiresAt ∧
    process = (session.hostName, row.record.pid) ∧ row.record.owner ≠ r.owner ∧
    rangeOverlaps r.start (some r.stop) row.record.start row.record.stop = true ∧
    posixLockTypeConflicts row.record.typ r.typ = true

def Tables.WaitsExactly (t : Tables) (r : Registration) (self : Process) : Prop :=
  (∃ result, t.register r = .ok result) ∧
    ∃ new, t.newEdges r self = .ok new ∧
      ∀ process, process ∈ new.map WaitEdge.blocked ↔ process ≠ self ∧ t.Blocks r process

section Exact

variable {t : Tables} {r : Registration} {self : Process}

lemma conflicts_iff {record : PosixLockRecord} (hvalid : validRecord record = true)
    (htyp : r.typ ≠ .unlock) :
    ((record.typ == .write || r.typ == .write) = true ∧ record.start ≤ r.stop ∧
        (record.stop.all fun stop => decide (r.start ≤ stop)) = true) ↔
      rangeOverlaps r.start (some r.stop) record.start record.stop = true ∧
        posixLockTypeConflicts record.typ r.typ = true := by
  have hstart := r.start_le
  have hlocked : record.typ ≠ .unlock := by
    simp only [validRecord, Bool.and_eq_true, bne_iff_ne] at hvalid
    exact hvalid.1.1
  have hrange : (record.start ≤ r.stop ∧ (record.stop.all fun stop => decide (r.start ≤ stop)) = true) ↔
      rangeOverlaps r.start (some r.stop) record.start record.stop = true := by
    cases record.stop <;> simp [rangeOverlaps, hstart, and_comm]
  have htypes : (record.typ == .write || r.typ == .write) = posixLockTypeConflicts record.typ r.typ := by
    revert hlocked htyp
    cases record.typ <;> cases r.typ <;> simp [posixLockTypeConflicts]
  rw [hrange, htypes, and_comm]

lemma mem_selected {blocker : Blocker} : blocker ∈ t.selected r self ↔
      ∃ row ∈ t.leases, ∃ session, t.session? row.session = some session ∧
        r.selects self row session = true ∧
        blocker = ⟨row.session, row.record.owner, (session.hostName, row.record.pid)⟩ := by
  simp only [Tables.selected, List.mem_dedup, List.mem_filterMap, Option.bind_eq_some_iff,
    Option.ite_none_right_eq_some, Option.some.injEq]
  constructor
  · rintro ⟨row, hrow, session, hsession, hselects, rfl⟩
    exact ⟨row, hrow, session, hsession, hselects, rfl⟩
  · rintro ⟨row, hrow, session, hsession, hselects, rfl⟩
    exact ⟨row, hrow, session, hsession, hselects, rfl⟩

lemma blocks_iff (hvalid : ∀ row ∈ t.leases, validRecord row.record = true) (htyp : r.typ ≠ .unlock)
    (process : Process) : (process ≠ self ∧ t.Blocks r process) ↔
      ∃ blocker ∈ t.selected r self, blocker.owner ≠ r.owner ∧ blocker.process = process := by
  simp only [mem_selected, Tables.Blocks]
  constructor
  · rintro ⟨hself, row, hrow, session, hsession, hresource, hlease, hlive, rfl, howner, hconflict⟩
    refine ⟨_, ⟨row, hrow, session, hsession, ?_, rfl⟩, howner, rfl⟩
    have hsql := (conflicts_iff (hvalid row hrow) htyp).mpr hconflict
    simp only [Registration.selects, Bool.and_eq_true, beq_iff_eq, decide_eq_true_eq, bne_iff_ne]
    exact ⟨⟨⟨⟨⟨⟨hresource, hlease⟩, hlive⟩, hself⟩, hsql.1⟩, hsql.2.1⟩, hsql.2.2⟩
  · rintro ⟨_, ⟨row, hrow, session, hsession, hselects, rfl⟩, howner, rfl⟩
    simp only [Registration.selects, Bool.and_eq_true, beq_iff_eq, decide_eq_true_eq, bne_iff_ne]
      at hselects
    obtain ⟨⟨⟨⟨⟨⟨hresource, hlease⟩, hlive⟩, hself⟩, hlock⟩, hstart⟩, hstop⟩ := hselects
    exact ⟨hself, row, hrow, session, hsession, hresource, hlease, hlive, rfl, howner,
      (conflicts_iff (hvalid row hrow) htyp).mp ⟨hlock, hstart, hstop⟩⟩

/-- One key stands for one process among the selected rows. -/
def Tables.OneProcess (t : Tables) (r : Registration) (self : Process) : Prop :=
  ∀ a ∈ t.selected r self, ∀ b ∈ t.selected r self, a.key = b.key → a.process = b.process

/-- Rows of the waiter's own owner add no process. -/
def Tables.NothingOwn (t : Tables) (r : Registration) (self : Process) : Prop :=
  ∀ a ∈ t.selected r self, a.owner = r.owner →
    ∃ b ∈ t.selected r self, b.owner ≠ r.owner ∧ b.process = a.process

instance (t : Tables) (r : Registration) (self : Process) : Decidable (t.OneProcess r self) :=
  inferInstanceAs (Decidable (∀ a ∈ _, ∀ b ∈ _, _ → _))

instance (t : Tables) (r : Registration) (self : Process) : Decidable (t.NothingOwn r self) :=
  inferInstanceAs (Decidable (∀ a ∈ _, _ → ∃ b ∈ _, _ ∧ _))

lemma nodup_keys_iff : ((t.selected r self).map Blocker.key).Nodup ↔ t.OneProcess r self := by
  have hnodup : (t.selected r self).Nodup := List.nodup_dedup _
  rw [List.nodup_map_iff_inj_on hnodup]
  constructor
  · intro hinj a ha b hb hkey
    rw [hinj a ha b hb hkey]
  · rintro hone ⟨session, owner, process⟩ ha ⟨session', owner', process'⟩ hb hkey
    obtain rfl : process = process' := hone _ ha _ hb hkey
    obtain ⟨rfl, rfl⟩ := Prod.mk.inj hkey
    rfl

lemma register_ok {session : ClientSession} {new : List WaitEdge}
    (hsession : t.session? r.session = some session)
    (hnew : t.newEdges r (session.hostName, r.pid) = .ok new) : ∃ result, t.register r = .ok result := by
  simp only [Tables.register, hsession, hnew]
  split <;> exact ⟨_, rfl⟩

/-- A registration names exactly the blockers if and only if no owner has selected rows of two
processes and rows of the waiter's own owner add no process. -/
theorem waits_exactly_iff (t : Tables) (r : Registration) (session : ClientSession)
    (hsession : t.session? r.session = some session)
    (hvalid : ∀ row ∈ t.leases, validRecord row.record = true) (htyp : r.typ ≠ .unlock) :
    t.WaitsExactly r (session.hostName, r.pid) ↔
      t.OneProcess r (session.hostName, r.pid) ∧ t.NothingOwn r (session.hostName, r.pid) := by
  simp only [Tables.WaitsExactly, blocks_iff hvalid htyp]
  constructor
  · rintro ⟨-, new, hnew, hexact⟩
    rw [Tables.newEdges] at hnew
    split at hnew
    next hkeys =>
      obtain rfl := Except.ok.inj hnew
      refine ⟨nodup_keys_iff.mp hkeys, fun a ha howner => (hexact a.process).mp ?_⟩
      simp only [List.map_map, List.mem_map, Function.comp]
      exact ⟨a, ha, rfl⟩
    next => cases hnew
  · rintro ⟨hone, hown⟩
    have hnew : t.newEdges r (session.hostName, r.pid) = .ok _ := if_pos (nodup_keys_iff.mpr hone)
    refine ⟨register_ok hsession hnew, _, hnew, fun process => ?_⟩
    simp only [List.map_map, List.mem_map, Function.comp]
    constructor
    · rintro ⟨a, ha, rfl⟩
      by_cases howner : a.owner = r.owner
      · exact hown a ha howner
      · exact ⟨a, ha, howner, rfl⟩
    · rintro ⟨a, ha, -, rfl⟩
      exact ⟨a, ha, rfl⟩

/-- In the tables of the two crossed processes the second one waits for the first. -/
theorem waits_exactly_crossed : crossed.WaitsExactly secondWaits ("a", 200) :=
  (waits_exactly_iff crossed secondWaits ⟨1, "a", 100⟩ rfl (by decide) (by decide)).mpr
    ⟨by decide, by decide⟩

def twoPids : Tables :=
  ⟨[⟨1, "a", 100⟩], [⟨1, 1, ⟨10, .write, 0, some 4, 100⟩, 50⟩, ⟨1, 1, ⟨10, .write, 5, some 9, 101⟩, 50⟩],
    []⟩

def ownPid : Tables :=
  ⟨[⟨1, "a", 100⟩], [⟨1, 1, ⟨10, .read, 0, some 9, 100⟩, 50⟩, ⟨1, 1, ⟨20, .read, 0, some 9, 201⟩, 50⟩],
    []⟩

/-- The registration fails on two processes of one owner, and it waits for a process of the
waiter's own owner. -/
theorem wait_registration_inexact :
    (lockConflict (twoPids.leases.map LeaseRow.record) 20 .write 0 9).isSome = true ∧
    twoPids.register secondWaits = .error .cardinalityViolation ∧
    (lockConflict (ownPid.leases.map LeaseRow.record) 20 .write 0 9).isSome = true ∧
    (∃ t', ownPid.register secondWaits = .ok (t', false) ∧
      t'.graph 0 = [(("a", 200), ("a", 100)), (("a", 200), ("a", 201))]) ∧
    ¬ ownPid.Blocks secondWaits ("a", 201) := by
  refine ⟨by decide, rfl, by decide, ⟨_, rfl, rfl⟩, ?_⟩
  rintro ⟨row, hrow, session, -, -, -, -, hprocess, howner, -⟩
  have hpid : row.record.pid = 201 := (congrArg Prod.snd hprocess).symm
  have hrows : ∀ row ∈ ownPid.leases, row.record.pid = 201 → row.record.owner = 20 := by decide
  exact howner (hrows row hrow hpid)

end Exact

end Fod.Locks.WaitGraph
