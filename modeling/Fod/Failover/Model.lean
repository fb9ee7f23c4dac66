import Fod.Lib.Counter
import Fod.Lib.GuardedRun

/-!
# The fence around a change of the primary

`DbRepoConnectionTargets` with the promotion guard enabled.  A connection is
handed out for a generation of the primary, and an operation on it runs under a
guard of that generation.  Whoever changes the generation holds the `transition`
lock and waits until no guard is left; a revalidation that has been asked for
lets a scan of the targets change the active one without waiting.
-/

namespace Fod.Failover

open Counter

structure Target where
  authority : String

structure Probe where
  recovery : Bool
  readOnly : Bool
  systemIdentifier : String
  serverFingerprint : String

def Probe.writablePrimary (probe : Probe) : Bool := !probe.recovery && !probe.readOnly

inductive Outcome where
  | unreachable
  | probeFailed
  | probed (probe : Probe)

structure PrimarySafetyCandidate where
  targetIndex : Nat
  authority : String
  systemIdentifier : String
  serverFingerprint : String

inductive PrimarySafetyErrorKind where
  | noWritablePrimary
  | clusterIdentityMismatch
  | splitBrain

structure PrimarySafetyError where
  kind : PrimarySafetyErrorKind
  message : String

def foreignCluster (first : PrimarySafetyCandidate) (candidates : List PrimarySafetyCandidate) :
    Option String → Option String
  | some expected =>
    (candidates.find? fun candidate => candidate.systemIdentifier != expected).map fun foreign =>
      "PostgreSQL promotion guard rejected writable target " ++ foreign.authority ++
        " from foreign cluster system_identifier=" ++ foreign.systemIdentifier ++
        " expected=" ++ expected
  | none =>
    (candidates.find? fun candidate =>
      candidate.systemIdentifier != first.systemIdentifier).map fun other =>
        "PostgreSQL promotion guard found writable targets from multiple cluster identities: " ++
          first.systemIdentifier ++ " and " ++ other.systemIdentifier

def distinctFingerprints (candidates : List PrimarySafetyCandidate) : List String :=
  candidates.foldl (fun fingerprints candidate =>
    if fingerprints.contains candidate.serverFingerprint then fingerprints
    else fingerprints ++ [candidate.serverFingerprint]) []

def preferredPosition (candidates : List PrimarySafetyCandidate) : Option Nat → Nat
  | some avoid => (candidates.findIdx? fun candidate => candidate.targetIndex != avoid).getD 0
  | none => 0

def chooseSafePrimaryCandidate (candidates : List PrimarySafetyCandidate)
    (expectedSystemIdentifier : Option String) (avoidTargetIndex : Option Nat) :
    Except PrimarySafetyError Nat :=
  match candidates with
  | [] => .error ⟨.noWritablePrimary, "PostgreSQL promotion guard found no writable primary"⟩
  | first :: _ =>
    match foreignCluster first candidates expectedSystemIdentifier with
    | some message => .error ⟨.clusterIdentityMismatch, message⟩
    | none =>
      let fingerprints := distinctFingerprints candidates
      if 1 < fingerprints.length then
        .error ⟨.splitBrain, "PostgreSQL promotion guard detected " ++
          toString fingerprints.length ++
          " simultaneously writable server identities for one cluster"⟩
      else .ok (preferredPosition candidates avoidTargetIndex)

structure Scan where
  live : List (PrimarySafetyCandidate × Probe)
  unreachable : Nat
  roleRejections : Nat

def Scan.add (scan : Scan) (target : Target × Nat) : Outcome → Scan
  | .unreachable => { scan with unreachable := saturatingAdd scan.unreachable 1 }
  | .probeFailed => { scan with roleRejections := saturatingAdd scan.roleRejections 1 }
  | .probed probe =>
    if probe.writablePrimary then
      { scan with
        live := scan.live ++ [(⟨target.2, target.1.authority, probe.systemIdentifier,
          probe.serverFingerprint⟩, probe)] }
    else { scan with roleRejections := saturatingAdd scan.roleRejections 1 }

def scanTargets (targets : List Target) (answers : Nat → Outcome) : Scan :=
  targets.zipIdx.foldl (fun scan target => scan.add target (answers target.2)) ⟨[], 0, 0⟩

/-- `DbRepoConnectionTargetState` without the scores of replicas. -/
structure TargetState where
  activeIndex : Nat
  generation : Nat
  failoverCount : Nat
  connectionFailures : Nat
  roleRejections : Nat
  lastFailedAuthority : Option String
  systemIdentifier : Option String
  serverFingerprint : Option String
  revalidationRequired : Bool
  lastFailedIndex : Option Nat
  guardScans : Nat
  guardUnreachable : Nat
  guardRoleRejections : Nat
  guardClusterIdentityRejections : Nat
  guardSplitBrainRejections : Nat
  guardNoPrimaryRejections : Nat
  guardLastError : Option String
  operationsInFlight : Nat
  transitionPending : Bool

namespace TargetState

def default : TargetState :=
  ⟨0, 1, 0, 0, 0, none, none, none, false, none, 0, 0, 0, 0, 0, 0, none, 0, false⟩

def recordGuardError (s : TargetState) (error : PrimarySafetyError) : TargetState :=
  let s :=
    match error.kind with
    | .noWritablePrimary =>
      { s with guardNoPrimaryRejections := saturatingAdd s.guardNoPrimaryRejections 1 }
    | .clusterIdentityMismatch =>
      { s with
        guardClusterIdentityRejections := saturatingAdd s.guardClusterIdentityRejections 1 }
    | .splitBrain =>
      { s with guardSplitBrainRejections := saturatingAdd s.guardSplitBrainRejections 1 }
  { s with guardLastError := some error.message }

def recordScan (s : TargetState) (unreachable roleRejections : Nat) : TargetState :=
  { s with
    guardUnreachable := saturatingAdd s.guardUnreachable unreachable
    guardRoleRejections := saturatingAdd s.guardRoleRejections roleRejections }

def recordFailure (s : TargetState) (roleRejection : Bool) : TargetState :=
  { s with
    connectionFailures := saturatingAdd s.connectionFailures 1
    roleRejections := if roleRejection then saturatingAdd s.roleRejections 1 else s.roleRejections }

def advance (s : TargetState) (authority : String) : TargetState :=
  { s with
    lastFailedAuthority := some authority
    generation := saturatingAdd s.generation 1
    revalidationRequired := true
    lastFailedIndex := some s.activeIndex
    transitionPending := false }

def revalidate (s : TargetState) (expectedGeneration activeIndex : Nat) (lastError : Option String) :
    TargetState :=
  let s :=
    if s.generation = expectedGeneration then
      { s with
        revalidationRequired := true
        lastFailedIndex := some activeIndex
        guardLastError := lastError <|> s.guardLastError
        generation := saturatingAdd s.generation 1 }
    else s
  { s with transitionPending := false }

def switch (s : TargetState) (candidate : PrimarySafetyCandidate) (previousIndex : Nat)
    (wasRevalidation transition : Bool) : TargetState :=
  let s :=
    if previousIndex ≠ candidate.targetIndex then
      { s with
        activeIndex := candidate.targetIndex
        failoverCount := saturatingAdd s.failoverCount 1
        generation := if wasRevalidation then s.generation else saturatingAdd s.generation 1 }
    else s
  { s with
    systemIdentifier := some candidate.systemIdentifier
    serverFingerprint := some candidate.serverFingerprint
    revalidationRequired := false
    lastFailedIndex := none
    guardLastError := none
    transitionPending := if transition then false else s.transitionPending }

end TargetState

/-- The critical section that the thread with the `transition` lock enters next, with what
it has read so far.  After `advance_after_failure` it either returns or scans the targets,
avoiding one. -/
inductive Stage where
  | failing (generation : Nat)
  | advancing (expected : Nat) (authority : String) (roleRejection : Bool) (avoid : Option Nat)
  | advanceWaiting (authority : String) (avoid : Option Nat)
  | connecting
  | targeting (systemIdentifier serverFingerprint : Option String)
  | indexing (systemIdentifier serverFingerprint : Option String) (authority : String)
      (generation : Nat)
  | probing (systemIdentifier serverFingerprint : Option String) (authority : String)
      (generation activeIndex : Nat)
  | revalidating (expected activeIndex : Nat) (lastError : Option String)
  | revalidateWaiting (expected activeIndex : Nat) (lastError : Option String)
  | scanning (avoid : Option Nat)
  | deciding (avoid : Option Nat) (expected : Option String)
  | rejecting (error : PrimarySafetyError) (unreachable roleRejections : Nat)
  | selecting (candidate : PrimarySafetyCandidate) (conn : Probe) (unreachable roleRejections : Nat)
  | switchWaiting (candidate : PrimarySafetyCandidate) (conn : Probe) (previousIndex : Nat)

inductive Progress where
  | finished
  | next (stage : Stage)
  | handedOut (conn : Probe) (generation : Nat)

def afterAdvance : Option Nat → Progress
  | none => .finished
  | some avoid => .next (.scanning (some avoid))

/-- A critical section on the state.  `none` while the thread has to wait for operations
that are in flight, or for the network. -/
def proceed (targets : List Target) (s : TargetState) : Stage → Option (TargetState × Progress)
  | .failing generation =>
    targets[s.activeIndex]?.map fun target =>
      (s, .next (.advancing generation target.authority false none))
  | .advancing expected authority roleRejection avoid =>
    let s := s.recordFailure roleRejection
    if s.generation ≠ expected then some (s, afterAdvance avoid)
    else if 0 < s.operationsInFlight then
      some ({ s with transitionPending := true }, .next (.advanceWaiting authority avoid))
    else some (s.advance authority, afterAdvance avoid)
  | .advanceWaiting authority avoid =>
    if 0 < s.operationsInFlight then none else some (s.advance authority, afterAdvance avoid)
  | .connecting =>
    let needsScan :=
      s.revalidationRequired || s.systemIdentifier.isNone || s.serverFingerprint.isNone
    some (s, .next (if needsScan then .scanning s.lastFailedIndex
      else .targeting s.systemIdentifier s.serverFingerprint))
  | .targeting systemIdentifier serverFingerprint =>
    targets[s.activeIndex]?.map fun target =>
      (s, .next (.indexing systemIdentifier serverFingerprint target.authority s.generation))
  | .indexing systemIdentifier serverFingerprint authority generation =>
    some (s, .next (.probing systemIdentifier serverFingerprint authority generation s.activeIndex))
  | .revalidating expected activeIndex lastError =>
    if s.generation ≠ expected then some (s, .next (.scanning (some activeIndex)))
    else if 0 < s.operationsInFlight then
      some ({ s with transitionPending := true },
        .next (.revalidateWaiting expected activeIndex lastError))
    else some (s.revalidate expected activeIndex lastError, .next (.scanning (some activeIndex)))
  | .revalidateWaiting expected activeIndex lastError =>
    if 0 < s.operationsInFlight then none
    else some (s.revalidate expected activeIndex lastError, .next (.scanning (some activeIndex)))
  | .scanning avoid =>
    some ({ s with guardScans := saturatingAdd s.guardScans 1 },
      .next (.deciding avoid s.systemIdentifier))
  | .rejecting error unreachable roleRejections =>
    some ({ (s.recordScan unreachable roleRejections).recordGuardError error with
      revalidationRequired := true }, .finished)
  | .selecting candidate conn unreachable roleRejections =>
    let s := s.recordScan unreachable roleRejections
    if s.activeIndex ≠ candidate.targetIndex ∧ s.revalidationRequired = false then
      if 0 < s.operationsInFlight then
        some ({ s with transitionPending := true },
          .next (.switchWaiting candidate conn s.activeIndex))
      else
        let s := s.switch candidate s.activeIndex false true
        some (s, .handedOut conn s.generation)
    else
      let s := s.switch candidate s.activeIndex s.revalidationRequired false
      some (s, .handedOut conn s.generation)
  | .switchWaiting candidate conn previousIndex =>
    if 0 < s.operationsInFlight then none
    else
      let s := s.switch candidate previousIndex false true
      some (s, .handedOut conn s.generation)
  | .probing _ _ _ _ _ | .deciding _ _ => none

def answered (targets : List Target) (answers : Nat → Outcome) : Stage → Option Progress
  | .probing systemIdentifier serverFingerprint authority generation activeIndex =>
    match answers activeIndex with
    | .unreachable => some (.next (.advancing generation authority false (some activeIndex)))
    | .probeFailed => some (.next (.advancing generation authority true (some activeIndex)))
    | .probed probe =>
      if !probe.writablePrimary then
        some (.next (.advancing generation authority true (some activeIndex)))
      else if systemIdentifier ≠ some probe.systemIdentifier then
        some (.next (.revalidating generation activeIndex (some
          ("PostgreSQL promotion guard observed changed cluster identity on " ++ authority ++
            ": observed=" ++ probe.systemIdentifier ++ " expected=" ++
            systemIdentifier.getD "none"))))
      else if serverFingerprint ≠ some probe.serverFingerprint then
        some (.next (.revalidating generation activeIndex none))
      else some (.handedOut probe generation)
  | .deciding avoid expected =>
    let scan := scanTargets targets answers
    match chooseSafePrimaryCandidate (scan.live.map Prod.fst) expected avoid with
    | .error error => some (.next (.rejecting error scan.unreachable scan.roleRejections))
    | .ok position =>
      scan.live[position]?.map fun (candidate, conn) =>
        .next (.selecting candidate conn scan.unreachable scan.roleRejections)
  | _ => none

/-- A connection that was handed out, with the system identifier that was recorded at that
moment. -/
structure Connection where
  generation : Nat
  probe : Probe
  recorded : Option String

/-- `guards` are the operations that hold a `PrimaryOperationGuard`, each with the generation
it was obtained for. -/
structure System where
  state : TargetState
  holder : Option Stage
  handed : List Connection
  guards : List (Nat × Nat)

/-- An operation begins with the generation of a connection that was handed out, possibly
by way of the pool. -/
inductive Action where
  | begin (op generation : Nat)
  | finish (op : Nat)
  | markFailure (generation : Nat)
  | connectNew
  | proceed
  | answer (answers : Nat → Outcome)

namespace System

def init : System := ⟨.default, none, [], []⟩

def settle (s : System) (state : TargetState) : Progress → System
  | .finished => { s with state := state, holder := none }
  | .next stage => { s with state := state, holder := some stage }
  | .handedOut conn generation =>
    { s with
      state := state
      holder := none
      handed := ⟨generation, conn, s.state.systemIdentifier⟩ :: s.handed }

def beginOperation (s : System) (op generation : Nat) : System :=
  if s.state.generation ≠ generation then s
  else
    match checkedAdd s.state.operationsInFlight 1 with
    | none => s
    | some inFlight =>
      { s with
        state := { s.state with operationsInFlight := inFlight }
        guards := (op, generation) :: s.guards }

def step (targets : List Target) (s : System) : Action → Option System
  | .begin op generation =>
    if generation ∉ s.handed.map Connection.generation ∨ op ∈ s.guards.map Prod.fst then none
    else if s.state.transitionPending then none
    else some (s.beginOperation op generation)
  | .finish op =>
    match s.guards.find? fun guard => guard.1 == op with
    | none => none
    | some guard =>
      some { s with
        state := { s.state with operationsInFlight := s.state.operationsInFlight - 1 }
        guards := s.guards.erase guard }
  | .markFailure generation =>
    match s.holder with
    | none => some { s with holder := some (.failing generation) }
    | some _ => none
  | .connectNew =>
    match s.holder with
    | none => some { s with holder := some .connecting }
    | some _ => none
  | .proceed =>
    match s.holder with
    | none => none
    | some stage => (Failover.proceed targets s.state stage).map fun result => s.settle result.1 result.2
  | .answer answers =>
    match s.holder with
    | none => none
    | some stage => (answered targets answers stage).map (s.settle s.state)

end System

end Fod.Failover
