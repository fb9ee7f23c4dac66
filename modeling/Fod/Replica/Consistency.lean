import Fod.Lib.GuardedRun

/-!
# Replica read routing

`with_connection` runs an operation on the primary and then refreshes the WAL
position that replicas must have replayed; `with_read_connection` may serve a
read from a replica.  The two share one `ReplicaReadConsistency`.  Every
mutex-protected access and every query is one atomic step of a call, and calls
interleave freely.
-/

namespace Fod.Replica

structure ReplicaReadConsistency where
  requiredPrimaryWalLsn : Option Nat
  forcePrimary : Bool

namespace ReplicaReadConsistency

def recordPrimaryWalLsn (c : ReplicaReadConsistency) (parsed : Nat) :
    ReplicaReadConsistency :=
  { c with requiredPrimaryWalLsn := some parsed, forcePrimary := false }

def recordPrimaryWalLsnCaptureFailure (c : ReplicaReadConsistency) :
    ReplicaReadConsistency :=
  { c with forcePrimary := true }

def requiredLsn (c : ReplicaReadConsistency) : Option Nat :=
  if c.forcePrimary then none else c.requiredPrimaryWalLsn

def recordAnswer (c : ReplicaReadConsistency) : Option Nat →
    ReplicaReadConsistency
  | some lsn => c.recordPrimaryWalLsn lsn
  | none => c.recordPrimaryWalLsnCaptureFailure

end ReplicaReadConsistency

/--
Where one call stands.  The first group is `with_connection(Write)`: `commit`
is the WAL position of the transaction that the operation committed, if any.
The second group is `with_read_connection`: `before` are the commits of the
operations that had returned `Ok` when the read started.
-/
inductive Call where
  | executing (replayed : Bool)
  | executed (commit : Option Nat)
  | captured (commit answer : Option Nat)
  | refreshed (commit : Option Nat)
  | returned (ok : Bool)
  | routing (before : List Nat)
  | pressing (before : List Nat)
  | selecting (before : List Nat) (attempts : Nat)
  | connected (before : List Nat) (attempts replica : Nat)
  | requiring (before : List Nat) (attempts replica : Nat)
  | replaying (before : List Nat) (attempts replica required : Nat)
  | caughtUp (before : List Nat) (attempts replica : Nat)
  | served (before : List Nat) (replica lsn : Nat)
  deriving DecidableEq

def Call.before? : Call → Option (List Nat)
  | .routing before | .pressing before | .selecting before _
  | .connected before _ _ | .requiring before _ _
  | .replaying before _ _ _ | .caughtUp before _ _ => some before
  | _ => none

inductive ReplayAnswer where
  | failed
  | empty
  | replayed

/--
`wal` is the position of the primary, `replayLsn` the position each replica has
replayed, `acknowledged` the commits of all operations that returned `Ok`.
-/
structure State where
  consistency : ReplicaReadConsistency
  wal : Nat
  replayLsn : Nat → Nat
  targetCount : Nat
  calls : List Call
  acknowledged : List Nat

inductive Action where
  | callWrite
  | callRead
  | execute (t : Nat) (commit : Option Nat)
  | executeFails (t : Nat) (replayable : Bool)
  | capture (t : Nat) (ok : Bool)
  | record (t : Nat)
  | finish (t : Nat) (ok : Bool)
  | writeWal (lsn : Nat)
  | replay (replica lsn : Nat)
  | route (t : Nat)
  | press (t : Nat) (prefersPrimary : Bool)
  | connect (t : Nat) (replica : Option Nat)
  | testForcePrimary (t : Nat) (switched : Bool)
  | readRequiredLsn (t : Nat)
  | readReplayLsn (t : Nat) (answer : ReplayAnswer) (switched : Bool)
  | serve (t : Nat) (ok : Bool)
  | readFails (t : Nat)

namespace State

def setCall (s : State) (t : Nat) (call : Call) : State :=
  { s with calls := s.calls.set t call }

def afterLag (before : List Nat) (attempts : Nat) (switched : Bool) : Call :=
  if switched then .selecting before attempts else .executing false

def afterRequired (before : List Nat) (attempts replica : Nat) : Option Nat → Call
  | none => .caughtUp before attempts replica
  | some required => .replaying before attempts replica required

end State

open State

def step (s : State) : Action → Option State
  | .callWrite => some { s with calls := s.calls ++ [.executing false] }
  | .callRead => some { s with calls := s.calls ++ [.routing s.acknowledged] }
  | .execute t commit =>
    match s.calls[t]? with
    | some (.executing _) =>
      match commit with
      | none => some (s.setCall t (.executed none))
      -- a commit appends its record to the WAL
      | some lsn =>
        if s.wal < lsn then
          some ({ s with wal := lsn }.setCall t (.executed (some lsn)))
        else none
    | _ => none
  | .executeFails t replayable =>
    match s.calls[t]? with
    | some (.executing replayed) =>
      if replayable && !replayed then some (s.setCall t (.executing true))
      else some (s.setCall t (.returned false))
    | _ => none
  | .capture t ok =>
    match s.calls[t]? with
    | some (.executed commit) =>
      some (s.setCall t (.captured commit (if ok then some s.wal else none)))
    | _ => none
  | .record t =>
    match s.calls[t]? with
    | some (.captured commit answer) =>
      some ({ s with consistency := s.consistency.recordAnswer answer }.setCall t
        (.refreshed commit))
    | _ => none
  | .finish t ok =>
    match s.calls[t]? with
    | some (.refreshed commit) =>
      if ok then
        some ({ s with acknowledged := commit.toList ++ s.acknowledged }.setCall t
          (.returned true))
      else some (s.setCall t (.returned false))
    | _ => none
  | .writeWal lsn => if s.wal ≤ lsn then some { s with wal := lsn } else none
  | .replay replica lsn =>
    if s.replayLsn replica ≤ lsn ∧ lsn ≤ s.wal then
      some { s with replayLsn := Function.update s.replayLsn replica lsn }
    else none
  | .route t =>
    match s.calls[t]? with
    | some (.routing before) =>
      some (s.setCall t
        (if s.consistency.forcePrimary then .executing false else .pressing before))
    | _ => none
  | .press t prefersPrimary =>
    match s.calls[t]? with
    | some (.pressing before) =>
      some (s.setCall t
        (if prefersPrimary then .executing false else .selecting before 0))
    | _ => none
  | .connect t replica =>
    match s.calls[t]? with
    | some (.selecting before attempts) =>
      match replica with
      | some r =>
        if attempts < max s.targetCount 1 then
          some (s.setCall t (.connected before (attempts + 1) r))
        else none
      -- no target, no connection, or no attempt left
      | none => some (s.setCall t (.executing false))
    | _ => none
  | .testForcePrimary t switched =>
    match s.calls[t]? with
    | some (.connected before attempts r) =>
      some (s.setCall t
        (if s.consistency.forcePrimary then afterLag before attempts switched
         else .requiring before attempts r))
    | _ => none
  | .readRequiredLsn t =>
    match s.calls[t]? with
    | some (.requiring before attempts r) =>
      some (s.setCall t (afterRequired before attempts r s.consistency.requiredLsn))
    | _ => none
  | .readReplayLsn t answer switched =>
    match s.calls[t]? with
    | some (.replaying before attempts r required) =>
      match answer with
      | .failed => some (s.setCall t (.selecting before attempts))
      | .empty => some (s.setCall t (afterLag before attempts switched))
      | .replayed =>
        if required ≤ s.replayLsn r then
          some (s.setCall t (.caughtUp before attempts r))
        else some (s.setCall t (afterLag before attempts switched))
    | _ => none
  | .serve t ok =>
    match s.calls[t]? with
    | some (.caughtUp before attempts r) =>
      if ok then some (s.setCall t (.served before r (s.replayLsn r)))
      else some (s.setCall t (.selecting before attempts))
    | _ => none
  | .readFails t =>
    match s.calls[t]?.bind Call.before? with
    | some _ => some (s.setCall t (.returned false))
    | none => none

def init (wal : Nat) (replayLsn : Nat → Nat) (targetCount : Nat) : State :=
  ⟨⟨none, false⟩, wal, replayLsn, targetCount, [], []⟩

/--
A replica shows a transaction when it has replayed its commit; every read
served by a replica sees all operations acknowledged before it started.
-/
def ReadsSeeAcknowledged (s : State) : Prop :=
  ∀ before r lsn, Call.served before r lsn ∈ s.calls →
    ∀ commit ∈ before, commit ≤ lsn

def Covers (c : ReplicaReadConsistency) (commit : Nat) : Prop :=
  c.forcePrimary = true ∨
    ∃ required, c.requiredPrimaryWalLsn = some required ∧ commit ≤ required

lemma covers_recordAnswer {c : ReplicaReadConsistency} {commit : Nat}
    {answer : Option Nat} (h : ∀ lsn ∈ answer, commit ≤ lsn) :
    Covers (c.recordAnswer answer) commit := by
  cases answer with
  | none => exact .inl rfl
  | some lsn => exact .inr ⟨lsn, rfl, h lsn rfl⟩

lemma le_of_covers_requiredLsn {c : ReplicaReadConsistency}
    {commit required : Nat} (h : Covers c commit)
    (hrequired : c.requiredLsn = some required) : commit ≤ required := by
  unfold ReplicaReadConsistency.requiredLsn at hrequired
  split at hrequired
  · cases hrequired
  · obtain hforce | ⟨r, hr, hle⟩ := h
    · contradiction
    · simp_all

def CallInv (s : State) : Call → Prop
  | .executed commit => ∀ c ∈ commit, c ≤ s.wal
  | .captured commit answer => ∀ c ∈ commit, c ≤ s.wal ∧ ∀ lsn ∈ answer, c ≤ lsn
  | .refreshed commit => ∀ c ∈ commit, c ≤ s.wal ∧ Covers s.consistency c
  | .replaying before _ _ required => ∀ c ∈ before, c ∈ s.acknowledged ∧ c ≤ required
  | .caughtUp before _ r => ∀ c ∈ before, c ∈ s.acknowledged ∧ c ≤ s.replayLsn r
  | .served before _ lsn => ∀ c ∈ before, c ≤ lsn
  | call => ∀ before ∈ call.before?, ∀ c ∈ before, c ∈ s.acknowledged

structure Inv (s : State) : Prop where
  calls : ∀ call ∈ s.calls, CallInv s call
  acknowledged : ∀ c ∈ s.acknowledged, c ≤ s.wal ∧ Covers s.consistency c

variable {before : List Nat} {call : Call} {s : State}

lemma CallInv.before_acknowledged (h : CallInv s call) (hbefore : call.before? = some before) :
    ∀ c ∈ before, c ∈ s.acknowledged := by
  cases call <;> simp_all [CallInv, Call.before?]

def Recorded (s : State) (commit : Nat) : Prop :=
  commit ∈ s.acknowledged ∨ Call.refreshed (some commit) ∈ s.calls

structure Extends (s s' : State) : Prop where
  wal : s.wal ≤ s'.wal
  acknowledged : ∀ c ∈ s.acknowledged, c ∈ s'.acknowledged
  replayLsn : ∀ r, s.replayLsn r ≤ s'.replayLsn r
  covers : ∀ c, Recorded s c → Covers s.consistency c → Covers s'.consistency c

lemma CallInv.mono {s s' : State} (h : Extends s s')
    (hmem : call ∈ s.calls) (hcall : CallInv s call) : CallInv s' call := by
  cases call with
  | executed commit => exact fun c hc => Nat.le_trans (hcall c hc) h.wal
  | captured commit answer =>
    exact fun c hc => ⟨Nat.le_trans (hcall c hc).1 h.wal, (hcall c hc).2⟩
  | refreshed commit =>
    intro c hc
    obtain rfl : commit = some c := hc
    obtain ⟨hwal, hcovers⟩ := hcall c rfl
    exact ⟨Nat.le_trans hwal h.wal, h.covers c (.inr hmem) hcovers⟩
  | replaying before attempts r required =>
    exact fun c hc => ⟨h.acknowledged c (hcall c hc).1, (hcall c hc).2⟩
  | caughtUp before attempts r =>
    exact fun c hc => ⟨h.acknowledged c (hcall c hc).1,
      Nat.le_trans (hcall c hc).2 (h.replayLsn r)⟩
  | served before r lsn => exact hcall
  | executing | returned | routing | pressing | selecting | connected | requiring =>
    exact fun before hb c hc => h.acknowledged c (hcall before hb c hc)

lemma Inv.move {s s' : State} (h : Inv s) (hext : Extends s s')
    (hack : s'.acknowledged = s.acknowledged) (hcalls : ∀ c ∈ s'.calls, c ∈ s.calls ∨ c = call)
    (hcall : CallInv s' call) : Inv s' where
  calls := by
    intro c hc
    obtain hold | rfl := hcalls c hc
    · exact (h.calls c hold).mono hext hold
    · exact hcall
  acknowledged := by
    intro c hc
    rw [hack] at hc
    obtain ⟨hwal, hcovers⟩ := h.acknowledged c hc
    exact ⟨Nat.le_trans hwal hext.wal, hext.covers c (.inl hc) hcovers⟩

lemma Extends.refl_calls (s : State) (calls : List Call) :
    Extends s { s with calls } :=
  ⟨le_rfl, fun _ h => h, fun _ => le_rfl, fun _ _ h => h⟩

lemma Inv.setCall (h : Inv s) (t : Nat) (hcall : CallInv s call) : Inv (s.setCall t call) :=
  h.move (Extends.refl_calls s _) rfl
    (fun _ hc => List.mem_or_eq_of_mem_set hc) (by cases call <;> exact hcall)

/-! ## Runs whose positions are recorded in order -/

def Call.answer? : Call → Option Nat
  | .captured _ answer => answer
  | _ => none

def Call.unacknowledged? : Call → Option Nat
  | .refreshed commit => commit
  | _ => none

def recording (s : State) : Action → Option Nat
  | .record t => s.calls[t]?.bind Call.answer?
  | _ => none

def askingRequired (s : State) : Action → Option (List Nat)
  | .readRequiredLsn t => s.calls[t]?.bind Call.before?
  | _ => none

/--
A recorded position is not behind the commit of an operation that recorded
before it, and `force_primary` is not raised between the two looks that
`replica_is_caught_up` takes at the shared state.
-/
def InOrder (s : State) (a : Action) : Prop :=
  (∀ lsn ∈ recording s a, (∀ c ∈ s.acknowledged, c ≤ lsn) ∧
      ∀ call ∈ s.calls, ∀ c ∈ call.unacknowledged?, c ≤ lsn) ∧
    ∀ before ∈ askingRequired s a, s.consistency.forcePrimary = true → before = []

instance (s : State) (a : Action) : Decidable (InOrder s a) :=
  inferInstanceAs (Decidable (_ ∧ _))

lemma InOrder.le_of_recorded {t commit lsn : Nat} {own : Option Nat} (h : InOrder s (.record t))
    (ht : s.calls[t]? = some (.captured own (some lsn)))
    (hrec : Recorded s commit) : commit ≤ lsn := by
  have hlsn : lsn ∈ recording s (.record t) := by simp [recording, ht, Call.answer?]
  obtain ⟨hack, hpending⟩ := h.1 lsn hlsn
  obtain hmem | hmem := hrec
  · exact hack commit hmem
  · exact hpending _ hmem commit rfl

lemma Inv.callInv (h : Inv s) {t : Nat} (ht : s.calls[t]? = some call) : CallInv s call :=
  h.calls call (List.mem_of_getElem? ht)

lemma callInv_afterLag (attempts : Nat) (switched : Bool) (h : ∀ c ∈ before, c ∈ s.acknowledged) :
    CallInv s (afterLag before attempts switched) := by
  cases switched
  · simp [afterLag, CallInv, Call.before?]
  · simpa [afterLag, CallInv, Call.before?] using h

lemma Inv.execute (h : Inv s) (t : Nat) {lsn : Nat}
    (hlsn : s.wal < lsn) :
    Inv ({ s with wal := lsn }.setCall t (.executed (some lsn))) := by
  refine h.move ⟨Nat.le_of_lt hlsn, fun _ hc => hc, fun _ => le_rfl, fun _ _ hc => hc⟩ rfl
    (fun _ hc => List.mem_or_eq_of_mem_set hc) ?_
  intro c hc
  obtain rfl : lsn = c := Option.some.inj hc
  exact le_rfl

lemma Inv.record (h : Inv s) {t : Nat} {commit answer : Option Nat}
    (ht : s.calls[t]? = some (.captured commit answer))
    (hguard : InOrder s (.record t)) :
    Inv ({ s with consistency := s.consistency.recordAnswer answer }.setCall t
      (.refreshed commit)) := by
  have hold := h.callInv ht
  refine h.move ⟨le_rfl, fun _ hc => hc, fun _ => le_rfl, ?_⟩ rfl
    (fun _ hc => List.mem_or_eq_of_mem_set hc) ?_
  · intro c hrec _
    refine covers_recordAnswer fun lsn hlsn => ?_
    obtain rfl : answer = some lsn := hlsn
    exact hguard.le_of_recorded ht hrec
  · intro c hc
    exact ⟨(hold c hc).1, covers_recordAnswer (hold c hc).2⟩

lemma Inv.finish (h : Inv s) {t : Nat} {commit : Option Nat}
    (ht : s.calls[t]? = some (.refreshed commit)) :
    Inv ({ s with acknowledged := commit.toList ++ s.acknowledged }.setCall t
      (.returned true)) := by
  have hold := h.callInv ht
  have hext : Extends s ({ s with
      acknowledged := commit.toList ++ s.acknowledged }.setCall t (.returned true)) :=
    ⟨le_rfl, fun _ hc => List.mem_append_right _ hc, fun _ => le_rfl, fun _ _ hc => hc⟩
  constructor
  · intro call hcall
    obtain hmem | rfl := List.mem_or_eq_of_mem_set hcall
    · exact (h.calls call hmem).mono hext hmem
    · simp [CallInv, Call.before?]
  · intro c hc
    obtain hnew | hmem := List.mem_append.mp hc
    · exact hold c (Option.mem_toList.mp hnew)
    · exact h.acknowledged c hmem

lemma Inv.replay (h : Inv s) {r lsn : Nat} (hlsn : s.replayLsn r ≤ lsn) :
    Inv { s with replayLsn := Function.update s.replayLsn r lsn } := by
  have hext : Extends s { s with replayLsn := Function.update s.replayLsn r lsn } := by
    refine ⟨le_rfl, fun _ hc => hc, fun r' => ?_, fun _ _ hc => hc⟩
    by_cases hr : r' = r
    · subst hr; simpa using hlsn
    · simp [hr]
  exact ⟨fun call hcall => (h.calls call hcall).mono hext hcall, h.acknowledged⟩

lemma Inv.readRequiredLsn (h : Inv s) {t attempts r : Nat}
    (ht : s.calls[t]? = some (.requiring before attempts r))
    (hguard : InOrder s (.readRequiredLsn t)) :
    Inv (s.setCall t (afterRequired before attempts r s.consistency.requiredLsn)) := by
  have hack : ∀ c ∈ before, c ∈ s.acknowledged :=
    (h.callInv ht).before_acknowledged rfl
  cases hrequired : s.consistency.requiredLsn with
  | some required =>
    refine h.setCall t fun c hc => ⟨hack c hc, ?_⟩
    exact le_of_covers_requiredLsn (h.acknowledged c (hack c hc)).2 hrequired
  | none =>
    -- nothing was ever recorded, or the guard leaves nothing to see
    have hempty : before = [] := by
      cases hforce : s.consistency.forcePrimary with
      | true => exact hguard.2 before (by simp [askingRequired, ht, Call.before?]) hforce
      | false =>
        rw [ReplicaReadConsistency.requiredLsn, hforce] at hrequired
        refine List.eq_nil_iff_forall_not_mem.mpr fun c hc => ?_
        obtain hf | ⟨required, hr, -⟩ := (h.acknowledged c (hack c hc)).2
        · simp [hforce] at hf
        · simp [hr] at hrequired
    subst hempty
    exact h.setCall t fun c hc => absurd hc List.not_mem_nil

lemma Inv.step {s s' : State} {a : Action} (h : Inv s) (hguard : InOrder s a)
    (hstep : step s a = some s') : Inv s' := by
  cases a with
  | callWrite =>
    cases hstep
    exact h.move (Extends.refl_calls s _) rfl
      (fun c hc => by simpa using hc) (by simp [CallInv, Call.before?])
  | callRead =>
    cases hstep
    exact h.move (Extends.refl_calls s _) rfl
      (fun c hc => by simpa using hc) (by simp [CallInv, Call.before?])
  | writeWal lsn =>
    simp only [Replica.step] at hstep
    split at hstep <;> cases hstep
    have hext : Extends s { s with wal := lsn } :=
      ⟨‹_›, fun _ hc => hc, fun _ => le_rfl, fun _ _ hc => hc⟩
    exact ⟨fun call hcall => (h.calls call hcall).mono hext hcall, fun c hc =>
      ⟨Nat.le_trans (h.acknowledged c hc).1 hext.wal, (h.acknowledged c hc).2⟩⟩
  | replay r lsn =>
    simp only [Replica.step] at hstep
    split at hstep <;> cases hstep
    exact h.replay (And.left ‹_›)
  | execute t commit =>
    simp only [Replica.step] at hstep
    split at hstep
    · cases commit with
      | none => cases hstep; exact h.setCall t (by simp [CallInv])
      | some lsn =>
        simp only at hstep
        split at hstep <;> cases hstep
        exact h.execute t ‹_›
    · cases hstep
  | executeFails t replayable =>
    simp only [Replica.step] at hstep
    split at hstep
    · split at hstep <;> cases hstep <;>
        exact h.setCall t (by simp [CallInv, Call.before?])
    · cases hstep
  | capture t ok =>
    simp only [Replica.step] at hstep
    split at hstep <;> cases hstep
    rename_i commit ht
    refine h.setCall t fun c hc => ⟨h.callInv ht c hc, fun lsn hlsn => ?_⟩
    cases ok with
    | false => cases hlsn
    | true => cases hlsn; exact h.callInv ht c hc
  | record t =>
    simp only [Replica.step] at hstep
    split at hstep <;> cases hstep
    exact h.record ‹_› hguard
  | finish t ok =>
    simp only [Replica.step] at hstep
    split at hstep
    · cases ok <;> cases hstep
      · exact h.setCall t (by simp [CallInv, Call.before?])
      · exact h.finish ‹_›
    · cases hstep
  | route t =>
    simp only [Replica.step] at hstep
    split at hstep <;> cases hstep
    rename_i before ht
    refine h.setCall t ?_
    split
    · simp [CallInv, Call.before?]
    · simpa [CallInv, Call.before?] using (h.callInv ht).before_acknowledged rfl
  | press t prefersPrimary =>
    simp only [Replica.step] at hstep
    split at hstep <;> cases hstep
    rename_i before ht
    refine h.setCall t ?_
    split
    · simp [CallInv, Call.before?]
    · simpa [CallInv, Call.before?] using (h.callInv ht).before_acknowledged rfl
  | connect t replica =>
    simp only [Replica.step] at hstep
    split at hstep
    · rename_i before attempts ht
      cases replica with
      | none => cases hstep; exact h.setCall t (by simp [CallInv, Call.before?])
      | some r =>
        simp only at hstep
        split at hstep <;> cases hstep
        exact h.setCall t
          (by simpa [CallInv, Call.before?] using (h.callInv ht).before_acknowledged rfl)
    · cases hstep
  | testForcePrimary t switched =>
    simp only [Replica.step] at hstep
    split at hstep <;> cases hstep
    rename_i before attempts r ht
    have hack := (h.callInv ht).before_acknowledged rfl
    refine h.setCall t ?_
    split
    · exact callInv_afterLag _ _ hack
    · simpa [CallInv, Call.before?] using hack
  | readRequiredLsn t =>
    simp only [Replica.step] at hstep
    split at hstep <;> cases hstep
    exact h.readRequiredLsn ‹_› hguard
  | readReplayLsn t answer switched =>
    simp only [Replica.step] at hstep
    split at hstep
    · rename_i before attempts r required ht
      have hack := (h.callInv ht).before_acknowledged rfl
      cases answer with
      | failed => cases hstep; exact h.setCall t (by simpa [CallInv, Call.before?] using hack)
      | empty => cases hstep; exact h.setCall t (callInv_afterLag _ _ hack)
      | replayed =>
        simp only at hstep
        split at hstep <;> cases hstep
        · exact h.setCall t fun c hc =>
            ⟨hack c hc, Nat.le_trans (h.callInv ht c hc).2 ‹_›⟩
        · exact h.setCall t (callInv_afterLag _ _ hack)
    · cases hstep
  | serve t ok =>
    simp only [Replica.step] at hstep
    split at hstep
    · rename_i before attempts r ht
      cases ok <;> cases hstep
      · exact h.setCall t
          (by simpa [CallInv, Call.before?] using (h.callInv ht).before_acknowledged rfl)
      · exact h.setCall t fun c hc => (h.callInv ht c hc).2
    · cases hstep
  | readFails t =>
    simp only [Replica.step] at hstep
    split at hstep <;> cases hstep
    exact h.setCall t (by simp [CallInv, Call.before?])

lemma inv_init (wal : Nat) (replayLsn : Nat → Nat) (targetCount : Nat) :
    Inv (init wal replayLsn targetCount) :=
  ⟨fun _ h => absurd h List.not_mem_nil, fun _ h => absurd h List.not_mem_nil⟩

lemma Inv.readsSeeAcknowledged (h : Inv s) : ReadsSeeAcknowledged s :=
  fun _ _ _ hmem => h.calls _ hmem

/-- In every run that records positions in order, replica reads see every
operation acknowledged before they started. -/
theorem replica_reads_see_acknowledged (wal : Nat) (replayLsn : Nat → Nat)
    (targetCount : Nat) (trace : List Action) (s : State)
    (ordered : GuardedRun.Along step InOrder (init wal replayLsn targetCount) trace)
    (hrun : GuardedRun.run step (init wal replayLsn targetCount) trace = some s) :
    ReadsSeeAcknowledged s :=
  (GuardedRun.run_invariant (fun _ _ _ h hguard hstep => h.step hguard hstep)
    (inv_init wal replayLsn targetCount) ordered hrun).readsSeeAcknowledged

/-- Call `2` reads: it finds a replica that is caught up with what is required. -/
def readFromReplica : List Action :=
  [.callRead, .route 2, .press 2 false, .connect 2 (some 0), .testForcePrimary 2 false,
    .readRequiredLsn 2, .readReplayLsn 2 .replayed false, .serve 2 true]

def inOrderTrace : List Action :=
  [.callWrite, .callWrite, .execute 0 (some 1), .capture 0 true, .record 0, .finish 0 true,
    .execute 1 (some 2), .capture 1 true, .record 1, .finish 1 true, .replay 0 2] ++
  readFromReplica

theorem replica_reads_see_acknowledged_inOrder :
    ∃ s, GuardedRun.run step (init 0 (fun _ => 0) 1) inOrderTrace = some s ∧
      Call.served [2, 1] 0 2 ∈ s.calls ∧ ReadsSeeAcknowledged s := by
  refine ⟨_, rfl, by decide, ?_⟩
  exact replica_reads_see_acknowledged 0 (fun _ => 0) 1 inOrderTrace _ (by decide) rfl

/-- Write `0` asks for the position before write `1` commits and records it after
write `1` was acknowledged. -/
def outOfOrderTrace : List Action :=
  [.callWrite, .callWrite, .execute 0 (some 1), .capture 0 true,
    .execute 1 (some 2), .capture 1 true, .record 1, .finish 1 true,
    .record 0, .replay 0 1] ++
  readFromReplica

/-- The last writer wins: the read is served at position 1 and misses commit 2. -/
theorem out_of_order_record_hides_acknowledged_commit :
    ∃ s, GuardedRun.run step (init 0 (fun _ => 0) 1) outOfOrderTrace = some s ∧
      ¬ ReadsSeeAcknowledged s := by
  refine ⟨_, rfl, fun h => ?_⟩
  exact absurd (h [2] 0 1 (by decide) 2 (by decide)) (by decide)

-- A capture failure between the two looks makes `required_lsn` answer `None`.
example : ∃ s, GuardedRun.run step (init 0 (fun _ => 0) 1)
    [.callWrite, .callWrite, .execute 0 (some 1), .capture 0 true, .record 0, .finish 0 true,
      .callRead, .route 2, .press 2 false, .connect 2 (some 0), .testForcePrimary 2 false,
      .execute 1 none, .capture 1 false, .record 1, .readRequiredLsn 2, .serve 2 true] = some s ∧
      ¬ ReadsSeeAcknowledged s :=
  ⟨_, rfl, fun h => absurd (h [1] 0 0 (by decide) 1 (by decide)) (by decide)⟩

end Fod.Replica
