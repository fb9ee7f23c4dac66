import Fod.Failover.Model

/-!
# Operations and changes of the primary exclude each other

The generation and the active target stand still while an operation holds a guard,
there is no guard of a generation that has to be revalidated, and a connection is
handed out only for a writable primary of the recorded cluster.
-/

namespace Fod.Failover

open Counter

lemma mem_live_add {scan : Scan} {target : Target × Nat} {outcome : Outcome}
    {x : PrimarySafetyCandidate × Probe} (h : x ∈ (scan.add target outcome).live) :
    x ∈ scan.live ∨ (x.2.writablePrimary = true ∧ x.1.systemIdentifier = x.2.systemIdentifier) := by
  cases outcome with
  | unreachable => exact .inl h
  | probeFailed => exact .inl h
  | probed probe =>
    rw [Scan.add] at h
    split at h
    next hwritable =>
      rcases List.mem_append.mp h with h | h
      · exact .inl h
      · rw [List.mem_singleton.mp h]
        exact .inr ⟨hwritable, rfl⟩
    next => exact .inl h

lemma writable_of_mem_live {targets : List Target} {answers : Nat → Outcome}
    {x : PrimarySafetyCandidate × Probe} (h : x ∈ (scanTargets targets answers).live) :
    x.2.writablePrimary = true ∧ x.1.systemIdentifier = x.2.systemIdentifier := by
  have hfold : ∀ (rest : List (Target × Nat)) (scan : Scan),
      x ∈ (rest.foldl (fun scan target => scan.add target (answers target.2)) scan).live →
        x ∈ scan.live ∨
          (x.2.writablePrimary = true ∧ x.1.systemIdentifier = x.2.systemIdentifier) := by
    intro rest
    induction rest with
    | nil => exact fun scan hx => .inl hx
    | cons target rest ih =>
      intro scan hx
      rcases ih _ hx with hx | hx
      · exact mem_live_add hx
      · exact .inr hx
  rcases hfold _ _ h with h | h
  · cases h
  · exact h

lemma systemIdentifier_of_choose {candidates : List PrimarySafetyCandidate} {expected : String}
    {avoid : Option Nat} {position : Nat} {candidate : PrimarySafetyCandidate}
    (h : chooseSafePrimaryCandidate candidates (some expected) avoid = .ok position)
    (hmem : candidate ∈ candidates) : candidate.systemIdentifier = expected := by
  cases candidates with
  | nil => cases hmem
  | cons first rest =>
    rw [chooseSafePrimaryCandidate] at h
    split at h
    · cases h
    next hnone =>
      rw [foreignCluster, Option.map_eq_none_iff, List.find?_eq_none] at hnone
      simpa using hnone candidate hmem

/-- Guards are of the current generation, and there are none while a revalidation is
required; connections are of generations that were in force, before the current one while
a revalidation is required. -/
structure Fence (s : TargetState) (handed : List Connection) (guards : List (Nat × Nat)) :
    Prop where
  inFlight : s.operationsInFlight = guards.length
  current : ∀ guard ∈ guards, guard.2 = s.generation
  issued : ∀ c ∈ handed, c.generation ≤ s.generation
  stale : s.revalidationRequired = true → guards = [] ∧ ∀ c ∈ handed, c.generation < s.generation
  unused : s.systemIdentifier = none → guards = [] ∧ handed = []
  identified : s.serverFingerprint = none → s.systemIdentifier = none
  probed : ∀ c ∈ handed, c.probe.writablePrimary = true ∧
    ∀ id, c.recorded = some id → c.probe.systemIdentifier = id

structure SameFence (s s' : TargetState) : Prop where
  generation : s'.generation = s.generation
  revalidation : s'.revalidationRequired = s.revalidationRequired
  identifier : s'.systemIdentifier = s.systemIdentifier
  fingerprint : s'.serverFingerprint = s.serverFingerprint
  inFlight : s'.operationsInFlight = s.operationsInFlight

section Fence

variable {s s' : TargetState} {handed : List Connection} {guards : List (Nat × Nat)} {conn : Probe}

lemma Fence.congr (h : Fence s handed guards) (hsame : SameFence s s') :
    Fence s' handed guards := by
  obtain ⟨hgeneration, hrevalidation, hidentifier, hfingerprint, hinFlight⟩ := hsame
  constructor
  · rw [hinFlight, h.inFlight]
  · rw [hgeneration]
    exact h.current
  · rw [hgeneration]
    exact h.issued
  · rw [hgeneration, hrevalidation]
    exact h.stale
  · rw [hidentifier]
    exact h.unused
  · rw [hfingerprint, hidentifier]
    exact h.identified
  · exact h.probed

lemma Fence.guards_eq_nil (h : Fence s handed guards) (hzero : ¬ 0 < s.operationsInFlight) :
    guards = [] := by
  rw [h.inFlight] at hzero
  exact List.eq_nil_of_length_eq_zero (Nat.eq_zero_of_not_pos hzero)

lemma Fence.guards_eq_nil_of_scan (h : Fence s handed guards)
    (hscan : s.revalidationRequired = true ∨ s.systemIdentifier = none) : guards = [] :=
  hscan.elim (fun hrequired => (h.stale hrequired).1) fun hnone => (h.unused hnone).1

lemma Fence.bump (h : Fence s handed []) (hgeneration : s'.generation = s.generation + 1)
    (hidentifier : s'.systemIdentifier = s.systemIdentifier)
    (hfingerprint : s'.serverFingerprint = s.serverFingerprint)
    (hinFlight : s'.operationsInFlight = s.operationsInFlight) : Fence s' handed [] := by
  have holder : ∀ c ∈ handed, c.generation < s'.generation := by
    intro c hc
    rw [hgeneration]
    exact Nat.lt_succ_of_le (h.issued c hc)
  constructor
  · rw [hinFlight, h.inFlight]
  · simp
  · exact fun c hc => Nat.le_of_lt (holder c hc)
  · exact fun _ => ⟨rfl, holder⟩
  · rw [hidentifier]
    exact h.unused
  · rw [hfingerprint, hidentifier]
    exact h.identified
  · exact h.probed

lemma Fence.reject (h : Fence s handed guards)
    (hscan : s.revalidationRequired = true ∨ s.systemIdentifier = none) :
    Fence { s with revalidationRequired := true } handed guards := by
  refine ⟨h.inFlight, h.current, h.issued, fun _ => ?_, h.unused, h.identified, h.probed⟩
  rcases hscan with hrequired | hnone
  · exact h.stale hrequired
  · obtain ⟨hguards, hhanded⟩ := h.unused hnone
    exact ⟨hguards, by simp [hhanded]⟩

lemma Fence.handOut (h : Fence s handed guards) (hrequired : s.revalidationRequired = false)
    (hknown : s.systemIdentifier ≠ none) {recorded : Option String}
    (hwritable : conn.writablePrimary = true)
    (hrecorded : ∀ id, recorded = some id → conn.systemIdentifier = id) :
    Fence s (⟨s.generation, conn, recorded⟩ :: handed) guards := by
  refine ⟨h.inFlight, h.current, ?_, ?_, fun hnone => absurd hnone hknown, h.identified, ?_⟩
  · intro c hc
    rcases List.mem_cons.mp hc with rfl | hc
    · exact Nat.le_refl _
    · exact h.issued c hc
  · simp [hrequired]
  · intro c hc
    rcases List.mem_cons.mp hc with rfl | hc
    · exact ⟨hwritable, hrecorded⟩
    · exact h.probed c hc

lemma Fence.select (h : Fence s handed guards)
    (hscan : s.revalidationRequired = true ∨ s.systemIdentifier = none)
    (hgeneration : s.generation ≤ s'.generation) (hrequired : s'.revalidationRequired = false)
    (hknown : s'.systemIdentifier ≠ none) (hfingerprint : s'.serverFingerprint ≠ none)
    (hinFlight : s'.operationsInFlight = s.operationsInFlight)
    (hwritable : conn.writablePrimary = true)
    (hrecorded : ∀ id, s.systemIdentifier = some id → conn.systemIdentifier = id) :
    Fence s' (⟨s'.generation, conn, s.systemIdentifier⟩ :: handed) guards := by
  have hempty := h.guards_eq_nil_of_scan hscan
  have hfence : Fence s' handed guards := by
    refine ⟨hinFlight ▸ h.inFlight, by simp [hempty], fun c hc => ?_, by simp [hrequired],
      fun hnone => absurd hnone hknown, fun hnone => absurd hnone hfingerprint, h.probed⟩
    exact Nat.le_trans (h.issued c hc) hgeneration
  exact hfence.handOut hrequired hknown hwritable hrecorded

end Fence

/-! ## Critical sections under the transition lock -/

/-- What the thread with the lock knows about the state between its critical sections:
nobody else changes what it has read. -/
def Stage.Ready (s : TargetState) : Stage → Prop
  | .failing _ | .connecting | .advanceWaiting _ _ | .advancing _ _ _ none => True
  | .advancing expected _ _ (some _) | .revalidating expected _ _ | .revalidateWaiting expected _ _ =>
    expected = s.generation
  | .targeting systemIdentifier _ =>
    s.revalidationRequired = false ∧ s.systemIdentifier = systemIdentifier ∧
      systemIdentifier ≠ none
  | .indexing systemIdentifier _ _ generation | .probing systemIdentifier _ _ generation _ =>
    s.revalidationRequired = false ∧ s.systemIdentifier = systemIdentifier ∧
      systemIdentifier ≠ none ∧ generation = s.generation
  | .scanning _ | .rejecting _ _ _ => s.revalidationRequired = true ∨ s.systemIdentifier = none
  | .deciding _ expected =>
    (s.revalidationRequired = true ∨ s.systemIdentifier = none) ∧ expected = s.systemIdentifier
  | .selecting _ conn _ _ =>
    (s.revalidationRequired = true ∨ s.systemIdentifier = none) ∧ conn.writablePrimary = true ∧
      ∀ id, s.systemIdentifier = some id → conn.systemIdentifier = id
  | .switchWaiting _ conn _ => s.systemIdentifier = none ∧ conn.writablePrimary = true

lemma Stage.Ready.setInFlight {s : TargetState} {stage : Stage} (h : stage.Ready s) (n : Nat) :
    stage.Ready { s with operationsInFlight := n } := by
  cases stage with
  | advancing expected authority roleRejection avoid => cases avoid <;> exact h
  | _ => exact h

def Settled (s s' : TargetState) (handed : List Connection) (guards : List (Nat × Nat)) :
    Progress → Prop
  | .finished => Fence s' handed guards
  | .next stage => Fence s' handed guards ∧ stage.Ready s'
  | .handedOut conn generation =>
    Fence s' (⟨generation, conn, s.systemIdentifier⟩ :: handed) guards

section Proceed

variable {targets : List Target} {s s' : TargetState} {handed : List Connection}
  {guards : List (Nat × Nat)} {stage : Stage} {progress : Progress}

lemma saturatingAdd_eq_of_lt {n : Nat} (h : saturatingAdd n 1 < u64Max) :
    saturatingAdd n 1 = n + 1 := by
  rw [saturatingAdd] at h ⊢
  omega

lemma sameFence_recordFailure (s : TargetState) (roleRejection : Bool) :
    SameFence s (s.recordFailure roleRejection) := ⟨rfl, rfl, rfl, rfl, rfl⟩

lemma Fence.advance (h : Fence s handed guards) (hzero : ¬ 0 < s.operationsInFlight)
    {authority : String} (hroom : (s.advance authority).generation < u64Max) (avoid : Option Nat)
    (t : TargetState) : Settled t (s.advance authority) handed guards (afterAdvance avoid) := by
  have hempty := h.guards_eq_nil hzero
  subst hempty
  have hfence : Fence (s.advance authority) handed [] :=
    h.bump (saturatingAdd_eq_of_lt hroom) rfl rfl rfl
  cases avoid with
  | none => exact hfence
  | some avoid => exact ⟨hfence, .inl rfl⟩

lemma Fence.revalidate (h : Fence s handed guards) (hzero : ¬ 0 < s.operationsInFlight)
    {expected activeIndex : Nat} {lastError : Option String} (hexpected : expected = s.generation)
    (hroom : (s.revalidate expected activeIndex lastError).generation < u64Max) :
    Fence (s.revalidate expected activeIndex lastError) handed guards ∧
      (s.revalidate expected activeIndex lastError).revalidationRequired = true := by
  have hempty := h.guards_eq_nil hzero
  subst hempty hexpected
  simp only [TargetState.revalidate, if_true] at hroom ⊢
  exact ⟨h.bump (saturatingAdd_eq_of_lt hroom) rfl rfl rfl, trivial⟩

lemma Fence.switch (h : Fence s handed guards) {candidate : PrimarySafetyCandidate} {conn : Probe}
    {previousIndex : Nat} {wasRevalidation transition : Bool}
    (hscan : s.revalidationRequired = true ∨ s.systemIdentifier = none)
    (hwritable : conn.writablePrimary = true)
    (hrecorded : ∀ id, s.systemIdentifier = some id → conn.systemIdentifier = id)
    (hroom : (s.switch candidate previousIndex wasRevalidation transition).generation < u64Max) :
    Fence (s.switch candidate previousIndex wasRevalidation transition)
      (⟨(s.switch candidate previousIndex wasRevalidation transition).generation, conn,
        s.systemIdentifier⟩ :: handed) guards := by
  refine h.select hscan ?_ rfl (by simp [TargetState.switch]) (by simp [TargetState.switch]) ?_
    hwritable hrecorded
  · simp only [TargetState.switch] at hroom ⊢
    split
    next hne =>
      rw [if_pos hne] at hroom
      cases wasRevalidation with
      | true => exact Nat.le_refl _
      | false =>
        have hbump : saturatingAdd s.generation 1 = s.generation + 1 := saturatingAdd_eq_of_lt hroom
        simp [hbump]
    next => exact Nat.le_refl _
  · simp only [TargetState.switch]
    split <;> rfl

def Counts (s s' : TargetState) : Prop :=
  s'.generation = s.generation ∨ s'.generation = saturatingAdd s.generation 1

lemma counts_revalidate (s : TargetState) (expected activeIndex : Nat) (lastError : Option String) :
    Counts s (s.revalidate expected activeIndex lastError) := by
  simp only [Counts, TargetState.revalidate]
  split
  · exact .inr rfl
  · exact .inl rfl

lemma counts_switch (s : TargetState) (candidate : PrimarySafetyCandidate) (previousIndex : Nat)
    (wasRevalidation transition : Bool) :
    Counts s (s.switch candidate previousIndex wasRevalidation transition) := by
  simp only [Counts, TargetState.switch]
  split
  · cases wasRevalidation <;> simp
  · exact .inl rfl

/-- What a critical section does: it moves the generation by one at most, it moves the
generation or the active target only when no operation is in flight or at the end of a
scan, and it keeps the fence. -/
structure Proceeds (stage : Stage) (s s' : TargetState) (progress : Progress) : Prop where
  counts : Counts s s'
  moves : (s'.generation = s.generation ∧ s'.activeIndex = s.activeIndex) ∨
    ¬ 0 < s.operationsInFlight ∨
    ∃ candidate conn unreachable roleRejections,
      stage = .selecting candidate conn unreachable roleRejections
  settled : ∀ {handed guards}, Fence s handed guards → stage.Ready s → s'.generation < u64Max →
    Settled s s' handed guards progress

lemma Proceeds.of_stands (hgeneration : s'.generation = s.generation)
    (hindex : s'.activeIndex = s.activeIndex)
    (hsettled : ∀ {handed guards}, Fence s handed guards → stage.Ready s → s'.generation < u64Max →
      Settled s s' handed guards progress) : Proceeds stage s s' progress :=
  ⟨.inl hgeneration, .inl ⟨hgeneration, hindex⟩, hsettled⟩

lemma proceeds (hproceed : proceed targets s stage = some (s', progress)) :
    Proceeds stage s s' progress := by
  cases stage with
  | failing generation =>
    simp only [Failover.proceed, Option.map_eq_some_iff, Prod.mk.injEq] at hproceed
    obtain ⟨target, -, rfl, rfl⟩ := hproceed
    exact .of_stands rfl rfl fun h _ _ => ⟨h, trivial⟩
  | advancing expected authority roleRejection avoid =>
    have hrecorded {handed : List Connection} {guards : List (Nat × Nat)}
        (h : Fence s handed guards) := h.congr (sameFence_recordFailure s roleRejection)
    rw [Failover.proceed] at hproceed
    split at hproceed
    next hother =>
      cases hproceed
      refine .of_stands rfl rfl fun h hready _ => ?_
      cases avoid with
      | none => exact hrecorded h
      | some avoid => exact absurd hready.symm hother
    next =>
      split at hproceed
      next =>
        cases hproceed
        exact .of_stands rfl rfl fun h _ _ =>
          ⟨(hrecorded h).congr ⟨rfl, rfl, rfl, rfl, rfl⟩, trivial⟩
      next hzero =>
        cases hproceed
        exact ⟨.inr rfl, .inr (.inl hzero), fun h _ hroom => (hrecorded h).advance hzero hroom avoid s⟩
  | advanceWaiting authority avoid =>
    rw [Failover.proceed] at hproceed
    split at hproceed
    next => cases hproceed
    next hzero =>
      cases hproceed
      exact ⟨.inr rfl, .inr (.inl hzero), fun h _ hroom => h.advance hzero hroom avoid s⟩
  | connecting =>
    cases hproceed
    refine .of_stands rfl rfl fun h _ _ => ⟨h, ?_⟩
    split
    next hscan =>
      simp only [Bool.or_eq_true, Option.isNone_iff_eq_none] at hscan
      rcases hscan with (hrequired | hnone) | hnone
      · exact .inl hrequired
      · exact .inr hnone
      · exact .inr (h.identified hnone)
    next hscan =>
      simp only [Bool.or_eq_true, Option.isNone_iff_eq_none, not_or, Bool.not_eq_true] at hscan
      exact ⟨hscan.1.1, rfl, hscan.1.2⟩
  | targeting systemIdentifier serverFingerprint =>
    simp only [Failover.proceed, Option.map_eq_some_iff, Prod.mk.injEq] at hproceed
    obtain ⟨target, -, rfl, rfl⟩ := hproceed
    exact .of_stands rfl rfl fun h hready _ => ⟨h, hready.1, hready.2.1, hready.2.2, rfl⟩
  | indexing systemIdentifier serverFingerprint authority generation =>
    cases hproceed
    exact .of_stands rfl rfl fun h hready _ => ⟨h, hready⟩
  | probing | deciding => cases hproceed
  | revalidating expected activeIndex lastError =>
    rw [Failover.proceed] at hproceed
    split at hproceed
    next hother =>
      cases hproceed
      exact .of_stands rfl rfl fun _ hready _ => absurd hready.symm hother
    next =>
      split at hproceed
      next =>
        cases hproceed
        exact .of_stands rfl rfl fun h hready _ => ⟨h.congr ⟨rfl, rfl, rfl, rfl, rfl⟩, hready⟩
      next hzero =>
        cases hproceed
        refine ⟨counts_revalidate _ _ _ _, .inr (.inl hzero), fun h hready hroom => ?_⟩
        obtain ⟨hfence, hrequired⟩ := h.revalidate hzero hready hroom
        exact ⟨hfence, .inl hrequired⟩
  | revalidateWaiting expected activeIndex lastError =>
    rw [Failover.proceed] at hproceed
    split at hproceed
    next => cases hproceed
    next hzero =>
      cases hproceed
      refine ⟨counts_revalidate _ _ _ _, .inr (.inl hzero), fun h hready hroom => ?_⟩
      obtain ⟨hfence, hrequired⟩ := h.revalidate hzero hready hroom
      exact ⟨hfence, .inl hrequired⟩
  | scanning avoid =>
    cases hproceed
    exact .of_stands rfl rfl fun h hready _ => ⟨h.congr ⟨rfl, rfl, rfl, rfl, rfl⟩, hready, rfl⟩
  | rejecting error unreachable roleRejections =>
    cases hproceed
    cases error with
    | mk kind message =>
      cases kind <;> exact .of_stands rfl rfl fun h hready _ =>
        (h.reject hready).congr ⟨rfl, rfl, rfl, rfl, rfl⟩
  | selecting candidate conn unreachable roleRejections =>
    have hscanned : ∃ c conn' u r, Stage.selecting candidate conn unreachable roleRejections =
        .selecting c conn' u r := ⟨_, _, _, _, rfl⟩
    have hrecorded {handed : List Connection} {guards : List (Nat × Nat)}
        (h : Fence s handed guards) : Fence (s.recordScan unreachable roleRejections) handed guards :=
      h.congr ⟨rfl, rfl, rfl, rfl, rfl⟩
    rw [Failover.proceed] at hproceed
    split at hproceed
    next hwait =>
      split at hproceed
      next =>
        cases hproceed
        refine .of_stands rfl rfl fun h hready _ =>
          ⟨(hrecorded h).congr ⟨rfl, rfl, rfl, rfl, rfl⟩, ?_, hready.2.1⟩
        rcases hready.1 with hrequired | hnone
        · exact absurd (hrequired.symm.trans hwait.2) Bool.noConfusion
        · exact hnone
      next =>
        cases hproceed
        exact ⟨counts_switch _ _ _ _ _, .inr (.inr hscanned), fun h hready hroom =>
          (hrecorded h).switch hready.1 hready.2.1 hready.2.2 hroom⟩
    next =>
      cases hproceed
      exact ⟨counts_switch _ _ _ _ _, .inr (.inr hscanned), fun h hready hroom =>
        (hrecorded h).switch hready.1 hready.2.1 hready.2.2 hroom⟩
  | switchWaiting candidate conn previousIndex =>
    rw [Failover.proceed] at hproceed
    split at hproceed
    next => cases hproceed
    next hzero =>
      cases hproceed
      refine ⟨counts_switch _ _ _ _ _, .inr (.inl hzero), fun h hready hroom => ?_⟩
      obtain ⟨hnone, hwritable⟩ := hready
      refine h.switch (.inr hnone) hwritable (fun id hid => ?_) hroom
      rw [hnone] at hid
      cases hid

lemma Fence.stands (h : Fence s handed guards) (hready : stage.Ready s)
    (hproceed : Failover.proceed targets s stage = some (s', progress)) (hguards : guards ≠ []) :
    s'.generation = s.generation ∧ s'.activeIndex = s.activeIndex := by
  rcases (proceeds hproceed).moves with hstands | hzero | ⟨candidate, conn, _, _, rfl⟩
  · exact hstands
  · exact absurd (h.guards_eq_nil hzero) hguards
  · exact absurd (h.guards_eq_nil_of_scan hready.1) hguards

end Proceed

lemma Fence.answered {targets : List Target} {s : TargetState} {handed : List Connection}
    {guards : List (Nat × Nat)} {answers : Nat → Outcome} {stage : Stage} {progress : Progress}
    (h : Fence s handed guards) (hready : stage.Ready s)
    (hanswered : answered targets answers stage = some progress) :
    Settled s s handed guards progress := by
  cases stage with
  | probing systemIdentifier serverFingerprint authority generation activeIndex =>
    obtain ⟨hrequired, hidentifier, hknown, hgeneration⟩ := hready
    rw [Failover.answered] at hanswered
    split at hanswered
    · cases hanswered
      exact ⟨h, hgeneration⟩
    · cases hanswered
      exact ⟨h, hgeneration⟩
    next probe _ =>
      split at hanswered
      · cases hanswered
        exact ⟨h, hgeneration⟩
      next hwritable =>
      split at hanswered
      · cases hanswered
        exact ⟨h, hgeneration⟩
      next hsame =>
      split at hanswered
      · cases hanswered
        exact ⟨h, hgeneration⟩
      next =>
        cases hanswered
        subst hgeneration hidentifier
        refine h.handOut hrequired hknown (by simpa using hwritable) fun id hid => ?_
        rw [not_not.mp hsame] at hid
        exact Option.some.inj hid
  | deciding avoid expected =>
    obtain ⟨hscan, rfl⟩ := hready
    simp only [Failover.answered] at hanswered
    split at hanswered
    next =>
      cases hanswered
      exact ⟨h, hscan⟩
    next position hchoose =>
      simp only [Option.map_eq_some_iff] at hanswered
      obtain ⟨⟨candidate, conn⟩, hlive, rfl⟩ := hanswered
      have hmem := List.mem_of_getElem? hlive
      obtain ⟨hwritable, hsame⟩ := writable_of_mem_live hmem
      refine ⟨h, hscan, hwritable, fun id hid => ?_⟩
      rw [hid] at hchoose
      exact hsame.symm.trans (systemIdentifier_of_choose hchoose (List.mem_map_of_mem hmem))
  | _ => cases hanswered

/-! ## Runs -/

namespace System

variable {targets : List Target} {s s' : System} {a : Action}

structure Inv (s : System) : Prop where
  fence : Fence s.state s.handed s.guards
  ready : ∀ stage ∈ s.holder, stage.Ready s.state

lemma inv_init : Inv init where
  fence := by constructor <;> simp [init, TargetState.default]
  ready := by simp [init]

lemma inv_settle {state : TargetState} {progress : Progress}
    (hsettled : Settled s.state state s.handed s.guards progress) : Inv (s.settle state progress) := by
  cases progress with
  | finished => exact ⟨hsettled, by simp [System.settle]⟩
  | next stage => exact ⟨hsettled.1, by simpa [System.settle] using hsettled.2⟩
  | handedOut conn generation => exact ⟨hsettled, by simp [System.settle]⟩

@[simp] lemma state_settle (s : System) (state : TargetState) (progress : Progress) :
    (s.settle state progress).state = state := by
  cases progress <;> rfl

@[simp] lemma guards_settle (s : System) (state : TargetState) (progress : Progress) :
    (s.settle state progress).guards = s.guards := by
  cases progress <;> rfl

lemma Inv.beginOperation (h : Inv s) {op generation : Nat}
    (hhanded : generation ∈ s.handed.map Connection.generation) :
    Inv (s.beginOperation op generation) := by
  rw [System.beginOperation]
  split
  next => exact h
  next hcurrent =>
    split
    next => exact h
    next inFlight hadd =>
      obtain rfl := not_not.mp hcurrent
      obtain ⟨c, hc, hgeneration⟩ := List.mem_map.mp hhanded
      have hinFlight : s.state.operationsInFlight + 1 = inFlight := by
        rw [checkedAdd] at hadd
        split at hadd
        · exact Option.some.inj hadd
        · cases hadd
      refine ⟨⟨?_, ?_, h.fence.issued, ?_, ?_, h.fence.identified, h.fence.probed⟩,
        fun stage hstage => (h.ready stage hstage).setInFlight inFlight⟩
      · simp [← hinFlight, h.fence.inFlight]
      · simpa using h.fence.current
      · intro hrequired
        have hstale := (h.fence.stale hrequired).2 c hc
        omega
      · intro hnone
        rw [(h.fence.unused hnone).2] at hc
        cases hc

lemma Inv.finish (h : Inv s) {guard : Nat × Nat} (hguard : guard ∈ s.guards) :
    Inv { s with
      state := { s.state with operationsInFlight := s.state.operationsInFlight - 1 }
      guards := s.guards.erase guard } := by
  refine ⟨⟨?_, ?_, h.fence.issued, ?_, ?_, h.fence.identified, h.fence.probed⟩,
    fun stage hstage => (h.ready stage hstage).setInFlight _⟩
  · simp [h.fence.inFlight, List.length_erase_of_mem hguard]
  · exact fun x hx => h.fence.current x (List.mem_of_mem_erase hx)
  · intro hrequired
    obtain ⟨hguards, holder⟩ := h.fence.stale hrequired
    exact ⟨by simp [hguards], holder⟩
  · intro hnone
    obtain ⟨hguards, hhanded⟩ := h.fence.unused hnone
    exact ⟨by simp [hguards], hhanded⟩

def Stands (s s' : System) (a : Action) : Prop :=
  ∀ guard ∈ s.guards, a ≠ .finish guard.1 →
    guard ∈ s'.guards ∧ s'.state.generation = s.state.generation ∧
      s'.state.activeIndex = s.state.activeIndex

lemma step_spec (hstep : step targets s a = some s') : Counts s.state s'.state ∧
      (Inv s → s'.state.generation < u64Max → Inv s' ∧ Stands s s' a) := by
  cases a with
  | begin op generation =>
    simp only [step] at hstep
    split at hstep
    · cases hstep
    next hknown =>
    split at hstep
    · cases hstep
    cases hstep
    have hkept : (s.beginOperation op generation).state.generation = s.state.generation ∧
        Stands s (s.beginOperation op generation) (.begin op generation) := by
      rw [beginOperation]
      split
      · exact ⟨rfl, fun guard hguard _ => ⟨hguard, rfl, rfl⟩⟩
      split
      · exact ⟨rfl, fun guard hguard _ => ⟨hguard, rfl, rfl⟩⟩
      · exact ⟨rfl, fun guard hguard _ => ⟨List.mem_cons_of_mem _ hguard, rfl, rfl⟩⟩
    exact ⟨.inl hkept.1, fun h _ => ⟨h.beginOperation (not_not.mp (not_or.mp hknown).1), hkept.2⟩⟩
  | finish op =>
    simp only [step] at hstep
    split at hstep
    · cases hstep
    next dropped hfind =>
      cases hstep
      refine ⟨.inl rfl, fun h _ => ⟨h.finish (List.mem_of_find?_eq_some hfind),
        fun guard hguard hne => ⟨?_, rfl, rfl⟩⟩⟩
      have hop : dropped.1 = op := by simpa using List.find?_some hfind
      refine (List.mem_erase_of_ne ?_).mpr hguard
      rintro rfl
      exact hne (congrArg Action.finish hop.symm)
  | markFailure | connectNew =>
    simp only [step] at hstep
    split at hstep
    · cases hstep
      exact ⟨.inl rfl, fun h _ => ⟨⟨h.fence, by simp [Stage.Ready]⟩,
        fun guard hguard _ => ⟨hguard, rfl, rfl⟩⟩⟩
    · cases hstep
  | proceed =>
    simp only [step] at hstep
    split at hstep
    · cases hstep
    next stage hholder =>
      obtain ⟨⟨state, progress⟩, hproceed, rfl⟩ := Option.map_eq_some_iff.mp hstep
      rw [state_settle]
      refine ⟨(proceeds hproceed).counts, fun h hroom => ?_⟩
      have hready := h.ready stage hholder
      refine ⟨inv_settle ((proceeds hproceed).settled h.fence hready hroom), fun guard hguard _ => ?_⟩
      rw [state_settle, guards_settle]
      exact ⟨hguard, h.fence.stands hready hproceed (List.ne_nil_of_mem hguard)⟩
  | answer answers =>
    simp only [step] at hstep
    split at hstep
    · cases hstep
    next stage hholder =>
      obtain ⟨progress, hanswered, rfl⟩ := Option.map_eq_some_iff.mp hstep
      rw [state_settle]
      refine ⟨.inl rfl, fun h _ => ⟨inv_settle (h.fence.answered (h.ready stage hholder) hanswered),
        fun guard hguard _ => ?_⟩⟩
      rw [state_settle, guards_settle]
      exact ⟨hguard, rfl, rfl⟩

lemma lt_of_counts {s s' : TargetState} (h : Counts s s') (hroom : s'.generation < u64Max) :
    s.generation < u64Max := by
  rcases h with h | h
  · rwa [← h]
  · rw [h, saturatingAdd] at hroom
    omega

variable {trace : List Action}

lemma run_lt (hrun : GuardedRun.run (step targets) s trace = some s')
    (hroom : s'.state.generation < u64Max) : s.state.generation < u64Max := by
  induction trace generalizing s with
  | nil =>
    obtain rfl : s = s' := Option.some.inj hrun
    exact hroom
  | cons a rest ih =>
    obtain ⟨mid, hstep, hrest⟩ := GuardedRun.run_cons_eq_some.mp hrun
    exact lt_of_counts (step_spec hstep).1 (ih hrest)

lemma run_inv (h : Inv s) (hrun : GuardedRun.run (step targets) s trace = some s')
    (hroom : s'.state.generation < u64Max) : Inv s' := by
  induction trace generalizing s with
  | nil =>
    obtain rfl : s = s' := Option.some.inj hrun
    exact h
  | cons a rest ih =>
    obtain ⟨mid, hstep, hrest⟩ := GuardedRun.run_cons_eq_some.mp hrun
    exact ih ((step_spec hstep).2 h (run_lt hrest hroom)).1 hrest

lemma run_stands (h : Inv s) (hrun : GuardedRun.run (step targets) s trace = some s')
    (hroom : s'.state.generation < u64Max) {op generation : Nat}
    (hguard : (op, generation) ∈ s.guards) (hheld : Action.finish op ∉ trace) :
    s'.state.generation = generation ∧ s'.state.activeIndex = s.state.activeIndex := by
  induction trace generalizing s with
  | nil =>
    obtain rfl : s = s' := Option.some.inj hrun
    exact ⟨(h.fence.current _ hguard).symm, rfl⟩
  | cons a rest ih =>
    obtain ⟨mid, hstep, hrest⟩ := GuardedRun.run_cons_eq_some.mp hrun
    rw [List.mem_cons, not_or] at hheld
    obtain ⟨hmid, hstands⟩ := (step_spec hstep).2 h (run_lt hrest hroom)
    obtain ⟨hkept, -, hindex⟩ := hstands _ hguard (Ne.symm hheld.1)
    rw [← hindex]
    exact ih hmid hrest hkept hheld.2

/-- As long as the generation has not reached the end of its counter, no generation and no
active target changes under a guard, no guard is of a generation that has to be
revalidated, and every connection was probed as a writable primary of the recorded cluster. -/
theorem primary_changes_fenced {before after : List Action}
    (hbefore : GuardedRun.run (step targets) init before = some s)
    (hafter : GuardedRun.run (step targets) s after = some s')
    (hroom : s'.state.generation < u64Max) :
    (∀ op generation, (op, generation) ∈ s.guards → Action.finish op ∉ after →
      s'.state.generation = generation ∧ s'.state.activeIndex = s.state.activeIndex) ∧
    (s'.state.revalidationRequired = true → ∀ guard ∈ s'.guards, guard.2 ≠ s'.state.generation) ∧
    (∀ c ∈ s'.handed, c.probe.writablePrimary = true ∧
      ∀ id, c.recorded = some id → c.probe.systemIdentifier = id) := by
  have hinv : Inv s := run_inv inv_init hbefore (run_lt hafter hroom)
  have hinv' : Inv s' := run_inv hinv hafter hroom
  refine ⟨fun op generation hguard hheld => run_stands hinv hafter hroom hguard hheld, ?_,
    hinv'.fence.probed⟩
  intro hrequired guard hguard
  rw [(hinv'.fence.stale hrequired).1] at hguard
  cases hguard

section Examples

def twoTargets : List Target := [⟨"a"⟩, ⟨"b"⟩]

def only (index : Nat) : Nat → Outcome :=
  fun target => if target = index then .probed ⟨false, false, "1", "x"⟩ else .unreachable

def connecting (index : Nat) : List Action :=
  [.connectNew, .proceed, .proceed, .answer (only index), .proceed]

def flap (generation : Nat) : List Action :=
  connecting 0 ++ [.markFailure generation, .proceed, .proceed]

def flaps (generation : Nat) : Nat → List Action
  | 0 => []
  | k + 1 => flap generation ++ flaps (generation + 1) k

/-- An operation holds its guard while another thread reports the connection as failed and
waits. -/
theorem primary_changes_fenced_waiting :
    ∃ s s', GuardedRun.run (step twoTargets) init (connecting 0 ++ [.begin 7 1]) = some s ∧
      GuardedRun.run (step twoTargets) s [.markFailure 1, .proceed, .proceed] = some s' ∧
      s'.state.transitionPending = true ∧ s'.state.generation = 1 ∧
      s'.state.activeIndex = s.state.activeIndex := by
  refine ⟨_, _, rfl, rfl, rfl, ?_⟩
  exact (@primary_changes_fenced twoTargets _ _ (connecting 0 ++ [.begin 7 1])
    [.markFailure 1, .proceed, .proceed] rfl rfl (by decide)).1 7 1 (by decide) (by simp)

structure Flapped (generation : Nat) (s : System) : Prop where
  generation_eq : s.state.generation = generation
  required : s.state.revalidationRequired = true
  idle : s.holder = none
  unguarded : s.guards = []
  inFlight : s.state.operationsInFlight = 0
  settled : s.state.transitionPending = false
  index : s.state.activeIndex = 0
  identifier : s.state.systemIdentifier = some "1"
  lastFailed : s.state.lastFailedIndex = some 0

structure Connected (generation : Nat) (s : System) : Prop where
  generation_eq : s.state.generation = generation
  idle : s.holder = none
  unguarded : s.guards = []
  inFlight : s.state.operationsInFlight = 0
  settled : s.state.transitionPending = false
  index : s.state.activeIndex = 0
  identifier : s.state.systemIdentifier = some "1"
  handed : generation ∈ s.handed.map Connection.generation

variable {n : Nat}

lemma run_connecting {s : System} (h : Flapped n s) :
    ∃ s', GuardedRun.run (step twoTargets) s (connecting 0) = some s' ∧ Connected n s' := by
  obtain ⟨⟨activeIndex, generation, _, _, _, _, systemIdentifier, _, revalidationRequired,
    lastFailedIndex, _, _, _, _, _, _, _, operationsInFlight, transitionPending⟩, holder, handed,
    guards⟩ := s
  obtain ⟨rfl, rfl, rfl, rfl, rfl, rfl, rfl, rfl, rfl⟩ := h
  exact ⟨_, rfl, rfl, rfl, rfl, rfl, rfl, rfl, rfl, List.mem_cons_self⟩

lemma run_failing {s : System} (hgeneration : s.state.generation = n)
    (hidle : s.holder = none) (hzero : s.state.operationsInFlight = 0)
    (hindex : s.state.activeIndex = 0) :
    GuardedRun.run (step twoTargets) s [.markFailure n, .proceed, .proceed] =
      some { s with state := (s.state.recordFailure false).advance "a" } := by
  have htarget : twoTargets[s.state.activeIndex]? = some ⟨"a"⟩ := by rw [hindex]; rfl
  simp [GuardedRun.run, step, hidle, Failover.proceed, htarget, settle, TargetState.recordFailure,
    hgeneration, hzero, afterAdvance]

lemma run_flap {s : System} (h : Flapped n s) :
    ∃ s', GuardedRun.run (step twoTargets) s (flap n) = some s' ∧
      Flapped (saturatingAdd n 1) s' ∧ n ∈ s'.handed.map Connection.generation := by
  obtain ⟨mid, hmid, hconnected⟩ := run_connecting h
  have hfailing := run_failing hconnected.generation_eq hconnected.idle hconnected.inFlight
    hconnected.index
  refine ⟨_, (GuardedRun.run_append hmid).trans hfailing, ⟨?_, rfl, hconnected.idle,
    hconnected.unguarded, hconnected.inFlight, rfl, hconnected.index, hconnected.identifier, ?_⟩,
    hconnected.handed⟩
  · exact congrArg (saturatingAdd · 1) hconnected.generation_eq
  · exact congrArg some hconnected.index

lemma run_flaps (k : Nat) {s : System} (h : Flapped n s) (hroom : n + k ≤ u64Max) :
    ∃ s', GuardedRun.run (step twoTargets) s (flaps n k) = some s' ∧ Flapped (n + k) s' := by
  induction k generalizing n s with
  | zero => exact ⟨s, rfl, h⟩
  | succ k ih =>
    obtain ⟨mid, hmid, hflapped, -⟩ := run_flap h
    rw [saturatingAdd_one_of_lt (by omega)] at hflapped
    obtain ⟨s', hrest, hs'⟩ := ih hflapped (by omega)
    exact ⟨s', (GuardedRun.run_append hmid).trans hrest, by rwa [Nat.add_right_comm] at hs'⟩

def operating (s : System) (generation : Nat) : System :=
  { s with
    state := { s.state with operationsInFlight := 1 }
    guards := [(7, generation)] }

lemma step_begin {s : System} (h : Flapped n s) (hhanded : n ∈ s.handed.map Connection.generation) :
    step twoTargets s (.begin 7 n) = some (operating s n) := by
  have hadd : checkedAdd 0 1 = some 1 := rfl
  simp only [step, hhanded, not_true_eq_false, h.unguarded, List.map_nil, List.not_mem_nil, or_self,
    if_false, h.settled, Bool.false_eq_true, beginOperation, h.generation_eq, ne_eq, h.inFlight, hadd,
    operating]

lemma run_switching {s : System} (h : Flapped n s) :
    ∃ s', GuardedRun.run (step twoTargets) (operating s n) (connecting 1) = some s' ∧
      s'.guards = [(7, n)] ∧ s'.state.activeIndex = 1 := by
  obtain ⟨⟨activeIndex, generation, _, _, _, _, systemIdentifier, _, revalidationRequired,
    lastFailedIndex, _, _, _, _, _, _, _, operationsInFlight, transitionPending⟩, holder, handed,
    guards⟩ := s
  obtain ⟨rfl, rfl, rfl, rfl, rfl, rfl, rfl, rfl, rfl⟩ := h
  exact ⟨_, rfl, rfl, rfl⟩

/-- At the end of its counter the generation no longer changes: an operation begins while a
revalidation is required, and the active target changes under its guard. -/
theorem primary_fence_saturated :
    ∃ before s s', GuardedRun.run (step twoTargets) init before = some s ∧
      s.state.revalidationRequired = true ∧ s.guards = [(7, s.state.generation)] ∧
      GuardedRun.run (step twoTargets) s (connecting 1) = some s' ∧ s'.guards = s.guards ∧
      s.state.activeIndex = 0 ∧ s'.state.activeIndex = 1 := by
  obtain ⟨first, hfirst, hflapped⟩ : ∃ s, GuardedRun.run (step twoTargets) init (flap 1) = some s ∧
      Flapped 2 s := ⟨_, rfl, rfl, rfl, rfl, rfl, rfl, rfl, rfl, rfl, rfl⟩
  obtain ⟨last, hlast, hend⟩ := run_flaps (u64Max - 2) hflapped (by decide)
  rw [show 2 + (u64Max - 2) = u64Max by decide] at hend
  obtain ⟨s, hrun, hs, hhanded⟩ := run_flap hend
  rw [show saturatingAdd u64Max 1 = u64Max by decide] at hs
  obtain ⟨s', hswitch, hguards, hindex⟩ := run_switching hs
  have hbegin : GuardedRun.run (step twoTargets) s [.begin 7 u64Max] = some (operating s u64Max) :=
    GuardedRun.run_cons_eq_some.mpr ⟨_, step_begin hs hhanded, rfl⟩
  refine ⟨flap 1 ++ (flaps 2 (u64Max - 2) ++ (flap u64Max ++ [.begin 7 u64Max])), operating s u64Max,
    s', ?_, hs.required, ?_, hswitch, hguards, hs.index, hindex⟩
  · rw [GuardedRun.run_append hfirst, GuardedRun.run_append hlast, GuardedRun.run_append hrun, hbegin]
  · exact congrArg (fun n => [(7, n)]) hs.generation_eq.symm

end Examples

end System

end Fod.Failover
