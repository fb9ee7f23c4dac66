import Fod.Admission.TransactionGate

/-!
# The budget of payload in flight

`acquire_payload_budget` queues behind the older requests and waits until its bytes are
reserved; a permit gives them back when it is dropped.  The peaks and the counters of
events, which nothing reads, are left out.
-/

namespace Fod.Admission.PayloadBudget

open Counter

/-- `call` is the call of `acquire_payload_budget` that waits. -/
structure Waiter where
  ticket : Nat
  requestedBytes : Nat
  call : Nat
  deriving DecidableEq

structure BudgetState where
  reservedBytes : Nat
  queuedBytes : Nat
  queuedRequests : Nat
  nextTicket : Nat
  servingTicket : Nat
  waiters : List Waiter
  accountingErrors : Nat
  deriving DecidableEq

def requestFitsBudget (limit reserved requested : Nat) : Bool :=
  limit == 0 || (reserved == 0 && decide (limit < requested)) || decide (requested ≤ limit - reserved)

namespace BudgetState

def recordAccountingError (b : BudgetState) : BudgetState :=
  { b with accountingErrors := saturatingAdd b.accountingErrors 1 }

def reserveWaiter (b : BudgetState) (w : Waiter) (rest : List Waiter) : BudgetState :=
  let b := { b with waiters := rest }
  let b :=
    if w.ticket ≠ b.servingTicket then { b.recordAccountingError with servingTicket := w.ticket } else b
  let b :=
    match checkedSub b.queuedRequests 1 with
    | some value => { b with queuedRequests := value }
    | none => b.recordAccountingError
  let b :=
    match checkedSub b.queuedBytes w.requestedBytes with
    | some value => { b with queuedBytes := value }
    | none => { b.recordAccountingError with queuedBytes := 0 }
  let b :=
    match checkedAdd b.reservedBytes w.requestedBytes with
    | some value => { b with reservedBytes := value }
    | none => { b.recordAccountingError with reservedBytes := u64Max }
  { b with servingTicket := wrappingAdd b.servingTicket 1 }

/-- A round takes a waiter, so that their number is fuel enough. -/
def reserveReadyWaiters (limit : Nat) : Nat → BudgetState → BudgetState × List Waiter
  | 0, b => (b, [])
  | fuel + 1, b =>
    match b.waiters with
    | [] => (b, [])
    | w :: rest =>
      if requestFitsBudget limit b.reservedBytes w.requestedBytes then
        let (b', ready) := reserveReadyWaiters limit fuel (b.reserveWaiter w rest)
        (b', w :: ready)
      else (b, [])

def enqueue (b : BudgetState) (requested call : Nat) : BudgetState :=
  let b := { b with
    waiters := b.waiters ++ [Waiter.mk b.nextTicket requested call]
    nextTicket := wrappingAdd b.nextTicket 1
    queuedRequests := saturatingAdd b.queuedRequests 1 }
  match checkedAdd b.queuedBytes requested with
  | some value => { b with queuedBytes := value }
  | none => { b.recordAccountingError with queuedBytes := u64Max }

def release (b : BudgetState) (size : Nat) : BudgetState :=
  match checkedSub b.reservedBytes size with
  | some value => { b with reservedBytes := value }
  | none => { b.recordAccountingError with reservedBytes := 0 }

end BudgetState

inductive Phase where
  | idle
  | waiting (size : Nat) (ready : Bool)
  | holding (size : Nat)
  deriving DecidableEq

def Phase.signalled : Phase → Phase
  | .waiting size _ => .waiting size true
  | phase => phase

/-- `signals` are the pairs of a call that has left its critical section and a waiter that it
has still to signal.  `drawn` and `granted` are the calls in the order of their tickets and of
their permits, and `held` are the permits that are not dropped. -/
structure State where
  budget : BudgetState
  phase : Nat → Phase
  signals : List (Nat × Nat)
  drawn : List Nat
  granted : List Nat
  held : List (Nat × Nat)

namespace State

def init : State := ⟨⟨0, 0, 0, 0, 0, [], 0⟩, fun _ => .idle, [], [], [], []⟩

/-- The end of a critical section. -/
def reserve (limit c : Nat) (s : State) : State :=
  let (b, ready) := s.budget.reserveReadyWaiters limit s.budget.waiters.length
  { s with
    budget := b
    signals := s.signals ++ ready.map fun w => (c, w.call)
    granted := s.granted ++ ready.map Waiter.call
    held := s.held ++ ready.map fun w => (w.call, w.requestedBytes) }

def acquire (limit c size : Nat) (s : State) : State :=
  reserve limit c { s with
    budget := s.budget.enqueue size c
    phase := Function.update s.phase c (.waiting size false)
    drawn := s.drawn ++ [c] }

def drop (limit c size : Nat) (s : State) : State :=
  reserve limit c { s with
    budget := s.budget.release size
    phase := Function.update s.phase c .idle
    held := s.held.erase (c, size) }

def requestedBytes (s : State) : Nat :=
  (s.budget.waiters.map Waiter.requestedBytes).sum + (s.held.map Prod.snd).sum

end State

inductive Step (limit : Nat) : State → State → Prop
  | acquire {s c} (size : Nat) : s.phase c = .idle → (∀ w, (c, w) ∉ s.signals) → 0 < size →
      s.requestedBytes + size ≤ u64Max →
      Step limit s (s.acquire limit c size)
  | signal {s c w} : (c, w) ∈ s.signals →
      Step limit s { s with
        phase := Function.update s.phase w (s.phase w).signalled
        signals := s.signals.erase (c, w) }
  | enter {s c size} : s.phase c = .waiting size true → (∀ w, (c, w) ∉ s.signals) →
      Step limit s { s with phase := Function.update s.phase c (.holding size) }
  | drop {s c size} : s.phase c = .holding size → (∀ w, (c, w) ∉ s.signals) →
      Step limit s (s.drop limit c size)

structure Accounted (limit : Nat) (b : BudgetState) (held : List (Nat × Nat)) : Prop where
  reserved : b.reservedBytes = (held.map Prod.snd).sum
  bounded : b.reservedBytes ≤ limit ∨ ∃ p, held = [p] ∧ limit < p.2
  queuedBytes : b.queuedBytes = (b.waiters.map Waiter.requestedBytes).sum
  queuedRequests : b.queuedRequests = b.waiters.length
  fits : b.queuedBytes + b.reservedBytes ≤ u64Max
  requests : ∀ w ∈ b.waiters, 0 < w.requestedBytes
  permits : ∀ p ∈ held, 0 < p.2
  tickets : Tickets b.servingTicket b.nextTicket (b.waiters.map Waiter.ticket)
  errors : b.accountingErrors = 0

section

variable {limit : Nat} {b : BudgetState} {held : List (Nat × Nat)}

section

variable (h : Accounted limit b held)

include h

lemma Accounted.reserveWaiter {w : Waiter} {rest : List Waiter}
    (hw : b.waiters = w :: rest) (hlimit : 0 < limit)
    (hfits : requestFitsBudget limit b.reservedBytes w.requestedBytes = true) :
    Accounted limit (b.reserveWaiter w rest) (held ++ [(w.call, w.requestedBytes)]) ∧
      (b.reserveWaiter w rest).waiters = rest := by
  obtain ⟨hreserved, hbounded, hqueued, hrequests, hroom, hpos, hheld, htickets, herrors⟩ := h
  rw [hw] at hqueued hrequests hpos htickets
  simp only [List.map_cons, List.sum_cons, List.length_cons] at hqueued hrequests htickets
  have hsize := hpos w List.mem_cons_self
  obtain ⟨hticket, hnext⟩ := htickets.pop
  have hreserve : b.reserveWaiter w rest = ⟨b.reservedBytes + w.requestedBytes, b.queuedBytes - w.requestedBytes,
      b.queuedRequests - 1, b.nextTicket, wrappingAdd b.servingTicket 1, rest, b.accountingErrors⟩ := by
    simp [BudgetState.reserveWaiter, hticket, checkedSub, checkedAdd, show 1 ≤ b.queuedRequests by omega,
      show w.requestedBytes ≤ b.queuedBytes by omega,
      show b.reservedBytes + w.requestedBytes ≤ u64Max by omega]
  rw [hreserve]
  refine ⟨⟨by simp [hreserved], ?_, by simp; omega, by simp; omega, by simp; omega,
    fun v hv => hpos v (List.mem_cons_of_mem _ hv), ?_, hnext, herrors⟩, rfl⟩
  · simp only [requestFitsBudget, Bool.or_eq_true, Bool.and_eq_true, beq_iff_eq, decide_eq_true_eq] at hfits
    obtain (hzero | ⟨hzero, hover⟩) | hle := hfits
    · omega
    · right
      cases held with
      | nil => exact ⟨_, rfl, hover⟩
      | cons p held =>
        have hp := hheld p List.mem_cons_self
        simp only [List.map_cons, List.sum_cons] at hreserved
        omega
    · left
      dsimp only
      omega
  · intro p hp
    obtain hp | hp := List.mem_append.mp hp
    · exact hheld p hp
    · cases List.mem_singleton.mp hp
      exact hsize

/-- The loop admits the first waiters, in order, until one does not fit. -/
lemma Accounted.reserveReadyWaiters (hlimit : 0 < limit) {fuel : Nat}
    (hfuel : b.waiters.length ≤ fuel) :
    ∃ b' ready, b.reserveReadyWaiters limit fuel = (b', ready) ∧ b.waiters = ready ++ b'.waiters ∧
      Accounted limit b' (held ++ ready.map fun w => (w.call, w.requestedBytes)) ∧
      ∀ w ∈ b'.waiters.head?, requestFitsBudget limit b'.reservedBytes w.requestedBytes = false := by
  induction fuel generalizing b held with
  | zero =>
    have hnil := List.length_eq_zero_iff.mp (Nat.le_zero.mp hfuel)
    exact ⟨b, [], rfl, rfl, by simpa using h, by simp [hnil]⟩
  | succ fuel ih =>
    rw [BudgetState.reserveReadyWaiters]
    cases hw : b.waiters with
    | nil => exact ⟨b, [], rfl, hw.symm, by simpa using h, by simp [hw]⟩
    | cons w rest =>
      by_cases hfits : requestFitsBudget limit b.reservedBytes w.requestedBytes = true
      · obtain ⟨hreserve, hrest⟩ := h.reserveWaiter hw hlimit hfits
        obtain ⟨b', ready, hrun, hsplit, haccounted, hblocked⟩ := ih hreserve (by
          rw [hw, List.length_cons] at hfuel
          rw [hrest]
          omega)
        refine ⟨b', w :: ready, by simp [hfits, hrun], by simp [← hsplit, hrest], ?_, hblocked⟩
        simpa using haccounted
      · exact ⟨b, [], by simp [hfits], hw.symm, by simpa using h, by simpa [hw] using hfits⟩

lemma Accounted.enqueue {size : Nat} (c : Nat) (hsize : 0 < size)
    (hroom : b.queuedBytes + b.reservedBytes + size ≤ u64Max) : Accounted limit (b.enqueue size c) held ∧
      (b.enqueue size c).waiters = b.waiters ++ [⟨b.nextTicket, size, c⟩] := by
  have hlength : b.waiters.length ≤ b.queuedBytes := by
    rw [h.queuedBytes, ← List.length_map Waiter.requestedBytes]
    refine List.length_le_sum_of_one_le _ fun i hi => ?_
    obtain ⟨w, hw, rfl⟩ := List.mem_map.mp hi
    exact h.requests w hw
  have henqueue : b.enqueue size c = { b with
      queuedBytes := b.queuedBytes + size
      queuedRequests := b.queuedRequests + 1
      nextTicket := wrappingAdd b.nextTicket 1
      waiters := b.waiters ++ [⟨b.nextTicket, size, c⟩] } := by
    have hrequests := h.queuedRequests
    simp [BudgetState.enqueue, checkedAdd, show b.queuedBytes + size ≤ u64Max by omega,
      saturatingAdd_of_le (show b.queuedRequests + 1 ≤ u64Max by omega)]
  rw [henqueue]
  refine ⟨⟨h.reserved, h.bounded, by simp [h.queuedBytes], by simp [h.queuedRequests], by simp; omega, ?_,
    h.permits, by simpa using h.tickets.push, h.errors⟩, rfl⟩
  intro w hw
  obtain hw | hw := List.mem_append.mp hw
  · exact h.requests w hw
  · cases List.mem_singleton.mp hw
    exact hsize

lemma Accounted.release {p : Nat × Nat} (hp : p ∈ held) :
    Accounted limit (b.release p.2) (held.erase p) ∧ (b.release p.2).waiters = b.waiters := by
  have hsum : p.2 + ((held.erase p).map Prod.snd).sum = (held.map Prod.snd).sum :=
    ((List.perm_cons_erase hp).map Prod.snd).sum_eq.symm
  have hreserved := h.reserved
  have hrelease : b.release p.2 = { b with reservedBytes := b.reservedBytes - p.2 } := by
    simp [BudgetState.release, checkedSub, show p.2 ≤ b.reservedBytes by omega]
  rw [hrelease]
  refine ⟨⟨by simp; omega, ?_, h.queuedBytes, h.queuedRequests, ?_, h.requests,
    fun q hq => h.permits q (List.mem_of_mem_erase hq), h.tickets, h.errors⟩, rfl⟩
  · obtain hle | ⟨q, rfl, -⟩ := h.bounded
    · exact .inl (by dsimp only; omega)
    · cases List.mem_singleton.mp hp
      exact .inl (by simp at hreserved ⊢; omega)
  · have := h.fits
    dsimp only
    omega

end

end

/-! ## Every run -/

def State.queue (s : State) : List Nat := s.budget.waiters.map Waiter.call

/-- What holds also before `reserve_ready_waiters`. -/
structure Settled (limit : Nat) (s : State) : Prop where
  accounted : Accounted limit s.budget s.held
  order : s.drawn = s.granted ++ s.queue
  queued : ∀ w ∈ s.budget.waiters, s.phase w.call = .waiting w.requestedBytes false
  owed : ∀ c w, (c, w) ∈ s.signals → ∃ size, s.phase w = .waiting size false ∧ (w, size) ∈ s.held
  once : (s.queue ++ s.signals.map Prod.snd).Nodup
  asleep : ∀ c size, s.phase c = .waiting size false → c ∈ s.queue ∨ ∃ k, (k, c) ∈ s.signals
  holders : ∀ c size, s.phase c = .holding size ∨ s.phase c = .waiting size true → (c, size) ∈ s.held

structure Inv (limit : Nat) (s : State) : Prop extends Settled limit s where
  blocked : ∀ w ∈ s.budget.waiters.head?,
    requestFitsBudget limit s.budget.reservedBytes w.requestedBytes = false

section

variable {limit : Nat} {s s' : State}

lemma Settled.reserve (h : Settled limit s) (hlimit : 0 < limit) (c : Nat) : Inv limit (s.reserve limit c) := by
  obtain ⟨b, ready, hrun, hsplit, haccounted, hblocked⟩ := h.accounted.reserveReadyWaiters hlimit le_rfl
  have hqueue : s.queue = ready.map Waiter.call ++ b.waiters.map Waiter.call := by
    rw [State.queue, hsplit, List.map_append]
  simp only [State.reserve, hrun]
  have hready (w : Waiter) (hw : w ∈ ready) := h.queued w (hsplit ▸ List.mem_append_left _ hw)
  refine ⟨⟨haccounted, ?_, fun w hw => h.queued w (hsplit ▸ List.mem_append_right _ hw),
    fun k w hw => ?_, ?_, fun k size hk => ?_, fun k size hk => List.mem_append_left _ (h.holders k size hk)⟩,
    hblocked⟩
  · rw [h.order, hqueue, List.append_assoc]
    rfl
  · obtain hw | hw := List.mem_append.mp hw
    · obtain ⟨size, hphase, hheld⟩ := h.owed k w hw
      exact ⟨size, hphase, List.mem_append_left _ hheld⟩
    · obtain ⟨v, hv, heq⟩ := List.mem_map.mp hw
      cases heq
      exact ⟨_, hready v hv, List.mem_append_right _ (List.mem_map_of_mem hv)⟩
  · have honce := h.once
    rw [hqueue] at honce
    simp only [State.queue, List.map_append, List.map_map, Function.comp_def]
    refine (List.Perm.nodup_iff ?_).mp honce
    rw [List.append_assoc]
    exact (List.perm_append_comm).trans (List.append_assoc _ _ _ ▸ .refl _)
  · obtain hk | ⟨k', hk⟩ := h.asleep k size hk
    · rw [hqueue] at hk
      obtain hk | hk := List.mem_append.mp hk
      · obtain ⟨v, hv, rfl⟩ := List.mem_map.mp hk
        exact .inr ⟨c, List.mem_append_right _ (List.mem_map_of_mem hv)⟩
      · exact .inl hk
    · exact .inr ⟨k', List.mem_append_left _ hk⟩

lemma Inv.step (hlimit : 0 < limit) (h : Inv limit s) (hstep : Step limit s s') : Inv limit s' := by
  obtain ⟨haccounted, horder, hqueued, howed, honce, hasleep, hholders⟩ := h.toSettled
  cases hstep with
  | @acquire c size hidle hfree hsize hroom =>
    have hbytes := haccounted.queuedBytes
    have hreserved := haccounted.reserved
    obtain ⟨haccounted', hwaiters⟩ :=
      haccounted.enqueue c hsize (by rw [State.requestedBytes] at hroom; omega)
    have hqueue : (s.budget.enqueue size c).waiters.map Waiter.call = s.queue ++ [c] := by
      rw [hwaiters, List.map_append]
      rfl
    have hnew : c ∉ s.queue := fun hc => by
      obtain ⟨w, hw, rfl⟩ := List.mem_map.mp hc
      simp [hqueued w hw] at hidle
    refine Settled.reserve ⟨haccounted', ?_, ?_, ?_, ?_, ?_, ?_⟩ hlimit c
    · rw [State.queue, hqueue, horder, List.append_assoc]
    · simp only [hwaiters, Function.update_apply]
      grind
    · simp only [Function.update_apply]
      grind
    · rw [State.queue, hqueue]
      grind
    · simp only [State.queue, hqueue, Function.update_apply]
      grind
    · simp only [Function.update_apply]
      grind
  | @signal c w hw =>
    obtain ⟨size, hphase, hheld⟩ := howed c w hw
    have hperm := (List.perm_cons_erase hw).map Prod.snd
    have honce' : (w :: (s.queue ++ (s.signals.erase (c, w)).map Prod.snd)).Nodup :=
      (((hperm.append_left s.queue).trans List.perm_middle).nodup_iff).mp honce
    have hgone := (List.nodup_cons.mp honce').1
    simp only [State.queue, List.mem_append, List.mem_map, not_or, not_exists, not_and] at hgone
    refine ⟨⟨haccounted, horder, ?_, ?_, honce'.of_cons, ?_, ?_⟩, h.blocked⟩ <;>
      simp only [Function.update_apply, hphase, Phase.signalled]
    · grind
    · intro k v hv
      have hold := howed k v (List.mem_of_mem_erase hv)
      grind
    · intro k size' hk
      have hmem (k' : Nat) (hne : k ≠ w) (hk' : (k', k) ∈ s.signals) : (k', k) ∈ s.signals.erase (c, w) :=
        (List.mem_erase_of_ne (by simp [hne])).mpr hk'
      grind [State.queue]
    · grind
  | @enter c size hwaiting hfree =>
    refine ⟨⟨haccounted, horder, ?_, ?_, honce, ?_, ?_⟩, h.blocked⟩ <;>
      simp only [Function.update_apply] <;> grind [State.queue]
  | @drop c size hholding hfree =>
    obtain ⟨haccounted', hwaiters⟩ := haccounted.release (hholders c size (.inl hholding))
    refine Settled.reserve ⟨haccounted', ?_, ?_, ?_, ?_, ?_, ?_⟩ hlimit c
    · rw [State.queue, hwaiters, horder]
      rfl
    · simp only [hwaiters, Function.update_apply]
      grind
    · simp only [Function.update_apply]
      grind
    · rw [State.queue, hwaiters]
      exact honce
    · simp only [State.queue, hwaiters, Function.update_apply]
      grind [State.queue]
    · simp only [Function.update_apply]
      grind

end

theorem payloadBudget_fair (limit : Nat) (hlimit : 1 ≤ limit) (s : State)
    (h : Relation.ReflTransGen (Step limit) .init s) :
    (∀ c size, s.phase c = .holding size → (c, size) ∈ s.held) ∧
    s.budget.reservedBytes = (s.held.map Prod.snd).sum ∧
    (s.budget.reservedBytes ≤ limit ∨ ∃ p, s.held = [p] ∧ limit < p.2) ∧
    s.budget.queuedBytes = (s.budget.waiters.map Waiter.requestedBytes).sum ∧
    s.budget.queuedRequests = s.budget.waiters.length ∧
    s.drawn = s.granted ++ s.budget.waiters.map Waiter.call ∧ s.budget.accountingErrors = 0 ∧
    (∀ w ∈ s.budget.waiters.head?,
      requestFitsBudget limit s.budget.reservedBytes w.requestedBytes = false) ∧
    (s.signals = [] → ∀ c, (∃ size, s.phase c = .waiting size false) ↔
      c ∈ s.budget.waiters.map Waiter.call) := by
  have hinv : Inv limit s := by
    induction h with
    | refl =>
      refine ⟨⟨⟨rfl, .inl (Nat.zero_le _), rfl, rfl, Nat.zero_le _, ?_, ?_, tickets_init, rfl⟩, rfl, ?_, ?_, ?_, ?_, ?_⟩, ?_⟩ <;>
        simp [State.init, State.queue]
    | tail _ hstep ih => exact ih.step hlimit hstep
  have hacc := hinv.accounted
  refine ⟨fun c size hc => hinv.holders c size (.inl hc), hacc.reserved, hacc.bounded, hacc.queuedBytes,
    hacc.queuedRequests, hinv.order, hacc.errors, hinv.blocked, fun hnone c => ⟨?_, fun hc => ?_⟩⟩
  · rintro ⟨size, hsize⟩
    obtain hc | ⟨k, hk⟩ := hinv.asleep c size hsize
    · exact hc
    · simp [hnone] at hk
  · obtain ⟨w, hw, rfl⟩ := List.mem_map.mp hc
    exact ⟨_, hinv.queued w hw⟩

def oversized : State := (State.init.acquire 10 0 12).acquire 10 1 3

theorem payloadBudget_fair_oversized : ∃ p, oversized.held = [p] ∧ 10 < p.2 := by
  have h : Relation.ReflTransGen (Step 10) .init oversized :=
    .tail (.single (.acquire 12 rfl (by simp [State.init]) (by decide) (by decide)))
      (.acquire 3 rfl (by simp [show (State.init.acquire 10 0 12).signals = [(0, 0)] from rfl])
        (by decide) (by decide))
  exact (payloadBudget_fair 10 (by decide) _ h).2.2.1.resolve_left (by decide)

end Fod.Admission.PayloadBudget
