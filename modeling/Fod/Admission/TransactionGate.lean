import Fod.Lib.Counter
import Fod.Lib.FifoGate

/-!
# The admission gate of transactions

`TransactionAdmissionGate` bounds the transactions that run at once.  A thread
draws a ticket and queues; every critical section on the state of the gate ends
by reserving a place for the next waiter, which is signalled after the lock has
been dropped.
-/

namespace Fod.Admission

open Counter
open FifoGate (Phase Action)

def Consecutive : Nat → List Nat → Prop
  | _, [] => True
  | n, ticket :: rest => ticket = n ∧ Consecutive (wrappingAdd n 1) rest

lemma Consecutive.concat {n : Nat} {tickets : List Nat} (h : Consecutive n tickets)
    (hn : n < 2 ^ 64) : Consecutive n (tickets ++ [wrappingAdd n tickets.length]) := by
  induction tickets generalizing n with
  | nil => exact ⟨Nat.mod_eq_of_lt hn, trivial⟩
  | cons ticket rest ih =>
    obtain ⟨hticket, hrest⟩ := h
    have htail := ih hrest (Nat.mod_lt _ (by decide))
    refine ⟨hticket, ?_⟩
    rwa [List.append_eq, List.length_cons, show wrappingAdd n (rest.length + 1) =
      wrappingAdd (wrappingAdd n 1) rest.length by simp [wrappingAdd]; omega]

structure Tickets (serving next : Nat) (tickets : List Nat) : Prop where
  consecutive : Consecutive serving tickets
  bound : serving < 2 ^ 64
  next_eq : next = wrappingAdd serving tickets.length

lemma tickets_init : Tickets 0 0 [] := ⟨trivial, by decide, rfl⟩

lemma Tickets.pop {serving next ticket : Nat} {rest : List Nat}
    (h : Tickets serving next (ticket :: rest)) :
    ticket = serving ∧ Tickets (wrappingAdd serving 1) next rest := by
  refine ⟨h.consecutive.1, h.consecutive.2, Nat.mod_lt _ (by decide), ?_⟩
  rw [h.next_eq, List.length_cons]
  simp [wrappingAdd]
  omega

lemma Tickets.push {serving next : Nat} {tickets : List Nat} (h : Tickets serving next tickets) :
    Tickets serving (wrappingAdd next 1) (tickets ++ [next]) := by
  refine ⟨?_, h.bound, ?_⟩
  · rw [h.next_eq]
    exact h.consecutive.concat h.bound
  · rw [h.next_eq, List.length_append, List.length_singleton]
    simp [wrappingAdd]
    omega

lemma length_le_u64Max {threads : List Nat} (hnodup : threads.Nodup)
    (hthreads : ∀ t ∈ threads, t < u64Max) : threads.length ≤ u64Max := by
  have hsubset : threads ⊆ List.range u64Max := fun t ht => List.mem_range.mpr (hthreads t ht)
  have hle := (List.subperm_of_subset hnodup hsubset).length_le
  rwa [List.length_range] at hle

structure TransactionAdmissionWaiter where
  ticket : Nat
  thread : Nat

structure TransactionAdmissionState where
  active : Nat
  queued : Nat
  peakActive : Nat
  peakQueued : Nat
  nextTicket : Nat
  servingTicket : Nat
  waiters : List TransactionAdmissionWaiter
  admissionCount : Nat
  backpressureEvents : Nat
  fairnessYields : Nat
  accountingErrors : Nat

namespace TransactionAdmissionState

def init : TransactionAdmissionState := ⟨0, 0, 0, 0, 0, 0, [], 0, 0, 0, 0⟩

def recordAccountingError (s : TransactionAdmissionState) : TransactionAdmissionState :=
  { s with accountingErrors := saturatingAdd s.accountingErrors 1 }

def reserveNextWaiter (limit : Nat) (s : TransactionAdmissionState) :
    TransactionAdmissionState × Option TransactionAdmissionWaiter :=
  if limit ≤ s.active then (s, none)
  else
    match s.waiters with
    | [] => (s, none)
    | waiter :: rest =>
      let s := { s with waiters := rest }
      let s :=
        if waiter.ticket ≠ s.servingTicket then
          { s.recordAccountingError with servingTicket := waiter.ticket }
        else s
      let s :=
        match checkedSub s.queued 1 with
        | some queued => { s with queued := queued }
        | none => s.recordAccountingError
      let active := saturatingAdd s.active 1
      ({ s with
          active := active
          peakActive := max s.peakActive active
          admissionCount := saturatingAdd s.admissionCount 1
          servingTicket := wrappingAdd s.servingTicket 1 }, some waiter)

def acquire (limit : Nat) (s : TransactionAdmissionState) (thread : Nat) :
    TransactionAdmissionState × Option TransactionAdmissionWaiter :=
  let ticket := s.nextTicket
  let hadOlderWaiter := !s.waiters.isEmpty
  let capacityFull := decide (limit ≤ s.active)
  let queued := saturatingAdd s.queued 1
  reserveNextWaiter limit
    { s with
      nextTicket := wrappingAdd s.nextTicket 1
      waiters := s.waiters ++ [⟨ticket, thread⟩]
      queued := queued
      peakQueued := max s.peakQueued queued
      backpressureEvents :=
        if capacityFull || hadOlderWaiter then saturatingAdd s.backpressureEvents 1
        else s.backpressureEvents
      fairnessYields :=
        if hadOlderWaiter then saturatingAdd s.fairnessYields 1 else s.fairnessYields }

def dropPermit (limit : Nat) (s : TransactionAdmissionState) :
    TransactionAdmissionState × Option TransactionAdmissionWaiter :=
  match checkedSub s.active 1 with
  | some active => reserveNextWaiter limit { s with active := active }
  | none => (s.recordAccountingError, none)

structure Sound (g : TransactionAdmissionState) : Prop where
  queued : g.queued = g.waiters.length
  tickets : Tickets g.servingTicket g.nextTicket (g.waiters.map TransactionAdmissionWaiter.ticket)
  errors : g.accountingErrors = 0

variable {limit : Nat} {g : TransactionAdmissionState}

lemma Sound.reserve_cases (h : Sound g) (hlimit : limit ≤ u64Max) :
    (reserveNextWaiter limit g = (g, none) ∧ (limit ≤ g.active ∨ g.waiters = [])) ∨
      ∃ waiter rest g', reserveNextWaiter limit g = (g', some waiter) ∧ g.active < limit ∧
        g.waiters = waiter :: rest ∧ Sound g' ∧ g'.active = g.active + 1 ∧ g'.waiters = rest := by
  rw [reserveNextWaiter]
  split
  next hfull => exact .inl ⟨rfl, .inl hfull⟩
  next hroom =>
    split
    next hempty => exact .inl ⟨rfl, .inr hempty⟩
    next waiter rest hwaiters =>
      have hqueued := h.queued
      have htickets := h.tickets
      rw [hwaiters, List.length_cons] at hqueued
      rw [hwaiters, List.map_cons] at htickets
      obtain ⟨hserved, hrest⟩ := htickets.pop
      have hcheck : checkedSub g.queued 1 = some rest.length := by
        rw [checkedSub, hqueued, if_pos (by omega), Nat.add_sub_cancel]
      have hactive : saturatingAdd g.active 1 = g.active + 1 := Nat.min_eq_left (by omega)
      simp only [hserved, ne_eq, not_true_eq_false, if_false, hcheck]
      exact .inr ⟨waiter, rest, _, rfl, Nat.lt_of_not_le hroom, hwaiters, ⟨rfl, hrest, h.errors⟩,
        hactive, rfl⟩

lemma Sound.push (h : Sound g) (hroom : g.waiters.length < u64Max) (thread peak backpressure
    fairness : Nat) :
    Sound { g with
      nextTicket := wrappingAdd g.nextTicket 1
      waiters := g.waiters ++ [⟨g.nextTicket, thread⟩]
      queued := saturatingAdd g.queued 1
      peakQueued := peak
      backpressureEvents := backpressure
      fairnessYields := fairness } := by
  refine ⟨?_, ?_, h.errors⟩
  · rw [h.queued, List.length_append, List.length_singleton]
    exact Nat.min_eq_left hroom
  · rw [List.map_append]
    exact h.tickets.push

end TransactionAdmissionState

/-- The gate and its threads.  The last three fields record which threads drew a
ticket, which of them a place was reserved for, and which of these have not dropped
their permit. -/
structure TransactionGate where
  state : TransactionAdmissionState
  phase : Nat → Phase
  drawn : List Nat
  granted : List Nat
  holders : List Nat

namespace TransactionGate

def init : TransactionGate := ⟨.init, fun _ => .idle, [], [], []⟩

def setPhase (s : TransactionGate) (t : Nat) (p : Phase) : TransactionGate :=
  { s with phase := Function.update s.phase t p }

def signal (s : TransactionGate) (w : Nat) : TransactionGate :=
  match s.phase w with
  | .acquiring wake _ => s.setPhase w (.acquiring wake true)
  | _ => s

def commit (s : TransactionGate)
    (result : TransactionAdmissionState × Option TransactionAdmissionWaiter) : TransactionGate :=
  let reserved := (result.2.map TransactionAdmissionWaiter.thread).toList
  { s with
    state := result.1
    granted := s.granted ++ reserved
    holders := s.holders ++ reserved }

/-- Thread ids are below `u64::MAX`.  A limit of 0 switches the gate off. -/
def step (limit : Nat) (s : TransactionGate) : Action → Option TransactionGate
  | .acquire t =>
    if u64Max ≤ t then none
    else
      match s.phase t with
      | .idle =>
        if limit = 0 then some (s.setPhase t .admitted)
        else
          let result := s.state.acquire limit t
          some (({ s with drawn := s.drawn ++ [t] }.commit result).setPhase t
            (.acquiring (result.2.map TransactionAdmissionWaiter.thread) false))
      | _ => none
  | .signal t =>
    match s.phase t with
    | .acquiring (some w) ready => some ((s.setPhase t (.acquiring none ready)).signal w)
    | .releasing w => some ((s.setPhase t .idle).signal w)
    | _ => none
  | .enter t =>
    match s.phase t with
    | .acquiring none true => some (s.setPhase t .admitted)
    | _ => none
  | .release t =>
    match s.phase t with
    | .admitted =>
      if limit = 0 then some (s.setPhase t .idle)
      else
        let result := s.state.dropPermit limit
        some (({ s with holders := s.holders.erase t }.commit result).setPhase t
          (FifoGate.afterRelease (result.2.map TransactionAdmissionWaiter.thread)))
    | _ => none

/-! ## The gate serves in order -/

def view (s : TransactionGate) : FifoGate.State :=
  ⟨s.state.active, s.state.waiters.map TransactionAdmissionWaiter.thread, s.phase, s.drawn,
    s.granted, s.holders⟩

structure Inv (limit : Nat) (s : TransactionGate) : Prop where
  ordered : FifoGate.Inv limit s.view
  sound : s.state.Sound
  threads : ∀ w ∈ s.state.waiters, w.thread < u64Max

lemma inv_init (limit : Nat) : Inv limit init :=
  ⟨FifoGate.inv_init limit, ⟨rfl, tickets_init, rfl⟩, by simp [init, TransactionAdmissionState.init]⟩

variable {limit : Nat} {s s' : TransactionGate} {t : Nat}

lemma view_setPhase (s : TransactionGate) (t : Nat) (p : Phase) :
    (s.setPhase t p).view = s.view.setPhase t p := rfl

lemma view_signal (s : TransactionGate) (w : Nat) : (s.signal w).view = s.view.ring w := by
  rw [signal, FifoGate.State.ring]
  change (match s.phase w with
    | .acquiring wake _ => s.setPhase w (.acquiring wake true)
    | _ => s).view = match s.phase w with
    | .acquiring wake _ => s.view.setPhase w (.acquiring wake true)
    | _ => s.view
  split <;> rfl

lemma state_signal (s : TransactionGate) (w : Nat) : (s.signal w).state = s.state := by
  rw [signal]
  split <;> rfl

lemma view_commit (hsound : s.state.Sound) (hlimit : limit ≤ u64Max) :
    (s.commit (s.state.reserveNextWaiter limit)).view = (s.view.grant limit).1 ∧
      (s.state.reserveNextWaiter limit).2.map TransactionAdmissionWaiter.thread =
        (s.view.grant limit).2 ∧ (s.state.reserveNextWaiter limit).1.Sound ∧
      ∀ w ∈ (s.state.reserveNextWaiter limit).1.waiters, w ∈ s.state.waiters := by
  rw [FifoGate.State.grant]
  obtain ⟨hreserve, hstop⟩ | ⟨waiter, rest, g', hreserve, hroom, hwaiters, hsound', hactive, hrest⟩ :=
    hsound.reserve_cases hlimit
  · rw [hreserve]
    refine ⟨?_, ?_, hsound, fun w hw => hw⟩ <;>
      rcases hstop with hfull | hempty <;> simp_all [commit, view]
  · rw [hreserve]
    refine ⟨?_, ?_, hsound', fun w hw => ?_⟩
    · simp [commit, view, Nat.not_le_of_lt hroom, hwaiters, hactive, hrest]
    · simp [view, Nat.not_le_of_lt hroom, hwaiters]
    · rw [hwaiters, ← hrest]
      exact List.mem_cons_of_mem _ hw

lemma Inv.length_lt (h : Inv limit s) (ht : t < u64Max) (hidle : s.phase t = .idle) :
    s.state.waiters.length < u64Max := by
  have hnodup := (List.nodup_append.mp h.ordered.nodup).1
  have hfree := (h.ordered.not_mem_of_idle hidle).1
  have hle := length_le_u64Max (List.nodup_cons.mpr ⟨hfree, hnodup⟩) (by
    simpa [view, ht] using h.threads)
  simp only [view, List.length_cons, List.length_map] at hle
  exact hle

lemma Inv.simulates {a : Action} (hpos : 0 < limit) (hlimit : limit ≤ u64Max) (h : Inv limit s)
    (hstep : step limit s a = some s') :
    FifoGate.step limit s.view a = some s'.view ∧ s'.state.Sound ∧
      ∀ w ∈ s'.state.waiters, w.thread < u64Max := by
  cases a with
  | acquire t =>
    rw [TransactionGate.step] at hstep
    split at hstep
    · cases hstep
    next hid =>
    have ht := Nat.lt_of_not_le hid
    split at hstep
    next hidle =>
      rw [if_neg (Nat.ne_of_gt hpos)] at hstep
      cases hstep
      rw [TransactionAdmissionState.acquire]
      have hpush := h.sound.push (h.length_lt ht hidle) t
      obtain ⟨hview, hwake, hsound, hwaiters⟩ := view_commit
        (s := { s with drawn := s.drawn ++ [t], state := _ }) (hpush _ _ _) hlimit
      refine ⟨?_, hsound, fun w hw => ?_⟩
      · rw [FifoGate.step, show s.view.phase t = .idle from hidle, view_setPhase]
        dsimp only
        rw [hwake]
        simp only [view, List.map_append, List.map_cons, List.map_nil] at hview ⊢
        exact congrArg (fun g => some (FifoGate.State.setPhase g t _)) hview.symm
      · rcases List.mem_append.mp (hwaiters w hw) with hw | hw
        · exact h.threads w hw
        · rwa [List.mem_singleton.mp hw]
    next => cases hstep
  | signal t =>
    rw [TransactionGate.step] at hstep
    split at hstep
    next w ready hphase =>
      cases hstep
      refine ⟨?_, ?_, ?_⟩
      · rw [FifoGate.step, show s.view.phase t = _ from hphase, view_signal, view_setPhase]
      · rw [state_signal]
        exact h.sound
      · rw [state_signal]
        exact h.threads
    next w hphase =>
      cases hstep
      refine ⟨?_, ?_, ?_⟩
      · rw [FifoGate.step, show s.view.phase t = _ from hphase, view_signal, view_setPhase]
      · rw [state_signal]
        exact h.sound
      · rw [state_signal]
        exact h.threads
    next => cases hstep
  | enter t =>
    rw [TransactionGate.step] at hstep
    split at hstep
    next hphase =>
      cases hstep
      refine ⟨?_, h.sound, h.threads⟩
      rw [FifoGate.step, show s.view.phase t = _ from hphase, view_setPhase]
    next => cases hstep
  | release t =>
    rw [TransactionGate.step] at hstep
    split at hstep
    next hphase =>
      rw [if_neg (Nat.ne_of_gt hpos)] at hstep
      cases hstep
      have hholder : t ∈ s.holders := by
        have hplaced := h.ordered.placed t
        rwa [show s.view.phase t = _ from hphase] at hplaced
      have hactive : 1 ≤ s.state.active :=
        Nat.le_trans (List.length_pos_of_mem hholder) (Nat.le_of_eq h.ordered.counted.symm)
      rw [TransactionAdmissionState.dropPermit, checkedSub, if_pos hactive]
      obtain ⟨hview, hwake, hsound, hwaiters⟩ := view_commit
        (s := { s with holders := s.holders.erase t, state := { s.state with active := s.state.active - 1 } })
        ⟨h.sound.queued, h.sound.tickets, h.sound.errors⟩ hlimit
      refine ⟨?_, hsound, fun w hw => h.threads w (hwaiters w hw)⟩
      rw [FifoGate.step, show s.view.phase t = _ from hphase, view_setPhase]
      dsimp only
      rw [hwake]
      exact congrArg (fun g => some (FifoGate.State.setPhase g t _)) hview.symm
    next => cases hstep

lemma Inv.step {a : Action} (hpos : 0 < limit) (hlimit : limit ≤ u64Max) (h : Inv limit s)
    (hstep : step limit s a = some s') : Inv limit s' := by
  obtain ⟨hview, hsound, hthreads⟩ := h.simulates hpos hlimit hstep
  exact ⟨h.ordered.step hpos hview, hsound, hthreads⟩

lemma run_inv {trace : List Action} (hpos : 0 < limit) (hlimit : limit ≤ u64Max)
    (hrun : GuardedRun.run (step limit) init trace = some s) : Inv limit s :=
  GuardedRun.run_invariant_of_step (fun _ _ _ h hstep => h.step hpos hlimit hstep)
    (inv_init limit) hrun

end TransactionGate

end Fod.Admission
