import Fod.Admission.TransactionGate

/-!
# The admission gate of logical tasks

`LogicalTaskAdmissionGate` is a second gate of the same kind.  Its queue carries
with each waiter the observability record that the task was announced to, and
accounting errors are counted there.
-/

namespace Fod.Admission

open Counter
open FifoGate (Phase)

structure QueueObservability where
  admittedTasks : Nat
  queuedTasks : Nat
  peakQueuedTasks : Nat
  backpressureEvents : Nat
  fairnessYields : Nat
  accountingErrors : Nat

namespace QueueObservability

def init : QueueObservability := ⟨0, 0, 0, 0, 0, 0⟩

def recordAccountingError (o : QueueObservability) : QueueObservability :=
  { o with accountingErrors := saturatingAdd o.accountingErrors 1 }

def recordBackpressure (o : QueueObservability) : QueueObservability :=
  { o with backpressureEvents := saturatingAdd o.backpressureEvents 1 }

def recordFairnessYield (o : QueueObservability) : QueueObservability :=
  { o with fairnessYields := saturatingAdd o.fairnessYields 1 }

def admitTask (o : QueueObservability) : QueueObservability :=
  let queued := saturatingAdd o.queuedTasks 1
  { o with
    admittedTasks := saturatingAdd o.admittedTasks 1
    queuedTasks := queued
    peakQueuedTasks := max o.peakQueuedTasks queued }

def startTask (o : QueueObservability) : QueueObservability :=
  match checkedSub o.queuedTasks 1 with
  | some queued => { o with queuedTasks := queued }
  | none => o.recordAccountingError

def admitAndStartTask (o : QueueObservability) : QueueObservability :=
  { o.admitTask with queuedTasks := o.admitTask.queuedTasks - 1 }

end QueueObservability

structure LogicalTaskAdmissionWaiter where
  ticket : Nat
  thread : Nat
  observer : Nat

structure LogicalTaskAdmissionState where
  activeTasks : Nat
  nextTicket : Nat
  servingTicket : Nat
  waiters : List LogicalTaskAdmissionWaiter

/-- What a thread is doing in the gate, with the observability record of its task:
it has announced the task, has queued and still to record how it found the queue,
has queued and recorded, or has its permit. -/
inductive TaskPhase where
  | idle
  | announced (observer : Nat)
  | queued (observer : Nat) (full older : Bool) (wake : Option Nat) (ready : Bool)
  | acquiring (observer : Nat) (wake : Option Nat) (ready : Bool)
  | admitted (observer : Nat)
  | releasing (wake : Nat)

def TaskPhase.view : TaskPhase → Phase
  | .idle | .announced _ => .idle
  | .queued _ _ _ wake ready | .acquiring _ wake ready => .acquiring wake ready
  | .admitted _ => .admitted
  | .releasing wake => .releasing wake

def TaskPhase.asks : TaskPhase → Option Nat
  | .announced observer | .queued observer _ _ _ _ | .acquiring observer _ _ => some observer
  | _ => none

inductive TaskAction where
  | announce (t observer : Nat)
  | queue (t : Nat)
  | record (t : Nat)
  | signal (t : Nat)
  | enter (t : Nat)
  | release (t : Nat)

structure LogicalTaskGate where
  state : LogicalTaskAdmissionState
  observers : Nat → QueueObservability
  phase : Nat → TaskPhase
  drawn : List Nat
  granted : List Nat
  holders : List Nat

namespace LogicalTaskGate

def init : LogicalTaskGate := ⟨⟨0, 0, 0, []⟩, fun _ => .init, fun _ => .idle, [], [], []⟩

def setPhase (s : LogicalTaskGate) (t : Nat) (p : TaskPhase) : LogicalTaskGate :=
  { s with phase := Function.update s.phase t p }

def observe (s : LogicalTaskGate) (o : Nat) (f : QueueObservability → QueueObservability) :
    LogicalTaskGate :=
  { s with observers := Function.update s.observers o (f (s.observers o)) }

def reserveNextWaiter (limit : Nat) (s : LogicalTaskGate) : LogicalTaskGate × Option Nat :=
  if limit ≤ s.state.activeTasks then (s, none)
  else
    match s.state.waiters with
    | [] => (s, none)
    | waiter :: rest =>
      let mismatch := waiter.ticket ≠ s.state.servingTicket
      let serving := if mismatch then waiter.ticket else s.state.servingTicket
      let s := if mismatch then s.observe waiter.observer .recordAccountingError else s
      ({ s with
          state :=
            { s.state with
              activeTasks := saturatingAdd s.state.activeTasks 1
              servingTicket := wrappingAdd serving 1
              waiters := rest }
          granted := s.granted ++ [waiter.thread]
          holders := s.holders ++ [waiter.thread] }, some waiter.thread)

def signal (s : LogicalTaskGate) (w : Nat) : LogicalTaskGate :=
  match s.phase w with
  | .queued o full older wake _ => s.setPhase w (.queued o full older wake true)
  | .acquiring o wake _ => s.setPhase w (.acquiring o wake true)
  | _ => s

def dropPermit (limit : Nat) (s : LogicalTaskGate) (observer : Nat) :
    LogicalTaskGate × Option Nat :=
  match checkedSub s.state.activeTasks 1 with
  | some active => reserveNextWaiter limit { s with state := { s.state with activeTasks := active } }
  | none => (s.observe observer .recordAccountingError, none)

def afterRelease : Option Nat → TaskPhase
  | none => .idle
  | some w => .releasing w

/-- Thread ids are below `u64::MAX`.  A limit of 0 switches the gate off. -/
def step (limit : Nat) (s : LogicalTaskGate) : TaskAction → Option LogicalTaskGate
  | .announce t o =>
    if u64Max ≤ t then none
    else
      match s.phase t with
      | .idle =>
        if limit = 0 then some ((s.observe o .admitAndStartTask).setPhase t (.admitted o))
        else some ((s.observe o .admitTask).setPhase t (.announced o))
      | _ => none
  | .queue t =>
    match s.phase t with
    | .announced o =>
      let older := !s.state.waiters.isEmpty
      let full := decide (limit ≤ s.state.activeTasks)
      let result := reserveNextWaiter limit
        { s with
          state :=
            { s.state with
              nextTicket := wrappingAdd s.state.nextTicket 1
              waiters := s.state.waiters ++ [⟨s.state.nextTicket, t, o⟩] }
          drawn := s.drawn ++ [t] }
      some (result.1.setPhase t (.queued o full older result.2 false))
    | _ => none
  | .record t =>
    match s.phase t with
    | .queued o full older wake ready =>
      let s := if full || older then s.observe o .recordBackpressure else s
      let s := if older then s.observe o .recordFairnessYield else s
      some (s.setPhase t (.acquiring o wake ready))
    | _ => none
  | .signal t =>
    match s.phase t with
    | .acquiring o (some w) ready => some ((s.setPhase t (.acquiring o none ready)).signal w)
    | .releasing w => some ((s.setPhase t .idle).signal w)
    | _ => none
  | .enter t =>
    match s.phase t with
    | .acquiring o none true => some ((s.observe o .startTask).setPhase t (.admitted o))
    | _ => none
  | .release t =>
    match s.phase t with
    | .admitted o =>
      if limit = 0 then some (s.setPhase t .idle)
      else
        let result := dropPermit limit { s with holders := s.holders.erase t } o
        some (result.1.setPhase t (afterRelease result.2))
    | _ => none

/-! ## The accounting -/

def asking (s : LogicalTaskGate) (o : Nat) : Finset Nat :=
  (Finset.range u64Max).filter fun t => (s.phase t).asks = some o

structure Counted (s : LogicalTaskGate) : Prop where
  known : ∀ t, s.phase t ≠ .idle → t < u64Max
  queued : ∀ o, (s.observers o).queuedTasks = (s.asking o).card
  errors : ∀ o, (s.observers o).accountingErrors = 0

section Accounting

variable {s s' : LogicalTaskGate} {t o : Nat} {p : TaskPhase}

lemma mem_asking : t ∈ s.asking o ↔ t < u64Max ∧ (s.phase t).asks = some o := by
  simp [asking]

@[simp] lemma phase_setPhase (s : LogicalTaskGate) (t u : Nat) (p : TaskPhase) :
    (s.setPhase t p).phase u = if u = t then p else s.phase u := by
  simp [setPhase, Function.update_apply]

lemma asking_setPhase (h : p.asks = (s.phase t).asks) : (s.setPhase t p).asking o = s.asking o := by
  ext u
  rw [mem_asking, mem_asking, phase_setPhase]
  split
  next hu => rw [hu, h]
  next => rfl

lemma asking_setPhase_ne (h : p.asks ≠ some o) (h' : (s.phase t).asks ≠ some o) :
    (s.setPhase t p).asking o = s.asking o := by
  ext u
  rw [mem_asking, mem_asking, phase_setPhase]
  split
  next hu => simp [hu, h, h']
  next => rfl

lemma Counted.setPhase (h : Counted s) (hasks : p.asks = (s.phase t).asks)
    (hidle : p ≠ .idle → s.phase t ≠ .idle) : Counted (s.setPhase t p) where
  known u hu := by
    rw [phase_setPhase] at hu
    split at hu
    next heq => exact heq ▸ h.known t (hidle hu)
    next => exact h.known u hu
  queued o := by
    rw [asking_setPhase hasks]
    exact h.queued o
  errors := h.errors

lemma Counted.observe (h : Counted s) {f : QueueObservability → QueueObservability}
    (hqueued : ∀ r, (f r).queuedTasks = r.queuedTasks)
    (herrors : ∀ r, (f r).accountingErrors = r.accountingErrors) : Counted (s.observe o f) where
  known := h.known
  queued o' := by
    change (Function.update s.observers o _ o').queuedTasks = (s.asking o').card
    rw [← h.queued, Function.update_apply]
    split
    next heq => rw [heq, hqueued]
    next => rfl
  errors o' := by
    change (Function.update s.observers o _ o').accountingErrors = 0
    rw [Function.update_apply]
    split
    · rw [herrors, h.errors]
    · exact h.errors o'

lemma Counted.announce (h : Counted s) (ht : t < u64Max) (hidle : s.phase t = .idle) :
    Counted ((s.observe o .admitTask).setPhase t (.announced o)) where
  known u hu := by
    rw [phase_setPhase] at hu
    split at hu
    next heq => exact heq ▸ ht
    next => exact h.known u hu
  queued o' := by
    change (Function.update s.observers o _ o').queuedTasks = _
    rw [Function.update_apply]
    split
    next heq =>
      have hfree : t ∉ s.asking o := by simp [mem_asking, hidle, TaskPhase.asks]
      have hinsert : ((s.observe o .admitTask).setPhase t (.announced o)).asking o' =
          insert t (s.asking o) := by
        ext u
        rw [heq, mem_asking, phase_setPhase, Finset.mem_insert, mem_asking]
        by_cases hu : u = t
        · simp [hu, ht, TaskPhase.asks]
        · simp [hu, LogicalTaskGate.observe]
      have hroom : (s.asking o).card + 1 ≤ u64Max := by
        rw [← Finset.card_insert_of_notMem hfree]
        refine (Finset.card_le_card fun u hu => ?_).trans_eq (Finset.card_range u64Max)
        rcases Finset.mem_insert.mp hu with rfl | hu
        · exact Finset.mem_range.mpr ht
        · exact Finset.mem_range.mpr (mem_asking.mp hu).1
      rw [hinsert, Finset.card_insert_of_notMem hfree, QueueObservability.admitTask]
      simp only [h.queued o]
      exact Nat.min_eq_left hroom
    next hne =>
      rw [h.queued o', asking_setPhase_ne (by simp [TaskPhase.asks, Ne.symm hne])
        (by simp [LogicalTaskGate.observe, hidle, TaskPhase.asks])]
      rfl
  errors o' := by
    change (Function.update s.observers o _ o').accountingErrors = 0
    rw [Function.update_apply]
    split
    · exact h.errors o
    · exact h.errors o'

lemma Counted.start (h : Counted s) (hphase : (s.phase t).asks = some o) :
    Counted ((s.observe o .startTask).setPhase t (.admitted o)) := by
  have ht : t < u64Max := by
    refine h.known t fun hidle => ?_
    rw [hidle] at hphase
    cases hphase
  have hmem : t ∈ s.asking o := mem_asking.mpr ⟨ht, hphase⟩
  have hpos : 1 ≤ (s.observers o).queuedTasks := by
    rw [h.queued]
    exact Finset.card_pos.mpr ⟨t, hmem⟩
  have hstart : (s.observers o).startTask =
      { s.observers o with queuedTasks := (s.observers o).queuedTasks - 1 } := by
    rw [QueueObservability.startTask, checkedSub, if_pos hpos]
  refine ⟨fun u hu => ?_, fun o' => ?_, fun o' => ?_⟩
  · rw [phase_setPhase] at hu
    split at hu
    next heq => exact heq ▸ ht
    next => exact h.known u hu
  · change (Function.update s.observers o _ o').queuedTasks = _
    rw [Function.update_apply]
    split
    next heq =>
      have herase : ((s.observe o .startTask).setPhase t (.admitted o)).asking o' =
          (s.asking o).erase t := by
        ext u
        rw [heq, mem_asking, phase_setPhase, Finset.mem_erase, mem_asking]
        by_cases hu : u = t
        · simp [hu, TaskPhase.asks]
        · simp [hu, LogicalTaskGate.observe]
      rw [herase, Finset.card_erase_of_mem hmem, hstart, ← h.queued]
    next hne =>
      rw [h.queued o', asking_setPhase_ne (by simp [TaskPhase.asks])
        (by simp [LogicalTaskGate.observe, hphase, Ne.symm hne])]
      rfl
  · change (Function.update s.observers o _ o').accountingErrors = 0
    rw [Function.update_apply]
    split
    · rw [hstart]
      exact h.errors o
    · exact h.errors o'

end Accounting

/-! ## The gate serves in order -/

def view (s : LogicalTaskGate) : FifoGate.State :=
  ⟨s.state.activeTasks, s.state.waiters.map LogicalTaskAdmissionWaiter.thread,
    fun t => (s.phase t).view, s.drawn, s.granted, s.holders⟩

def InOrder (s : LogicalTaskGate) : Prop :=
  Tickets s.state.servingTicket s.state.nextTicket
    (s.state.waiters.map LogicalTaskAdmissionWaiter.ticket)

structure Inv (limit : Nat) (s : LogicalTaskGate) : Prop where
  ordered : FifoGate.Inv limit s.view
  tickets : s.InOrder
  counted : s.Counted

lemma inv_init (limit : Nat) : Inv limit init where
  ordered := FifoGate.inv_init limit
  tickets := tickets_init
  counted :=
    { known := fun t h => absurd rfl h
      queued := fun o => by simp [init, QueueObservability.init, asking, TaskPhase.asks]
      errors := fun _ => rfl }

section Simulation

variable {limit : Nat} {s s' : LogicalTaskGate} {t o : Nat}

lemma view_setPhase (s : LogicalTaskGate) (t : Nat) (p : TaskPhase) :
    (s.setPhase t p).view = s.view.setPhase t p.view := by
  simp only [view, FifoGate.State.setPhase, setPhase, FifoGate.State.mk.injEq, true_and, and_true]
  funext u
  exact Function.apply_update (fun _ => TaskPhase.view) s.phase t p u

lemma view_setPhase_self {p : TaskPhase} (h : p.view = (s.phase t).view) :
    (s.setPhase t p).view = s.view := by
  rw [view_setPhase, h]
  exact congrArg (fun phase => { s.view with phase := phase })
    (Function.update_eq_self t fun u => (s.phase u).view)

lemma view_signal (s : LogicalTaskGate) (w : Nat) : (s.signal w).view = s.view.ring w := by
  rw [signal, FifoGate.State.ring, show s.view.phase w = (s.phase w).view from rfl]
  cases s.phase w <;> simp [TaskPhase.view, view_setPhase]

lemma state_signal (s : LogicalTaskGate) (w : Nat) : (s.signal w).state = s.state := by
  rw [signal]
  split <;> rfl

lemma Counted.signal (h : Counted s) (w : Nat) : Counted (s.signal w) := by
  rw [LogicalTaskGate.signal]
  split
  next hphase => exact h.setPhase (by rw [hphase]; rfl) (by simp [hphase])
  next hphase => exact h.setPhase (by rw [hphase]; rfl) (by simp [hphase])
  next => exact h

lemma InOrder.reserve (h : s.InOrder) (hlimit : limit ≤ u64Max) :
    (s.reserveNextWaiter limit).1.view = (s.view.grant limit).1 ∧
      (s.reserveNextWaiter limit).2 = (s.view.grant limit).2 ∧
      (s.reserveNextWaiter limit).1.InOrder ∧ (s.reserveNextWaiter limit).1.phase = s.phase ∧
      (s.reserveNextWaiter limit).1.observers = s.observers := by
  rw [reserveNextWaiter, FifoGate.State.grant, show s.view.active = s.state.activeTasks from rfl]
  split
  next => exact ⟨rfl, rfl, h, rfl, rfl⟩
  next hroom =>
    cases hwaiters : s.state.waiters with
    | nil =>
      rw [show s.view.waiters = [] by simp [view, hwaiters]]
      exact ⟨rfl, rfl, h, rfl, rfl⟩
    | cons waiter rest =>
      rw [InOrder, hwaiters, List.map_cons] at h
      obtain ⟨hserved, hrest⟩ := h.pop
      have hactive : saturatingAdd s.state.activeTasks 1 = s.state.activeTasks + 1 :=
        Nat.min_eq_left (by omega)
      rw [show s.view.waiters = waiter.thread :: rest.map LogicalTaskAdmissionWaiter.thread by
        simp [view, hwaiters]]
      simp only [hserved, ne_eq, not_true_eq_false, if_false]
      exact ⟨by simp [view, hactive], trivial, hrest, trivial, trivial⟩

lemma Counted.congr (h : Counted s) (hphase : s'.phase = s.phase)
    (hobservers : s'.observers = s.observers) : Counted s' := by
  refine ⟨fun t => hphase ▸ h.known t, fun o => ?_, fun o => hobservers ▸ h.errors o⟩
  rw [hobservers, h.queued, asking, asking, hphase]

lemma view_afterRelease (wake : Option Nat) :
    (afterRelease wake).view = FifoGate.afterRelease wake := by
  cases wake <;> rfl

lemma asks_afterRelease (wake : Option Nat) : (afterRelease wake).asks = none := by
  cases wake <;> rfl

lemma Inv.wakes (h : Inv limit s) {a : FifoGate.Action} {p : TaskPhase} {w : Nat}
    (hview : FifoGate.step limit s.view a = some ((s.view.setPhase t p.view).ring w))
    (hasks : p.asks = (s.phase t).asks) (hidle : p ≠ .idle → s.phase t ≠ .idle)
    (hpos : 0 < limit) : Inv limit ((s.setPhase t p).signal w) := by
  refine ⟨?_, ?_, (h.counted.setPhase hasks hidle).signal w⟩
  · rw [view_signal, view_setPhase]
    exact h.ordered.step hpos hview
  · rw [InOrder, state_signal]
    exact h.tickets

lemma Inv.observe (h : Inv limit s) {f : QueueObservability → QueueObservability}
    (hqueued : ∀ r, (f r).queuedTasks = r.queuedTasks)
    (herrors : ∀ r, (f r).accountingErrors = r.accountingErrors) : Inv limit (s.observe o f) :=
  ⟨h.ordered, h.tickets, h.counted.observe hqueued herrors⟩

lemma Inv.record (h : Inv limit s) {full older : Bool} {wake : Option Nat} {ready : Bool}
    (hphase : s.phase t = .queued o full older wake ready) :
    Inv limit (s.setPhase t (.acquiring o wake ready)) := by
  refine ⟨?_, h.tickets, h.counted.setPhase (by rw [hphase]; rfl) (by simp [hphase])⟩
  rw [view_setPhase_self (by rw [hphase]; rfl)]
  exact h.ordered

lemma Inv.step {a : TaskAction} (hpos : 0 < limit) (hlimit : limit ≤ u64Max) (h : Inv limit s)
    (hstep : step limit s a = some s') : Inv limit s' := by
  cases a with
  | announce t o =>
    rw [LogicalTaskGate.step] at hstep
    split at hstep
    · cases hstep
    next hid =>
    split at hstep
    next hidle =>
      rw [if_neg (Nat.ne_of_gt hpos)] at hstep
      cases hstep
      refine ⟨?_, h.tickets, h.counted.announce (Nat.lt_of_not_le hid) hidle⟩
      rw [view_setPhase_self (by simp [LogicalTaskGate.observe, hidle, TaskPhase.view])]
      exact h.ordered
    next => cases hstep
  | queue t =>
    rw [LogicalTaskGate.step] at hstep
    split at hstep
    next o hphase =>
      cases hstep
      have hpush : InOrder
          { s with
            state :=
              { s.state with
                nextTicket := wrappingAdd s.state.nextTicket 1
                waiters := s.state.waiters ++ [⟨s.state.nextTicket, t, o⟩] }
            drawn := s.drawn ++ [t] } := by
        rw [InOrder, List.map_append]
        exact h.tickets.push
      obtain ⟨hview, hwake, htickets, hphases, hobservers⟩ := hpush.reserve hlimit
      refine ⟨h.ordered.step (a := .acquire t) hpos ?_, htickets,
        (h.counted.congr hphases hobservers).setPhase ?_ ?_⟩
      · rw [FifoGate.step, show s.view.phase t = _ from congrArg TaskPhase.view hphase, view_setPhase,
          hview, hwake]
        simp [view, TaskPhase.view]
      · rw [hphases, hphase]
        rfl
      · rw [hphases, hphase]
        simp
    next => cases hstep
  | record t =>
    rw [LogicalTaskGate.step] at hstep
    split at hstep
    next o full older wake ready hphase =>
      cases hstep
      have hfull : Inv limit (s.observe o .recordBackpressure) :=
        h.observe (fun _ => rfl) fun _ => rfl
      have hyielded : Inv limit ((s.observe o .recordBackpressure).observe o .recordFairnessYield) :=
        hfull.observe (fun _ => rfl) fun _ => rfl
      cases older with
      | true => simpa using hyielded.record hphase
      | false =>
        cases full with
        | true => exact hfull.record hphase
        | false => exact h.record hphase
    next => cases hstep
  | signal t =>
    rw [LogicalTaskGate.step] at hstep
    split at hstep
    next o w ready hphase =>
      cases hstep
      refine h.wakes (a := .signal t) ?_ (by rw [hphase]; rfl) (by simp [hphase]) hpos
      rw [FifoGate.step, show s.view.phase t = _ from congrArg TaskPhase.view hphase]
      rfl
    next w hphase =>
      cases hstep
      refine h.wakes (a := .signal t) ?_ (by rw [hphase]; rfl) (by simp [hphase]) hpos
      rw [FifoGate.step, show s.view.phase t = _ from congrArg TaskPhase.view hphase]
      rfl
    next => cases hstep
  | enter t =>
    rw [LogicalTaskGate.step] at hstep
    split at hstep
    next o hphase =>
      cases hstep
      refine ⟨h.ordered.step (a := .enter t) hpos ?_, h.tickets, h.counted.start (by rw [hphase]; rfl)⟩
      rw [FifoGate.step, show s.view.phase t = _ from congrArg TaskPhase.view hphase, view_setPhase]
      rfl
    next => cases hstep
  | release t =>
    rw [LogicalTaskGate.step] at hstep
    split at hstep
    next o hphase =>
      rw [if_neg (Nat.ne_of_gt hpos)] at hstep
      cases hstep
      have hholder : t ∈ s.holders := by
        have hplaced := h.ordered.placed t
        rwa [show s.view.phase t = _ from congrArg TaskPhase.view hphase] at hplaced
      have hactive : 1 ≤ s.state.activeTasks :=
        Nat.le_trans (List.length_pos_of_mem hholder) (Nat.le_of_eq h.ordered.counted.symm)
      rw [dropPermit, checkedSub, if_pos hactive]
      have hqueue : InOrder
          { s with
            state := { s.state with activeTasks := s.state.activeTasks - 1 }
            holders := s.holders.erase t } := h.tickets
      obtain ⟨hview, hwake, htickets, hphases, hobservers⟩ := hqueue.reserve hlimit
      refine ⟨h.ordered.step (a := .release t) hpos ?_, htickets,
        (h.counted.congr hphases hobservers).setPhase ?_ ?_⟩
      · rw [FifoGate.step, show s.view.phase t = _ from congrArg TaskPhase.view hphase, view_setPhase,
          hview, hwake, view_afterRelease]
        rfl
      · rw [hphases, hphase, asks_afterRelease]
        rfl
      · rw [hphases, hphase]
        simp
    next => cases hstep

lemma run_inv {trace : List TaskAction} (hpos : 0 < limit) (hlimit : limit ≤ u64Max)
    (hrun : GuardedRun.run (LogicalTaskGate.step limit) init trace = some s) : Inv limit s :=
  GuardedRun.run_invariant_of_step (fun _ _ _ h hstep => h.step hpos hlimit hstep)
    (inv_init limit) hrun

end Simulation

end LogicalTaskGate

/-- Along every run both gates take in at most `limit` threads, in the order of their
tickets, never count an accounting error, and leave nobody asleep while there is room. -/
theorem admission_gates_serve_in_order {limit : Nat} (hpos : 0 < limit) (hlimit : limit ≤ u64Max) :
    (∀ trace s, GuardedRun.run (TransactionGate.step limit) .init trace = some s →
      FifoGate.Serves limit s.view ∧ s.state.accountingErrors = 0 ∧
      Tickets s.state.servingTicket s.state.nextTicket
        (s.state.waiters.map TransactionAdmissionWaiter.ticket)) ∧
    (∀ trace s, GuardedRun.run (LogicalTaskGate.step limit) .init trace = some s →
      FifoGate.Serves limit s.view ∧ (∀ o, (s.observers o).accountingErrors = 0) ∧
      Tickets s.state.servingTicket s.state.nextTicket
        (s.state.waiters.map LogicalTaskAdmissionWaiter.ticket)) := by
  refine ⟨fun trace s hrun => ?_, fun trace s hrun => ?_⟩
  · have hinv := TransactionGate.run_inv hpos hlimit hrun
    exact ⟨hinv.ordered.serves, hinv.sound.errors, hinv.sound.tickets⟩
  · have hinv := LogicalTaskGate.run_inv hpos hlimit hrun
    exact ⟨hinv.ordered.serves, hinv.counted.errors, hinv.tickets⟩

def threeTransactions : List FifoGate.Action :=
  [.acquire 0, .signal 0, .enter 0, .acquire 1, .acquire 2, .release 0]

def threeTasks : List TaskAction :=
  [.announce 0 0, .queue 0, .record 0, .signal 0, .enter 0, .announce 1 0, .queue 1,
    .announce 2 0, .queue 2, .release 0]

theorem admission_gates_serve_three_threads :
    (∃ s, GuardedRun.run (TransactionGate.step 1) .init threeTransactions = some s ∧
      s.state.active = 1 ∧ s.granted = [0, 1] ∧ s.state.accountingErrors = 0) ∧
    (∃ s, GuardedRun.run (LogicalTaskGate.step 1) .init threeTasks = some s ∧
      s.state.activeTasks = 1 ∧ s.granted = [0, 1] ∧ (s.observers 0).accountingErrors = 0) := by
  have hserve := admission_gates_serve_in_order Nat.one_pos (by decide : 1 ≤ u64Max)
  refine ⟨⟨_, rfl, rfl, rfl, (hserve.1 threeTransactions _ rfl).2.1⟩, ⟨_, rfl, rfl, rfl, ?_⟩⟩
  exact (hserve.2 threeTasks _ rfl).2.1 0

end Fod.Admission
