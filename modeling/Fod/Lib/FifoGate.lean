import Fod.Lib.GuardedRun

/-!
# Admission gates that serve in order

A gate lets at most `limit` threads in.  A thread that asks joins the end of a
queue; whoever changes the gate takes the first of the queue in if there is
room, and signals it after leaving the critical section.  A thread in the queue
sleeps until it has been signalled.
-/

namespace FifoGate

/-- What a thread is doing.  `wake` is the thread that it has still to signal,
and `ready` says whether it has been signalled itself. -/
inductive Phase where
  | idle
  | acquiring (wake : Option Nat) (ready : Bool)
  | admitted
  | releasing (wake : Nat)

def Phase.quiet : Phase → Phase
  | .acquiring _ ready => .acquiring none ready
  | .releasing _ => .idle
  | p => p

def Phase.wake : Phase → Option Nat
  | .acquiring wake _ => wake
  | .releasing wake => some wake
  | _ => none

/-- `drawn` and `granted` are the threads in the order in which they joined the queue
and were taken in, and `holders` those that were taken in and have not left. -/
structure State where
  active : Nat
  waiters : List Nat
  phase : Nat → Phase
  drawn : List Nat
  granted : List Nat
  holders : List Nat

inductive Action where
  | acquire (t : Nat)
  | signal (t : Nat)
  | enter (t : Nat)
  | release (t : Nat)

def init : State := ⟨0, [], fun _ => .idle, [], [], []⟩

namespace State

def setPhase (s : State) (t : Nat) (p : Phase) : State :=
  { s with phase := Function.update s.phase t p }

def grant (limit : Nat) (s : State) : State × Option Nat :=
  if limit ≤ s.active then (s, none)
  else
    match s.waiters with
    | [] => (s, none)
    | w :: rest =>
      ({ s with
          active := s.active + 1
          waiters := rest
          granted := s.granted ++ [w]
          holders := s.holders ++ [w] }, some w)

def ring (s : State) (w : Nat) : State :=
  match s.phase w with
  | .acquiring wake _ => s.setPhase w (.acquiring wake true)
  | _ => s

end State

open State

def afterRelease : Option Nat → Phase
  | none => .idle
  | some w => .releasing w

def step (limit : Nat) (s : State) : Action → Option State
  | .acquire t =>
    match s.phase t with
    | .idle =>
      let result := grant limit { s with waiters := s.waiters ++ [t], drawn := s.drawn ++ [t] }
      some (result.1.setPhase t (.acquiring result.2 false))
    | _ => none
  | .signal t =>
    match s.phase t with
    | .acquiring (some w) ready => some ((s.setPhase t (.acquiring none ready)).ring w)
    | .releasing w => some ((s.setPhase t .idle).ring w)
    | _ => none
  | .enter t =>
    match s.phase t with
    | .acquiring none true => some (s.setPhase t .admitted)
    | _ => none
  | .release t =>
    match s.phase t with
    | .admitted =>
      let result := grant limit
        { s with active := s.active - 1, holders := s.holders.erase t }
      some (result.1.setPhase t (afterRelease result.2))
    | _ => none

/-! ## The invariant -/

def Placed (s : State) (t : Nat) : Phase → Prop
  | .idle | .releasing _ => t ∉ s.waiters ∧ t ∉ s.holders
  | .acquiring _ false => t ∈ s.waiters ∨ (t ∈ s.holders ∧ ∃ u, (s.phase u).wake = some t)
  | .acquiring _ true | .admitted => t ∈ s.holders

structure Inv (limit : Nat) (s : State) : Prop where
  bounded : s.active ≤ limit
  counted : s.active = s.holders.length
  fifo : s.drawn = s.granted ++ s.waiters
  full : s.waiters ≠ [] → s.active = limit
  nodup : (s.waiters ++ s.holders).Nodup
  queued : ∀ w ∈ s.waiters, ∃ wake, s.phase w = .acquiring wake false
  placed : ∀ t, Placed s t (s.phase t)
  signalled : ∀ u w, (s.phase u).wake = some w →
    w ∈ s.holders ∧ ∃ wake, s.phase w = .acquiring wake false
  once : ∀ u u' w, (s.phase u).wake = some w → (s.phase u').wake = some w → u = u'

lemma inv_init (limit : Nat) : Inv limit init where
  bounded := Nat.zero_le _
  counted := rfl
  fifo := rfl
  full h := absurd rfl h
  nodup := List.nodup_nil
  queued := by simp [init]
  placed t := by simp [init, Placed]
  signalled u w h := by simp [init, Phase.wake] at h
  once u u' w h := by simp [init, Phase.wake] at h

section Steps

variable {limit : Nat} {s s' : State} {t w : Nat}

@[simp] lemma phase_setPhase (s : State) (t u : Nat) (p : Phase) :
    (s.setPhase t p).phase u = if u = t then p else s.phase u := by
  simp [setPhase, Function.update_apply]

lemma Inv.not_mem_of_idle (h : Inv limit s) (hidle : s.phase t = .idle) :
    t ∉ s.waiters ∧ t ∉ s.holders := by
  have hplaced := h.placed t
  rwa [hidle] at hplaced

lemma Placed.mono {p : Phase} (h : Placed s t p) (hwaiters : t ∈ s'.waiters ↔ t ∈ s.waiters)
    (hholders : t ∈ s'.holders ↔ t ∈ s.holders)
    (hwake : ∀ u, (s.phase u).wake = some t → ∃ u, (s'.phase u).wake = some t) : Placed s' t p := by
  match p with
  | .idle | .releasing _ => exact ⟨mt hwaiters.mp h.1, mt hholders.mp h.2⟩
  | .acquiring _ false =>
    obtain hw | ⟨hh, u, hu⟩ := h
    · exact .inl (hwaiters.mpr hw)
    · exact .inr ⟨hholders.mpr hh, hwake u hu⟩
  | .acquiring _ true | .admitted => exact hholders.mpr h

/-- A thread that is not asleep and owes no signal goes on.  Whom it takes in, it has to
signal; everybody else stays where they are. -/
lemma Inv.move {p : Phase} (h : Inv limit s) (hnone : (s.phase t).wake = none)
    (hawake : ∀ wake, s.phase t ≠ .acquiring wake false)
    (hphase : ∀ u, s'.phase u = if u = t then p else s.phase u)
    (hqueued : ∀ u ∈ s'.waiters, u ∈ s.waiters ∨ u = t ∧ ∃ wake, p = .acquiring wake false)
    (hplaced : Placed s' t p)
    (hsame : ∀ u, u ≠ t → p.wake ≠ some u →
      (u ∈ s'.waiters ↔ u ∈ s.waiters) ∧ (u ∈ s'.holders ↔ u ∈ s.holders))
    (hwake : ∀ w, p.wake = some w →
      w ∈ s'.holders ∧ w ∉ s.holders ∧ ∃ wake, s'.phase w = .acquiring wake false)
    (hbounded : s'.active ≤ limit) (hcounted : s'.active = s'.holders.length)
    (hfifo : s'.drawn = s'.granted ++ s'.waiters) (hfull : s'.waiters ≠ [] → s'.active = limit)
    (hnodup : (s'.waiters ++ s'.holders).Nodup) : Inv limit s' := by
  have hasleep : ∀ w wake, s.phase w = .acquiring wake false →
      w ≠ t ∧ s'.phase w = .acquiring wake false := by
    intro w wake hw
    have hne : w ≠ t := by
      rintro rfl
      exact hawake wake hw
    exact ⟨hne, by rw [hphase, if_neg hne, hw]⟩
  have hfresh : ∀ u w, (s.phase u).wake = some w → p.wake ≠ some w := fun u w hw hp =>
    (hwake w hp).2.1 (h.signalled u w hw).1
  refine ⟨hbounded, hcounted, hfifo, hfull, hnodup, ?_, ?_, ?_, ?_⟩
  · intro w hw
    rcases hqueued w hw with hw | ⟨rfl, wake, hp⟩
    · obtain ⟨wake, hw⟩ := h.queued w hw
      exact ⟨wake, (hasleep w wake hw).2⟩
    · exact ⟨wake, by rw [hphase, if_pos rfl, hp]⟩
  · intro u
    rw [hphase]
    split
    next hu => exact hu ▸ hplaced
    next hu =>
      by_cases hp : p.wake = some u
      · obtain ⟨hholder, -, wake, hw⟩ := hwake u hp
        rw [hphase, if_neg hu] at hw
        rw [hw]
        exact .inr ⟨hholder, t, by rw [hphase, if_pos rfl, hp]⟩
      · obtain ⟨hwaiters, hholders⟩ := hsame u hu hp
        refine (h.placed u).mono hwaiters hholders fun v hv => ⟨v, ?_⟩
        have hvt : v ≠ t := by
          rintro rfl
          rw [hnone] at hv
          cases hv
        rw [hphase, if_neg hvt, hv]
  · intro u w hw
    rw [hphase] at hw
    split at hw
    next => exact ⟨(hwake w hw).1, (hwake w hw).2.2⟩
    next =>
      obtain ⟨hholder, wake, hasleeps⟩ := h.signalled u w hw
      obtain ⟨hne, hkept⟩ := hasleep w wake hasleeps
      exact ⟨(hsame w hne (hfresh u w hw)).2.mpr hholder, wake, hkept⟩
  · intro u u' w hw hw'
    rw [hphase] at hw hw'
    split at hw <;> split at hw'
    · rename_i hu hu'
      rw [hu, hu']
    · exact absurd hw (hfresh u' w hw')
    · exact absurd hw' (hfresh u w hw)
    · exact h.once u u' w hw hw'

lemma Inv.queue (h : Inv limit s) (hidle : s.phase t = .idle) (hfull : s.active = limit) :
    Inv limit ({ s with waiters := s.waiters ++ [t], drawn := s.drawn ++ [t] }.setPhase t
      (.acquiring none false)) := by
  obtain ⟨hwaiters, hholders⟩ := h.not_mem_of_idle hidle
  refine h.move (by rw [hidle]; rfl) (by simp [hidle]) (fun u => phase_setPhase _ t u _) ?_ ?_ ?_ ?_
    h.bounded h.counted ?_ (fun _ => hfull) ?_
  · simp [setPhase]
  · exact .inl (by simp [setPhase])
  · intro u hu _
    simp [setPhase, hu]
  · simp [Phase.wake]
  · simp only [setPhase]
    rw [h.fifo, List.append_assoc]
  · have hmiddle : (s.waiters ++ t :: s.holders).Perm (t :: (s.waiters ++ s.holders)) :=
      List.perm_middle
    have hperm : (t :: (s.waiters ++ s.holders)).Perm (s.waiters ++ [t] ++ s.holders) := by
      simpa using hmiddle.symm
    refine hperm.nodup_iff.mp (List.nodup_cons.mpr ⟨?_, h.nodup⟩)
    simp [hwaiters, hholders]

lemma Inv.takeIn (h : Inv limit s) (hidle : s.phase t = .idle) (hroom : s.active < limit) :
    Inv limit ({ s with
      active := s.active + 1
      waiters := []
      drawn := s.drawn ++ [t]
      granted := s.granted ++ [t]
      holders := s.holders ++ [t] }.setPhase t (.acquiring (some t) false)) := by
  obtain ⟨-, hholders⟩ := h.not_mem_of_idle hidle
  have hempty : s.waiters = [] := by
    by_contra hne
    have := h.full hne
    omega
  refine h.move (by rw [hidle]; rfl) (by simp [hidle]) (fun u => phase_setPhase _ t u _) ?_ ?_ ?_ ?_
    hroom ?_ ?_ (fun hne => absurd rfl hne) ?_
  · simp [setPhase]
  · exact .inr ⟨by simp [setPhase], t, by simp [Phase.wake]⟩
  · intro u hu _
    simp [setPhase, hu, hempty]
  · intro w hw
    obtain rfl : t = w := Option.some.inj hw
    exact ⟨by simp [setPhase], hholders, some t, by simp⟩
  · simp [setPhase, h.counted]
  · simp [setPhase, h.fifo, hempty]
  · have hnodup := h.nodup
    rw [hempty, List.nil_append] at hnodup
    exact List.concat_eq_append ▸ hnodup.concat hholders

lemma ring_eq {wake : Option Nat} {ready : Bool} (h : s.phase w = .acquiring wake ready) :
    s.ring w = s.setPhase w (.acquiring wake true) := by
  rw [ring, h]

lemma wake_quiet (p : Phase) : p.quiet.wake = none := by
  cases p <;> rfl

lemma Placed.quiet {p : Phase} (h : Placed s t p) (hwake : p.wake = some w) :
    Placed s t p.quiet := by
  match p with
  | .acquiring _ false | .acquiring _ true | .releasing _ => exact h
  | .idle | .admitted => cases hwake

lemma Inv.signal (h : Inv limit s) (hwake : (s.phase t).wake = some w) :
    Inv limit ((s.setPhase t (s.phase t).quiet).ring w) := by
  obtain ⟨hholder, wake, hphase⟩ := h.signalled t w hwake
  -- the thread may signal itself
  obtain ⟨wake', hring, hwake'⟩ : ∃ wake', (s.setPhase t (s.phase t).quiet).phase w =
      .acquiring wake' false ∧ ∀ x, wake' = some x → w ≠ t ∧ (s.phase w).wake = some x := by
    rw [phase_setPhase]
    split
    next hself => exact ⟨none, by rw [← hself, hphase]; rfl, by simp⟩
    next hother => exact ⟨wake, hphase, fun x hx => ⟨hother, by rw [hphase]; exact hx⟩⟩
  rw [ring_eq hring]
  have hdisjoint := (List.nodup_append.mp h.nodup).2.2
  have hkeeps : ∀ v x, v ≠ t → (s.phase v).wake = some x →
      (((s.setPhase t (s.phase t).quiet).setPhase w (.acquiring wake' true)).phase v).wake = some x := by
    intro v x hv hx
    rw [phase_setPhase]
    split
    next hvw =>
      rw [phase_setPhase, if_neg (hvw ▸ hv), hphase] at hring
      rw [hvw, hphase] at hx
      cases hring
      exact hx
    next => rwa [phase_setPhase, if_neg hv]
  have hold : ∀ v x, (((s.setPhase t (s.phase t).quiet).setPhase w
      (.acquiring wake' true)).phase v).wake = some x → v ≠ t ∧ (s.phase v).wake = some x := by
    intro v x hx
    rw [phase_setPhase] at hx
    split at hx
    next hvw =>
      obtain ⟨hne, hx⟩ := hwake' x hx
      exact ⟨hvw ▸ hne, hvw ▸ hx⟩
    next =>
      rw [phase_setPhase] at hx
      split at hx
      next => rw [wake_quiet] at hx; cases hx
      next hv => exact ⟨hv, hx⟩
  refine ⟨h.bounded, h.counted, h.fifo, h.full, h.nodup, ?_, ?_, ?_, ?_⟩
  · intro x hx
    obtain ⟨wake₀, hx₀⟩ := h.queued x hx
    have hxw : x ≠ w := hdisjoint x hx w hholder
    rw [phase_setPhase, if_neg hxw, phase_setPhase]
    split
    next hxt => exact ⟨none, by rw [← hxt, hx₀]; rfl⟩
    next => exact ⟨wake₀, hx₀⟩
  · intro u
    rw [phase_setPhase]
    split
    next huw =>
      rw [huw]
      exact hholder
    next huw =>
      have hkept : ∀ v, (s.phase v).wake = some u → ∃ v, (((s.setPhase t (s.phase t).quiet).setPhase w
          (.acquiring wake' true)).phase v).wake = some u := by
        intro v hv
        refine ⟨v, hkeeps v u ?_ hv⟩
        rintro rfl
        exact huw (Option.some.inj (hv.symm.trans hwake))
      rw [phase_setPhase]
      have hplaced : Placed ((s.setPhase t (s.phase t).quiet).setPhase w (.acquiring wake' true)) u
          (s.phase u) := (h.placed u).mono Iff.rfl Iff.rfl hkept
      split
      next hut => exact hut ▸ hplaced.quiet (hut ▸ hwake)
      next => exact hplaced
  · intro u x hx
    obtain ⟨hut, hux⟩ := hold u x hx
    obtain ⟨hxh, wake₀, hx₀⟩ := h.signalled u x hux
    have hxw : x ≠ w := by
      rintro rfl
      exact hut (h.once u t x hux hwake)
    refine ⟨hxh, ?_⟩
    rw [phase_setPhase, if_neg hxw, phase_setPhase]
    split
    next hxt => exact ⟨none, by rw [← hxt, hx₀]; rfl⟩
    next => exact ⟨wake₀, hx₀⟩
  · intro u u' x hx hx'
    exact h.once u u' x (hold u x hx).2 (hold u' x hx').2

lemma Inv.enter (h : Inv limit s) (hphase : s.phase t = .acquiring none true) :
    Inv limit (s.setPhase t .admitted) := by
  have hholder : t ∈ s.holders := by
    have hplaced := h.placed t
    rwa [hphase] at hplaced
  exact h.move (by rw [hphase]; rfl) (by simp [hphase]) (fun u => phase_setPhase _ t u _)
    (fun u hu => .inl hu) hholder (fun u _ _ => ⟨Iff.rfl, Iff.rfl⟩) (by simp [Phase.wake]) h.bounded
    h.counted h.fifo h.full h.nodup

lemma Inv.leave (h : Inv limit s) (hphase : s.phase t = .admitted) (hempty : s.waiters = []) :
    Inv limit ({ s with active := s.active - 1, holders := s.holders.erase t }.setPhase t .idle) := by
  have hholder : t ∈ s.holders := by
    have hplaced := h.placed t
    rwa [hphase] at hplaced
  have hnodup : s.holders.Nodup := (List.nodup_append.mp h.nodup).2.1
  refine h.move (by rw [hphase]; rfl) (by simp [hphase]) (fun u => phase_setPhase _ t u _)
    (fun u hu => .inl hu) ?_ (fun u hu _ => ⟨Iff.rfl, List.mem_erase_of_ne hu⟩) (by simp [Phase.wake])
    (Nat.le_trans (Nat.sub_le _ _) h.bounded) ?_ h.fifo (fun hne => absurd hempty hne) ?_
  · exact ⟨by simp [setPhase, hempty], hnodup.not_mem_erase⟩
  · simp [setPhase, h.counted, List.length_erase_of_mem hholder]
  · simpa [setPhase, hempty] using hnodup.erase t

lemma Inv.handOver {rest : List Nat} (h : Inv limit s) (hphase : s.phase t = .admitted)
    (hwaiters : s.waiters = w :: rest) :
    Inv limit ({ s with
      active := s.active - 1 + 1
      waiters := rest
      granted := s.granted ++ [w]
      holders := s.holders.erase t ++ [w] }.setPhase t (.releasing w)) := by
  have hholder : t ∈ s.holders := by
    have hplaced := h.placed t
    rwa [hphase] at hplaced
  have hsame : s.active - 1 + 1 = s.active := by
    have := List.length_pos_of_mem hholder
    have := h.counted
    omega
  obtain ⟨hqueue, hnodup, hdisjoint⟩ := List.nodup_append.mp h.nodup
  rw [hwaiters] at hqueue hdisjoint
  have hrest := List.nodup_cons.mp hqueue
  have hwh : w ∉ s.holders := fun hw => hdisjoint w (by simp) w hw rfl
  have hwt : w ≠ t := fun heq => hwh (heq ▸ hholder)
  refine h.move (by rw [hphase]; rfl) (by simp [hphase]) (fun u => phase_setPhase _ t u _)
    (fun u hu => .inl (hwaiters ▸ List.mem_cons_of_mem w hu)) ?_ ?_ ?_ (hsame ▸ h.bounded) ?_ ?_ ?_ ?_
  · refine ⟨fun hin => hdisjoint t (List.mem_cons_of_mem w hin) t hholder rfl, fun hin => ?_⟩
    rcases List.mem_append.mp hin with hin | hin
    · exact hnodup.not_mem_erase hin
    · exact hwt (List.mem_singleton.mp hin).symm
  · intro u hu hne
    have huw : u ≠ w := fun heq => hne (heq ▸ rfl)
    simp [setPhase, hwaiters, huw, List.mem_erase_of_ne hu]
  · intro x hx
    obtain rfl : w = x := Option.some.inj hx
    obtain ⟨wake, hasleep⟩ := h.queued w (by simp [hwaiters])
    exact ⟨by simp [setPhase], hwh, wake, by rw [phase_setPhase, if_neg hwt, hasleep]⟩
  · simp only [setPhase, List.length_append, List.length_erase_of_mem hholder, List.length_singleton]
    rw [h.counted]
  · simp [setPhase, h.fifo, hwaiters]
  · exact fun _ => hsame.trans (h.full (by simp [hwaiters]))
  · refine List.nodup_append.mpr ⟨hrest.2, ?_, ?_⟩
    · have hconcat := (hnodup.erase t).concat fun hw => hwh (List.mem_of_mem_erase hw)
      rwa [List.concat_eq_append] at hconcat
    · intro x hx y hy heq
      rcases List.mem_append.mp hy with hy | hy
      · exact hdisjoint x (List.mem_cons_of_mem w hx) y (List.mem_of_mem_erase hy) heq
      · rw [heq, List.mem_singleton.mp hy] at hx
        exact hrest.1 hx

lemma Inv.step {a : Action} (hlimit : 0 < limit) (h : Inv limit s)
    (hstep : step limit s a = some s') : Inv limit s' := by
  cases a with
  | acquire t =>
    simp only [FifoGate.step] at hstep
    split at hstep
    next hidle =>
      cases hstep
      rw [grant]
      split
      next hfull => exact h.queue hidle (Nat.le_antisymm h.bounded hfull)
      next hroom =>
        have hempty : s.waiters = [] := by
          by_contra hne
          exact hroom (Nat.le_of_eq (h.full hne).symm)
        simpa [hempty] using h.takeIn hidle (Nat.lt_of_not_le hroom)
    next => cases hstep
  | signal t =>
    simp only [FifoGate.step] at hstep
    split at hstep
    next hphase =>
      cases hstep
      have hinv := h.signal (by rw [hphase]; rfl)
      rwa [hphase] at hinv
    next hphase =>
      cases hstep
      have hinv := h.signal (by rw [hphase]; rfl)
      rwa [hphase] at hinv
    next => cases hstep
  | enter t =>
    simp only [FifoGate.step] at hstep
    split at hstep
    next hphase =>
      cases hstep
      exact h.enter hphase
    next => cases hstep
  | release t =>
    simp only [FifoGate.step] at hstep
    split at hstep
    next hphase =>
      cases hstep
      have hbounded := h.bounded
      rw [grant, if_neg (by simp only; omega)]
      cases hwaiters : s.waiters with
      | nil => simpa [afterRelease] using hwaiters ▸ h.leave hphase hwaiters
      | cons w rest => exact h.handOver hphase hwaiters
    next => cases hstep

lemma Inv.length_le_of_admitted (h : Inv limit s) {threads : List Nat} (hnodup : threads.Nodup)
    (hadmitted : ∀ t ∈ threads, s.phase t = .admitted) : threads.length ≤ s.active := by
  rw [h.counted]
  refine (List.subperm_of_subset hnodup fun t ht => ?_).length_le
  have hplaced := h.placed t
  rwa [hadmitted t ht] at hplaced

lemma Inv.full_of_asleep (h : Inv limit s) (hquiet : ∀ u, (s.phase u).wake = none)
    (hasleep : s.phase t = .acquiring none false) : t ∈ s.waiters ∧ s.active = limit := by
  have hplaced := h.placed t
  rw [hasleep] at hplaced
  obtain hw | ⟨-, u, hu⟩ := hplaced
  · exact ⟨hw, h.full (List.ne_nil_of_mem hw)⟩
  · rw [hquiet u] at hu
    cases hu

/-- What the gate is for: at most `limit` threads are in, they are taken in in the order in
which they asked, and nobody is left asleep while there is room. -/
structure Serves (limit : Nat) (s : State) : Prop where
  bounded : s.active ≤ limit
  counted : ∀ threads : List Nat, threads.Nodup → (∀ t ∈ threads, s.phase t = .admitted) →
    threads.length ≤ s.active
  fifo : s.drawn = s.granted ++ s.waiters
  full : s.waiters ≠ [] → s.active = limit
  awake : (∀ u, (s.phase u).wake = none) → ∀ t, s.phase t = .acquiring none false →
    t ∈ s.waiters ∧ s.active = limit

lemma Inv.serves (h : Inv limit s) : Serves limit s :=
  ⟨h.bounded, fun _ hnodup hadmitted => h.length_le_of_admitted hnodup hadmitted, h.fifo, h.full,
    fun hquiet _ hasleep => h.full_of_asleep hquiet hasleep⟩

end Steps

end FifoGate
