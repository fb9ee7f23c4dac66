import Fod.Data.PersistPlan

/-!
# Coalesced read fills

`ReadFillCoordinator` lets one thread fill a range of blocks while the others wait for
it.  A lease is used by one thread, and each of its critical sections is one step.
-/

namespace Fod.ReadFill

def readFillRanges (blocks : List Nat) : List (Nat × Nat) := Data.PersistPlan.contiguousRanges blocks

def readFillRangesOverlap (left right : List (Nat × Nat)) : Bool :=
  left.any fun l => right.any fun r => decide (l.1 ≤ r.2) && decide (r.1 ≤ l.2)

/-- `id` is the address of the `Arc`. -/
structure ReadFillFlight where
  id : Nat
  ranges : List (Nat × Nat)

def ReadFillFlight.Covers (flight : ReadFillFlight) (b : Nat) : Prop :=
  ∃ r ∈ flight.ranges, r.1 ≤ b ∧ b ≤ r.2

def ReadFillFlight.Apart (f f' : ReadFillFlight) : Prop := ∀ b, ¬ (f.Covers b ∧ f'.Covers b)

lemma apart_of_overlap {f f' : ReadFillFlight} (h : readFillRangesOverlap f'.ranges f.ranges = false) :
    f.Apart f' := by
  rintro b ⟨⟨r, hr, hlow, hhigh⟩, r', hr', hlow', hhigh'⟩
  have hboth : readFillRangesOverlap f'.ranges f.ranges = true := by
    simp only [readFillRangesOverlap, List.any_eq_true, Bool.and_eq_true, decide_eq_true_eq]
    exact ⟨r', hr', r, hr, by omega, by omega⟩
  simp [h] at hboth

/-- The drop of an owning lease marks the flight as done, removes it from the table and
notifies those who wait. -/
inductive Fill where
  | filling
  | marked
  | removed
  deriving DecidableEq

structure OwnerLease where
  file : Nat
  flight : ReadFillFlight
  fill : Fill

/-- Who was notified or woke up by itself looks at the mark again. -/
inductive Waiting where
  | held
  | asleep
  | woken
  deriving DecidableEq

structure SharedLease where
  flight : ReadFillFlight
  waiting : Waiting

structure State where
  flights : Nat → Option (List ReadFillFlight)
  done : Nat → Bool
  owners : Nat → Option OwnerLease
  sharers : Nat → Option SharedLease
  nextFlight : Nat

namespace State

def setOwner (s : State) (l : Nat) (lease : Option OwnerLease) : State :=
  { s with owners := Function.update s.owners l lease }

def setShared (s : State) (l : Nat) (lease : Option SharedLease) : State :=
  { s with sharers := Function.update s.sharers l lease }

def acquire (s : State) (l file : Nat) (missing : List Nat) : State :=
  let requested := readFillRanges missing
  let fileFlights := (s.flights file).getD []
  match fileFlights.find? fun flight => readFillRangesOverlap requested flight.ranges with
  | some flight => s.setShared l (some ⟨flight, .held⟩)
  | none =>
    let flight := ⟨s.nextFlight, requested⟩
    { s.setOwner l (some ⟨file, flight, .filling⟩) with
      flights := Function.update s.flights file (some (fileFlights ++ [flight]))
      nextFlight := s.nextFlight + 1 }

def recheck (s : State) (l : Nat) (flight : ReadFillFlight) : State :=
  s.setShared l (some ⟨flight, if s.done flight.id then .held else .asleep⟩)

def withoutFlight (s : State) (file : Nat) (flight : ReadFillFlight) : Option (List ReadFillFlight) :=
  match s.flights file with
  | none => none
  | some fileFlights =>
    let left := fileFlights.filter fun current => current.id != flight.id
    if left.isEmpty then none else some left

end State

def wake (flight : ReadFillFlight) (lease : SharedLease) : SharedLease :=
  if lease.waiting = .asleep ∧ lease.flight.id = flight.id then { lease with waiting := .woken } else lease

inductive Step : State → State → Prop
  | acquire {s l} (file : Nat) (missing : List Nat) : s.owners l = none → s.sharers l = none →
      Step s (s.acquire l file missing)
  | wait {s l flight} : s.sharers l = some ⟨flight, .held⟩ → s.done flight.id = false →
      Step s (s.setShared l (some ⟨flight, .asleep⟩))
  | recheck {s l flight waiting} : s.sharers l = some ⟨flight, waiting⟩ → waiting ≠ .held →
      Step s (s.recheck l flight)
  | dropShared {s l flight} : s.sharers l = some ⟨flight, .held⟩ → Step s (s.setShared l none)
  | dropOwner {s l file flight} : s.owners l = some ⟨file, flight, .filling⟩ →
      Step s { s.setOwner l (some ⟨file, flight, .marked⟩) with
        done := Function.update s.done flight.id true }
  | remove {s l file flight} : s.owners l = some ⟨file, flight, .marked⟩ →
      Step s { s.setOwner l (some ⟨file, flight, .removed⟩) with
        flights := Function.update s.flights file (s.withoutFlight file flight) }
  | notifyAll {s l file flight} : s.owners l = some ⟨file, flight, .removed⟩ →
      Step s { s.setOwner l none with sharers := fun k => (s.sharers k).map (wake flight) }

def init : State := ⟨fun _ => none, fun _ => false, fun _ => none, fun _ => none, 0⟩

/-! ## The table and the owners -/

def State.InTable (s : State) (file : Nat) (flight : ReadFillFlight) : Prop :=
  ∃ fs, s.flights file = some fs ∧ flight ∈ fs

/-- Who has a shared lease waits for a fill that is not done, or does not wait. -/
def State.Attended (s : State) (lease : SharedLease) : Prop :=
  (s.done lease.flight.id = true ∨ ∃ k file, s.owners k = some ⟨file, lease.flight, .filling⟩) ∧
    (lease.waiting = .woken → s.done lease.flight.id = true) ∧
    (lease.waiting = .asleep → ∃ k owner, s.owners k = some owner ∧ owner.flight = lease.flight)

structure Inv (s : State) : Prop where
  nonempty : ∀ file, s.flights file ≠ some []
  apart : ∀ file fs, s.flights file = some fs → fs.Pairwise ReadFillFlight.Apart
  listed : ∀ file flight, s.InTable file flight ↔
    ∃ l, s.owners l = some ⟨file, flight, .filling⟩ ∨ s.owners l = some ⟨file, flight, .marked⟩
  unique : ∀ l l' lease lease', s.owners l = some lease → s.owners l' = some lease' →
    lease.flight.id = lease'.flight.id → l = l'
  owners : ∀ l lease, s.owners l = some lease → lease.flight.id < s.nextFlight ∧
    (lease.fill ≠ .filling → s.done lease.flight.id = true)
  sharers : ∀ l lease, s.sharers l = some lease → s.Attended lease

section

variable {s : State} {l file : Nat} {flight : ReadFillFlight}

lemma setOwner_owners (lease : Option OwnerLease) (k : Nat) :
    (s.setOwner l lease).owners k = if k = l then lease else s.owners k := by
  simp [State.setOwner, Function.update_apply]

lemma Inv.setShared (h : Inv s) {new : Option SharedLease}
    (hnew : ∀ lease, new = some lease → s.Attended lease) : Inv (s.setShared l new) := by
  refine ⟨h.nonempty, h.apart, h.listed, h.unique, h.owners, fun k lease hk => ?_⟩
  simp only [State.setShared, Function.update_apply] at hk
  split at hk
  · exact hnew lease hk
  · exact h.sharers k lease hk

lemma Inv.acquire (h : Inv s) (file : Nat) (missing : List Nat) (hfree : s.owners l = none) :
    Inv (s.acquire l file missing) := by
  unfold State.acquire
  dsimp only
  split
  next flight hfound =>
    have hin : s.InTable file flight := by
      have hmem := List.mem_of_find?_eq_some hfound
      unfold State.InTable
      cases hfile : s.flights file <;> simp_all
    refine h.setShared ?_
    rintro _ ⟨⟩
    obtain ⟨k, hk | hk⟩ := (h.listed file flight).mp hin
    · exact ⟨.inr ⟨k, file, hk⟩, by simp, by simp⟩
    · exact ⟨.inl ((h.owners k _ hk).2 (by simp)), by simp, by simp⟩
  next hnone =>
    have hother {k : Nat} {lease : OwnerLease} (hk : s.owners k = some lease) : k ≠ l := by
      rintro rfl
      simp [hfree] at hk
    refine ⟨fun file' => ?_, fun file' fs hfs => ?_, fun file' flight => ?_, ?_, ?_, fun k lease hk => ?_⟩
    · have := h.nonempty file'
      simp only [Function.update_apply]
      split <;> simp_all
    · simp only [Function.update_apply] at hfs
      split at hfs
      next =>
        cases hfs
        have hold : ((s.flights file).getD []).Pairwise ReadFillFlight.Apart := by
          cases hfile : s.flights file with
          | none => exact .nil
          | some fs => exact h.apart file fs hfile
        refine List.pairwise_append.mpr ⟨hold, List.pairwise_singleton _ _, fun f hf f' hf' => ?_⟩
        cases List.mem_singleton.mp hf'
        exact apart_of_overlap (by simpa using List.find?_eq_none.mp hnone f hf)
      next => exact h.apart file' fs hfs
    · have htable : (∃ fs, Function.update s.flights file (some ((s.flights file).getD [] ++
            [⟨s.nextFlight, readFillRanges missing⟩])) file' = some fs ∧ flight ∈ fs) ↔
          s.InTable file' flight ∨ file' = file ∧ flight = ⟨s.nextFlight, readFillRanges missing⟩ := by
        unfold State.InTable
        by_cases hfile : file' = file
        · subst hfile
          cases s.flights file' <;> simp
        · simp [hfile]
      refine htable.trans ?_
      rw [h.listed]
      simp only [setOwner_owners]
      constructor
      · rintro (⟨k, hk⟩ | ⟨rfl, rfl⟩)
        · exact ⟨k, by rwa [if_neg (hk.elim hother hother)]⟩
        · exact ⟨l, by simp⟩
      · rintro ⟨k, hk⟩
        by_cases hkl : k = l
        · exact .inr (by simpa [hkl, eq_comm] using hk)
        · exact .inl ⟨k, by simpa [hkl] using hk⟩
    · have := h.unique
      have := h.owners
      simp only [setOwner_owners]
      grind
    · have := h.owners
      simp only [setOwner_owners]
      grind [State.setOwner]
    · obtain ⟨hdone, hwoken, hasleep⟩ := h.sharers k lease hk
      simp only [State.Attended, setOwner_owners]
      refine ⟨hdone.imp_right ?_, hwoken, fun hs => ?_⟩
      · rintro ⟨k', file', hk'⟩
        exact ⟨k', file', by rw [if_neg (hother hk'), hk']⟩
      · obtain ⟨k', owner, hk', heq⟩ := hasleep hs
        exact ⟨k', owner, by rw [if_neg (hother hk'), hk'], heq⟩

lemma Inv.mark (h : Inv s) (hl : s.owners l = some ⟨file, flight, .filling⟩) :
    Inv { s.setOwner l (some ⟨file, flight, .marked⟩) with
      done := Function.update s.done flight.id true } := by
  have hunique := h.unique
  refine ⟨h.nonempty, h.apart, fun file' flight' => ?_, ?_, ?_, fun k lease hk => ?_⟩
  · refine (h.listed file' flight').trans ?_
    simp only [setOwner_owners]
    grind
  · simp only [setOwner_owners]
    grind
  · have := h.owners
    simp only [setOwner_owners, Function.update_apply]
    grind [State.setOwner]
  · obtain ⟨hdone, hwoken, hasleep⟩ := h.sharers k lease hk
    simp only [State.Attended, setOwner_owners, Function.update_apply]
    grind

lemma mem_withoutFlight (f : ReadFillFlight) :
    (∃ fs, s.withoutFlight file flight = some fs ∧ f ∈ fs) ↔ s.InTable file f ∧ f.id ≠ flight.id := by
  unfold State.withoutFlight State.InTable
  cases s.flights file with
  | none => simp
  | some fs =>
    simp only [List.isEmpty_iff, Option.some.injEq, exists_eq_left', Option.ite_none_left_eq_some]
    constructor
    · rintro ⟨_, ⟨-, rfl⟩, hf⟩
      simpa using hf
    · intro hf
      have hmem : f ∈ fs.filter fun current => current.id != flight.id := by simpa using hf
      exact ⟨_, ⟨List.ne_nil_of_mem hmem, rfl⟩, hmem⟩

lemma Inv.remove (h : Inv s) (hl : s.owners l = some ⟨file, flight, .marked⟩) :
    Inv { s.setOwner l (some ⟨file, flight, .removed⟩) with
      flights := Function.update s.flights file (s.withoutFlight file flight) } := by
  have hunique := h.unique
  refine ⟨fun file' => ?_, fun file' fs hfs => ?_, fun file' flight' => ?_, ?_, ?_, fun k lease hk => ?_⟩
  · have := h.nonempty file'
    simp only [Function.update_apply, State.withoutFlight]
    grind
  · have := h.apart file'
    simp only [Function.update_apply, State.withoutFlight] at hfs
    grind
  · have htable : (∃ fs, Function.update s.flights file (s.withoutFlight file flight) file' = some fs ∧
          flight' ∈ fs) ↔ s.InTable file' flight' ∧ ¬ (file' = file ∧ flight'.id = flight.id) := by
      by_cases hfile : file' = file
      · subst hfile
        simpa using mem_withoutFlight flight'
      · simp [hfile, State.InTable]
    refine htable.trans ?_
    rw [h.listed]
    simp only [setOwner_owners]
    grind
  · simp only [setOwner_owners]
    grind
  · have := h.owners
    simp only [setOwner_owners]
    grind [State.setOwner]
  · obtain ⟨hdone, hwoken, hasleep⟩ := h.sharers k lease hk
    simp only [State.Attended, setOwner_owners]
    grind [State.setOwner]

lemma Inv.notifyAll (h : Inv s) (hl : s.owners l = some ⟨file, flight, .removed⟩) :
    Inv { s.setOwner l none with sharers := fun k => (s.sharers k).map (wake flight) } := by
  have hunique := h.unique
  have hdone : s.done flight.id = true := (h.owners l _ hl).2 (by simp)
  refine ⟨h.nonempty, h.apart, fun file' flight' => ?_, ?_, ?_, fun k lease hk => ?_⟩
  · refine (h.listed file' flight').trans ?_
    simp only [setOwner_owners]
    grind
  · simp only [setOwner_owners]
    grind
  · have := h.owners
    simp only [setOwner_owners]
    grind [State.setOwner]
  · obtain ⟨old, hold, rfl⟩ := Option.map_eq_some_iff.mp hk
    obtain ⟨hreg, hwoken, hasleep⟩ := h.sharers k old hold
    simp only [State.Attended, setOwner_owners]
    grind [wake, State.setOwner]

lemma Inv.step {s' : State} (h : Inv s) (hstep : Step s s') : Inv s' := by
  cases hstep with
  | acquire file missing hfree _ => exact h.acquire file missing hfree
  | wait hl hdone =>
    have := h.sharers _ _ hl
    refine h.setShared ?_
    rintro _ ⟨⟩
    grind [State.Attended]
  | recheck hl hwaiting =>
    have := h.sharers _ _ hl
    refine h.setShared ?_
    rintro _ ⟨⟩
    grind [State.Attended]
  | dropShared hl => exact h.setShared (by simp)
  | dropOwner hl => exact h.mark hl
  | remove hl => exact h.remove hl
  | notifyAll hl => exact h.notifyAll hl

end

def Reachable (s : State) : Prop := Relation.ReflTransGen Step init s

def threeReaders : State :=
  let s := ((init.acquire 0 7 [1, 2, 3]).acquire 1 7 [3, 4]).acquire 2 7 [9]
  s.setShared 1 (some ⟨⟨0, [(1, 3)]⟩, .asleep⟩)

end Fod.ReadFill
