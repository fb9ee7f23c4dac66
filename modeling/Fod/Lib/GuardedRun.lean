import Mathlib

/-!
# Guarded runs of a partial step function

A system is given by `step : σ → ι → Option σ`: an action either is refused in
a state or leads to exactly one next state, so every choice of the environment
is part of the action.  A run performs a list of actions; a guard restricts
the actions a run may take in each state.  The induction over runs is packaged
once, in `run_invariant`.
-/

namespace GuardedRun

variable {σ ι : Type*}

/-- Perform the actions in order.  A refused action refuses the whole run. -/
def run (step : σ → ι → Option σ) : σ → List ι → Option σ
  | s, [] => some s
  | s, a :: rest =>
    match step s a with
    | none => none
    | some s' => run step s' rest

/-- Every action of the run meets `guard` in the state in which it is taken. -/
def Along (step : σ → ι → Option σ) (guard : σ → ι → Prop) :
    σ → List ι → Prop
  | _, [] => True
  | s, a :: rest =>
    guard s a ∧
      match step s a with
      | none => True
      | some s' => Along step guard s' rest

instance Along.decidable (step : σ → ι → Option σ) (guard : σ → ι → Prop)
    [∀ s a, Decidable (guard s a)] :
    ∀ (s : σ) (trace : List ι), Decidable (Along step guard s trace)
  | _, [] => isTrue trivial
  | s, a :: rest =>
    have : Decidable (match step s a with
        | none => True
        | some s' => Along step guard s' rest) :=
      match step s a with
      | none => isTrue trivial
      | some s' => Along.decidable step guard s' rest
    inferInstanceAs (Decidable (_ ∧ _))

variable {step : σ → ι → Option σ} {guard : σ → ι → Prop}

@[simp] lemma run_nil (s : σ) : run step s [] = some s := rfl

lemma run_cons_eq_some {s s' : σ} {a : ι} {rest : List ι} : run step s (a :: rest) = some s' ↔
      ∃ mid, step s a = some mid ∧ run step mid rest = some s' := by
  cases h : step s a <;> simp [run, h]

lemma run_append {s mid : σ} {first rest : List ι} (h : run step s first = some mid) :
    run step s (first ++ rest) = run step mid rest := by
  induction first generalizing s with
  | nil =>
    obtain rfl : s = mid := Option.some.inj h
    rfl
  | cons a first ih =>
    obtain ⟨s', hstep, hfirst⟩ := run_cons_eq_some.mp h
    rw [← ih hfirst, List.cons_append, run, hstep]

lemma along_cons_of_step {s mid : σ} {a : ι} {rest : List ι} (h : step s a = some mid) :
    Along step guard s (a :: rest) ↔ guard s a ∧ Along step guard mid rest := by
  simp [Along, h]

lemma along_true (s : σ) (trace : List ι) : Along step (fun _ _ => True) s trace := by
  induction trace generalizing s with
  | nil => trivial
  | cons a rest ih =>
    refine ⟨trivial, ?_⟩
    cases step s a with
    | none => trivial
    | some s' => exact ih s'

/--
The invariant rule: what holds at the start and is kept by every guarded step
holds after every guarded run.
-/
lemma run_invariant {I : σ → Prop} (keeps : ∀ s a s', I s → guard s a → step s a = some s' → I s')
    {s s' : σ} {trace : List ι} (start : I s) (guarded : Along step guard s trace)
    (hrun : run step s trace = some s') : I s' := by
  induction trace generalizing s with
  | nil =>
    obtain rfl : s = s' := Option.some.inj hrun
    exact start
  | cons a rest ih =>
    obtain ⟨mid, hstep, hrest⟩ := run_cons_eq_some.mp hrun
    obtain ⟨hguard, hguards⟩ := (along_cons_of_step hstep).mp guarded
    exact ih (keeps s a mid start hguard hstep) hguards hrest

lemma run_invariant_of_step {I : σ → Prop} (keeps : ∀ s a s', I s → step s a = some s' → I s')
    {s s' : σ} {trace : List ι} (start : I s) (hrun : run step s trace = some s') : I s' :=
  run_invariant (fun s a s' hs _ h => keeps s a s' hs h) start
    (@along_true σ ι step s trace) hrun

end GuardedRun
