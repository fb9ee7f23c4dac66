import Mathlib

/-!
# Registers of a scan

A loop over a list keeps registers about the entries it has passed.
-/

namespace Scan

variable {α β σ ε : Type*} {P : α → Prop} {value : α → β} {done : List α} {e : α} {o o' : Option β}

def Only (done : List α) (P : α → Prop) (value : α → β) (o : Option β) : Prop :=
  ∀ v, o = some v ↔ ∃ e ∈ done, P e ∧ value e = v

def Latest (done : List α) (P : α → Prop) (value : α → β) (o : Option β) : Prop :=
  (∀ v, o = some v → ∃ e ∈ done, P e ∧ value e = v) ∧ (o = none → ∀ e ∈ done, ¬ P e)

lemma Only.nil : Only [] P value none := fun v => by simp

lemma Only.skip (h : Only done P value o) (he : ¬ P e) : Only (done ++ [e]) P value o := by
  intro v
  rw [h v]
  simp [or_and_right, exists_or, he]

lemma Only.fill (h : Only done P value none) (he : P e) :
    Only (done ++ [e]) P value (some (value e)) := by
  intro v
  have hnone : ¬ ∃ e ∈ done, P e ∧ value e = v := fun hsome => by cases (h v).mpr hsome
  simp [hnone, he]

lemma Only.eq_none_iff (h : Only done P value o) : o = none ↔ ∀ e ∈ done, ¬ P e := by
  constructor
  · rintro rfl e he hP
    cases (h _).mpr ⟨e, he, hP, rfl⟩
  · intro hnone
    cases o with
    | none => rfl
    | some v =>
      obtain ⟨e, he, hP, _⟩ := (h v).mp rfl
      exact absurd hP (hnone e he)

lemma Only.eq_some (h : Only done P value o) (he : e ∈ done) (hP : P e) : o = some (value e) :=
  (h _).mpr ⟨e, he, hP, rfl⟩

lemma Latest.nil : Latest [] P value none := by
  refine ⟨fun v h => ?_, fun _ e he => ?_⟩
  · cases h
  · cases he

lemma Latest.skip (h : Latest done P value o) (he : ¬ P e) : Latest (done ++ [e]) P value o := by
  refine ⟨fun v hv => ?_, fun hnone e' he' => ?_⟩
  · obtain ⟨e', he', hP⟩ := h.1 v hv
    exact ⟨e', List.mem_append_left _ he', hP⟩
  · rcases List.mem_append.mp he' with hdone | hnew
    · exact h.2 hnone e' hdone
    · rwa [List.mem_singleton.mp hnew]

lemma Latest.set (he : P e) : Latest (done ++ [e]) P value (some (value e)) :=
  ⟨fun v hv => ⟨e, by simp, he, Option.some.inj hv⟩, fun h => by cases h⟩

section

variable (h : Latest done P value o)

include h

lemma Latest.congr {value' : α → β} {Q : α → Prop} (hP : ∀ e ∈ done, Q e ↔ P e) (hvalue : ∀ e ∈ done, value' e = value e) :
    Latest done Q value' o := by
  refine ⟨fun v hv => ?_, fun hnone e he hQ => h.2 hnone e he ((hP e he).mp hQ)⟩
  obtain ⟨e, he, hPe, hve⟩ := h.1 v hv
  exact ⟨e, he, (hP e he).mpr hPe, (hvalue e he).trans hve⟩

lemma Latest.eq_none (hno : ∀ e ∈ done, ¬ P e) : o = none := by
  cases o with
  | none => rfl
  | some v =>
    obtain ⟨e, he, hP, -⟩ := h.1 v rfl
    exact absurd hP (hno e he)

lemma Latest.eq_some {v : β} (hsome : ∃ e ∈ done, P e)
    (hall : ∀ e ∈ done, P e → value e = v) : o = some v := by
  cases o with
  | none =>
    obtain ⟨e, he, hP⟩ := hsome
    exact absurd hP (h.2 rfl e he)
  | some v' =>
    obtain ⟨e, he, hP, rfl⟩ := h.1 v' rfl
    rw [hall e he hP]

lemma Latest.eq_only (h' : Only done P value o') : o = o' := by
  cases o with
  | none => exact (h'.eq_none_iff.mpr (h.2 rfl)).symm
  | some v => exact ((h' v).mpr (h.1 v rfl)).symm

end

def Listed (done : List α) (P : α → Prop) (value : α → β) (l : List β) : Prop :=
  ∀ v, v ∈ l ↔ ∃ e ∈ done, P e ∧ value e = v

lemma Listed.skip {l : List β} (h : Listed done P value l) (he : ¬ P e) :
    Listed (done ++ [e]) P value l := by
  intro v
  rw [h v]
  simp [or_and_right, exists_or, he]

lemma Listed.push {l : List β} (h : Listed done P value l) (he : P e) :
    Listed (done ++ [e]) P value (l ++ [value e]) := by
  intro v
  rw [List.mem_append, h v, List.mem_singleton, eq_comm]
  simp [he]

variable {I : List α → σ → Prop}

lemma foldl_invariant {step : σ → α → σ}
    (hstep : ∀ done s e, I done s → I (done ++ [e]) (step s e)) (l : List α) {s : σ} (h : I done s) :
    I (done ++ l) (l.foldl step s) := by
  induction l generalizing done s with
  | nil => rwa [List.append_nil]
  | cons e l ih =>
    rw [List.append_cons]
    exact ih (hstep done s e h)

lemma ok_of_bind {ε α β : Type} {x : Except ε α} {f : α → Except ε β} {b : β}
    (h : (x >>= f) = .ok b) : ∃ a, x = .ok a ∧ f a = .ok b := by
  cases x with
  | error e => cases h
  | ok a => exact ⟨a, rfl, h⟩

lemma mapM_ok {ε α β : Type} {f : α → Except ε β} {l : List α} {r : List β}
    (h : l.mapM f = .ok r) : (∀ a ∈ l, ∃ b ∈ r, f a = .ok b) ∧ ∀ b ∈ r, ∃ a ∈ l, f a = .ok b := by
  induction l generalizing r with
  | nil =>
    rw [List.mapM_nil] at h
    cases h
    exact ⟨by simp, by simp⟩
  | cons a l ih =>
    rw [List.mapM_cons] at h
    obtain ⟨b, hb, hrest⟩ := ok_of_bind h
    obtain ⟨bs, hbs, hr⟩ := ok_of_bind hrest
    cases hr
    obtain ⟨hto, hfrom⟩ := ih hbs
    refine ⟨fun x hx => ?_, fun y hy => ?_⟩
    · rcases List.mem_cons.mp hx with rfl | hx
      · exact ⟨b, List.mem_cons_self, hb⟩
      · obtain ⟨y, hy, hxy⟩ := hto x hx
        exact ⟨y, List.mem_cons_of_mem _ hy, hxy⟩
    · rcases List.mem_cons.mp hy with rfl | hy
      · exact ⟨a, List.mem_cons_self, hb⟩
      · obtain ⟨x, hx, hxy⟩ := hfrom y hy
        exact ⟨x, List.mem_cons_of_mem _ hx, hxy⟩

lemma mapM_map_eq_pure {m : Type → Type} [Monad m] [LawfulMonad m] {α β γ : Type} {f : β → m γ}
    {g : α → β} {h : α → γ} (l : List α) (hl : ∀ a ∈ l, f (g a) = pure (h a)) :
    (l.map g).mapM f = pure (l.map h) := by
  induction l with
  | nil => rfl
  | cons a l ih =>
    rw [List.map_cons, List.mapM_cons, hl a List.mem_cons_self, pure_bind,
      ih fun b hb => hl b (List.mem_cons_of_mem a hb), pure_bind, List.map_cons]

lemma foldlM_invariant {step : σ → α → Except ε σ}
    (hstep : ∀ done s e s', I done s → step s e = .ok s' → I (done ++ [e]) s') (l : List α)
    {s s' : σ} (h : I done s) (hrun : l.foldlM step s = .ok s') : I (done ++ l) s' := by
  induction l generalizing done s with
  | nil =>
    cases hrun
    rwa [List.append_nil]
  | cons e l ih =>
    rw [List.foldlM_cons] at hrun
    cases hs : step s e with
    | error err =>
      rw [hs] at hrun
      cases hrun
    | ok s₁ =>
      rw [hs] at hrun
      rw [List.append_cons]
      exact ih (hstep done s e s₁ h hs) hrun

lemma foldlM_total {step : σ → α → Except ε σ} (l : List α) {s : σ}
    (hstep : ∀ before s e after, done ++ l = before ++ e :: after → I before s →
      ∃ s', step s e = .ok s' ∧ I (before ++ [e]) s')
    (h : I done s) : ∃ s', l.foldlM step s = .ok s' ∧ I (done ++ l) s' := by
  induction l generalizing done s with
  | nil =>
    refine ⟨s, rfl, ?_⟩
    rwa [List.append_nil]
  | cons e l ih =>
    obtain ⟨s₁, hs, h₁⟩ := hstep done s e l rfl h
    rw [List.append_cons] at hstep ⊢
    obtain ⟨s', hrun, h'⟩ := ih hstep h₁
    refine ⟨s', ?_, h'⟩
    rw [List.foldlM_cons, hs]
    exact hrun

end Scan
