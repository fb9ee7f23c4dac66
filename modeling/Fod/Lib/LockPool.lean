import Mathlib

/-!
# Pools of lock holders

A pool is a list of threads; thread `i` is its `i`-th member and a step of a
thread replaces that member.  Each thread holds a list of locks, and a symmetric
relation says which locks conflict.  A thread that takes only locks that are
free keeps the pool exclusive.
-/

namespace LockPool

section Apart

variable {τ : Type*} {R : τ → τ → Prop} {pool : List τ}

def Apart (R : τ → τ → Prop) (pool : List τ) : Prop :=
  ∀ (i j : Nat) (x y : τ), i ≠ j → pool[i]? = some x → pool[j]? = some y → R x y

lemma getElem?_set_cases {t i : Nat} {x new : τ} (h : (pool.set t new)[i]? = some x) :
    (i = t ∧ x = new) ∨ (i ≠ t ∧ pool[i]? = some x) := by
  rw [List.getElem?_set] at h
  split at h
  · rename_i ht
    split at h
    · exact .inl ⟨ht.symm, (Option.some.inj h).symm⟩
    · cases h
  · rename_i ht
    exact .inr ⟨Ne.symm ht, h⟩

lemma Apart.set (symm : ∀ x y, R x y → R y x) (h : Apart R pool) {t : Nat} {new : τ}
    (hnew : ∀ i x, i ≠ t → pool[i]? = some x → R new x) : Apart R (pool.set t new) := by
  intro i j x y hij hx hy
  obtain ⟨rfl, rfl⟩ | ⟨hi, hold⟩ := getElem?_set_cases hx
  · obtain ⟨rfl, rfl⟩ | ⟨hj, hold⟩ := getElem?_set_cases hy
    · exact absurd rfl hij
    · exact hnew j y hj hold
  · obtain ⟨rfl, rfl⟩ | ⟨hj, hold'⟩ := getElem?_set_cases hy
    · exact symm _ _ (hnew i x hi hold)
    · exact h i j x y hij hold hold'

lemma Apart.append (symm : ∀ x y, R x y → R y x) (h : Apart R pool) {new : τ}
    (hnew : ∀ x ∈ pool, R new x) : Apart R (pool ++ [new]) := by
  intro i j x y hij hx hy
  have split : ∀ k z, (pool ++ [new])[k]? = some z →
      pool[k]? = some z ∨ (k = pool.length ∧ z = new) := by
    intro k z hz
    rw [List.getElem?_append] at hz
    split at hz
    · exact .inl hz
    · have hk : k - pool.length = 0 := by
        by_contra hne
        simp [hne] at hz
      rw [hk] at hz
      exact .inr ⟨by omega, by simpa using hz.symm⟩
  obtain hold | ⟨rfl, rfl⟩ := split i x hx
  · obtain hold' | ⟨rfl, rfl⟩ := split j y hy
    · exact h i j x y hij hold hold'
    · exact symm _ _ (hnew x (List.mem_of_getElem? hold))
  · obtain hold | ⟨rfl, rfl⟩ := split j y hy
    · exact hnew y (List.mem_of_getElem? hold)
    · exact absurd rfl hij

end Apart

section Locks

variable {τ L : Type*} {held : τ → List L} {conflicts : L → L → Bool}

def Compatible (held : τ → List L) (conflicts : L → L → Bool) (x y : τ) : Prop :=
  ∀ l ∈ held x, ∀ m ∈ held y, conflicts l m = false

def Exclusive (held : τ → List L) (conflicts : L → L → Bool) (pool : List τ) : Prop :=
  Apart (Compatible held conflicts) pool

def free (held : τ → List L) (conflicts : L → L → Bool) (pool : List τ) (t : Nat)
    (wanted : List L) : Bool :=
  pool.zipIdx.all fun member =>
    member.2 == t || (held member.1).all fun l => wanted.all fun w => !conflicts w l

variable {pool : List τ}

lemma not_conflicts_of_free {t i : Nat} {wanted : List L} {x : τ}
    (h : free held conflicts pool t wanted = true) (hi : i ≠ t) (hx : pool[i]? = some x)
    {w l : L} (hw : w ∈ wanted) (hl : l ∈ held x) : conflicts w l = false := by
  have hmem : (x, i) ∈ pool.zipIdx := List.mem_zipIdx_iff_getElem?.mpr hx
  have hfree := List.all_eq_true.mp h (x, i) hmem
  simp only [beq_iff_eq, hi, Bool.or_eq_true, false_or, List.all_eq_true,
    Bool.not_eq_true'] at hfree
  exact hfree l hl w hw

section

variable (symm : ∀ l m, conflicts l m = conflicts m l)

include symm

lemma Exclusive.set (h : Exclusive held conflicts pool) {t : Nat} {old new : τ} {wanted : List L}
    (hold : pool[t]? = some old) (hfree : free held conflicts pool t wanted = true)
    (hnew : ∀ l ∈ held new, l ∈ wanted ∨ l ∈ held old) :
    Exclusive held conflicts (pool.set t new) := by
  refine Apart.set (fun x y hxy l hl m hm => symm l m ▸ hxy m hm l hl) h ?_
  intro i x hi hx l hl m hm
  obtain hwanted | hkept := hnew l hl
  · exact not_conflicts_of_free hfree hi hx hwanted hm
  · exact h t i old x hi.symm hold hx l hkept m hm

lemma Exclusive.set_of_subset (h : Exclusive held conflicts pool) {t : Nat} {old new : τ}
    (hold : pool[t]? = some old) (hnew : ∀ l ∈ held new, l ∈ held old) :
    Exclusive held conflicts (pool.set t new) := by
  have hfree : free held conflicts pool t [] = true := by simp [free]
  exact h.set symm hold hfree fun l hl => .inr (hnew l hl)

lemma Exclusive.append (h : Exclusive held conflicts pool) {new : τ} (hnew : held new = []) :
    Exclusive held conflicts (pool ++ [new]) := by
  refine Apart.append (fun x y hxy l hl m hm => symm l m ▸ hxy m hm l hl) h ?_
  intro x _ l hl
  simp [hnew] at hl

end

end Locks

end LockPool
