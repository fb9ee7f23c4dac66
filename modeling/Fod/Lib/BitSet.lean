import Mathlib

/-!
# Words as sets of bits
-/

namespace BitSet

variable {α : Type*} {w : Nat} {p q r : BitVec w}

def Contains (p r : BitVec w) : Prop := p &&& r = r

instance : Decidable (Contains p r) := inferInstanceAs (Decidable (p &&& r = r))

lemma contains_iff : Contains p r ↔ ∀ i, r.getLsbD i = true → p.getLsbD i = true := by
  constructor
  · intro h i hi
    have hbit := congrArg (BitVec.getLsbD · i) h
    simp only [BitVec.getLsbD_and, hi, Bool.and_true] at hbit
    exact hbit
  · intro h
    apply BitVec.eq_of_getLsbD_eq
    intro i _
    rw [BitVec.getLsbD_and]
    cases hr : r.getLsbD i with
    | false => rw [Bool.and_false]
    | true => rw [h i hr, Bool.and_true]

lemma contains_and : Contains (p &&& q) r ↔ Contains p r ∧ Contains q r := by
  simp only [contains_iff, BitVec.getLsbD_and, Bool.and_eq_true]
  exact ⟨fun h => ⟨fun i hi => (h i hi).1, fun i hi => (h i hi).2⟩, fun h i hi => ⟨h.1 i hi, h.2 i hi⟩⟩

lemma Contains.trans (h : Contains p q) (h' : Contains q r) : Contains p r :=
  contains_iff.mpr fun i hi => contains_iff.mp h i (contains_iff.mp h' i hi)

lemma contains_of_and_not (h : r &&& ~~~p = 0) : Contains p r := by
  refine contains_iff.mpr fun i hi => ?_
  have hbit := congrArg (BitVec.getLsbD · i) h
  have hlt := BitVec.lt_of_getLsbD hi
  simpa [hi, hlt] using hbit

lemma Contains.or_eq_left (h : Contains p r) : p ||| r = p := by
  apply BitVec.eq_of_getLsbD_eq
  intro i _
  rw [BitVec.getLsbD_or]
  cases hr : r.getLsbD i with
  | false => rw [Bool.or_false]
  | true => rw [contains_iff.mp h i hr, Bool.or_true]

lemma getLsbD_low {n : Nat} {low : BitVec w} (hlow : low = BitVec.ofNat w (2 ^ n - 1)) (h : n ≤ w)
    (i : Nat) : low.getLsbD i = decide (i < n) := by
  rw [hlow, BitVec.getLsbD_ofNat, Nat.testBit_two_pow_sub_one, ← Bool.decide_and]
  exact decide_eq_decide.mpr (by omega)

def UnionOf (done : List α) (P : α → Prop) (bits : α → BitVec w) (u : BitVec w) : Prop :=
  ∀ i, u.getLsbD i = true ↔ ∃ e ∈ done, P e ∧ (bits e).getLsbD i = true

namespace UnionOf

variable {P : α → Prop} {bits : α → BitVec w} {done : List α} {e : α} {u v : BitVec w}

lemma nil : UnionOf [] P bits (0 : BitVec w) := fun i => by simp

section

variable (h : UnionOf done P bits u)

include h

lemma skip (he : ¬ P e) : UnionOf (done ++ [e]) P bits u := by
  intro i
  rw [h i]
  simp [or_and_right, exists_or, he]

lemma add (he : P e) :
    UnionOf (done ++ [e]) P bits (u ||| bits e) := by
  intro i
  rw [BitVec.getLsbD_or, Bool.or_eq_true, h i]
  simp [or_and_right, exists_or, he]

lemma unique (h' : UnionOf done P bits v) : u = v := by
  apply BitVec.eq_of_getLsbD_eq
  intro i _
  rw [Bool.eq_iff_iff, h i, h' i]

lemma eq_zero (hnone : ∀ e ∈ done, P e → bits e = 0) : u = 0 := by
  apply BitVec.eq_of_getLsbD_eq
  intro i _
  rw [Bool.eq_iff_iff, h i]
  simp only [BitVec.ofNat_eq_ofNat, BitVec.getLsbD_zero, Bool.false_eq_true, iff_false]
  rintro ⟨e, he, hP, hbit⟩
  rw [hnone e he hP] at hbit
  simp at hbit

lemma contains (he : e ∈ done) (hP : P e) : Contains u (bits e) :=
  contains_iff.mpr fun i hi => (h i).mpr ⟨e, he, hP, hi⟩

end

end UnionOf

end BitSet
