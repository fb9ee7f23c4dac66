import Mathlib

/-!
# Arrays that read as zero beyond their end

The operations of a file on a list, and how each of them acts on the single
cells.  Two lists of one length are equal if their cells are.
-/

namespace ZeroPadded

section

variable {α : Type*}

def patch (l : List α) (a : Nat) (d : List α) : List α := l.take a ++ d ++ l.drop (a + d.length)

lemma length_patch {l d : List α} {a : Nat} (h : a + d.length ≤ l.length) :
    (patch l a d).length = l.length := by
  simp [patch]
  omega

lemma le_length_patch (l d : List α) (a : Nat) : l.length ≤ (patch l a d).length := by
  simp [patch]
  omega

def slice (l : List α) (a b : Nat) : List α := (l.take b).drop a

@[simp] lemma length_slice (l : List α) (a b : Nat) :
    (slice l a b).length = min b l.length - a := by
  simp [slice]

lemma length_slice_add {l : List α} {a n : Nat} (h : n ≤ l.length - a) :
    (slice l a (a + n)).length = n := by
  rw [length_slice]
  omega

def read (l : List α) (off n : Nat) : List α := slice l off (off + n)

end

variable {α : Type*} [Zero α] {l m d : List α} {a b i n off : Nat}

def cell (l : List α) (i : Nat) : α := l.getD i 0

def fit (l : List α) (n : Nat) : List α := l.take n ++ List.replicate (n - l.length) 0

def write (l : List α) (off : Nat) (d : List α) : List α :=
  if d.isEmpty then l else patch (fit l (max l.length (off + d.length))) off d

def zero (l : List α) (a b : Nat) : List α := patch l a (List.replicate (min b l.length - a) 0)

lemma cell_of_length_le (h : l.length ≤ i) : cell l i = 0 := by
  simp [cell, h]

lemma cell_eq_getElem (h : i < l.length) : cell l i = l[i] := by
  simp [cell, h]

@[simp] lemma cell_nil : cell ([] : List α) i = 0 := rfl

lemma ext_cell (hlength : l.length = m.length) (hcells : ∀ i < l.length, cell l i = cell m i) :
    l = m := by
  apply List.ext_getElem hlength
  intro i hl hm
  rw [← cell_eq_getElem hl, ← cell_eq_getElem hm]
  exact hcells i hl

lemma cell_append : cell (l ++ m) i = if i < l.length then cell l i else cell m (i - l.length) := by
  split
  next h => simp [cell, List.getElem?_append_left h]
  next h => simp [cell, List.getElem?_append_right (Nat.le_of_not_lt h)]

lemma cell_take : cell (l.take n) i = if i < n then cell l i else 0 := by
  split
  next h => simp [cell, List.getElem?_take_of_lt h]
  next h => exact cell_of_length_le (by simp; omega)

lemma cell_drop : cell (l.drop n) i = cell l (n + i) := by
  simp [cell]

@[simp] lemma cell_replicate_zero : cell (List.replicate n (0 : α)) i = 0 := by
  by_cases h : i < n
  · rw [cell_eq_getElem (by simpa using h), List.getElem_replicate]
  · exact cell_of_length_le (by simpa using h)

lemma cell_eq_zero_of_all [DecidableEq α] (h : l.all (· == 0) = true) : cell l i = 0 := by
  by_cases hi : i < l.length
  · rw [cell_eq_getElem hi]
    simpa using List.all_eq_true.mp h _ (List.getElem_mem hi)
  · exact cell_of_length_le (Nat.le_of_not_lt hi)

@[simp] lemma length_fit : (fit l n).length = n := by
  simp [fit]
  omega

@[simp] lemma cell_fit : cell (fit l n) i = if i < n then cell l i else 0 := by
  rw [fit, cell_append, cell_take, cell_replicate_zero, List.length_take]
  split
  next hi => rw [if_pos (by omega)]
  next hi =>
    split
    next => exact (cell_of_length_le (by omega)).symm
    next => rfl

lemma cell_patch (h : a + d.length ≤ l.length) :
    cell (patch l a d) i = if a ≤ i ∧ i < a + d.length then cell d (i - a) else cell l i := by
  have ha : (l.take a).length = a := by simp; omega
  rw [patch, cell_append, cell_append, cell_take, cell_drop, List.length_append, ha]
  by_cases hlow : i < a
  · have hin : ¬ (a ≤ i ∧ i < a + d.length) := by omega
    rw [if_pos (by omega), if_pos hlow, if_pos hlow, if_neg hin]
  · by_cases hhigh : i < a + d.length
    · rw [if_pos hhigh, if_neg hlow, if_pos ⟨by omega, hhigh⟩]
    · have hin : ¬ (a ≤ i ∧ i < a + d.length) := by omega
      have hi : a + d.length + (i - (a + d.length)) = i := by omega
      rw [if_neg hhigh, if_neg hin, hi]

@[simp] lemma cell_slice : cell (slice l a b) i = if a + i < b then cell l (a + i) else 0 := by
  rw [slice, cell_drop, cell_take]

lemma cell_patch_slice (hsource : n ≤ m.length - b) (hroom : a + n ≤ l.length) :
    cell (patch l a (slice m b (b + n))) i =
      if a ≤ i ∧ i < a + n then cell m (i - a + b) else cell l i := by
  rw [cell_patch (by rwa [length_slice_add hsource]), length_slice_add hsource, cell_slice]
  split
  next h => rw [if_pos (by omega), Nat.add_comm]
  next => rfl

structure Holds (n : Nat) (c : Nat → α) (l : List α) : Prop where
  length : l.length = n
  cells : ∀ i, cell l i = c i

namespace Holds

variable {c c' : Nat → α}

lemma self : Holds l.length (cell l) l := ⟨rfl, fun _ => rfl⟩

lemma congr (h : Holds n c l) (hcells : ∀ i, c' i = c i) : Holds n c' l :=
  ⟨h.length, fun i => (h.cells i).trans (hcells i).symm⟩

lemma zero_beyond (h : Holds n c l) (hi : n ≤ i) : c i = 0 := by
  rw [← h.cells, cell_of_length_le (h.length ▸ hi)]

lemma fit (h : Holds n c l) (m : Nat) : Holds m (fun i => if i < m then c i else 0) (fit l m) :=
  ⟨length_fit, fun i => by rw [cell_fit, h.cells]⟩

lemma write (h : Holds n c l) (hd : d ≠ []) :
    Holds (max n (off + d.length))
      (fun i => if off ≤ i ∧ i < off + d.length then cell d (i - off) else c i)
      (write l off d) := by
  have hroom : off + d.length ≤ (ZeroPadded.fit l (max l.length (off + d.length))).length := by
    rw [length_fit]
    exact Nat.le_max_right _ _
  rw [ZeroPadded.write, if_neg (by simpa using hd)]
  refine ⟨by rw [length_patch hroom, length_fit, h.length], fun i => ?_⟩
  rw [cell_patch hroom, cell_fit, h.cells, h.length]
  split
  next => rfl
  next hout =>
    split
    next => rfl
    next hi => exact (h.zero_beyond (by omega)).symm

lemma zero (h : Holds n c l) (hb : b ≤ n) :
    Holds n (fun i => if a ≤ i ∧ i < b then 0 else c i) (zero l a b) := by
  have hlength := h.length
  by_cases hab : a ≤ b
  · have hroom : a + (List.replicate (min b l.length - a) (0 : α)).length ≤ l.length := by
      simp
      omega
    refine ⟨by rw [ZeroPadded.zero, length_patch hroom, h.length], fun i => ?_⟩
    rw [ZeroPadded.zero, cell_patch hroom, cell_replicate_zero, h.cells, List.length_replicate]
    have hend : a + (min b l.length - a) = b := by omega
    rw [hend]
  · have hnone : min b l.length - a = 0 := by omega
    rw [ZeroPadded.zero, hnone]
    refine ⟨by simp [patch, hlength], fun i => ?_⟩
    rw [if_neg (by omega), ← h.cells]
    simp [patch]

end Holds

lemma zero_min : zero l a (min b l.length) = zero l a b := by
  simp [zero]

@[simp] lemma length_zero : (zero l a b).length = l.length := by
  rw [← zero_min]
  exact (Holds.self.zero (Nat.min_le_right _ _)).length

lemma zero_zero : zero (zero l a b) a b = zero l a b := by
  have h : Holds l.length _ (zero l a (min b l.length)) := Holds.self.zero (Nat.min_le_right _ _)
  rw [zero_min] at h
  have h' : Holds l.length _ (zero (zero l a b) a (min b l.length)) :=
    h.zero (Nat.min_le_right _ _)
  rw [← zero_min, length_zero]
  apply ext_cell
  · rw [h.length, h'.length]
  · intro i _
    rw [h.cells, h'.cells]
    grind

end ZeroPadded
