import Fod.Lib.ZeroPadded

/-!
# Arrays in blocks

An array kept as blocks of one size, of which some may be missing or short.  A
range of it is assembled in a buffer of zeros, one block at a time.
-/

namespace BlockMap

open ZeroPadded

variable {α : Type*} [Zero α] {bs off fin i : Nat} {c : Nat → α}

def cellOf (bs : Nat) (find : Nat → Option (List α)) (i : Nat) : α :=
  cell ((find (i / bs)).getD []) (i % bs)

def Agrees (bs b : Nat) (block : List α) (c : Nat → α) : Prop :=
  ∀ j < bs, cell block j = c (b * bs + j)

variable {block : List α}

lemma Agrees.cell {b : Nat} (h : Agrees bs b block c) (hbs : 0 < bs)
    (hb : i / bs = b) : cell block (i % bs) = c i := by
  rw [h _ (Nat.mod_lt _ hbs), ← hb, Nat.mul_comm, Nat.div_add_mod]

lemma Agrees.of_cell {b : Nat}
    (h : ∀ i, i / bs = b → ZeroPadded.cell block (i % bs) = c i) : Agrees bs b block c := by
  intro j hj
  have hdiv : (b * bs + j) / bs = b := by
    rw [Nat.mul_comm, Nat.mul_add_div (by omega), Nat.div_eq_of_lt hj, Nat.add_zero]
  rw [← h _ hdiv, Nat.mul_comm, Nat.mul_add_mod, Nat.mod_eq_of_lt hj]

lemma agrees_of_find {find : Nat → Option (List α)} {b : Nat}
    (h : find b = some block) : Agrees bs b block (cellOf bs find) :=
  .of_cell fun i hi => by rw [cellOf, hi, h, Option.getD_some]

lemma cellOf_eq_zero {find : Nat → Option (List α)} (h : find (i / bs) = none) :
    cellOf bs find i = 0 := by
  rw [cellOf, h, Option.getD_none, cell_nil]

lemma lt_iff_block (bs i j : Nat) :
    i < j ↔ i / bs < j / bs ∨ (i / bs = j / bs ∧ i % bs < j % bs) := by
  have hi := Nat.div_add_mod i bs
  have hj := Nat.div_add_mod j bs
  constructor
  · intro h
    rcases Nat.lt_or_ge (i / bs) (j / bs) with hlt | hge
    · exact .inl hlt
    · have heq : i / bs = j / bs := Nat.le_antisymm (Nat.div_le_div_right (Nat.le_of_lt h)) hge
      rw [heq] at hi
      exact .inr ⟨heq, by omega⟩
  · rintro (hlt | ⟨heq, hlt⟩)
    · by_contra hle
      exact absurd (Nat.div_le_div_right (c := bs) (Nat.le_of_not_lt hle)) (by omega)
    · rw [heq] at hi
      omega

lemma cell_flatten (hbs : 0 < bs) {pieces : List (List α)} (hfull : ∀ p ∈ pieces.dropLast, p.length = bs)
    (hshort : ∀ p ∈ pieces, p.length ≤ bs) (i : Nat) :
    cell pieces.flatten i = cell (pieces.getD (i / bs) []) (i % bs) := by
  induction pieces generalizing i with
  | nil => simp
  | cons p rest ih =>
    have hp := hshort p (by simp)
    by_cases hi : i < bs
    · have hfirst : cell (p ++ rest.flatten) i = cell p i := by
        rw [cell_append]
        split
        next => rfl
        next hlong =>
          -- a short piece is the last one
          cases rest with
          | nil => rw [List.flatten_nil, cell_nil, cell_of_length_le (by omega)]
          | cons q rest =>
            have hwhole := hfull p (by simp)
            omega
      rw [List.flatten_cons, hfirst, Nat.div_eq_of_lt hi, Nat.mod_eq_of_lt hi, List.getD_cons_zero]
    · have hdiv : i / bs = (i - bs) / bs + 1 := by
        rw [Nat.div_eq_sub_div hbs (by omega)]
      have hmod : i % bs = (i - bs) % bs := Nat.mod_eq_sub_mod (by omega)
      rw [List.flatten_cons, cell_append, if_neg (by omega), hdiv, List.getD_cons_succ, hmod]
      cases rest with
      | nil => simp
      | cons q rest =>
        have hwhole := hfull p (by simp)
        rw [hwhole]
        exact ih (fun x hx => hfull x (by simp [hx])) (fun x hx => hshort x (by simp [hx])) _

/-! ## Assembling a range -/

def copyBlock (bs off fin : Nat) (out : List α) (row : Nat × List α) : List α :=
  let copyStart := max off (row.1 * bs)
  let copyEnd := min fin (row.1 * bs + bs)
  let srcStart := copyStart - row.1 * bs
  let srcEnd := min (copyEnd - row.1 * bs) row.2.length
  let dstStart := copyStart - off
  let copyLen := min (srcEnd - srcStart) (out.length - dstStart)
  if copyEnd ≤ copyStart ∨ row.2.length ≤ srcStart ∨ copyLen = 0 then out
  else patch out dstStart (slice row.2 srcStart (srcStart + copyLen))

section

variable {out : List α} {row : Nat × List α}

lemma nothing_copied {copyStart copyEnd base len room : Nat}
    (h : copyEnd ≤ copyStart ∨ len ≤ copyStart - base) :
    min (min (copyEnd - base) len - (copyStart - base)) room = 0 := by
  have hempty : min (copyEnd - base) len ≤ copyStart - base := by
    rcases h with h | h
    · exact Nat.le_trans (Nat.min_le_left _ _) (Nat.sub_le_sub_right h base)
    · exact Nat.le_trans (Nat.min_le_right _ _) h
  rw [Nat.sub_eq_zero_of_le hempty, Nat.zero_min]

lemma copied_le {copyStart copyEnd base len dst room n : Nat}
    (hn : min (min (copyEnd - base) len - (copyStart - base)) (room - dst) = n) (hpos : n ≠ 0) :
    n ≤ len - (copyStart - base) ∧ dst + n ≤ room := by
  have hblock : n ≤ len - (copyStart - base) :=
    hn ▸ Nat.le_trans (Nat.min_le_left _ _) (Nat.sub_le_sub_right (Nat.min_le_right _ _) _)
  have hroom : n ≤ room - dst := hn ▸ Nat.min_le_right _ _
  exact ⟨hblock, by omega⟩

omit [Zero α] in
lemma length_copyBlock : (copyBlock bs off fin out row).length = out.length := by
  rw [copyBlock]
  split
  next => rfl
  next h =>
    obtain ⟨hblock, hroom⟩ := copied_le rfl fun hzero => h (.inr (.inr hzero))
    exact length_patch (by rwa [length_slice_add hblock])

lemma cell_copyBlock_eq (bs off fin : Nat) (out : List α) (row : Nat × List α) (i : Nat) :
    cell (copyBlock bs off fin out row) i =
      if max off (row.1 * bs) - off ≤ i ∧
          i < max off (row.1 * bs) - off +
            min (min (min fin (row.1 * bs + bs) - row.1 * bs) row.2.length -
              (max off (row.1 * bs) - row.1 * bs)) (out.length - (max off (row.1 * bs) - off)) then
        cell row.2 (i - (max off (row.1 * bs) - off) + (max off (row.1 * bs) - row.1 * bs))
      else cell out i := by
  rw [copyBlock]
  split
  next h =>
    rw [if_neg]
    have hzero := h.elim (fun h => nothing_copied (.inl h))
      fun h => h.elim (fun h => nothing_copied (.inr h)) id
    rw [hzero]
    omega
  next h =>
    obtain ⟨hblock, hroom⟩ := copied_le rfl fun hzero => h (.inr (.inr hzero))
    rw [cell_patch_slice hblock hroom]

lemma source_eq {base : Nat} (h : max off base - off ≤ i) :
    i - (max off base - off) + (max off base - base) = off + i - base := by
  omega

lemma copied_iff (bs base len : Nat) (hi : i < fin - off) : (max off base - off ≤ i ∧
      i < max off base - off + min (min (min fin (base + bs) - base) len - (max off base - base))
          (fin - off - (max off base - off))) ↔
      (base ≤ off + i ∧ off + i < base + bs) ∧ off + i - base < len := by
  by_cases hstart : max off base - off ≤ i
  · have hroom : i - (max off base - off) < fin - off - (max off base - off) :=
      Nat.sub_lt_sub_right hstart hi
    rw [← Nat.sub_lt_iff_lt_add' hstart, Nat.lt_min, and_iff_left hroom, Nat.lt_sub_iff_add_lt,
      source_eq hstart, Nat.lt_min]
    omega
  · simp only [hstart, false_and, false_iff]
    omega

lemma cell_copyBlock (hbs : 0 < bs) (hout : out.length = fin - off) (hi : i < fin - off)
    (hrow : Agrees bs row.1 row.2 c) (hcell : cell out i = c (off + i) ∨ cell out i = 0) :
    cell (copyBlock bs off fin out row) i =
      if (off + i) / bs = row.1 then c (off + i) else cell out i := by
  have hlow : (off + i) / bs = row.1 ↔ row.1 * bs ≤ off + i ∧ off + i < row.1 * bs + bs := by
    rw [Nat.div_eq_iff hbs]
    omega
  have hvalue : (off + i) / bs = row.1 → cell row.2 (off + i - row.1 * bs) = c (off + i) := by
    intro hb
    have hrange := hlow.mp hb
    rw [hrow _ (by omega), Nat.add_sub_cancel' hrange.1]
  -- a block that ends before the cell says that the cell is zero
  have hshort : (off + i) / bs = row.1 → ¬ off + i - row.1 * bs < row.2.length →
      cell out i = c (off + i) := by
    intro hb hend
    have hzero : c (off + i) = 0 := by rw [← hvalue hb, cell_of_length_le (Nat.le_of_not_lt hend)]
    rcases hcell with h | h
    · exact h
    · rw [h, hzero]
  have hfilled := copied_iff bs (row.1 * bs) row.2.length hi
  rw [← hlow] at hfilled
  rw [cell_copyBlock_eq, hout]
  split
  next h =>
    obtain ⟨hb, -⟩ := hfilled.mp h
    rw [if_pos hb, source_eq h.1, hvalue hb]
  next h =>
    split
    next hb => exact hshort hb fun hend => h (hfilled.mpr ⟨hb, hend⟩)
    next => rfl

omit [Zero α] in
lemma length_foldl_copyBlock (rows : List (Nat × List α)) :
    (rows.foldl (copyBlock bs off fin) out).length = out.length := by
  induction rows generalizing out with
  | nil => rfl
  | cons row rows ih => rw [List.foldl_cons, ih, length_copyBlock]

lemma cell_foldl_copyBlock (hbs : 0 < bs) (hi : i < fin - off) (rows : List (Nat × List α))
    (hout : out.length = fin - off)
    (hrows : ∀ row ∈ rows, Agrees bs row.1 row.2 c)
    (hcell : cell out i = c (off + i) ∨ cell out i = 0) :
    cell (rows.foldl (copyBlock bs off fin) out) i =
      if (off + i) / bs ∈ rows.map Prod.fst then c (off + i) else cell out i := by
  induction rows generalizing out with
  | nil => simp
  | cons row rows ih =>
    have hstep := cell_copyBlock hbs hout hi (hrows row (by simp)) hcell
    rw [List.foldl_cons, ih (length_copyBlock.trans hout) (fun r hr => hrows r (by simp [hr])), hstep]
    · by_cases hb : (off + i) / bs = row.1
      · simp [hb]
      · simp only [List.map_cons, List.mem_cons, hb, false_or, if_false]
    · rw [hstep]
      split
      · exact .inl rfl
      · exact hcell

end

def assemble (bs off fin : Nat) (rows : List (Nat × List α)) : List α :=
  rows.foldl (copyBlock bs off fin) (List.replicate (fin - off) 0)

lemma length_assemble (rows : List (Nat × List α)) :
    (assemble bs off fin rows).length = fin - off := by
  rw [assemble, length_foldl_copyBlock, List.length_replicate]

lemma cell_assemble (hbs : 0 < bs) (rows : List (Nat × List α))
    (hrows : ∀ row ∈ rows, Agrees bs row.1 row.2 c)
    (hmissing : ∀ i < fin - off, (off + i) / bs ∉ rows.map Prod.fst → c (off + i) = 0)
    (hi : i < fin - off) : cell (assemble bs off fin rows) i = c (off + i) := by
  rw [assemble, cell_foldl_copyBlock hbs hi rows (by simp) hrows (.inr cell_replicate_zero)]
  split
  next => rfl
  next h => rw [cell_replicate_zero, hmissing i hi h]

end BlockMap
