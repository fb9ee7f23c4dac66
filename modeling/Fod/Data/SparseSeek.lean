import Fod.Data.Plans
import Fod.ReadCache.Model

/-!
# Seeking data and holes

`lseek` with `SEEK_DATA` or `SEEK_HOLE` looks for the next position that lies in a
stored block or in none.  The query only sees the indices of the blocks; the
positions are computed from them with checked arithmetic.
-/

namespace Fod.Data

open ReadCache (u64Max)

/-- The indices of the rows of a data object in `data_blocks`.  A row below
`i64::MAX` has a successor in the type of the column. -/
structure DataBlocks where
  orders : List Nat
  bound : ∀ order ∈ orders, order < 2 ^ 63 - 1

namespace DataBlocks

def firstOrder (blocks : DataBlocks) (wanted : Nat → Bool) : Option Nat :=
  (blocks.orders.filter wanted).min?

end DataBlocks

def checkedMul (a b : Nat) : Option Nat := if a * b ≤ u64Max then some (a * b) else none

def seekDataFrom (blocks : DataBlocks) (fileSize offset bs : Nat) : Except String (Option Nat) :=
  match blocks.firstOrder fun order => offset / bs ≤ order with
  | none => .ok none
  | some order =>
    if order = offset / bs then .ok (some offset)
    else
      match checkedMul order bs with
      | none => .error "sparse seek data offset overflow"
      | some candidate => .ok (if candidate < fileSize then some candidate else none)

def seekHoleFrom (blocks : DataBlocks) (fileSize offset bs : Nat) : Except String (Option Nat) :=
  if blocks.firstOrder (fun order => offset / bs ≤ order) ≠ some (offset / bs) then
    .ok (some offset)
  else
    match blocks.firstOrder fun order =>
      offset / bs ≤ order && decide (order + 1 ∉ blocks.orders) with
    | none => .ok (some fileSize)
    | some lastDataOrder =>
      if u64Max < lastDataOrder + 1 then .error "sparse seek hole block overflow"
      else
        match checkedMul (lastDataOrder + 1) bs with
        | none => .error "sparse seek hole offset overflow"
        | some candidate => .ok (some (min candidate fileSize))

/-- `none` is answered with `ENXIO`. -/
def sparseSeekBlockwise (dataObject : Option DataBlocks) (fileSize offset bs : Nat)
    (seekData : Bool) : Except String (Option Nat) :=
  if bs = 0 then .error "sparse seek block_size must be positive"
  else if fileSize ≤ offset then .ok none
  else
    match dataObject with
    | none => .error "file data object is missing during sparse seek"
    | some blocks =>
      if seekData then seekDataFrom blocks fileSize offset bs
      else seekHoleFrom blocks fileSize offset bs

section

variable {blocks : DataBlocks} {fileSize offset bs order : Nat}

lemma firstOrder_eq_some {wanted : Nat → Bool} : blocks.firstOrder wanted = some order ↔
      IsLeast {b | b ∈ blocks.orders ∧ wanted b = true} order := by
  rw [DataBlocks.firstOrder, List.min?_eq_some_iff]
  simp only [IsLeast, lowerBounds, List.mem_filter, Set.mem_ofPred_eq]

lemma firstOrder_eq_none {wanted : Nat → Bool} :
    blocks.firstOrder wanted = none ↔ ∀ b ∈ blocks.orders, ¬ wanted b = true := by
  rw [DataBlocks.firstOrder, List.min?_eq_none_iff, List.filter_eq_nil_iff]

def IsNextBlock (blocks : DataBlocks) (offset bs : Nat) (stored : Bool) (b : Nat) : Prop :=
  IsLeast {b | offset / bs ≤ b ∧ (b ∈ blocks.orders ↔ stored = true)} b

lemma isLeast_position {stored : Bool} (hbs : 0 < bs)
    (h : IsNextBlock blocks offset bs stored order) :
    IsLeast {p | offset ≤ p ∧ (p / bs ∈ blocks.orders ↔ stored = true)} (max offset (order * bs)) := by
  have hdiv : max offset (order * bs) / bs = order := by
    have hle := h.1.1
    have hlt : offset < (order + 1) * bs := (Nat.div_lt_iff_lt_mul hbs).mp (by omega)
    rw [Nat.succ_mul] at hlt
    refine Nat.div_eq_of_lt_le (Nat.le_max_right _ _) ?_
    rw [Nat.succ_mul]
    exact Nat.max_lt.mpr ⟨hlt, Nat.lt_add_of_pos_right hbs⟩
  refine ⟨⟨Nat.le_max_left _ _, hdiv.symm ▸ h.1.2⟩, fun p hp => Nat.max_le.mpr ⟨hp.1, ?_⟩⟩
  have hle : order ≤ p / bs := h.2 ⟨Nat.div_le_div_right hp.1, hp.2⟩
  exact (Nat.mul_le_mul_right bs hle).trans (Nat.div_mul_le_self p bs)

lemma mem_orders_of_successors {first b : Nat} (hfirst : first ∈ blocks.orders)
    (hnext : ∀ c ∈ blocks.orders, first ≤ c → c < b → c + 1 ∈ blocks.orders) (hle : first ≤ b) :
    b ∈ blocks.orders := by
  induction b, hle using Nat.le_induction with
  | base => exact hfirst
  | succ b hle ih =>
    exact hnext b (ih fun c hc hfc hcb => hnext c hc hfc (by omega)) hle (Nat.lt_succ_self b)

lemma isNextBlock_true : blocks.firstOrder (fun order => offset / bs ≤ order) = some order ↔
      IsNextBlock blocks offset bs true order := by
  rw [firstOrder_eq_some, IsNextBlock]
  simp only [decide_eq_true_eq, iff_true, and_comm]

lemma isNextBlock_false {lastDataOrder : Nat} (hstored : offset / bs ∈ blocks.orders)
    (h : blocks.firstOrder (fun order =>
      offset / bs ≤ order && decide (order + 1 ∉ blocks.orders)) = some lastDataOrder) :
    IsNextBlock blocks offset bs false (lastDataOrder + 1) := by
  obtain ⟨⟨-, hlast⟩, hleast⟩ := firstOrder_eq_some.mp h
  simp only [Bool.and_eq_true, decide_eq_true_eq] at hlast
  refine ⟨⟨hlast.1.trans (Nat.le_succ _), by simpa using hlast.2⟩, fun b hb => ?_⟩
  by_contra hlt
  have hmissing : b ∉ blocks.orders := by simpa using hb.2
  refine hmissing (mem_orders_of_successors hstored (fun c hc hfc hcb => ?_) hb.1)
  by_contra hend
  have hle : lastDataOrder ≤ c := hleast ⟨hc, by simpa using ⟨hfc, hend⟩⟩
  omega

lemma firstOrder_end_ne_none (hstored : offset / bs ∈ blocks.orders) :
    blocks.firstOrder (fun order =>
      offset / bs ≤ order && decide (order + 1 ∉ blocks.orders)) ≠ none := by
  intro hnone
  have hnext := firstOrder_eq_none.mp hnone
  have hmem : 2 ^ 63 - 1 ∈ blocks.orders := by
    refine mem_orders_of_successors hstored (fun c hc hfc _ => ?_)
      (blocks.bound _ hstored).le
    simpa [hfc] using hnext c hc
  exact absurd (blocks.bound _ hmem) (lt_irrefl _)

/-! ## The two searches -/

def LeastOf (positions : Set Nat) (result : Option Nat) : Prop :=
  ∀ p, result = some p ↔ IsLeast positions p

lemma leastOf_some {positions : Set Nat} {p : Nat} (h : IsLeast positions p) :
    LeastOf positions (some p) := fun _ =>
  ⟨fun heq => Option.some.inj heq ▸ h, fun hq => congrArg some (h.unique hq)⟩

lemma leastOf_none {positions : Set Nat} (h : ∀ p, p ∉ positions) : LeastOf positions none :=
  fun _ => ⟨fun heq => (by cases heq), fun hq => absurd hq.1 (h _)⟩

def dataPositions (blocks : DataBlocks) (fileSize offset bs : Nat) : Set Nat :=
  {p | offset ≤ p ∧ p < fileSize ∧ p / bs ∈ blocks.orders}

def holePositions (blocks : DataBlocks) (fileSize offset bs : Nat) : Set Nat :=
  {p | offset ≤ p ∧ (p = fileSize ∨ p < fileSize ∧ p / bs ∉ blocks.orders)}

lemma leastOf_dataPositions (hbs : 0 < bs) (h : IsNextBlock blocks offset bs true order) :
    LeastOf (dataPositions blocks fileSize offset bs)
      (if max offset (order * bs) < fileSize then some (max offset (order * bs)) else none) := by
  obtain ⟨⟨hle, hmem⟩, hleast⟩ := isLeast_position hbs h
  split
  next hlt =>
    exact leastOf_some ⟨⟨hle, hlt, hmem.mpr rfl⟩, fun p hp => hleast ⟨hp.1, by simpa using hp.2.2⟩⟩
  next hge =>
    refine leastOf_none fun p hp => hge ?_
    exact (hleast ⟨hp.1, by simpa using hp.2.2⟩).trans_lt hp.2.1

lemma leastOf_holePositions (hbs : 0 < bs) (hoffset : offset < fileSize)
    (h : IsNextBlock blocks offset bs false order) :
    LeastOf (holePositions blocks fileSize offset bs)
      (some (min (max offset (order * bs)) fileSize)) := by
  obtain ⟨⟨hle, hmem⟩, hleast⟩ := isLeast_position hbs h
  refine leastOf_some ⟨⟨by omega, ?_⟩, fun p hp => ?_⟩
  · by_cases hlt : max offset (order * bs) < fileSize
    · rw [Nat.min_eq_left hlt.le]
      exact .inr ⟨hlt, by simpa using hmem⟩
    · exact .inl (Nat.min_eq_right (Nat.le_of_not_lt hlt))
  · rcases hp.2 with rfl | ⟨_, hhole⟩
    · exact Nat.min_le_right _ _
    · exact (Nat.min_le_left _ _).trans (hleast ⟨hp.1, by simpa using hhole⟩)

lemma max_offset_mul (hbs : 0 < bs) (hle : offset / bs ≤ order) :
    max offset (order * bs) = if order = offset / bs then offset else order * bs := by
  split
  next heq =>
    rw [heq]
    exact Nat.max_eq_left (Nat.div_mul_le_self offset bs)
  next hne =>
    exact Nat.max_eq_right ((Nat.div_lt_iff_lt_mul hbs).mp (by omega)).le

def SeekOverflows (blocks : DataBlocks) (offset bs : Nat) (seekData : Bool) : Prop :=
  ∃ order, IsNextBlock blocks offset bs seekData order ∧ u64Max < order * bs

lemma seekDataFrom_overflow (hoffset : offset ≤ u64Max) (h : SeekOverflows blocks offset bs true) :
    seekDataFrom blocks fileSize offset bs = .error "sparse seek data offset overflow" := by
  obtain ⟨order, hnext, hover⟩ := h
  have hne : order ≠ offset / bs := by
    rintro rfl
    exact absurd (Nat.div_mul_le_self offset bs) (by omega)
  simp only [seekDataFrom, isNextBlock_true.mpr hnext, if_neg hne, checkedMul,
    if_neg (Nat.not_le.mpr hover)]

lemma seekDataFrom_exact (hbs : 0 < bs) (hoffset : offset < fileSize)
    (h : ¬ SeekOverflows blocks offset bs true) :
    ∃ result, seekDataFrom blocks fileSize offset bs = .ok result ∧
      LeastOf (dataPositions blocks fileSize offset bs) result := by
  cases hfirst : blocks.firstOrder fun order => offset / bs ≤ order with
  | none =>
    refine ⟨none, by simp only [seekDataFrom, hfirst], leastOf_none fun p hp => ?_⟩
    have hbefore := firstOrder_eq_none.mp hfirst _ hp.2.2
    exact hbefore (decide_eq_true (Nat.div_le_div_right hp.1))
  | some order =>
    have hnext := isNextBlock_true.mp hfirst
    have hfits : order * bs ≤ u64Max := Nat.le_of_not_lt fun hover => h ⟨order, hnext, hover⟩
    refine ⟨_, ?_, leastOf_dataPositions hbs hnext⟩
    rw [max_offset_mul hbs hnext.1.1]
    simp only [seekDataFrom, hfirst, checkedMul, if_pos hfits]
    split
    · rfl
    · rfl

lemma seekHoleFrom_stored (hfirst : offset / bs ∈ blocks.orders) :
    blocks.firstOrder (fun order => offset / bs ≤ order) = some (offset / bs) :=
  firstOrder_eq_some.mpr ⟨⟨hfirst, by simp⟩, fun _ hb => by simpa using hb.2⟩

lemma seekHoleFrom_overflow (hoffset : offset ≤ u64Max) (h : SeekOverflows blocks offset bs false) :
    ∃ message, seekHoleFrom blocks fileSize offset bs = .error message := by
  obtain ⟨order, hnext, hover⟩ := h
  have hstored : offset / bs ∈ blocks.orders := by
    by_contra hhole
    have hle : order ≤ offset / bs := hnext.2 ⟨le_rfl, by simpa using hhole⟩
    have hmul := (Nat.mul_le_mul_right bs hle).trans (Nat.div_mul_le_self offset bs)
    omega
  obtain ⟨last, hlast⟩ := Option.ne_none_iff_exists'.mp (firstOrder_end_ne_none hstored)
  obtain rfl := (isNextBlock_false hstored hlast).unique hnext
  simp only [seekHoleFrom, seekHoleFrom_stored hstored, hlast, checkedMul,
    if_neg (Nat.not_le.mpr hover), ne_eq, not_true_eq_false, if_false]
  split
  · exact ⟨_, rfl⟩
  · exact ⟨_, rfl⟩

lemma seekHoleFrom_exact (hbs : 0 < bs) (hoffset : offset < fileSize)
    (h : ¬ SeekOverflows blocks offset bs false) :
    ∃ result, seekHoleFrom blocks fileSize offset bs = .ok result ∧
      LeastOf (holePositions blocks fileSize offset bs) result := by
  by_cases hstored : offset / bs ∈ blocks.orders
  · obtain ⟨last, hlast⟩ := Option.ne_none_iff_exists'.mp (firstOrder_end_ne_none hstored)
    have hnext := isNextBlock_false hstored hlast
    have hfits : (last + 1) * bs ≤ u64Max := Nat.le_of_not_lt fun hover => h ⟨_, hnext, hover⟩
    have hsucc : ¬ u64Max < last + 1 := by
      have := Nat.le_mul_of_pos_right (last + 1) hbs
      omega
    have hlater : last + 1 ≠ offset / bs := fun heq => hnext.1.2.not.mpr (by simp) (heq ▸ hstored)
    have hleast := leastOf_holePositions hbs hoffset hnext
    rw [max_offset_mul hbs hnext.1.1, if_neg hlater] at hleast
    refine ⟨_, ?_, hleast⟩
    simp only [seekHoleFrom, seekHoleFrom_stored hstored, hlast, checkedMul, if_pos hfits,
      if_neg hsucc, ne_eq, not_true_eq_false, if_false]
  · have hnext : IsNextBlock blocks offset bs false (offset / bs) :=
      ⟨⟨le_rfl, by simpa using hstored⟩, fun _ hb => hb.1⟩
    have hleast := leastOf_holePositions hbs hoffset hnext
    rw [max_offset_mul hbs le_rfl, if_pos rfl, Nat.min_eq_left hoffset.le] at hleast
    refine ⟨_, if_pos fun hfirst => hstored ?_, hleast⟩
    exact (firstOrder_eq_some.mp hfirst).1.1

end

/-- **`SEEK_DATA` and `SEEK_HOLE` are exact.**  From an offset in the file the
result is the least position in a stored block, or the least one in a hole or at
the end; there is an error exactly if the start of the block that is found is no
`u64`.  An offset behind the file gives `ENXIO`. -/
theorem sparse_seek_exact (blocks : DataBlocks) (fileSize offset bs : Nat) (hbs : 1 ≤ bs)
    (hsize : fileSize ≤ u64Max) (seekData : Bool) :
    (fileSize ≤ offset →
      sparseSeekBlockwise (some blocks) fileSize offset bs seekData = .ok none) ∧
    (offset < fileSize →
      (SeekOverflows blocks offset bs seekData →
        ∃ message, sparseSeekBlockwise (some blocks) fileSize offset bs seekData = .error message) ∧
      (¬ SeekOverflows blocks offset bs seekData →
        ∃ result, sparseSeekBlockwise (some blocks) fileSize offset bs seekData = .ok result ∧
          LeastOf (if seekData then dataPositions blocks fileSize offset bs
            else holePositions blocks fileSize offset bs) result)) := by
  refine ⟨fun hbehind => ?_, fun hoffset => ?_⟩
  · rw [sparseSeekBlockwise, if_neg (by omega), if_pos hbehind]
  · simp only [sparseSeekBlockwise, if_neg (Nat.ne_of_gt hbs), if_neg (Nat.not_le.mpr hoffset)]
    cases seekData with
    | true =>
      exact ⟨fun h => ⟨_, seekDataFrom_overflow (hoffset.le.trans hsize) h⟩,
        fun h => seekDataFrom_exact hbs hoffset h⟩
    | false =>
      exact ⟨fun h => seekHoleFrom_overflow (hoffset.le.trans hsize) h,
        fun h => seekHoleFrom_exact hbs hoffset h⟩

/-- Ten bytes in blocks of four, of which the middle one is not stored. -/
theorem sparse_seek_exact_middle_hole :
    ∃ blocks : DataBlocks, sparseSeekBlockwise (some blocks) 10 1 4 false = .ok (some 4) ∧
      LeastOf (holePositions blocks 10 1 4) (some 4) := by
  refine ⟨⟨[0, 2], by decide⟩, rfl, ?_⟩
  have hfits : ¬ SeekOverflows ⟨[0, 2], by decide⟩ 1 4 false := by
    rintro ⟨order, hnext, hover⟩
    have hle : order ≤ 1 := hnext.2 ⟨by decide, by decide⟩
    have hmul := (Nat.mul_le_mul_right 4 hle).trans (by decide : 1 * 4 ≤ u64Max)
    omega
  obtain ⟨result, hresult, hleast⟩ :=
    ((sparse_seek_exact ⟨[0, 2], by decide⟩ 10 1 4 (by decide) (by decide) false).2
      (by decide)).2 hfits
  cases hresult
  exact hleast

/-- A row far behind the file turns `ENXIO` into an error: no position of the file
lies in a stored block. -/
theorem seek_data_overflows_behind_file :
    ∃ blocks : DataBlocks,
      sparseSeekBlockwise (some blocks) 16 0 8 true = .error "sparse seek data offset overflow" ∧
        ∀ p, p ∉ dataPositions blocks 16 0 8 := by
  refine ⟨⟨[2 ^ 62], by decide⟩, by decide, fun p hp => ?_⟩
  have hblock := List.mem_singleton.mp hp.2.2
  have hlt := hp.2.1
  omega

end Fod.Data
