import Fod.Data.Sharing

/-!
# The bytes of a stored file

What each transaction does to the bytes of the file that it writes.
-/

namespace Fod.Data

open ZeroPadded BlockMap

namespace Db

variable {db : Db} {bs f : Nat} {row : FileRow}

def cell (db : Db) (bs f i : Nat) : Byte := cellOf bs (db.find f) i

lemma Written.cell {db₀ : Db} {size i : Nat} {blocks : Nat → Option Bytes}
    (h : Written db₀ db f size blocks) : db.cell bs f i = cellOf bs blocks i := by
  rw [Db.cell, cellOf, cellOf, h.find]

lemma SameOthers.cell {db₀ : Db} {g i : Nat} (h : SameOthers db₀ db f) (hg : g ≠ f) :
    db.cell bs g i = db₀.cell bs g i := by
  rw [Db.cell, Db.cell, cellOf, cellOf, (h g hg).2]

lemma loadBlock_agrees {b : Nat} {block : Bytes} (h : db.loadBlock bs f b = some block) :
    Agrees bs b block (db.cell bs f) := by
  obtain ⟨data, hfind, rfl⟩ := Option.map_eq_some_iff.mp h
  intro j hj
  rw [cell_fit, if_pos hj, agrees_of_find hfind j hj]
  rfl

lemma cell_of_loadBlock {i : Nat} (h : db.loadBlock bs f (i / bs) = none) : db.cell bs f i = 0 :=
  cellOf_eq_zero (Option.map_eq_none_iff.mp h)

lemma mem_fetchBlockRange {first last b : Nat} {block : Bytes} :
    (b, block) ∈ db.fetchBlockRange bs f first last ↔
      (first ≤ b ∧ b ≤ last) ∧ db.loadBlock bs f b = some block := by
  simp only [fetchBlockRange, List.mem_filterMap, List.mem_range'_1, Option.map_eq_some_iff,
    Prod.mk.injEq]
  constructor
  · rintro ⟨b', hrange, block', hload, rfl, rfl⟩
    exact ⟨by omega, hload⟩
  · rintro ⟨hrange, hload⟩
    exact ⟨b, by omega, block, hload, rfl, rfl⟩

def readRange (db : Db) (bs f offset endOffset : Nat) : Bytes :=
  assembleReadSlice (offset / bs) ((endOffset - 1) / bs) offset endOffset bs
    (db.fetchBlockRange bs f (offset / bs) ((endOffset - 1) / bs))

lemma length_readRange (offset endOffset : Nat) :
    (db.readRange bs f offset endOffset).length = endOffset - offset :=
  length_assembleReadSlice fun _ => ⟨le_rfl, le_rfl⟩

lemma cell_assembleReadSlice_fetchBlockRange (hbs : 0 < bs) {first last offset endOffset i : Nat}
    (hrange : first ≤ offset / bs ∧ (endOffset - 1) / bs ≤ last) (hi : i < endOffset - offset) :
    ZeroPadded.cell (assembleReadSlice first last offset endOffset bs
      (db.fetchBlockRange bs f first last)) i = db.cell bs f (offset + i) := by
  refine cell_assembleReadSlice hbs hrange (fun row hrow => ?_) (fun j hfirst hlast hnone => ?_) hi
  · exact loadBlock_agrees (mem_fetchBlockRange.mp hrow).2
  · apply cell_of_loadBlock
    by_contra hsome
    obtain ⟨block, hblock⟩ := Option.ne_none_iff_exists'.mp hsome
    exact hnone (List.mem_map.mpr ⟨(_, block), mem_fetchBlockRange.mpr ⟨⟨hfirst, hlast⟩, hblock⟩, rfl⟩)

lemma cell_readRange (hbs : 0 < bs) {offset endOffset i : Nat} (hi : i < endOffset - offset) :
    ZeroPadded.cell (db.readRange bs f offset endOffset) i = db.cell bs f (offset + i) :=
  cell_assembleReadSlice_fetchBlockRange hbs ⟨le_rfl, le_rfl⟩ hi

lemma readRange_congr {db' : Db} (hbs : 0 < bs) {offset endOffset : Nat}
    (h : ∀ i, offset ≤ i → i < endOffset → db.cell bs f i = db'.cell bs f i) :
    db.readRange bs f offset endOffset = db'.readRange bs f offset endOffset := by
  apply ext_cell
  · rw [length_readRange, length_readRange]
  · intro i hi
    rw [length_readRange] at hi
    rw [cell_readRange hbs hi, cell_readRange hbs hi, h _ (by omega) (by omega)]

/-! ## Persisting -/

section

variable {rows : List PersistBlockRow} {data : Nat → Bytes} {blocks : Table Nat Bytes}

private def staged (bs : Nat) (data : Nat → Bytes) (b : Nat) : Option Bytes :=
  if (fit (data b) bs).all (· == 0) then none else some (fit (data b) bs)

section

variable (hdata : ∀ r ∈ rows, r.data = data r.blockIndex)

include hdata

private lemma stageRow_eq {r : PersistBlockRow} (hr : r ∈ rows) : stageRow bs r = (r.blockIndex, staged bs data r.blockIndex) := by
  rw [stageRow, hdata r hr, staged]

private lemma lookup_insertStaged (b : Nat) :
    ((rows.map (stageRow bs)).foldl insertStaged blocks).lookup b =
      if b ∈ rows.map PersistBlockRow.blockIndex then (staged bs data b).or (blocks.lookup b)
      else blocks.lookup b := by
  rw [List.foldl_map]
  apply Table.lookup_foldl _ PersistBlockRow.blockIndex fun b x => (staged bs data b).or x
  · intro k x
    cases staged bs data k <;> rfl
  · intro r hr t k
    rw [stageRow_eq hdata hr, insertStaged]
    cases hstaged : staged bs data r.blockIndex with
    | none =>
      dsimp only
      split
      next hk => rw [hk, hstaged, Option.none_or]
      next => rfl
    | some d =>
      dsimp only
      rw [Table.lookup_insert_eq_ite]
      split
      next hk => rw [hk, hstaged, Option.some_or]
      next => rfl

private lemma lookup_deleteStaged (b : Nat) :
    ((rows.map (stageRow bs)).foldl deleteStaged blocks).lookup b =
      if b ∈ rows.map PersistBlockRow.blockIndex then
        (if (staged bs data b).isSome then blocks.lookup b else none) else blocks.lookup b := by
  rw [List.foldl_map]
  apply Table.lookup_foldl _ PersistBlockRow.blockIndex
    fun b x => if (staged bs data b).isSome then x else none
  · intro k x
    split <;> rfl
  · intro r hr t k
    rw [stageRow_eq hdata hr, deleteStaged]
    cases hstaged : staged bs data r.blockIndex with
    | none =>
      dsimp only
      rw [Table.lookup_erase_eq_ite]
      split
      next hk => rw [hk, hstaged, Option.isSome_none, if_neg (by simp)]
      next => rfl
    | some d =>
      dsimp only
      split
      next hk => rw [hk, hstaged, Option.isSome_some, if_pos rfl]
      next => rfl

end

variable {empty : Bool} {used : Nat → Nat} {transport : PersistBlockTransport} {object : DataObject}

private lemma lookup_mergePersistBlockStage (hdata : ∀ r ∈ rows, r.data = data r.blockIndex)
    (hempty : empty = true → ∀ b, blocks.lookup b = none) (b : Nat) :
    (mergePersistBlockStage empty (rows.map (stageRow bs)) blocks).lookup b =
      if b ∈ rows.map PersistBlockRow.blockIndex then staged bs data b else blocks.lookup b := by
  rw [mergePersistBlockStage]
  split
  next h =>
    rw [lookup_insertStaged hdata, hempty h, Option.or_none]
  next =>
    rw [lookup_deleteStaged hdata, lookup_insertStaged hdata]
    split
    next => cases staged bs data b <;> rfl
    next => rfl

private lemma cell_staged (hbs : 0 < bs) (i : Nat) :
    ZeroPadded.cell ((staged bs data (i / bs)).getD []) (i % bs) =
      ZeroPadded.cell (data (i / bs)) (i % bs) := by
  have hfit : ZeroPadded.cell (fit (data (i / bs)) bs) (i % bs) =
      ZeroPadded.cell (data (i / bs)) (i % bs) := by
    rw [cell_fit, if_pos (Nat.mod_lt i hbs)]
  rw [staged]
  split
  next hzero => rw [Option.getD_none, cell_nil, ← hfit, cell_eq_zero_of_all hzero]
  next => rw [Option.getD_some, hfit]

private lemma lookup_persistDirect (hdata : ∀ r ∈ rows, r.data = data r.blockIndex)
    (hused : ∀ r ∈ rows, r.usedLen = used r.blockIndex) (b : Nat) :
    (rows.foldl (persistDirect bs) blocks).lookup b =
      if b ∈ rows.map PersistBlockRow.blockIndex then
        (if bs ≤ used b then some (fit (data b) bs) else none)
      else blocks.lookup b := by
  apply Table.lookup_foldl _ PersistBlockRow.blockIndex
    fun b _ => if bs ≤ used b then some (fit (data b) bs) else none
  · intro k x
    rfl
  · intro r hr t k
    rw [persistDirect, hused r hr, hdata r hr]
    split
    next hfull =>
      rw [Table.lookup_insert_eq_ite]
      split
      next hk => rw [hk, if_pos hfull]
      next => rfl
    next hpart =>
      rw [Table.lookup_erase_eq_ite]
      split
      next hk => rw [hk, if_neg hpart]
      next => rfl

def kept (transport : PersistBlockTransport) (bs : Nat) (used : Nat → Nat) (data : Nat → Bytes)
    (b : Nat) : Bytes :=
  if transport = .copyBinaryStaging ∨ bs ≤ used b then data b else []

lemma cell_persistRows (hbs : 0 < bs)
    (hdata : ∀ r ∈ rows, r.data = data r.blockIndex)
    (hused : ∀ r ∈ rows, r.usedLen = used r.blockIndex)
    (hempty : empty = true → ∀ b, blocks.lookup b = none) (i : Nat) :
    cellOf bs (persistRows transport bs empty rows blocks).lookup i =
      if i / bs ∈ rows.map PersistBlockRow.blockIndex then
        ZeroPadded.cell (kept transport bs used data (i / bs)) (i % bs)
      else cellOf bs blocks.lookup i := by
  have hdirect : transport ≠ .copyBinaryStaging →
      cellOf bs (rows.foldl (persistDirect bs) blocks).lookup i =
        if i / bs ∈ rows.map PersistBlockRow.blockIndex then
          ZeroPadded.cell (kept transport bs used data (i / bs)) (i % bs)
        else cellOf bs blocks.lookup i := by
    intro hne
    rw [cellOf, lookup_persistDirect hdata hused, cellOf, kept, if_congr (or_iff_right hne) rfl rfl]
    split
    next =>
      split
      next => rw [Option.getD_some, cell_fit, if_pos (Nat.mod_lt i hbs)]
      next => rfl
    next => rfl
  cases transport with
  | copyBinaryStaging =>
    have hkept : kept .copyBinaryStaging bs used data (i / bs) = data (i / bs) := if_pos (.inl rfl)
    rw [persistRows, cellOf, lookup_mergePersistBlockStage hdata hempty, cellOf, hkept]
    split
    next => exact cell_staged hbs i
    next => rfl
  | binaryBytea => exact hdirect (by simp)
  | legacyHex => exact hdirect (by simp)

lemma lookup_persistRows_of_not_mem (hdata : ∀ r ∈ rows, r.data = data r.blockIndex)
    (hused : ∀ r ∈ rows, r.usedLen = used r.blockIndex)
    (hempty : empty = true → ∀ b, blocks.lookup b = none) {b : Nat}
    (hb : b ∉ rows.map PersistBlockRow.blockIndex) :
    (persistRows transport bs empty rows blocks).lookup b = blocks.lookup b := by
  cases transport with
  | copyBinaryStaging => exact (lookup_mergePersistBlockStage hdata hempty b).trans (if_neg hb)
  | binaryBytea => exact (lookup_persistDirect hdata hused b).trans (if_neg hb)
  | legacyHex => exact (lookup_persistDirect hdata hused b).trans (if_neg hb)

lemma cellOf_keep (wanted : Nat → Bool) (i : Nat) :
    cellOf bs (blocks.keep fun b _ => wanted b).lookup i =
      if wanted (i / bs) = true then cellOf bs blocks.lookup i else 0 := by
  rw [cellOf, cellOf, Table.lookup_keep]
  cases blocks.lookup (i / bs) with
  | none => simp
  | some data =>
    rw [Option.filter_some]
    split <;> simp

lemma cellOf_deleteTail (truncatePending : Bool) (total i : Nat) :
    cellOf bs (deleteTail truncatePending total blocks).lookup i =
      if truncatePending = true ∧ total ≤ i / bs then 0 else cellOf bs blocks.lookup i := by
  rw [deleteTail]
  cases truncatePending with
  | false => simp
  | true =>
    rw [if_pos rfl, cellOf_keep fun b => decide (b < total), ← ite_not]
    exact if_congr (by simp) rfl rfl

lemma mem_of_coverFullFile {fileSize b : Nat} (h : persistBlocksCoverFullFile fileSize bs rows = true)
    (hb : b < blockCountForLength fileSize bs) : b ∈ rows.map PersistBlockRow.blockIndex := by
  simp only [persistBlocksCoverFullFile, Bool.and_eq_true, beq_iff_eq, List.all_eq_true] at h
  obtain ⟨⟨_, hlength⟩, hall⟩ := h
  have hlt : b < rows.length := by omega
  have hentry := hall (rows[b], b) (by
    rw [List.mem_zipIdx_iff_getElem?]
    exact List.getElem?_eq_getElem hlt)
  exact List.mem_map.mpr ⟨rows[b], List.getElem_mem hlt, hentry.1⟩

lemma persistFileBlocks_written (h : db.Wf) (hrow : db.files.lookup f = some row)
    (transport : PersistBlockTransport) (deferred truncatePending : Bool) (size total : Nat) :
    Written db (db.persistFileBlocks transport deferred f size bs total truncatePending rows) f size
      ((db.persistFileBlocks transport deferred f size bs total truncatePending rows).find f) := by
  obtain ⟨db', target, blocks, htarget, hprepared, -, -⟩ :=
    dataObjectWriteTarget_prepared h hrow size (persistBlocksCoverFullFile size bs rows)
  simp only [persistFileBlocks, htarget]
  have hwritten := (hprepared.update fun blocks =>
    persistRows transport bs target.payloadRowsEmpty rows
      (deleteTail (truncatePending && !target.payloadRowsEmpty) total blocks)).finish deferred size
  exact ⟨hwritten.wf, hwritten.size, fun _ => rfl, hwritten.others⟩

lemma find_persistFileBlocks (hrow : db.files.lookup f = some row)
    (hobject : db.objects.lookup row.dataObject = some object) (hne : row.dataObject ≠ db.nextObject)
    (bs : Nat) (rows : List PersistBlockRow) (transport : PersistBlockTransport)
    (deferred truncatePending : Bool) (size total : Nat) :
    ∃ blocks empty,
      (db.persistFileBlocks transport deferred f size bs total truncatePending rows).find f =
        (persistRows transport bs empty rows (deleteTail (truncatePending && !empty) total
          blocks)).lookup ∧
      (∀ b, blocks.lookup b =
        if persistBlocksCoverFullFile size bs rows = true then none else db.find f b) ∧
      (empty = true → ∀ b, blocks.lookup b = none) := by
  obtain ⟨db', target, htarget, hready, hpayload⟩ := dataObjectWriteTarget_ready hrow hobject hne size
    (persistBlocksCoverFullFile size bs rows)
  simp only [persistFileBlocks, htarget]
  generalize persistBlocksCoverFullFile size bs rows = cover at *
  refine ⟨if cover = true then ∅ else object.blocks, target.payloadRowsEmpty, ?_, ?_, ?_⟩
  · funext b
    exact ((hready.update fun blocks => persistRows transport bs target.payloadRowsEmpty rows
      (deleteTail (truncatePending && !target.payloadRowsEmpty) total blocks)).find_finish deferred f
        size).2 b
  · intro b
    split
    next => rfl
    next =>
      rw [find_of_lookup hrow, hobject]
      rfl
  · intro hnone b
    rw [hpayload] at hnone
    split
    next => rfl
    next hwhole =>
      rw [(Bool.eq_false_iff).mpr hwhole, Bool.false_or] at hnone
      rw [AList.lookup_eq_none, AList.mem_keys, List.isEmpty_iff.mp hnone]
      exact List.not_mem_nil

lemma lookup_deleteTail_of_empty {empty truncatePending : Bool} {total : Nat}
    (h : empty = true → ∀ b, blocks.lookup b = none) (hempty : empty = true) (b : Nat) :
    (deleteTail (truncatePending && !empty) total blocks).lookup b = none := by
  rw [hempty, Bool.not_true, Bool.and_false, deleteTail]
  exact h hempty b

lemma cell_persistFileBlocks (hrow : db.files.lookup f = some row)
    (hobject : db.objects.lookup row.dataObject = some object) (hne : row.dataObject ≠ db.nextObject)
    (hbs : 0 < bs) (used : Nat → Nat)
    (hdata : ∀ r ∈ rows, r.data = data r.blockIndex)
    (hused : ∀ r ∈ rows, r.usedLen = used r.blockIndex) (deferred truncatePending : Bool)
    (size total i : Nat) :
    (db.persistFileBlocks transport deferred f size bs total truncatePending rows).cell bs f i =
      if i / bs ∈ rows.map PersistBlockRow.blockIndex then
        ZeroPadded.cell (kept transport bs used data (i / bs)) (i % bs)
      else if (truncatePending = true ∧ total ≤ i / bs) ∨
        persistBlocksCoverFullFile size bs rows = true then 0
      else db.cell bs f i := by
  obtain ⟨blocks, empty, hfind, hblocks, hempty⟩ := find_persistFileBlocks hrow hobject hne bs rows
    transport deferred truncatePending size total
  have hcells : cellOf bs blocks.lookup i =
      if persistBlocksCoverFullFile size bs rows = true then 0 else db.cell bs f i := by
    rw [cellOf, hblocks]
    split
    next => rfl
    next => rfl
  rw [Db.cell, hfind, cell_persistRows hbs hdata hused (lookup_deleteTail_of_empty hempty),
    cellOf_deleteTail, hcells]
  split
  next => rfl
  next =>
    by_cases hnone : empty = true
    · have hzero : cellOf bs blocks.lookup i = 0 := cellOf_eq_zero (hempty hnone _)
      rw [hcells] at hzero
      simp only [hnone, Bool.not_true, Bool.and_false, Bool.false_eq_true, false_and, if_false, hzero]
      split
      next => rfl
      next hcover =>
        rw [if_neg fun hc => hcover (.inr hc)] at hzero
        exact hzero.symm
    · simp only [Bool.not_eq_true] at hnone
      simp only [hnone, Bool.not_false, Bool.and_true]
      by_cases htrunc : truncatePending = true ∧ total ≤ i / bs
      · rw [if_pos htrunc, if_pos (.inl htrunc)]
      · rw [if_neg htrunc]
        exact if_congr (by simp [htrunc]) rfl rfl

lemma find_persistFileBlocks_eq_none (hrow : db.files.lookup f = some row)
    (hobject : db.objects.lookup row.dataObject = some object) (hne : row.dataObject ≠ db.nextObject)
    (used : Nat → Nat) (hdata : ∀ r ∈ rows, r.data = data r.blockIndex)
    (hused : ∀ r ∈ rows, r.usedLen = used r.blockIndex) (deferred truncatePending : Bool)
    (size total : Nat) {b : Nat} (hb : b ∉ rows.map PersistBlockRow.blockIndex)
    (hnone : (truncatePending = true ∧ total ≤ b) ∨ db.find f b = none) :
    (db.persistFileBlocks transport deferred f size bs total truncatePending rows).find f b = none := by
  obtain ⟨blocks, empty, hfind, hblocks, hempty⟩ := find_persistFileBlocks hrow hobject hne bs rows
    transport deferred truncatePending size total
  refine (congrFun hfind b).trans ((lookup_persistRows_of_not_mem hdata hused
    (lookup_deleteTail_of_empty hempty) hb).trans ?_)
  by_cases hnoRows : empty = true
  · exact lookup_deleteTail_of_empty hempty hnoRows b
  rw [Bool.eq_false_iff.mpr hnoRows, Bool.not_false, Bool.and_true, deleteTail]
  rcases hnone with ⟨htrunc, htotal⟩ | hold
  · rw [if_pos htrunc, Table.lookup_keep_key fun b => decide (b < total),
      if_neg (by simpa using htotal)]
  · have hgone : blocks.lookup b = none := by rw [hblocks, hold, ite_self]
    split
    · rw [Table.lookup_keep_key fun b => decide (b < total), hgone, ite_self]
    · exact hgone

end

/-! ## Holes -/

section

variable {blocks : Table Nat Bytes}

private lemma cellOf_put (b i : Nat) (data : Bytes) :
    cellOf bs (if data.all (· == 0) then blocks.erase b else blocks.insert b data).lookup i =
      if i / bs = b then ZeroPadded.cell data (i % bs) else cellOf bs blocks.lookup i := by
  rw [cellOf, cellOf]
  split
  next hzero =>
    rw [Table.lookup_erase_eq_ite]
    split
    next => rw [Option.getD_none, cell_nil, cell_eq_zero_of_all hzero]
    next => rfl
  next =>
    rw [Table.lookup_insert_eq_ite]
    split
    next => rfl
    next => rfl

lemma cellOf_zeroPartialBlock (b sliceStart sliceEnd i : Nat) :
    cellOf bs (zeroPartialBlock b sliceStart sliceEnd blocks).lookup i =
      if i / bs = b ∧ sliceStart ≤ i % bs ∧ i % bs < sliceEnd then 0
      else cellOf bs blocks.lookup i := by
  rw [zeroPartialBlock]
  split
  next hempty => rw [if_neg (by omega)]
  next hrange =>
    split
    next hnone =>
      split
      next hin => rw [cellOf_eq_zero (by rw [hin.1, hnone])]
      next => rfl
    next data hdata =>
      -- the data after the update, cell by cell
      have hupdated : ∀ j, ZeroPadded.cell
          (if sliceStart < data.length then zero data sliceStart sliceEnd else data) j =
            if sliceStart ≤ j ∧ j < sliceEnd then 0 else ZeroPadded.cell data j := by
        intro j
        split
        next hlong =>
          have hzero := Holds.self (l := data) |>.zero (a := sliceStart)
            (Nat.min_le_right sliceEnd data.length)
          have hcut : zero data sliceStart (min sliceEnd data.length) =
              zero data sliceStart sliceEnd := by simp [zero]
          rw [hcut] at hzero
          rw [hzero.cells]
          by_cases hj : j < data.length
          · exact if_congr (by omega) rfl rfl
          · simp [cell_of_length_le (Nat.le_of_not_lt hj)]
        next hshort =>
          split
          next hin => exact cell_of_length_le (by omega)
          next => rfl
      dsimp only
      rw [cellOf_put, hupdated]
      by_cases hb : i / bs = b
      · rw [if_pos hb, cellOf, hb, hdata, Option.getD_some]
        exact if_congr (by simp) rfl rfl
      · rw [if_neg hb, if_neg (by simp [hb])]

private lemma cellOf_erase (b i : Nat) :
    cellOf bs (blocks.erase b).lookup i = if i / bs = b then 0 else cellOf bs blocks.lookup i := by
  rw [cellOf, Table.lookup_erase_eq_ite, cellOf]
  split
  next => rw [Option.getD_none, cell_nil]
  next => rfl

lemma mod_pred_cases (hbs : 0 < bs) {e : Nat} (he : 0 < e) :
    (e % bs = 0 ∧ (e - 1) % bs + 1 = bs) ∨ e % bs = (e - 1) % bs + 1 := by
  have hdiv := Nat.div_add_mod (e - 1) bs
  have hlt := Nat.mod_lt (e - 1) hbs
  have hsucc : e = bs * ((e - 1) / bs) + ((e - 1) % bs + 1) := by omega
  have hmod : e % bs = ((e - 1) % bs + 1) % bs := by
    nth_rewrite 1 [hsucc]
    rw [Nat.mul_add_mod]
  rcases Nat.lt_or_ge ((e - 1) % bs + 1) bs with hin | hfull
  · exact .inr (by rw [hmod, Nat.mod_eq_of_lt hin])
  · have hend : (e - 1) % bs + 1 = bs := by omega
    exact .inl ⟨by rw [hmod, hend, Nat.mod_self], hend⟩

lemma cellOf_punchBlocks (hbs : 0 < bs) {offset punchEnd : Nat} (hrange : offset < punchEnd)
    (i : Nat) :
    cellOf bs (punchBlocks bs offset punchEnd blocks).lookup i =
      if offset ≤ i ∧ i < punchEnd then 0 else cellOf bs blocks.lookup i := by
  have hmod := Nat.mod_lt i hbs
  have hend := mod_pred_cases hbs (Nat.zero_lt_of_lt hrange)
  have hlow : offset ≤ i ↔ offset / bs < i / bs ∨ (offset / bs = i / bs ∧ offset % bs ≤ i % bs) := by
    rw [← Nat.not_lt, lt_iff_block bs i offset]
    omega
  have hhigh : i < punchEnd ↔ i / bs < (punchEnd - 1) / bs ∨
      (i / bs = (punchEnd - 1) / bs ∧ i % bs < (punchEnd - 1) % bs + 1) := by
    have hpred : i < punchEnd ↔ ¬ punchEnd - 1 < i := by omega
    rw [hpred, lt_iff_block bs (punchEnd - 1) i]
    omega
  have horder : offset / bs ≤ (punchEnd - 1) / bs := Nat.div_le_div_right (by omega)
  rw [if_congr (and_congr hlow hhigh) rfl rfl, punchBlocks]
  generalize offset / bs = first, offset % bs = start, (punchEnd - 1) / bs = last,
    punchEnd % bs = fin, (punchEnd - 1) % bs = lastByte at *
  dsimp only
  split
  next hsame =>
    have hslice : (if fin = 0 then bs else fin) = lastByte + 1 := by
      split <;> omega
    rw [hslice]
    split
    next hfull =>
      rw [cellOf_erase]
      exact if_congr (by omega) rfl rfl
    next =>
      rw [cellOf_zeroPartialBlock]
      exact if_congr (by omega) rfl rfl
  next hdiff =>
    have hkeep := fun low high : Nat =>
      @cellOf_keep bs blocks (fun b => !(decide (low ≤ b) && decide (b < high))) i
    simp only [Bool.not_eq_true', Bool.and_eq_false_iff, decide_eq_false_iff_not] at hkeep
    by_cases hstart : start = 0 <;> by_cases hfin : fin = 0
    all_goals
      simp only [hstart, hfin, if_true, if_false, ne_eq, not_true, not_false_eq_true,
        cellOf_zeroPartialBlock, hkeep]
      split_ifs <;> first | rfl | (exfalso; omega)

end

lemma Written.refl (h : db.Wf) (hrow : db.files.lookup f = some row) :
    Written db db f row.size (db.find f) :=
  ⟨h, by rw [fileSize, hrow, Option.map_some], fun _ => rfl, .refl⟩

lemma punchHoleKeepSize_blocks (h : db.Wf) (hrow : db.files.lookup f = some row) (deferred : Bool)
    (bs : Nat) {offset : Nat} (hinside : offset < row.size) (length : Nat) :
    ∃ blocks : Table Nat Bytes, (∀ b, blocks.lookup b = db.find f b) ∧
      Written db (db.punchHoleKeepSize deferred f bs offset length) f row.size
        (punchBlocks bs offset (min (offset + length) row.size) blocks).lookup := by
  have hsize : db.fileSize f = some row.size := by rw [fileSize, hrow, Option.map_some]
  obtain ⟨db', target, blocks, htarget, hprepared, hblocks, _⟩ :=
    dataObjectWriteTarget_prepared h hrow row.size false
  simp only [punchHoleKeepSize, hsize, if_neg (Nat.not_le.mpr hinside), htarget]
  refine ⟨blocks, fun b => ?_, (hprepared.update fun blocks =>
    punchBlocks bs offset (min (offset + length) row.size) blocks).finish deferred row.size⟩
  rw [hblocks]
  rfl

lemma punchHoleKeepSize_written (h : db.Wf) (hrow : db.files.lookup f = some row) (hbs : 0 < bs)
    (deferred : Bool) (offset : Nat) {length : Nat} (hlength : 0 < length) :
    ∃ find, Written db (db.punchHoleKeepSize deferred f bs offset length) f row.size find ∧
      ∀ i, cellOf bs find i =
        if offset ≤ i ∧ i < min (offset + length) row.size then 0 else db.cell bs f i := by
  by_cases hbeyond : row.size ≤ offset
  · have hsize : db.fileSize f = some row.size := by rw [fileSize, hrow, Option.map_some]
    simp only [punchHoleKeepSize, hsize, if_pos hbeyond]
    refine ⟨db.find f, .refl h hrow, fun i => ?_⟩
    rw [if_neg (by omega), Db.cell]
  · obtain ⟨blocks, hblocks, hwritten⟩ :=
      punchHoleKeepSize_blocks h hrow deferred bs (Nat.not_le.mp hbeyond) length
    refine ⟨_, hwritten, fun i => ?_⟩
    have hcell : cellOf bs blocks.lookup i = db.cell bs f i := by rw [cellOf, hblocks, Db.cell, cellOf]
    rw [cellOf_punchBlocks hbs (by omega), hcell]

end Db

end Fod.Data
