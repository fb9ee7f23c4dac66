import Fod.Data.ByteOverlay
import Fod.Data.Requests

/-!
# Flushed files

A flush stores what the write state shows.  A truncation first cuts the block at the
new end of the file, so that nothing of the old bytes is left behind it, and the
file stays zero beyond its end for the next extension.
-/

namespace Fod.Data

open ZeroPadded BlockMap

namespace State

variable {cfg : Config} {s : State} {w : WriteState}

def persistRowsOf (cfg : Config) (w : WriteState) : List PersistBlockRow :=
  preparePersistRows w (persistBlockPlan w.fileSize cfg.blockSize w.truncatePending w.blocks.keys)

lemma mem_persistRowsOf {r : PersistBlockRow} (h : r ∈ persistRowsOf cfg w) :
    r.blockIndex < blockCountForLength w.fileSize cfg.blockSize ∧
      w.blocks.lookup r.blockIndex = some r.data ∧
      r.usedLen = dirtyBlockSize w.fileSize r.blockIndex cfg.blockSize := by
  obtain ⟨entry, hentry, hrow⟩ := List.mem_filterMap.mp h
  obtain ⟨-, hlt, hused⟩ := (mem_persistBlockPlan cfg.blockSize_pos).mp hentry
  split at hrow
  · cases hrow
  · obtain ⟨block, hblock, rfl⟩ := Option.map_eq_some_iff.mp hrow
    exact ⟨hlt, hblock, hused⟩

lemma mem_map_persistRowsOf {b : Nat} : b ∈ (persistRowsOf cfg w).map PersistBlockRow.blockIndex ↔
      b < blockCountForLength w.fileSize cfg.blockSize ∧ ∃ block, w.blocks.lookup b = some block := by
  have hbs := cfg.blockSize_pos
  constructor
  · intro h
    obtain ⟨r, hr, rfl⟩ := List.mem_map.mp h
    obtain ⟨hlt, hblock, -⟩ := mem_persistRowsOf hr
    exact ⟨hlt, _, hblock⟩
  · rintro ⟨hlt, block, hblock⟩
    refine List.mem_map.mpr ⟨⟨b, block, dirtyBlockSize w.fileSize b cfg.blockSize⟩, ?_, rfl⟩
    refine List.mem_filterMap.mpr ⟨⟨b, dirtyBlockSize w.fileSize b cfg.blockSize⟩, ?_, ?_⟩
    · have hkey : b ∈ w.blocks.keys := AList.mem_keys.mp (AList.lookup_isSome.mp (by simp [hblock]))
      exact (mem_persistBlockPlan hbs).mpr ⟨hkey, hlt, rfl⟩
    · rw [if_neg ((dirtyBlockSize_ne_zero hbs).mpr hlt), hblock, Option.map_some]

lemma recent_storeRecentWriteBlocks {f g b size : Nat} {trunc : Bool} {blocks : Table Nat Bytes}
    {block : Bytes} (h : (s.storeRecentWriteBlocks cfg f size trunc blocks).recentWriteBlocks.lookup
      (g, b) = some block) :
    (g = f ∧ b < blockCountForLength size cfg.blockSize ∧ blocks.lookup b = some block) ∨
      (s.recentWriteBlocks.lookup (g, b) = some block ∧
        (g = f → b < blockCountForLength size cfg.blockSize → blocks.lookup b = none) ∧
        (g = f → trunc = true → b < blockCountForLength size cfg.blockSize)) := by
  generalize htotal : blockCountForLength size cfg.blockSize = total at *
  simp only [storeRecentWriteBlocks, htotal, evictOverLimit] at h
  have hstored := Table.lookup_of_foldl_erase _ h
  rw [Table.lookup_foldl _ (fun row : (_ : Nat) × Bytes => (f, row.1))
    (fun key x => if key.2 < total then blocks.lookup key.2 else x)] at hstored
  · have hkept : (if (trunc || total == 0) = true then
        s.recentWriteBlocks.keep fun key _ => key.1 != f || decide (key.2 < total)
        else s.recentWriteBlocks).lookup (g, b) = some block →
        s.recentWriteBlocks.lookup (g, b) = some block ∧ (g = f → trunc = true → b < total) := by
      intro hlookup
      split at hlookup
      · rw [Table.lookup_keep, Option.filter_eq_some_iff] at hlookup
        obtain ⟨hold, hwanted⟩ := hlookup
        refine ⟨hold, fun hg _ => ?_⟩
        simpa [hg] using hwanted
      · rename_i htrunc
        exact ⟨hlookup, fun _ ht => absurd (by simp [ht]) htrunc⟩
    by_cases hmem : (g, b) ∈ blocks.entries.map fun row => (f, row.1)
    · obtain ⟨row, hrow, heq⟩ := List.mem_map.mp hmem
      obtain ⟨rfl, rfl⟩ := Prod.mk.inj heq
      rw [if_pos hmem] at hstored
      by_cases hb : row.1 < total
      · rw [if_pos hb] at hstored
        exact .inl ⟨rfl, hb, hstored⟩
      · rw [if_neg hb] at hstored
        obtain ⟨hold, hinside⟩ := hkept hstored
        exact .inr ⟨hold, fun _ hlt => absurd hlt hb, hinside⟩
    · rw [if_neg hmem] at hstored
      obtain ⟨hold, hinside⟩ := hkept hstored
      refine .inr ⟨hold, fun hg _ => ?_, hinside⟩
      rw [Option.eq_none_iff_forall_ne_some]
      intro data hdata
      exact hmem (List.mem_map.mpr ⟨⟨b, data⟩, Table.lookup_eq_some.mp hdata, by rw [hg]⟩)
  · intro key x
    split <;> rfl
  · rintro ⟨b', data⟩ hrow table key
    have hlookup : blocks.lookup b' = some data := Table.lookup_eq_some.mpr hrow
    dsimp only
    split
    next hb =>
      rw [Table.lookup_insert_eq_ite]
      split
      next hkey => rw [hkey, if_pos hb, hlookup]
      next => rfl
    next hb =>
      split
      next hkey => rw [hkey, if_neg hb]
      next => rfl

lemma shown_resizeExistingBlockForTruncate {b len i : Nat} (hlen : 0 < len) (hle : len ≤ cfg.blockSize) :
    shown cfg s (s.resizeExistingBlockForTruncate cfg w b len) i =
      if i / cfg.blockSize = b ∧ len ≤ i % cfg.blockSize then 0 else shown cfg s w i := by
  rw [resizeExistingBlockForTruncate, if_neg (by omega), loadExistingTruncateBoundaryBlock_eq]
  cases hblock : s.overlayBlock cfg w b with
  | none =>
    dsimp only
    split
    next hin => exact shown_of_overlayBlock (hin.1 ▸ hblock)
    next => rfl
  | some block =>
    dsimp only
    rw [shown_setBlock, cell_fit]
    split
    next hb =>
      have hcell : shown cfg s w i = cell block (i % cfg.blockSize) := by
        rw [shown, cellOf, hb, hblock, Option.getD_some]
      rw [hcell, ← ite_not]
      exact if_congr (by simp [hb]) rfl rfl
    next hb => rw [if_neg fun hin => hb hin.1]

lemma shown_trimExistingBlockAtEof {size i : Nat}
    (hi : i / cfg.blockSize < blockCountForLength size cfg.blockSize) :
    shown cfg s (s.trimExistingBlockAtEof cfg w size) i =
      if i < size then shown cfg s w i else 0 := by
  have hbs := cfg.blockSize_pos
  have hbelow := (lt_blockCountForLength hbs).mp hi
  have hsize := Nat.div_add_mod size cfg.blockSize
  rw [Nat.mul_comm] at hsize
  have horder := lt_iff_block cfg.blockSize i size
  rw [trimExistingBlockAtEof]
  split
  next hwhole =>
    have hlt : i / cfg.blockSize < size / cfg.blockSize :=
      Nat.lt_of_mul_lt_mul_right (a := cfg.blockSize) (by omega)
    rw [if_pos (horder.mpr (.inl hlt))]
  next hpart =>
    have hmod := Nat.mod_lt size hbs
    have hle : i / cfg.blockSize < size / cfg.blockSize + 1 := by
      apply Nat.lt_of_mul_lt_mul_right (a := cfg.blockSize)
      rw [Nat.succ_mul]
      omega
    rw [shown_resizeExistingBlockForTruncate (by omega) (Nat.le_of_lt hmod), ← ite_not]
    refine if_congr ?_ rfl rfl
    rw [horder]
    omega

lemma shown_zeroExtendExistingBlockFromEof {b used len i : Nat} (hused : used ≤ len)
    (hzero : i / cfg.blockSize = b → used ≤ i % cfg.blockSize → shown cfg s w i = 0) :
    shown cfg s (s.zeroExtendExistingBlockFromEof cfg w b used len) i = shown cfg s w i := by
  rw [zeroExtendExistingBlockFromEof]
  split
  · rfl
  rw [loadExistingTruncateBoundaryBlock_eq]
  cases hblock : s.overlayBlock cfg w b with
  | none => rfl
  | some block =>
    dsimp only
    rw [shown_setBlock]
    split
    next hb =>
      have hcell : shown cfg s w i = cell block (i % cfg.blockSize) := by
        rw [shown, cellOf, hb, hblock, Option.getD_some]
      rw [cell_fit, cell_take]
      by_cases hin : i % cfg.blockSize < used
      · rw [if_pos (by omega), if_pos hin, hcell]
      · rw [if_neg hin, ite_self, hzero hb (by omega)]
    next => rfl

lemma shown_prepareTruncateBoundaryBlocks {old i : Nat} (htrunc : w.truncatePending = true)
    (hzero : ∀ i, old ≤ i → shown cfg s w i = 0)
    (hold : w.bufferedBytes = 0 → w.blocks.keys.isEmpty = true → s.db.fileSize w.file = some old)
    (hi : i / cfg.blockSize < blockCountForLength w.fileSize cfg.blockSize) :
    shown cfg s (s.prepareTruncateBoundaryBlocks cfg w) i =
      if i < w.fileSize then shown cfg s w i else 0 := by
  have hbs := cfg.blockSize_pos
  rw [prepareTruncateBoundaryBlocks, if_neg (by simp [htrunc])]
  split
  next => exact shown_trimExistingBlockAtEof hi
  next hclean =>
    rw [not_or] at hclean
    have hsize := hold (by omega) (by simpa using hclean.2)
    rw [hsize, Option.getD_some]
    dsimp only
    split
    next hgrows =>
      have hsame : ∀ w' : WriteState, shown cfg s w' i = shown cfg s w i →
          shown cfg s w' i = if i < w.fileSize then shown cfg s w i else 0 := by
        intro w' hw'
        split
        next => exact hw'
        next hbeyond => rw [hw', hzero i (by omega)]
      split
      next hpart =>
        have hsplit := Nat.div_add_mod old cfg.blockSize
        rw [Nat.mul_comm] at hsplit
        have hmod := Nat.mod_lt old hbs
        refine hsame _ (shown_zeroExtendExistingBlockFromEof ?_ fun hb hused => hzero i ?_)
        · split <;> omega
        · by_contra hlt
          have horder := (lt_iff_block cfg.blockSize i old).mp (by omega)
          omega
      next => exact hsame w rfl
    next => exact shown_trimExistingBlockAtEof hi

structure Shows (cfg : Config) (s : State) (w : WriteState) (c : Nat → Byte) : Prop where
  wf : s.db.Wf
  row : ∃ size, s.db.fileSize w.file = some size
  cells : ∀ i, i / cfg.blockSize < blockCountForLength w.fileSize cfg.blockSize →
    view cfg.blockSize s w i = c i
  beyond : ∀ i, w.fileSize ≤ i → c i = 0
  tail : w.truncatePending = true ∨
    ∀ b, blockCountForLength w.fileSize cfg.blockSize ≤ b → s.db.find w.file b = none

namespace Shows

variable {c : Nat → Byte}

lemma object (h : Shows cfg s w c) : ∃ row object, s.db.files.lookup w.file = some row ∧
      s.db.objects.lookup row.dataObject = some object ∧ row.dataObject ≠ s.db.nextObject := by
  obtain ⟨size, hsize⟩ := h.row
  obtain ⟨row, hrow, -⟩ := Option.map_eq_some_iff.mp hsize
  obtain ⟨object, hobject⟩ := h.wf.stored hrow
  exact ⟨row, object, hrow, hobject, Nat.ne_of_lt (h.wf.dataObject_lt hrow)⟩

def dirtyData (w : WriteState) (b : Nat) : Bytes := (w.blocks.lookup b).getD []

lemma row_data {r : PersistBlockRow} (hr : r ∈ persistRowsOf cfg w) :
    r.data = dirtyData w r.blockIndex := by
  rw [dirtyData, (mem_persistRowsOf hr).2.1, Option.getD_some]

lemma persist_cell (h : Shows cfg s w c) (hstaging : cfg.transport = .copyBinaryStaging) (i : Nat) :
    (s.persist cfg w).cell cfg.blockSize w.file i = c i := by
  have hbs := cfg.blockSize_pos
  obtain ⟨row, object, hrow, hobject, hne⟩ := h.object
  have hcell : (s.persist cfg w).cell cfg.blockSize w.file i =
      if i / cfg.blockSize ∈ (persistRowsOf cfg w).map PersistBlockRow.blockIndex then
        cell (Db.kept cfg.transport cfg.blockSize
          (fun b => dirtyBlockSize w.fileSize b cfg.blockSize) (dirtyData w) (i / cfg.blockSize))
          (i % cfg.blockSize)
      else if (w.truncatePending = true ∧
          blockCountForLength w.fileSize cfg.blockSize ≤ i / cfg.blockSize) ∨
        Db.persistBlocksCoverFullFile w.fileSize cfg.blockSize (persistRowsOf cfg w) = true then 0
      else s.db.cell cfg.blockSize w.file i :=
    Db.cell_persistFileBlocks hrow hobject hne hbs _ (fun r hr => row_data hr)
      (fun r hr => (mem_persistRowsOf hr).2.2) _ _ _ _ i
  rw [hcell]
  by_cases hinside : i / cfg.blockSize < blockCountForLength w.fileSize cfg.blockSize
  · rw [← h.cells i hinside]
    split
    next hmem =>
      obtain ⟨-, block, hblock⟩ := mem_map_persistRowsOf.mp hmem
      rw [view_of_dirty hblock, Db.kept, if_pos (.inl hstaging), dirtyData, hblock, Option.getD_some]
    next hmem =>
      have hclean : w.blocks.lookup (i / cfg.blockSize) = none := by
        rw [Option.eq_none_iff_forall_ne_some]
        intro block hblock
        exact hmem (mem_map_persistRowsOf.mpr ⟨hinside, block, hblock⟩)
      rw [view_of_clean hclean, if_neg]
      rintro (⟨_, htotal⟩ | hcover)
      · omega
      · exact hmem (Db.mem_of_coverFullFile hcover hinside)
  · rw [h.beyond i (le_of_blockCountForLength_le hbs (Nat.le_of_not_lt hinside)),
      if_neg fun hmem => hinside (mem_map_persistRowsOf.mp hmem).1]
    split
    next => rfl
    next hkept =>
      rcases h.tail with htrunc | hnone
      · exact absurd (.inl ⟨htrunc, Nat.le_of_not_lt hinside⟩) hkept
      · exact cellOf_eq_zero (hnone _ (Nat.le_of_not_lt hinside))

lemma persist_tail (h : Shows cfg s w c) {b : Nat}
    (hb : blockCountForLength w.fileSize cfg.blockSize ≤ b) :
    (s.persist cfg w).find w.file b = none := by
  obtain ⟨row, object, hrow, hobject, hne⟩ := h.object
  refine Db.find_persistFileBlocks_eq_none hrow hobject hne
    (fun b => dirtyBlockSize w.fileSize b cfg.blockSize) (fun r hr => row_data hr)
    (fun r hr => (mem_persistRowsOf hr).2.2) _ _ _ _ ?_ ?_
  · intro hmem
    have hlt := (mem_map_persistRowsOf.mp hmem).1
    omega
  · exact h.tail.imp (fun htrunc => ⟨htrunc, hb⟩) fun hnone => hnone b hb

end Shows

lemma persist_written (cfg : Config) (h : s.db.Wf) {size : Nat}
    (hsize : s.db.fileSize w.file = some size) :
    Db.Written s.db (s.persist cfg w) w.file w.fileSize ((s.persist cfg w).find w.file) := by
  obtain ⟨row, hrow, -⟩ := Option.map_eq_some_iff.mp hsize
  exact Db.persistFileBlocks_written h hrow _ _ _ _ _

lemma trimExistingBlockAtEof_same (s : State) (w : WriteState) (eof : Nat) :
    SameButBlocks w (s.trimExistingBlockAtEof cfg w eof) := by
  unfold trimExistingBlockAtEof resizeExistingBlockForTruncate
  split_ifs
  · exact .refl w
  · exact .refl w
  · split
    · exact .refl w
    · exact (SameButBlocks.refl _).of_setBlock

lemma zeroExtendExistingBlockFromEof_same (s : State) (w : WriteState) (b used len : Nat) :
    SameButBlocks w (s.zeroExtendExistingBlockFromEof cfg w b used len) := by
  unfold zeroExtendExistingBlockFromEof
  split_ifs
  · exact .refl w
  · split
    · exact .refl w
    · exact (SameButBlocks.refl _).of_setBlock

lemma prepareTruncateBoundaryBlocks_same (cfg : Config) (s : State) (w : WriteState) :
    SameButBlocks w (s.prepareTruncateBoundaryBlocks cfg w) := by
  unfold prepareTruncateBoundaryBlocks
  dsimp only
  split
  · exact .refl w
  split
  · exact trimExistingBlockAtEof_same s w _
  split
  · split
    · exact zeroExtendExistingBlockFromEof_same s w _ _ _
    · exact .refl w
  · exact trimExistingBlockAtEof_same s w _

end State

structure Session where
  state : State
  buffer : WriteState
  reference : Bytes

/-- What goes through the handle.  A truncation is flushed by the request itself. -/
inductive Change where
  | write (offset : Nat) (data : Bytes)
  | truncate (size : Nat)
  | flush

def Change.Flushes : Change → Prop
  | .write _ _ => False
  | .truncate _ => True
  | .flush => True

namespace Session

open State

variable {cfg : Config} {x : Session} {f : Nat}

def flushed (cfg : Config) (x : Session) (w : WriteState) (reference : Bytes) : Session :=
  let (state, buffer) := x.state.flushWriteState cfg w
  ⟨state, buffer, reference⟩

def apply (cfg : Config) (x : Session) : Change → Session
  | .write offset data =>
    let (state, buffer) := bufferRun cfg (x.state, x.buffer) (offset, data)
    ⟨state, buffer, write x.reference offset data⟩
  | .truncate size =>
    x.flushed cfg { x.buffer with fileSize := size, truncatePending := true }
      (fit x.reference size)
  | .flush => if x.buffer.hasPendingChanges then x.flushed cfg x.buffer x.reference else x

def step (cfg : Config) (x : Session) (change : Change) : Option Session := some (x.apply cfg change)

def opened (cfg : Config) (db : Db) (f size : Nat) : Session :=
  ⟨mounted db, newWriteState f size false, db.readRange cfg.blockSize f 0 size⟩

/-! ## The invariant -/

structure Faithful (cfg : Config) (f : Nat) (x : Session) : Prop where
  wf : x.state.db.Wf
  file : x.buffer.file = f
  quiet : x.buffer.truncatePending = false
  stored : ∃ size, x.state.db.fileSize f = some size ∧ size ≤ x.buffer.fileSize ∧
    (x.buffer.bufferedBytes = 0 → x.buffer.blocks.keys.isEmpty = true → size = x.buffer.fileSize) ∧
    ∀ b, blockCountForLength size cfg.blockSize ≤ b → x.state.db.find f b = none
  recent : ∀ {b block}, x.state.recentWriteBlocks.lookup (f, b) = some block →
    Agrees cfg.blockSize b block (x.state.db.cell cfg.blockSize f)
  holds : Holds x.buffer.fileSize (view cfg.blockSize x.state x.buffer) x.reference

namespace Faithful

section

variable (h : Faithful cfg f x)

include h

lemma shown_eq {w : WriteState} (hw : w.file = f) (i : Nat) :
    shown cfg x.state w i = view cfg.blockSize x.state w i := by
  apply shown_eq_view
  rw [hw]
  exact h.recent

lemma write (offset : Nat) (data : Bytes) : Faithful cfg f (x.apply cfg (.write offset data)) := by
  by_cases hdata : data = []
  · subst hdata
    exact h
  have hsplit : bufferRun cfg (x.state, x.buffer) (offset, data) =
      (x.state.clearReadCacheForFile x.buffer.file,
        { x.state.bufferWrite cfg x.buffer offset data with
          bufferedBytes := (x.state.bufferWrite cfg x.buffer offset data).bufferedBytes + data.length }) := by
    rw [bufferRun, updateWriteBuffer, if_neg (by simpa using hdata)]
  simp only [apply, hsplit]
  have hsame := bufferWrite_same cfg x.state x.buffer offset data
  have hlength : 0 < data.length := List.length_pos_iff.mpr hdata
  obtain ⟨size, hsize, hle, -, htail⟩ := h.stored
  have hfile : (x.state.bufferWrite cfg x.buffer offset data).file = f := hsame.file.trans h.file
  have hfileSize : (x.state.bufferWrite cfg x.buffer offset data).fileSize =
      max x.buffer.fileSize (offset + data.length) := hsame.fileSize
  refine ⟨h.wf, hfile, hsame.truncatePending.trans h.quiet, ⟨size, hsize, ?_, ?_, htail⟩, h.recent, ?_⟩
  · change size ≤ (x.state.bufferWrite cfg x.buffer offset data).fileSize
    omega
  · intro hnone
    change (x.state.bufferWrite cfg x.buffer offset data).bufferedBytes + data.length = 0 at hnone
    omega
  · change Holds (x.state.bufferWrite cfg x.buffer offset data).fileSize
      (view cfg.blockSize x.state (x.state.bufferWrite cfg x.buffer offset data)) _
    rw [hfileSize]
    refine (h.holds.write hdata).congr fun i => ?_
    rw [← h.shown_eq hfile, ← h.shown_eq h.file]
    refine shown_bufferWrite hdata i fun hbeyond _ => ?_
    rw [h.shown_eq h.file]
    exact h.holds.zero_beyond hbeyond

lemma flushed (hstaging : cfg.transport = .copyBinaryStaging) {w : WriteState}
    {c : Nat → Byte} {reference : Bytes} (hfile : w.file = f)
    (hshows : Shows cfg x.state (x.state.prepareTruncateBoundaryBlocks cfg w) c)
    (hholds : Holds w.fileSize c reference) : Faithful cfg f (x.flushed cfg w reference) := by
  obtain ⟨hsameFile, hsameSize, hsameTrunc, -⟩ := prepareTruncateBoundaryBlocks_same cfg x.state w
  have hbs := cfg.blockSize_pos
  have hcell := hshows.persist_cell hstaging
  have htail := fun {b} => hshows.persist_tail (b := b)
  generalize hprepared : x.state.prepareTruncateBoundaryBlocks cfg w = w' at *
  rw [hfile] at hsameFile
  rw [hsameFile] at hcell htail
  rw [hsameSize] at htail
  have hwritten := persist_written cfg hshows.wf hshows.row.choose_spec
  rw [hsameFile, hsameSize] at hwritten
  simp only [Session.flushed, flushWriteState, hprepared]
  refine ⟨hwritten.wf, hsameFile, rfl, ⟨w.fileSize, hwritten.size, le_of_eq hsameSize.symm,
    fun _ _ => hsameSize.symm, fun b hb => htail hb⟩, ?_, ?_⟩
  · intro b block hblock
    refine .of_cell fun i hi => (?_ : _ = (x.state.persist cfg w').cell cfg.blockSize f i)
    rw [hcell]
    rcases recent_storeRecentWriteBlocks hblock with ⟨-, hb, hdirty⟩ | ⟨hold, hreplaced, hdropped⟩
    · rw [← hshows.cells i (hi ▸ hb), view_of_dirty (hi ▸ hdirty)]
    · have holdCell := (h.recent hold).cell hbs hi
      by_cases hb : b < blockCountForLength w'.fileSize cfg.blockSize
      · rw [holdCell, ← hshows.cells i (hi ▸ hb), view_of_clean (hi ▸ hreplaced hsameFile.symm hb), hsameFile]
      · have hnone := hshows.tail.resolve_left fun htrunc => hb (hdropped hsameFile.symm htrunc)
        rw [holdCell, hshows.beyond i (le_of_blockCountForLength_le hbs (by omega)), ← hsameFile]
        exact cellOf_eq_zero (hnone _ (by omega))
  · refine ⟨hholds.length.trans hsameSize.symm, fun i => ?_⟩
    rw [hholds.cells, ← hcell, ← hsameFile]
    refine Eq.trans ?_ (view_of_clean ?_).symm <;> rfl

lemma truncate (hstaging : cfg.transport = .copyBinaryStaging) (size : Nat) :
    Faithful cfg f (x.apply cfg (.truncate size)) := by
  obtain ⟨old, hold, -, hsettled, -⟩ := h.stored
  generalize hw : ({ x.buffer with fileSize := size, truncatePending := true } : WriteState) = w
  have hfile : w.file = f := by rw [← hw]; exact h.file
  have hview : ∀ i, shown cfg x.state w i = view cfg.blockSize x.state x.buffer i := by
    intro i
    rw [h.shown_eq hfile, ← hw]
    rfl
  obtain ⟨hsameFile, hsameSize, hsameTrunc, -⟩ := prepareTruncateBoundaryBlocks_same cfg x.state w
  have hfileSize : w.fileSize = size := by rw [← hw]
  have htrunc : w.truncatePending = true := by rw [← hw]
  have hfit : Holds w.fileSize (fun i => if i < size then view cfg.blockSize x.state x.buffer i else 0)
      (fit x.reference size) := by
    rw [hfileSize]
    exact h.holds.fit size
  simp only [apply, hw]
  refine h.flushed hstaging hfile ⟨h.wf, ⟨old, ?_⟩, ?_, ?_, .inl (hsameTrunc.trans htrunc)⟩ hfit
  · rw [hsameFile, hfile]
    exact hold
  · intro i hi
    rw [hsameSize] at hi
    rw [← h.shown_eq (hsameFile.trans hfile), shown_prepareTruncateBoundaryBlocks htrunc _ _ hi, hview,
      hfileSize]
    · exact x.buffer.fileSize
    · intro i hbeyond
      rw [hview]
      exact h.holds.zero_beyond hbeyond
    · intro hnone hblocks
      rw [← hw] at hnone hblocks
      rw [hfile, hold, hsettled hnone hblocks]
  · intro i hbeyond
    rw [hsameSize, hfileSize] at hbeyond
    exact if_neg (by omega)

lemma flush (hstaging : cfg.transport = .copyBinaryStaging) :
    Faithful cfg f (x.apply cfg .flush) := by
  rw [apply]
  split
  · obtain ⟨old, hold, hle, -, htail⟩ := h.stored
    have hprepared : x.state.prepareTruncateBoundaryBlocks cfg x.buffer = x.buffer := by
      rw [prepareTruncateBoundaryBlocks, if_pos (by simp [h.quiet])]
    refine h.flushed hstaging h.file ?_ h.holds
    rw [hprepared]
    refine ⟨h.wf, ⟨old, h.file ▸ hold⟩, fun i _ => rfl, fun i hi => h.holds.zero_beyond hi, .inr fun b hb => ?_⟩
    rw [h.file]
    exact htail b ((blockCountForLength_mono hle).trans hb)
  · exact h

lemma apply (hstaging : cfg.transport = .copyBinaryStaging) (change : Change) :
    Faithful cfg f (x.apply cfg change) := by
  cases change with
  | write offset data => exact h.write offset data
  | truncate size => exact h.truncate hstaging size
  | flush => exact h.flush hstaging

end

end Faithful

lemma faithful_opened (cfg : Config) {db : Db} {size : Nat} (hwf : db.Wf)
    (hsize : db.fileSize f = some size) (hzero : ∀ i, size ≤ i → db.cell cfg.blockSize f i = 0)
    (hrows : ∀ b, blockCountForLength size cfg.blockSize ≤ b → db.find f b = none) :
    Faithful cfg f (opened cfg db f size) := by
  have hview : ∀ i, view cfg.blockSize (mounted db) (newWriteState f size false) i =
      db.cell cfg.blockSize f i := fun i => view_of_clean rfl
  refine ⟨hwf, rfl, rfl, ⟨size, hsize, le_rfl, fun _ _ => rfl, hrows⟩, fun hblock => ?_, ?_⟩
  · cases hblock
  · refine ⟨Db.length_readRange 0 size, fun i => ?_⟩
    change cell (db.readRange cfg.blockSize f 0 size) i =
      view cfg.blockSize (mounted db) (newWriteState f size false) i
    rw [hview]
    by_cases hi : i < size
    · rw [Db.cell_readRange cfg.blockSize_pos hi, Nat.zero_add]
    · rw [hzero i (by omega), cell_of_length_le]
      rw [Db.length_readRange]
      omega

lemma spells_of_clean (h : Faithful cfg f x) (hnone : x.buffer.bufferedBytes = 0)
    (hblocks : x.buffer.blocks = ∅) : x.state.db.fileSize f = some x.reference.length ∧
      x.state.db.readRange cfg.blockSize f 0 x.reference.length = x.reference ∧
      (∀ i, x.reference.length ≤ i → x.state.db.cell cfg.blockSize f i = 0) ∧
      ∀ b, blockCountForLength x.reference.length cfg.blockSize ≤ b → x.state.db.find f b = none := by
  obtain ⟨size, hsize, -, hsettled, htail⟩ := h.stored
  have hlength : x.reference.length = size :=
    h.holds.length.trans (hsettled hnone (by rw [hblocks]; rfl)).symm
  have hcells : ∀ i, cell x.reference i = x.state.db.cell cfg.blockSize f i := by
    intro i
    rw [h.holds.cells, view_of_clean (by rw [hblocks]; rfl), h.file]
  rw [hlength]
  refine ⟨hsize, ?_, fun i hi => ?_, htail⟩
  · apply ext_cell
    · rw [Db.length_readRange, hlength, Nat.sub_zero]
    · intro i hi
      rw [Db.length_readRange] at hi
      rw [Db.cell_readRange cfg.blockSize_pos hi, Nat.zero_add, hcells]
  · rw [← hcells]
    exact cell_of_length_le (by omega)

lemma clean_of_flushes {change : Change} (hflushes : change.Flushes) :
    (x.apply cfg change).buffer.bufferedBytes = 0 ∧ (x.apply cfg change).buffer.blocks = ∅ := by
  cases change with
  | write offset data => exact hflushes.elim
  | truncate size => exact ⟨rfl, rfl⟩
  | flush =>
    rw [apply]
    split
    · exact ⟨rfl, rfl⟩
    · rename_i hclean
      simp only [WriteState.hasPendingChanges, Bool.not_eq_true, Bool.or_eq_false_iff,
        decide_eq_false_iff_not, Bool.not_eq_false'] at hclean
      refine ⟨by omega, ?_⟩
      apply AList.ext
      exact List.map_eq_nil_iff.mp (List.isEmpty_iff.mp hclean.2)

theorem flushed_file_spells_reference (cfg : Config) (hstaging : cfg.transport = .copyBinaryStaging)
    (db : Db) (f size : Nat) (hwf : db.Wf) (hsize : db.fileSize f = some size)
    (hzero : ∀ i, size ≤ i → db.cell cfg.blockSize f i = 0)
    (hrows : ∀ b, blockCountForLength size cfg.blockSize ≤ b → db.find f b = none)
    (changes : List Change) (last : Change) (hflushes : last.Flushes) (before x : Session)
    (hrun : GuardedRun.run (step cfg) (opened cfg db f size) changes = some before)
    (hlast : step cfg before last = some x) :
    x.state.db.fileSize f = some x.reference.length ∧
      x.state.db.readRange cfg.blockSize f 0 x.reference.length = x.reference ∧
      (∀ i, x.reference.length ≤ i → x.state.db.cell cfg.blockSize f i = 0) ∧
      ∀ b, blockCountForLength x.reference.length cfg.blockSize ≤ b → x.state.db.find f b = none := by
  have hbefore : Faithful cfg f before := by
    refine GuardedRun.run_invariant_of_step ?_ (faithful_opened cfg hwf hsize hzero hrows) hrun
    intro x change x' hx hstep
    cases hstep
    exact hx.apply hstaging change
  cases hlast
  obtain ⟨hnone, hblocks⟩ := clean_of_flushes hflushes
  exact spells_of_clean (hbefore.apply hstaging last) hnone hblocks

lemma wf_oneFile : Db.oneFile.Wf := by
  refine ⟨fun {f row} hrow => ?_, fun {o object} hobject => ?_, fun {o object} hobject => ?_⟩
  · rcases Table.lookup_insert_cases hrow with ⟨-, rfl⟩ | ⟨-, hnone⟩
    · exact ⟨_, rfl⟩
    · cases hnone
  · rcases Table.lookup_insert_cases hobject with ⟨rfl, rfl⟩ | ⟨-, hnone⟩
    · decide
    · cases hnone
  · rcases Table.lookup_insert_cases hobject with ⟨rfl, rfl⟩ | ⟨-, hnone⟩
    · decide
    · cases hnone

lemma find_oneFile {b : Nat} (hb : 1 ≤ b) : Db.oneFile.find 1 b = none := by
  have hblock : (AList.insert 0 [1, 2, 3, 4] ∅ : Table Nat Bytes).lookup b = none := by
    rw [AList.lookup_insert_ne (by omega)]
    rfl
  exact hblock

/-- The file is cut inside its block and extended behind the cut. -/
theorem flushed_file_spells_reference_cutAndExtended :
    ∃ before x, GuardedRun.run (step fourByteBlocks) (opened fourByteBlocks Db.oneFile 1 4)
        [.write 6 [9], .truncate 3, .write 5 [7]] = some before ∧
      step fourByteBlocks before .flush = some x ∧ x.reference = [1, 2, 3, 0, 0, 7] ∧
      x.state.db.readRange 4 1 0 6 = [1, 2, 3, 0, 0, 7] := by
  refine ⟨_, _, rfl, rfl, by decide, ?_⟩
  have h := flushed_file_spells_reference fourByteBlocks rfl Db.oneFile 1 4 wf_oneFile rfl
    (fun i hi => BlockMap.cellOf_eq_zero (find_oneFile ((Nat.one_le_div_iff (by decide)).mpr hi)))
    (fun b hb => find_oneFile hb)
    [.write 6 [9], .truncate 3, .write 5 [7]] .flush trivial _ _ rfl rfl
  exact h.2.1.trans (by decide)

end Session

end Fod.Data
