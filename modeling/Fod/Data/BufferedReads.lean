import Fod.Data.OneWriter

/-!
# Reads from a write buffer

A truncation leaves a recent block that is shorter than a block and ends with the
file.  A write behind that block extends the file and leaves the block as it is, and
then the read of one block takes a slice beyond its end.
-/

namespace Fod.Data

open ZeroPadded

namespace State

variable {cfg : Config} {s s' : State} {f fh : Nat} {w : WriteState}

def FullBlocks (cfg : Config) (w : WriteState) : Prop :=
  ∀ b block, w.blocks.lookup b = some block → cfg.blockSize ≤ block.length

variable {block : Bytes} {data : Bytes}

lemma FullBlocks.setBlock (h : FullBlocks cfg w) {b : Nat}
    (hblock : cfg.blockSize ≤ block.length) : FullBlocks cfg (w.setBlock b block) := by
  exact Table.forall_insert hblock h

section

variable {original offset b : Nat} {data : Bytes}

lemma updateBlocks_full (h : FullBlocks cfg w) (blocks : List Nat) (cursor : Nat) :
    FullBlocks cfg (s.updateBlocks cfg original offset data blocks cursor w) := by
  induction blocks generalizing cursor w with
  | nil => exact h
  | cons b rest ih =>
    rw [updateBlocks]
    split
    · exact ih h _
    · dsimp only
      split
      · exact h
      · refine ih (h.setBlock (le_trans ?_ (le_length_patch _ _ _))) _
        split
        · rw [length_fit]
        · omega

lemma bufferWrite_full (h : FullBlocks cfg w) : FullBlocks cfg (s.bufferWrite cfg w offset data) :=
  updateBlocks_full (w := { w with fileSize := max w.fileSize (offset + data.length) }) h _ _

lemma bufferWrite_buffered (hdata : data ≠ []) {b' : Nat}
    (hb : touches cfg.blockSize offset data.length b' ∨ (w.blocks.lookup b').isSome = true) :
    ((s.bufferWrite cfg w offset data).blocks.lookup b').isSome = true := by
  refine bufferWrite_rule (P := fun c w' => offset / cfg.blockSize ≤ b' ∧ b' < c ∨
    (w.blocks.lookup b').isSome = true → (w'.blocks.lookup b').isSome = true) hdata ?_ ?_ ?_
  · rintro (hrange | hsome)
    · omega
    · exact hsome
  · intro c w' _ _ hw' hbelow
    rw [WriteState.setBlock, Table.lookup_insert_eq_ite]
    split
    · rfl
    · exact hw' (hbelow.imp_left (by omega))
  · exact hb.imp_left fun htouches => ⟨htouches.1, Nat.lt_succ_of_le htouches.2⟩

end

def Reaches (bs size b : Nat) (block : Bytes) : Prop := min bs (size - b * bs) ≤ block.length

instance (bs size b : Nat) (block : Bytes) : Decidable (Reaches bs size b block) :=
  inferInstanceAs (Decidable (min bs (size - b * bs) ≤ block.length))

structure Readable (cfg : Config) (s : State) (w : WriteState) : Prop where
  full : FullBlocks cfg w
  recent : ∀ {b block}, w.blocks.lookup b = none → s.recentWriteBlock cfg w.file b = some block →
    Reaches cfg.blockSize w.fileSize b block

lemma Readable.not_blockTooShort (h : Readable cfg s w) (offset size : Nat) :
    ¬ BlockTooShort cfg s w offset size := by
  rintro ⟨hsome, hsame, block, hblock, hshort⟩
  have hbs := cfg.blockSize_pos
  have hhigh := Nat.lt_div_mul_add hbs (a := min (offset + size) w.fileSize - 1)
  rw [← hsame] at hhigh
  have hreaches : Reaches cfg.blockSize w.fileSize (offset / cfg.blockSize) block := by
    cases hdirty : w.blocks.lookup (offset / cfg.blockSize) with
    | some dirty =>
      rw [hdirty, Option.some_or, Option.mem_some] at hblock
      exact (Nat.min_le_left _ _).trans (h.full _ _ (hblock ▸ hdirty))
    | none =>
      rw [hdirty, Option.none_or] at hblock
      exact h.recent hdirty hblock
  unfold Reaches at hreaches
  omega

structure ReadableBuffers (cfg : Config) (s : State) : Prop where
  oneWriter : s.OneWriter
  readable : ∀ {fh w}, s.writeStates.lookup fh = some w → Readable cfg s w

lemma recentWriteBlock_eq_some {b : Nat} : s.recentWriteBlock cfg f b = some block ↔
      cfg.readCacheLimitBlocks ≠ 0 ∧ s.recentWriteBlocks.lookup (f, b) = some block := by
  unfold recentWriteBlock
  split <;> simp_all

lemma ReadableBuffers.of_quiet (h : ReadableBuffers cfg s) (hone : s'.OneWriter)
    (hquiet : s.Quiet s') : ReadableBuffers cfg s' := by
  refine ⟨hone, fun {fh w} hw => ⟨(h.readable (hquiet.states hw)).full, fun {b block} hclean hb => ?_⟩⟩
  obtain ⟨hlimit, hrecent⟩ := recentWriteBlock_eq_some.mp hb
  exact (h.readable (hquiet.states hw)).recent hclean
    (recentWriteBlock_eq_some.mpr ⟨hlimit, hquiet.recent hw hrecent⟩)

/-- The recent blocks that a write neither replaces nor has buffered reach the end of
the file after the write. -/
def WriteReaches (cfg : Config) (s : State) (w : WriteState) (offset : Nat) (data : Bytes) : Prop :=
  ∀ row ∈ s.recentWriteBlocks.entries, row.1.1 = w.file →
    touches cfg.blockSize offset data.length row.1.2 ∨ (w.blocks.lookup row.1.2).isSome = true ∨
      Reaches cfg.blockSize (max w.fileSize (offset + data.length)) row.1.2 row.2

instance (cfg : Config) (s : State) (w : WriteState) (offset : Nat) (data : Bytes) :
    Decidable (WriteReaches cfg s w offset data) :=
  inferInstanceAs (Decidable (∀ row ∈ _, _ → touches _ _ _ _ ∨ _ ∨ _))

lemma Buffers.readable {size offset : Nat} (h : ReadableBuffers cfg s)
    (hbuffers : Buffers cfg s s' fh offset data f size) (hreaches : cfg.readCacheLimitBlocks ≠ 0 →
      WriteReaches cfg s (s.bufferOf fh f size) offset data) :
    Readable cfg s' (s.bufferAfter cfg fh f size offset data) := by
  have hdata := hbuffers.nonempty
  obtain ⟨access, hmode, -⟩ := hbuffers.mode
  have hfile : (s.bufferOf fh f size).file = f := h.oneWriter.file_getD hmode size false
  have hfull : FullBlocks cfg (s.bufferOf fh f size) := by
    intro b block hblock
    cases hw : s.writeStates.lookup fh with
    | none =>
      rw [bufferOf, hw] at hblock
      cases hblock
    | some w =>
      rw [bufferOf, hw] at hblock
      exact (h.readable hw).full b block hblock
  refine ⟨fun b block hblock => ?_, fun {b block} hclean hb => ?_⟩
  · rw [blocks_bufferAfter hdata] at hblock
    exact bufferWrite_full hfull b block hblock
  · rw [hbuffers.file_bufferAfter h.oneWriter] at hb
    rw [blocks_bufferAfter hdata] at hclean
    rw [fileSize_bufferAfter hdata]
    obtain ⟨hlimit, hrecent⟩ := recentWriteBlock_eq_some.mp hb
    rw [hbuffers.recent] at hrecent
    have hnot : ¬ (touches cfg.blockSize offset data.length b ∨
        ((s.bufferOf fh f size).blocks.lookup b).isSome = true) := by
      intro hbuffered
      have hsome : (((s.removeWriteState fh).bufferWrite cfg (s.bufferOf fh f size) offset
          data).blocks.lookup b).isSome = true := bufferWrite_buffered hdata hbuffered
      rw [hclean] at hsome
      cases hsome
    rcases hreaches hlimit ⟨(f, b), block⟩ (Table.lookup_eq_some.mp hrecent) hfile.symm with
      htouched | hsome | hlong
    · exact absurd (.inl htouched) hnot
    · exact absurd (.inr hsome) hnot
    · exact hlong

lemma Buffers.readableBuffers {size offset : Nat} (h : ReadableBuffers cfg s)
    (hbuffers : Buffers cfg s s' fh offset data f size) (hreaches : cfg.readCacheLimitBlocks ≠ 0 →
      WriteReaches cfg s (s.bufferOf fh f size) offset data) : ReadableBuffers cfg s' := by
  refine ⟨hbuffers.oneWriter h.oneWriter, fun {fh' w} hw => ?_⟩
  rw [hbuffers.states] at hw
  split at hw
  next =>
    cases hw
    exact hbuffers.readable h hreaches
  next =>
    refine ⟨(h.readable hw).full, fun hclean hb => (h.readable hw).recent hclean ?_⟩
    rw [recentWriteBlock, hbuffers.recent] at hb
    exact hb

/-- A buffer of the file is not longer than the new size, or the last block of the new
size does not become a short recent block. -/
def PathReaches (cfg : Config) (s : State) (f size : Nat) : Prop :=
  s.loadExistingTruncateBoundaryBlock cfg (newWriteState f size true) (size / cfg.blockSize) = none ∨
    size % cfg.blockSize = 0 ∨ ∀ row ∈ s.writeStates.entries, row.2.file = f →
      row.2.fileSize ≤ size ∨ (row.2.blocks.lookup (size / cfg.blockSize)).isSome = true

instance (cfg : Config) (s : State) (f size : Nat) : Decidable (PathReaches cfg s f size) :=
  inferInstanceAs (Decidable (_ ∨ _ ∨ ∀ row ∈ _, _ → _ ∨ _))

/-- A block that ends with the file inside a block, and that was there before. -/
def EndsInside (cfg : Config) (s : State) (f size b : Nat) (block : Bytes) : Prop :=
  b = size / cfg.blockSize ∧ size % cfg.blockSize ≠ 0 ∧ size - b * cfg.blockSize ≤ block.length ∧
    s.loadExistingTruncateBoundaryBlock cfg (newWriteState f size true) b ≠ none

lemma trimExistingBlockAtEof_endsInside {size b : Nat}
    (h : (s.trimExistingBlockAtEof cfg (newWriteState f size true) size).blocks.lookup b =
      some block) : EndsInside cfg s f size b block := by
  unfold trimExistingBlockAtEof resizeExistingBlockForTruncate at h
  split at h
  · cases h
  next hinside =>
    split at h
    · cases h
    split at h
    · cases h
    next old hold =>
      rcases Table.lookup_insert_cases h with ⟨rfl, rfl⟩ | ⟨-, hnone⟩
      · refine ⟨rfl, fun hzero => hinside (.inr hzero), ?_, by rw [hold]; simp⟩
        have hdivMod := Nat.div_add_mod' size cfg.blockSize
        rw [length_fit]
        omega
      · cases hnone

lemma zeroExtendExistingBlockFromEof_reaches {size previousSize targetLen b : Nat}
    (hgrows : previousSize < size)
    (htarget : targetLen =
      if size < previousSize / cfg.blockSize * cfg.blockSize + cfg.blockSize then
        size - previousSize / cfg.blockSize * cfg.blockSize
      else cfg.blockSize)
    (h : (s.zeroExtendExistingBlockFromEof cfg (newWriteState f size true)
        (previousSize / cfg.blockSize) (previousSize % cfg.blockSize) targetLen).blocks.lookup b =
      some block) :
    cfg.blockSize ≤ block.length ∨ EndsInside cfg s f size b block := by
  unfold zeroExtendExistingBlockFromEof at h
  split at h
  · cases h
  split at h
  · cases h
  next old hold =>
    rcases Table.lookup_insert_cases h with ⟨rfl, rfl⟩ | ⟨-, hnone⟩
    · have hprevious := Nat.div_add_mod' previousSize cfg.blockSize
      rw [EndsInside, length_fit, htarget]
      split
      next hsame =>
        -- the new end lies in the block of the old one
        have hdiv : previousSize / cfg.blockSize = size / cfg.blockSize := by
          refine le_antisymm (Nat.div_le_div_right hgrows.le) (Nat.le_of_lt_succ ?_)
          rw [Nat.div_lt_iff_lt_mul cfg.blockSize_pos, Nat.succ_mul]
          exact hsame
        have hdivMod := Nat.div_add_mod' size cfg.blockSize
        rw [← hdiv] at hdivMod
        exact .inr ⟨hdiv, by omega, le_of_eq rfl, by rw [hold]; simp⟩
      next => exact .inl le_rfl
    · cases hnone

lemma prepareTruncateBoundaryBlocks_reaches {size b : Nat}
    (h : (s.prepareTruncateBoundaryBlocks cfg (newWriteState f size true)).blocks.lookup b =
      some block) : cfg.blockSize ≤ block.length ∨ EndsInside cfg s f size b block := by
  have hunbuffered : ¬ (0 < (newWriteState f size true).bufferedBytes ∨
      (!(newWriteState f size true).blocks.keys.isEmpty) = true) := by simp [newWriteState]
  unfold prepareTruncateBoundaryBlocks at h
  rw [if_neg (by simp [newWriteState]), if_neg hunbuffered] at h
  dsimp only at h
  split at h
  next hgrows =>
    split at h
    next => exact zeroExtendExistingBlockFromEof_reaches hgrows rfl h
    next => cases h
  next => exact .inr (trimExistingBlockAtEof_endsInside h)

lemma ReadableBuffers.setattrPath (h : ReadableBuffers cfg s) {size : Nat}
    (hreaches : cfg.readCacheLimitBlocks ≠ 0 → PathReaches cfg s f size) :
    ReadableBuffers cfg (s.setattrPath cfg f size).1 := by
  refine ⟨h.oneWriter.setattrPath cfg f size, fun {fh w} hw => ?_⟩
  unfold State.setattrPath at hw ⊢
  split at hw
  · exact h.readable hw
  next =>
    have hreadable := h.readable hw
    refine ⟨hreadable.full, fun {b block} hclean hb => ?_⟩
    obtain ⟨hlimit, hrecent⟩ := recentWriteBlock_eq_some.mp hb
    have hfile := (prepareTruncateBoundaryBlocks_same cfg { s with nextFh := s.nextFh + 1 }
      (newWriteState f size true)).file
    rcases recent_storeRecentWriteBlocks hrecent with ⟨heq, -, hnew⟩ | ⟨hold, -, -⟩
    · unfold Reaches
      rcases prepareTruncateBoundaryBlocks_reaches hnew with hlong | ⟨rfl, hinside, hend, hload⟩
      · omega
      · rcases hreaches hlimit with hnone | hzero | hbuffers
        · exact absurd hnone hload
        · exact absurd hzero hinside
        · rcases hbuffers ⟨fh, w⟩ (Table.lookup_eq_some.mp hw) (heq.trans hfile) with hle | hdirty
          · dsimp only at hle
            omega
          · dsimp only at hdirty
            rw [hclean] at hdirty
            cases hdirty
    · exact hreadable.recent hclean (recentWriteBlock_eq_some.mpr ⟨hlimit, hold⟩)

/-! ## Runs -/

inductive BufferAction where
  | openFile (f : Nat) (access : Access) (trunc : Bool)
  | write (fh offset : Nat) (data : Bytes) (kill : Bool)
  | truncate (fh size : Nat)
  | truncatePath (f size : Nat)
  | flush (fh : Nat)
  | release (fh : Nat)

def bufferStep (cfg : Config) (s : State) : BufferAction → Option State
  | .openFile f access trunc => some (s.openFile cfg f access trunc).1
  | .write fh offset data kill => some (s.write cfg fh offset data kill).1
  | .truncate fh size => some (s.setattrHandle cfg fh size).1
  | .truncatePath f size => some (s.setattrPath cfg f size).1
  | .flush fh => some (s.flush cfg fh).1
  | .release fh => some (s.release cfg fh).1

/-- A write that is not flushed at once leaves no recent block that ends before the
file, and a truncation by path leaves none below a longer buffer. -/
def KeepsReach (cfg : Config) (s : State) : BufferAction → Prop
  | .write fh offset data kill =>
    ∀ handle ∈ s.handles.lookup fh, ∀ size ∈ s.sizeForUpdate (s.writeStates.lookup fh) handle.file,
      shouldFlushWriteState cfg ((s.bufferOf fh handle.file size).bufferedBytes + data.length)
          (s.openHandleCountForFile handle.file) = true ∨
        s.WritesStoredBytes cfg fh handle.file size offset data kill ∨
        (cfg.readCacheLimitBlocks ≠ 0 →
          WriteReaches cfg s (s.bufferOf fh handle.file size) offset data)
  | .truncatePath f size => cfg.readCacheLimitBlocks ≠ 0 → PathReaches cfg s f size
  | _ => True

instance (cfg : Config) (s : State) : DecidablePred (KeepsReach cfg s)
  | .write _ _ _ _ => inferInstanceAs (Decidable (∀ handle ∈ _, ∀ size ∈ _, _ ∨ _ ∨ (_ → _)))
  | .truncatePath _ _ => inferInstanceAs (Decidable (_ → PathReaches _ _ _ _))
  | .openFile _ _ _ => isTrue trivial
  | .truncate _ _ => isTrue trivial
  | .flush _ => isTrue trivial
  | .release _ => isTrue trivial

lemma ReadableBuffers.write (h : ReadableBuffers cfg s) {offset : Nat} {kill : Bool}
    (hreaches : KeepsReach cfg s (.write fh offset data kill)) :
    ReadableBuffers cfg (s.write cfg fh offset data kill).1 := by
  rcases h.oneWriter.write cfg fh offset data kill with
    ⟨⟨f, hflushed⟩, hquiet⟩ | ⟨f, size, hchanged, hbuffers⟩
  · exact h.of_quiet (h.oneWriter.of_flushed hflushed) hquiet
  · obtain ⟨access, hmode, -⟩ := hbuffers.mode
    obtain ⟨handle, hhandle, heq⟩ := Option.map_eq_some_iff.mp hmode
    obtain ⟨rfl, -⟩ := Prod.mk.inj heq
    rcases hreaches handle hhandle size hbuffers.sized with hflush | hstored | hreaches
    · exact absurd (hflush.symm.trans hbuffers.unflushed) (by decide)
    · exact absurd hstored hchanged
    · exact hbuffers.readableBuffers h hreaches

lemma ReadableBuffers.step (h : ReadableBuffers cfg s) {a : BufferAction}
    (hguard : KeepsReach cfg s a) (hstep : bufferStep cfg s a = some s') : ReadableBuffers cfg s' := by
  cases a with
  | openFile f access trunc =>
    cases hstep
    rcases h.oneWriter.openFile cfg f access trunc with heq | hopens
    · rw [heq]
      exact h
    · exact h.of_quiet (hopens.oneWriter h.oneWriter) hopens.quiet
  | write fh offset data kill =>
    cases hstep
    exact h.write hguard
  | truncate fh size =>
    cases hstep
    obtain ⟨⟨f, hflushed⟩, hquiet⟩ := h.oneWriter.setattrHandle cfg fh size
    exact h.of_quiet (h.oneWriter.of_flushed hflushed) hquiet
  | truncatePath f size =>
    cases hstep
    exact h.setattrPath hguard
  | flush fh =>
    cases hstep
    obtain ⟨⟨f, hflushed⟩, hquiet⟩ := h.oneWriter.flushWriteStateForHandle cfg fh
    unfold State.flush
    split
    · exact h
    · exact h.of_quiet (h.oneWriter.of_flushed hflushed) hquiet
  | release fh =>
    cases hstep
    obtain ⟨hone, hquiet, -⟩ := h.oneWriter.release cfg fh
    exact h.of_quiet hone hquiet

lemma readableBuffers_mounted (cfg : Config) (db : Db) : ReadableBuffers cfg (mounted db) := by
  refine ⟨⟨fun hw => ?_, fun hmode => ?_, fun hw => ?_, fun hw => ?_⟩, fun hw => ?_⟩
  all_goals first | cases hw | cases hmode

lemma OneWriter.step (h : s.OneWriter) {a : BufferAction} (hstep : bufferStep cfg s a = some s') :
    s'.OneWriter := by
  cases a <;> cases hstep
  case openFile f access trunc =>
    rcases h.openFile cfg f access trunc with heq | hopens
    · rwa [heq]
    · exact hopens.oneWriter h
  case write fh offset data kill =>
    rcases h.write cfg fh offset data kill with ⟨⟨f, hflushed⟩, -⟩ | ⟨f, size, -, hbuffers⟩
    · exact h.of_flushed hflushed
    · exact hbuffers.oneWriter h
  case truncate fh size =>
    obtain ⟨⟨f, hflushed⟩, -⟩ := h.setattrHandle cfg fh size
    exact h.of_flushed hflushed
  case truncatePath f size => exact h.setattrPath cfg f size
  case flush fh =>
    obtain ⟨⟨f, hflushed⟩, -⟩ := h.flushWriteStateForHandle cfg fh
    unfold State.flush
    split
    · exact h
    · exact h.of_flushed hflushed
  case release fh => exact (h.release cfg fh).1

/-- Whatever the requests, the changes of a file that are not stored yet are in the buffer
of its only open handle. -/
theorem one_writer_per_file (cfg : Config) (db : Db) (trace : List BufferAction) (s : State)
    (hrun : GuardedRun.run (bufferStep cfg) (mounted db) trace = some s) (fh : Nat) (w : WriteState)
    (hw : s.writeStates.lookup fh = some w) :
    w.hasPendingChanges = true ∧ (∃ access, s.modeOf fh = some (w.file, access)) ∧
      ∀ fh' access, s.modeOf fh' = some (w.file, access) → fh' = fh := by
  have hone : s.OneWriter := GuardedRun.run_invariant_of_step (fun _ _ _ h hstep => h.step hstep)
    (readableBuffers_mounted cfg db).oneWriter hrun
  exact ⟨hone.pending hw, hone.opened hw, fun fh' access hmode => hone.alone hw hmode⟩

theorem one_writer_per_file_written :
    ∃ s w, GuardedRun.run (bufferStep fourByteBlocks) (mounted Db.oneFile)
        [.openFile 1 .readWrite false, .write 1 5 [9] false] = some s ∧
      s.writeStates.lookup 1 = some w ∧ ∀ fh access, s.modeOf fh = some (1, access) → fh = 1 :=
  ⟨_, _, rfl, rfl, (one_writer_per_file fourByteBlocks Db.oneFile
    [.openFile 1 .readWrite false, .write 1 5 [9] false] _ rfl 1 _ rfl).2.2⟩

/-- Under the guard no read of a buffer panics, and both ways to read return the
bytes that the buffer shows. -/
theorem buffered_reads_return (cfg : Config) (db : Db) (trace : List BufferAction)
    (hguard : GuardedRun.Along (bufferStep cfg) (KeepsReach cfg) (mounted db) trace) (s : State)
    (hrun : GuardedRun.run (bufferStep cfg) (mounted db) trace = some s) (fh : Nat) (w : WriteState)
    (hw : s.writeStates.lookup fh = some w) (offset size : Nat) :
    s.readFromWriteState cfg w offset size = some (readBlocks cfg s w offset size) ∧
      (readBlocks cfg s w offset size).length = min (offset + size) w.fileSize - offset ∧
      ∀ i, i < min (offset + size) w.fileSize - offset →
        cell (readBlocks cfg s w offset size) i = shown cfg s w (offset + i) := by
  have hreadable : ReadableBuffers cfg s :=
    GuardedRun.run_invariant (fun _ _ _ h hguard hstep => h.step hguard hstep)
      (readableBuffers_mounted cfg db) hguard hrun
  exact ⟨readFromWriteState_eq ((hreadable.readable hw).not_blockTooShort offset size),
    length_readBlocks offset size, fun i hi => cell_readBlocks hi⟩

/-- The write extends the block that the truncation has cut. -/
theorem buffered_reads_return_cutBlockWritten :
    ∃ s w, GuardedRun.run (bufferStep fourByteBlocks) (mounted Db.oneFile)
        [.openFile 1 .readWrite false, .truncate 1 3, .write 1 3 [7, 8] false] = some s ∧
      s.writeStates.lookup 1 = some w ∧
      s.readFromWriteState fourByteBlocks w 2 2 = some [3, 7] := by
  refine ⟨_, _, rfl, rfl, ?_⟩
  have h := buffered_reads_return fourByteBlocks Db.oneFile
    [.openFile 1 .readWrite false, .truncate 1 3, .write 1 3 [7, 8] false] (by decide) _ rfl 1 _ rfl 2 2
  exact h.1.trans (by decide)

/-- The file is cut inside its block and extended behind the block: the read of the
byte after the cut panics. -/
theorem read_of_cut_block_panics :
    ∃ s w, GuardedRun.run (bufferStep fourByteBlocks) (mounted Db.oneFile)
        [.openFile 1 .readWrite false, .truncate 1 3, .write 1 5 [9] false] = some s ∧
      s.writeStates.lookup 1 = some w ∧ w.fileSize = 6 ∧
      s.readFromWriteState fourByteBlocks w 3 1 = none ∧
      readBlocks fourByteBlocks s w 3 1 = [0] :=
  ⟨_, _, rfl, rfl, by decide, by decide, by decide⟩

end State

end Fod.Data
