import Fod.Data.FlushedFile

/-!
# One handle with unflushed writes

`open` flushes the pending states of a file that has other handles, and a write on a
file with other handles is flushed at once.  So a handle with a write state is the
only handle of its file.
-/

namespace Fod.Data

open ZeroPadded

namespace State

variable {cfg : Config} {s s' : State} {f fh : Nat} {w : WriteState}

def modeOf (s : State) (fh : Nat) : Option (Nat × Access) :=
  (s.handles.lookup fh).map fun handle => (handle.file, handle.access)

lemma modeOf_clearReadCacheForFile (s : State) (f fh : Nat) :
    (s.clearReadCacheForFile f).modeOf fh = s.modeOf fh := by
  unfold modeOf clearReadCacheForFile invalidateReadMetadataForFile
  rw [Table.lookup_adjust, Option.map_map]
  apply Option.map_congr
  intro handle _
  dsimp only [Function.comp_apply]
  split <;> rfl

lemma modeOf_insertHandle (s : State) (f fh : Nat) (access : Access) :
    (s.insertHandle f access).modeOf fh =
      if fh = s.nextFh then some (f, access) else s.modeOf fh := by
  unfold modeOf insertHandle
  rw [Table.lookup_insert_eq_ite]
  split <;> rfl

variable {access : Access} {data : Bytes}

lemma mem_handles_of_modeOf (h : s.modeOf fh = some (f, access)) :
    fh ∈ s.handles.keysWith fun handle => handle.file == f := by
  obtain ⟨handle, hhandle, heq⟩ := Option.map_eq_some_iff.mp h
  exact (Table.mem_keysWith _).mpr ⟨handle, hhandle, by simp [(Prod.mk.inj heq).1]⟩

lemma openHandleCountForFile_pos (h : s.modeOf fh = some (f, access)) :
    0 < s.openHandleCountForFile f :=
  List.length_pos_of_mem (mem_handles_of_modeOf h)

lemma eq_of_openHandleCountForFile {fh' : Nat} {access access' : Access}
    (hcount : s.openHandleCountForFile f ≤ 1) (h : s.modeOf fh = some (f, access))
    (h' : s.modeOf fh' = some (f, access')) : fh' = fh := by
  have hmem := mem_handles_of_modeOf h
  have hmem' := mem_handles_of_modeOf h'
  obtain ⟨a, ha⟩ := List.length_eq_one_iff.mp (le_antisymm hcount (List.length_pos_of_mem hmem))
  rw [ha, List.mem_singleton] at hmem hmem'
  rw [hmem, hmem']

lemma openHandleCountForFile_clearReadCacheForFile (s : State) (g f : Nat) :
    (s.clearReadCacheForFile g).openHandleCountForFile f = s.openHandleCountForFile f := by
  unfold openHandleCountForFile clearReadCacheForFile invalidateReadMetadataForFile
  rw [Table.keysWith_adjust]
  intro _ handle
  split <;> rfl

structure Flushed (s s' : State) (f : Nat) : Prop where
  modes : ∀ fh, s'.modeOf fh = s.modeOf fh
  nextFh : s'.nextFh = s.nextFh
  states : ∀ {fh w}, s'.writeStates.lookup fh = some w → s.writeStates.lookup fh = some w
  recent : ∀ {g b block}, g ≠ f → s'.recentWriteBlocks.lookup (g, b) = some block →
    s.recentWriteBlocks.lookup (g, b) = some block

lemma Flushed.refl (s : State) (f : Nat) : s.Flushed s f :=
  ⟨fun _ => rfl, rfl, fun h => h, fun _ h => h⟩

lemma Flushed.trans {s'' : State} (h : s.Flushed s' f) (h' : s'.Flushed s'' f) : s.Flushed s'' f :=
  ⟨fun fh => (h'.modes fh).trans (h.modes fh), h'.nextFh.trans h.nextFh,
    fun hw => h.states (h'.states hw), fun hg hb => h.recent hg (h'.recent hg hb)⟩

lemma flushWriteState_flushed (cfg : Config) (s : State) (w : WriteState) :
    s.Flushed (s.flushWriteState cfg w).1 w.file := by
  refine ⟨fun fh => modeOf_clearReadCacheForFile _ _ _, rfl, fun h => h, fun {g b block} hg hb => ?_⟩
  have hfile := (prepareTruncateBoundaryBlocks_same cfg s w).file
  rcases recent_storeRecentWriteBlocks hb with ⟨heq, -, -⟩ | ⟨hold, -, -⟩
  · exact absurd (heq.trans hfile) hg
  · exact hold

lemma hasPendingChanges_flushed (w : WriteState) : (flushed w).hasPendingChanges = false := by
  simp [flushed, WriteState.hasPendingChanges]

lemma flushEntry_eq (cfg : Config) (s : State) (row : Nat × WriteState) :
    s.flushEntry cfg row = (s.flushWriteState cfg row.2).1.removeWriteState row.1 := by
  unfold flushEntry putBack
  dsimp only [flushWriteState]
  rw [hasPendingChanges_flushed]
  rfl

lemma clearReadCacheForFile_flushed (s : State) (f g : Nat) :
    s.Flushed (s.clearReadCacheForFile g) f :=
  ⟨fun fh => modeOf_clearReadCacheForFile s g fh, rfl, fun h => h, fun _ h => h⟩

lemma removeWriteState_flushed (s : State) (f fh : Nat) : s.Flushed (s.removeWriteState fh) f :=
  ⟨fun _ => rfl, rfl, fun h => (Table.lookup_erase_cases h).2, fun _ h => h⟩

lemma flushEntry_flushed (cfg : Config) (s : State) (row : Nat × WriteState) :
    s.Flushed (s.flushEntry cfg row) row.2.file := by
  rw [flushEntry_eq]
  exact (flushWriteState_flushed cfg s row.2).trans (removeWriteState_flushed _ _ _)

lemma lookup_flushEntry (cfg : Config) (s : State) (row : Nat × WriteState) (fh : Nat) :
    (s.flushEntry cfg row).writeStates.lookup fh =
      if fh = row.1 then none else s.writeStates.lookup fh := by
  rw [flushEntry_eq]
  exact Table.lookup_erase_eq_ite _ _ _

lemma mem_pendingStates {except : Option Nat} {row : Nat × WriteState} :
    row ∈ s.pendingStates f except ↔ s.writeStates.lookup row.1 = some row.2 ∧
      some row.1 ≠ except ∧ row.2.file = f ∧ row.2.hasPendingChanges = true := by
  obtain ⟨fh, w⟩ := row
  rw [Table.lookup_eq_some]
  simp only [pendingStates, List.mem_map, List.mem_filter, Bool.and_eq_true, bne_iff_ne, beq_iff_eq]
  constructor
  · rintro ⟨⟨fh', w'⟩, ⟨hrow, ⟨hne, hfile⟩, hpending⟩, heq⟩
    obtain ⟨rfl, rfl⟩ := Prod.mk.inj heq
    exact ⟨hrow, hne, hfile, hpending⟩
  · rintro ⟨hrow, hne, hfile, hpending⟩
    exact ⟨⟨fh, w⟩, ⟨hrow, ⟨hne, hfile⟩, hpending⟩, rfl⟩

lemma flushEntries_flushed (cfg : Config) (s : State) (rows : List (Nat × WriteState))
    (hrows : ∀ row ∈ rows, row.2.file = f) : s.Flushed (rows.foldl (flushEntry cfg) s) f ∧
      ∀ row ∈ rows, (rows.foldl (flushEntry cfg) s).writeStates.lookup row.1 = none := by
  induction rows generalizing s with
  | nil => exact ⟨.refl s f, by simp⟩
  | cons row rest ih =>
    obtain ⟨hfile, hrest⟩ := List.forall_mem_cons.mp hrows
    have hfirst := hfile ▸ flushEntry_flushed cfg s row
    obtain ⟨hlast, hgone⟩ := ih (s.flushEntry cfg row) hrest
    refine ⟨hfirst.trans hlast, List.forall_mem_cons.mpr ⟨?_, hgone⟩⟩
    rw [List.foldl_cons, Option.eq_none_iff_forall_ne_some]
    intro w hw
    have hmid := hlast.states hw
    rw [lookup_flushEntry, if_pos rfl] at hmid
    cases hmid

structure OneWriter (s : State) : Prop where
  opened : ∀ {fh w}, s.writeStates.lookup fh = some w → ∃ access, s.modeOf fh = some (w.file, access)
  fresh : ∀ {fh mode}, s.modeOf fh = some mode → fh < s.nextFh
  pending : ∀ {fh w}, s.writeStates.lookup fh = some w → w.hasPendingChanges = true
  alone : ∀ {fh w fh' access}, s.writeStates.lookup fh = some w →
    s.modeOf fh' = some (w.file, access) → fh' = fh

lemma OneWriter.of_flushed (h : s.OneWriter) (hflushed : s.Flushed s' f) : s'.OneWriter := by
  refine ⟨fun hw => ?_, fun hmode => ?_, fun hw => h.pending (hflushed.states hw), fun hw hmode => ?_⟩
  · rw [hflushed.modes]
    exact h.opened (hflushed.states hw)
  · rw [hflushed.modes] at hmode
    rw [hflushed.nextFh]
    exact h.fresh hmode
  · rw [hflushed.modes] at hmode
    exact h.alone (hflushed.states hw) hmode

structure Quiet (s s' : State) : Prop where
  states : ∀ {fh w}, s'.writeStates.lookup fh = some w → s.writeStates.lookup fh = some w
  recent : ∀ {fh w b block}, s'.writeStates.lookup fh = some w →
    s'.recentWriteBlocks.lookup (w.file, b) = some block →
    s.recentWriteBlocks.lookup (w.file, b) = some block

lemma Flushed.quiet (h : s.Flushed s' f)
    (hnone : ∀ {fh w}, s'.writeStates.lookup fh = some w → w.file ≠ f) : s.Quiet s' :=
  ⟨h.states, fun hw hb => h.recent (hnone hw) hb⟩

lemma flushPending_flushed (cfg : Config) (f : Nat)
    (hpending : ∀ {fh w}, s.writeStates.lookup fh = some w → w.hasPendingChanges = true) :
    s.Flushed (s.flushPendingWriteStatesForFileExcept cfg f none) f ∧
      ∀ {fh w}, (s.flushPendingWriteStatesForFileExcept cfg f none).writeStates.lookup fh = some w →
        w.file ≠ f := by
  obtain ⟨hflushed, hgone⟩ := flushEntries_flushed cfg s (s.pendingStates f none)
    fun row hrow => (mem_pendingStates.mp hrow).2.2.1
  refine ⟨hflushed, fun {fh w} hw hfile => ?_⟩
  have hold := hflushed.states hw
  have hnone := hgone (fh, w) (mem_pendingStates.mpr ⟨hold, by simp, hfile, hpending hold⟩)
  exact absurd (hw.symm.trans hnone) (by simp)

lemma OneWriter.flushEntry_quiet (h : s.OneWriter)
    (hmode : s.modeOf fh = some (w.file, access)) : s.Quiet (s.flushEntry cfg (fh, w)) := by
  refine (flushEntry_flushed cfg s (fh, w)).quiet fun {fh' w'} hw' hfile => ?_
  rw [lookup_flushEntry] at hw'
  split at hw'
  · cases hw'
  · rename_i hne
    exact hne (h.alone hw' (hfile ▸ hmode)).symm

lemma OneWriter.flushWriteStateForHandle (h : s.OneWriter) (cfg : Config) (fh : Nat) :
    (∃ f, s.Flushed (s.flushWriteStateForHandle cfg fh) f) ∧
      s.Quiet (s.flushWriteStateForHandle cfg fh) := by
  unfold State.flushWriteStateForHandle
  split
  · exact ⟨⟨0, .refl s 0⟩, fun hw => hw, fun _ hb => hb⟩
  · rename_i w hw
    split
    · obtain ⟨access, hmode⟩ := h.opened hw
      exact ⟨⟨_, flushEntry_flushed cfg s (fh, w)⟩, h.flushEntry_quiet hmode⟩
    · exact ⟨⟨0, .refl s 0⟩, fun hw => hw, fun _ hb => hb⟩

structure Opens (s s' : State) (f : Nat) (access : Access) : Prop where
  modes : ∀ fh, s'.modeOf fh = if fh = s.nextFh then some (f, access) else s.modeOf fh
  nextFh : s'.nextFh = s.nextFh + 1
  quiet : s.Quiet s'
  settled : ∀ {fh w}, s'.writeStates.lookup fh = some w → w.file ≠ f

lemma Opens.oneWriter (h : s.OneWriter) (hopens : s.Opens s' f access) : s'.OneWriter := by
  refine ⟨fun {fh w} hw => ?_, fun {fh mode} hmode => ?_, fun hw => h.pending (hopens.quiet.states hw),
    fun {fh w fh' access'} hw hmode => ?_⟩
  · obtain ⟨access', hold⟩ := h.opened (hopens.quiet.states hw)
    have hlt := h.fresh hold
    refine ⟨access', ?_⟩
    rw [hopens.modes, if_neg (by omega)]
    exact hold
  · rw [hopens.modes] at hmode
    rw [hopens.nextFh]
    split at hmode
    · omega
    · have hlt := h.fresh hmode
      omega
  · rw [hopens.modes] at hmode
    split at hmode
    · exact absurd (Prod.mk.inj (Option.some.inj hmode)).1.symm (hopens.settled hw)
    · exact h.alone (hopens.quiet.states hw) hmode

lemma publish_flushed (cfg : Config) (f count : Nat)
    (hpending : ∀ {fh w}, s.writeStates.lookup fh = some w → w.hasPendingChanges = true)
    (hnone : s.openHandleCountForFile f ≤ count →
      ∀ {fh w}, s.writeStates.lookup fh = some w → w.file ≠ f) :
    ∃ s', s' = (if count < s.openHandleCountForFile f then
        s.flushPendingWriteStatesForFileExcept cfg f none else s) ∧
      s.Flushed s' f ∧ ∀ {fh w}, s'.writeStates.lookup fh = some w → w.file ≠ f := by
  refine ⟨_, rfl, ?_⟩
  split
  · exact flushPending_flushed cfg f hpending
  · rename_i hle
    exact ⟨.refl s f, hnone (Nat.le_of_not_lt hle)⟩

lemma OneWriter.openFile (h : s.OneWriter) (cfg : Config) (f : Nat) (access : Access)
    (trunc : Bool) :
    (s.openFile cfg f access trunc).1 = s ∨ s.Opens (s.openFile cfg f access trunc).1 f access := by
  cases hsize : s.db.fileSize f with
  | none =>
    left
    simp [State.openFile, hsize]
  | some size =>
    right
    simp only [State.openFile, hsize]
    by_cases haccess : access = .readOnly
    · obtain ⟨s', hs', hflushed, hsettled⟩ := publish_flushed cfg f 0 h.pending
        (fun hcount fh w hw hfile => by
          obtain ⟨access', hmode⟩ := h.opened hw
          exact absurd (openHandleCountForFile_pos (hfile ▸ hmode)) (by omega))
      simp only [haccess, if_true, ← hs']
      refine ⟨fun fh => ?_, congrArg (· + 1) hflushed.nextFh,
        ⟨hflushed.states, fun hw hb => hflushed.recent (hsettled hw) hb⟩, hsettled⟩
      rw [modeOf_insertHandle, hflushed.nextFh, hflushed.modes]
    · obtain ⟨s', hs', hflushed, hsettled⟩ := publish_flushed (s := s.insertHandle f access) cfg f 1
        h.pending (fun hcount fh w hw hfile => by
          obtain ⟨access', hmode⟩ := h.opened hw
          have hlt := h.fresh hmode
          have hold : (s.insertHandle f access).modeOf fh = some (f, access') := by
            rw [modeOf_insertHandle, if_neg (by omega), ← hfile]
            exact hmode
          have hnew : (s.insertHandle f access).modeOf s.nextFh = some (f, access) := by
            rw [modeOf_insertHandle, if_pos rfl]
          have heq := eq_of_openHandleCountForFile hcount hold hnew
          omega)
      simp only [haccess, if_false, ← hs']
      have hopens : ∀ {t : State}, s'.Flushed t f → s.Opens t f access := by
        intro t ht
        have hall := hflushed.trans ht
        have hgone : ∀ {fh w}, t.writeStates.lookup fh = some w → w.file ≠ f :=
          fun hw => hsettled (ht.states hw)
        refine ⟨fun fh => ?_, hall.nextFh, ⟨hall.states, fun hw hb => hall.recent (hgone hw) hb⟩, hgone⟩
        rw [hall.modes, modeOf_insertHandle]
      cases trunc with
      | false => exact hopens (.refl s' f)
      | true =>
        exact hopens ((flushWriteState_flushed cfg s' (newWriteState f 0 true)).trans
          (removeWriteState_flushed _ _ _))

lemma OneWriter.release (h : s.OneWriter) (cfg : Config) (fh : Nat) :
    (s.release cfg fh).1.OneWriter ∧ s.Quiet (s.release cfg fh).1 ∧
      ∀ fh', (s.release cfg fh).1.modeOf fh' = if fh' = fh then none else s.modeOf fh' := by
  obtain ⟨⟨f, hflushed⟩, hquiet⟩ := h.flushWriteStateForHandle cfg fh
  have hmid := h.of_flushed hflushed
  have hmodes : ∀ fh', (s.release cfg fh).1.modeOf fh' =
      if fh' = fh then none else (s.flushWriteStateForHandle cfg fh).modeOf fh' := by
    intro fh'
    simp only [State.release, modeOf]
    rw [Table.lookup_erase_eq_ite]
    split <;> rfl
  have hstates : ∀ {fh' w}, (s.release cfg fh).1.writeStates.lookup fh' = some w →
      fh' ≠ fh ∧ (s.flushWriteStateForHandle cfg fh).writeStates.lookup fh' = some w :=
    fun hw => Table.lookup_erase_cases hw
  refine ⟨⟨fun {fh' w} hw => ?_, fun {fh' mode} hmode => ?_, fun hw => hmid.pending (hstates hw).2,
    fun {fh' w fh'' access} hw hmode => ?_⟩,
    ⟨fun hw => hquiet.states (hstates hw).2, fun hw hb => hquiet.recent (hstates hw).2 hb⟩, fun fh' => ?_⟩
  · rw [hmodes, if_neg (hstates hw).1]
    exact hmid.opened (hstates hw).2
  · rw [hmodes] at hmode
    split at hmode
    · cases hmode
    · exact hmid.fresh hmode
  · rw [hmodes] at hmode
    split at hmode
    · cases hmode
    · exact hmid.alone (hstates hw).2 hmode
  · rw [hmodes, hflushed.modes]

/-! ## Writes -/

def bufferOf (s : State) (fh f size : Nat) : WriteState :=
  (s.writeStates.lookup fh).getD (newWriteState f size false)

def bufferAfter (cfg : Config) (s : State) (fh f size offset : Nat) (data : Bytes) : WriteState :=
  (bufferRun cfg (s.removeWriteState fh, s.bufferOf fh f size) (offset, data)).2

section

variable {size offset : Nat} {data : Bytes}

lemma bufferAfter_eq (hdata : data ≠ []) :
    s.bufferAfter cfg fh f size offset data =
      { (s.removeWriteState fh).bufferWrite cfg (s.bufferOf fh f size) offset data with
        bufferedBytes := (s.bufferOf fh f size).bufferedBytes + data.length } := by
  have hsame := bufferWrite_same cfg (s.removeWriteState fh) (s.bufferOf fh f size) offset data
  rw [bufferAfter, bufferRun, updateWriteBuffer, if_neg (by simpa using hdata)]
  dsimp only
  rw [hsame.bufferedBytes]

lemma blocks_bufferAfter (hdata : data ≠ []) : (s.bufferAfter cfg fh f size offset data).blocks =
      ((s.removeWriteState fh).bufferWrite cfg (s.bufferOf fh f size) offset data).blocks := by
  rw [bufferAfter_eq hdata]

lemma fileSize_bufferAfter (hdata : data ≠ []) :
    (s.bufferAfter cfg fh f size offset data).fileSize =
      max (s.bufferOf fh f size).fileSize (offset + data.length) := by
  rw [bufferAfter_eq hdata]
  exact (bufferWrite_same _ _ _ _ _).fileSize

end

/-- A write without a buffer and with the bytes that are stored does nothing. -/
def WritesStoredBytes (cfg : Config) (s : State) (fh f size offset : Nat) (data : Bytes)
    (kill : Bool) : Prop :=
  s.writeStates.lookup fh = none ∧ offset + data.length ≤ size ∧ kill = false ∧
    s.assembleFileSlice cfg f (offset / cfg.blockSize) ((offset + data.length - 1) / cfg.blockSize)
      offset (offset + data.length) = data

instance (cfg : Config) (s : State) (fh f size offset : Nat) (data : Bytes) (kill : Bool) :
    Decidable (WritesStoredBytes cfg s fh f size offset data kill) :=
  inferInstanceAs (Decidable (_ ∧ _ ∧ _ ∧ _))

structure Buffers (cfg : Config) (s s' : State) (fh offset : Nat) (data : Bytes) (f size : Nat) :
    Prop where
  mode : ∃ access, s.modeOf fh = some (f, access) ∧ access ≠ .readOnly
  sized : s.sizeForUpdate (s.writeStates.lookup fh) f = some size
  modes : ∀ fh', s'.modeOf fh' = s.modeOf fh'
  nextFh : s'.nextFh = s.nextFh
  db : s'.db = s.db
  recent : s'.recentWriteBlocks = s.recentWriteBlocks
  nonempty : data ≠ []
  unflushed : shouldFlushWriteState cfg ((s.bufferOf fh f size).bufferedBytes + data.length)
    (s.openHandleCountForFile f) = false
  states : ∀ fh', s'.writeStates.lookup fh' =
    if fh' = fh then some (s.bufferAfter cfg fh f size offset data) else s.writeStates.lookup fh'

section

variable (h : s.OneWriter)

include h

lemma OneWriter.siblings_eq_nil (hmode : s.modeOf fh = some (f, access)) : s.pendingStates f (some fh) = [] := by
  refine List.eq_nil_iff_forall_not_mem.mpr fun row hrow => ?_
  obtain ⟨hlookup, hne, hfile, -⟩ := mem_pendingStates.mp hrow
  exact hne (congrArg some (h.alone hlookup (hfile ▸ hmode)).symm)

lemma OneWriter.file_getD (hmode : s.modeOf fh = some (f, access)) (size : Nat) (trunc : Bool) :
    ((s.writeStates.lookup fh).getD (newWriteState f size trunc)).file = f := by
  cases hw : s.writeStates.lookup fh with
  | none => rfl
  | some w =>
    obtain ⟨access', hmode'⟩ := h.opened hw
    exact (Prod.mk.inj (Option.some.inj (hmode'.symm.trans hmode))).1

lemma OneWriter.writeBuffered (cfg : Config) {size : Nat}
    (hmode : s.modeOf fh = some (f, access)) (haccess : access ≠ .readOnly)
    (hsize : s.sizeForUpdate (s.writeStates.lookup fh) f = some size) (offset : Nat)
    (hdata : data ≠ []) :
    let s' := (s.removeWriteState fh).writeBuffered cfg fh f (s.bufferOf fh f size) [] offset data
    (s.Flushed s' f ∧ s.Quiet s') ∨ Buffers cfg s s' fh offset data f size := by
  have hfile : (s.bufferOf fh f size).file = f := h.file_getD hmode size false
  have hrun : bufferRun cfg (s.removeWriteState fh, s.bufferOf fh f size) (offset, data) =
      ((s.removeWriteState fh).clearReadCacheForFile f, s.bufferAfter cfg fh f size offset data) := by
    rw [bufferAfter, bufferRun, updateWriteBuffer, if_neg (by simpa using hdata), hfile]
  have hbytes : (s.bufferAfter cfg fh f size offset data).bufferedBytes =
      (s.bufferOf fh f size).bufferedBytes + data.length := by
    rw [bufferAfter_eq hdata]
  have hcount : ((s.removeWriteState fh).clearReadCacheForFile f).openHandleCountForFile f =
      s.openHandleCountForFile f :=
    openHandleCountForFile_clearReadCacheForFile _ _ _
  have hstart : s.Flushed ((s.removeWriteState fh).clearReadCacheForFile f) f :=
    (removeWriteState_flushed s f fh).trans (clearReadCacheForFile_flushed _ _ _)
  simp only [State.writeBuffered, List.foldl_nil, hrun, hcount, hbytes]
  split
  next hflush =>
    left
    have hfile' : (s.bufferAfter cfg fh f size offset data).file = f := by
      rw [bufferAfter_eq hdata]
      exact (bufferWrite_same _ _ _ _ _).file.trans hfile
    have hflushed := hstart.trans (hfile' ▸ flushEntry_flushed cfg _ (fh, _))
    refine ⟨hflushed, hflushed.quiet fun {fh' w} hw hf => ?_⟩
    rw [lookup_flushEntry] at hw
    split at hw
    · cases hw
    · rename_i hne
      exact hne (h.alone (hstart.states hw) (hf ▸ hmode)).symm
  next hkeep =>
    right
    refine ⟨⟨access, hmode, haccess⟩, hsize, hstart.modes, rfl, rfl, rfl, hdata, by simpa using hkeep,
      fun fh' => ?_⟩
    refine (Table.lookup_insert_eq_ite _ _ _ _).trans ?_
    split
    · rfl
    next hne => exact (Table.lookup_erase_eq_ite _ _ _).trans (if_neg hne)

lemma OneWriter.write (cfg : Config) (fh offset : Nat) (data : Bytes)
    (kill : Bool) : ((∃ f, s.Flushed (s.write cfg fh offset data kill).1 f) ∧
        s.Quiet (s.write cfg fh offset data kill).1) ∨
      ∃ f size, ¬ s.WritesStoredBytes cfg fh f size offset data kill ∧
        Buffers cfg s (s.write cfg fh offset data kill).1 fh offset data f size := by
  have hnothing : (∃ f, s.Flushed s f) ∧ s.Quiet s :=
    ⟨⟨0, .refl s 0⟩, fun hw => hw, fun _ hb => hb⟩
  cases hhandle : s.handles.lookup fh with
  | none => exact .inl (by simpa only [State.write, hhandle] using hnothing)
  | some handle =>
    have hmode : s.modeOf fh = some (handle.file, handle.access) := by
      rw [modeOf, hhandle, Option.map_some]
    have hsiblings := h.siblings_eq_nil hmode
    simp only [State.write, hhandle]
    split
    · exact .inl hnothing
    next haccess =>
      split
      · exact .inl hnothing
      next hdata =>
        cases hsize : s.sizeForUpdate (s.writeStates.lookup fh) handle.file with
        | none => exact .inl hnothing
        | some size =>
          dsimp only
          split
          · rw [hsiblings]
            exact .inl ⟨⟨0, removeWriteState_flushed s 0 fh⟩,
              fun hw => (Table.lookup_erase_cases hw).2, fun _ hb => hb⟩
          next hchanged =>
            rw [hsiblings] at hchanged ⊢
            rcases h.writeBuffered cfg hmode haccess hsize offset (by simpa using hdata) with
              ⟨hflushed, hquiet⟩ | hbuffers
            · exact .inl ⟨⟨_, hflushed⟩, hquiet⟩
            · refine .inr ⟨_, _, fun hequal => hchanged ?_, hbuffers⟩
              obtain ⟨hnone, hinside, hkill, hbytes⟩ := hequal
              exact ⟨by rw [hnone, Option.isNone_none], rfl, hinside, by rw [hkill, Bool.not_false],
                hbytes⟩

lemma Buffers.file_bufferAfter {size offset : Nat} (hbuffers : Buffers cfg s s' fh offset data f size) :
    (s.bufferAfter cfg fh f size offset data).file = f := by
  obtain ⟨access, hmode, -⟩ := hbuffers.mode
  rw [bufferAfter_eq hbuffers.nonempty]
  exact (bufferWrite_same _ _ _ _ _).file.trans (h.file_getD hmode size false)

lemma Buffers.oneWriter {size offset : Nat} (hbuffers : Buffers cfg s s' fh offset data f size) : s'.OneWriter := by
  obtain ⟨access, hmode, -⟩ := hbuffers.mode
  have hfile := hbuffers.file_bufferAfter h
  refine ⟨fun {fh' w} hw => ?_, fun {fh' mode} hmode' => ?_, fun {fh' w} hw => ?_,
    fun {fh' w fh'' access'} hw hmode' => ?_⟩
  · rw [hbuffers.modes]
    rw [hbuffers.states] at hw
    split at hw
    next heq =>
      cases hw
      exact ⟨access, by rw [heq, hfile, hmode]⟩
    next => exact h.opened hw
  · rw [hbuffers.modes] at hmode'
    rw [hbuffers.nextFh]
    exact h.fresh hmode'
  · rw [hbuffers.states] at hw
    split at hw
    next =>
      cases hw
      have hlength : 0 < data.length := List.length_pos_iff.mpr hbuffers.nonempty
      simp only [bufferAfter_eq hbuffers.nonempty, WriteState.hasPendingChanges, Bool.or_eq_true,
        decide_eq_true_eq]
      exact .inl (.inr (by omega))
    next => exact h.pending hw
  · rw [hbuffers.modes] at hmode'
    rw [hbuffers.states] at hw
    split at hw
    next heq =>
      cases hw
      rw [hfile] at hmode'
      have hcount := hbuffers.unflushed
      simp only [shouldFlushWriteState, Bool.or_eq_false_iff, decide_eq_false_iff_not] at hcount
      exact (eq_of_openHandleCountForFile (by omega) hmode hmode').trans heq.symm
    next => exact h.alone hw hmode'

lemma OneWriter.setattrHandle (cfg : Config) (fh size : Nat) :
    (∃ f, s.Flushed (s.setattrHandle cfg fh size).1 f) ∧ s.Quiet (s.setattrHandle cfg fh size).1 := by
  have hnothing : (∃ f, s.Flushed s f) ∧ s.Quiet s :=
    ⟨⟨0, .refl s 0⟩, fun hw => hw, fun _ hb => hb⟩
  cases hhandle : s.handles.lookup fh with
  | none => simpa only [State.setattrHandle, hhandle] using hnothing
  | some handle =>
    have hmode : s.modeOf fh = some (handle.file, handle.access) := by
      rw [modeOf, hhandle, Option.map_some]
    simp only [State.setattrHandle, hhandle]
    split
    · exact hnothing
    · have hfile := h.file_getD hmode size true
      exact ⟨⟨_, flushEntry_flushed cfg s _⟩, h.flushEntry_quiet (hfile.symm ▸ hmode)⟩

lemma OneWriter.setattrPath (cfg : Config) (f size : Nat) :
    (s.setattrPath cfg f size).1.OneWriter := by
  have hnext : ({ s with nextFh := s.nextFh + 1 } : State).OneWriter :=
    ⟨h.opened, fun hmode => Nat.lt_succ_of_lt (h.fresh hmode), h.pending, h.alone⟩
  unfold State.setattrPath
  split
  · exact h
  · exact hnext.of_flushed (flushWriteState_flushed cfg _ _)

end

end State

end Fod.Data
