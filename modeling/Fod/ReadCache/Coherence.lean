import Fod.ReadCache.Model

/-!
# Coherence of the read cache

A cached block is never older than the last completed invalidation of its
file.  What carries the proof is the meaning of a stamp: as long as it is
current, no invalidation has completed since it was taken, so the blocks
looked up and fetched under it are as fresh as the cache asks for.  A stamp
that has gone stale stays stale because the counters of the gate only grow;
they stop doing so after `2 ^ 64` invalidations.
-/

namespace Fod.ReadCache

open GuardedRun

variable {β : Type}

section Entries

variable {P : BlockKey → β → Prop} {entries : Table BlockKey β}

def AllEntries (P : BlockKey → β → Prop) (entries : Table BlockKey β) : Prop :=
  ∀ k v, entries.lookup k = some v → P k v

lemma allEntries_empty : AllEntries P (∅ : Table BlockKey β) := by
  intro k v h
  simp at h

section

variable (h : AllEntries P entries)

include h

lemma AllEntries.insert {k : BlockKey} {v : β}
    (hnew : P k v) : AllEntries P (entries.insert k v) := by
  intro k' v' hlookup
  obtain ⟨rfl, rfl⟩ | ⟨-, hold⟩ := Table.lookup_insert_cases hlookup
  · exact hnew
  · exact h k' v' hold

lemma AllEntries.erase (k : BlockKey) : AllEntries P (entries.erase k) :=
  fun k' v' hlookup => h k' v' (Table.lookup_erase_cases hlookup).2

lemma AllEntries.popOldest : AllEntries P (popOldest entries) := by
  intro k v hlookup
  have hmem := Table.lookup_eq_some.mp hlookup
  exact h k v (Table.lookup_eq_some.mpr (List.mem_of_mem_dropLast hmem))

lemma AllEntries.getRefresh (k : BlockKey) : AllEntries P (getRefresh entries k) := by
  unfold ReadCache.getRefresh
  split
  next => exact h
  next v hv => exact h.insert (h k v hv)

end

namespace ReadBlockCache

lemma allEntries_new (policy : ReadCacheEvictionPolicy) :
    AllEntries P (new policy : ReadBlockCache β).entries := by
  cases policy <;> exact allEntries_empty

variable {c : ReadBlockCache β} {file : Nat}

lemma allEntries_refresh (h : AllEntries P c.entries)
    (file block : Nat) : AllEntries P (c.refresh file block).entries := by
  cases c with
  | fifo entries order => exact h
  | lru entries => exact h.getRefresh (file, block)

lemma allEntries_foldl_insertFifo (blocks : List (Nat × β))
    (hblocks : ∀ row ∈ blocks, P (file, row.1) row.2)
    (acc : Table BlockKey β × List BlockKey) (h : AllEntries P acc.1) :
    AllEntries P (blocks.foldl (insertFifo file) acc).1 := by
  induction blocks generalizing acc with
  | nil => exact h
  | cons row blocks ih =>
    refine ih (fun r hr => hblocks r (List.mem_cons_of_mem _ hr)) _ ?_
    exact h.insert (hblocks row List.mem_cons_self)

lemma allEntries_foldl_insertLru (blocks : List (Nat × β))
    (hblocks : ∀ row ∈ blocks, P (file, row.1) row.2) (h : AllEntries P entries) :
    AllEntries P (blocks.foldl (insertLru file) entries) := by
  induction blocks generalizing entries with
  | nil => exact h
  | cons row blocks ih =>
    refine ih (fun r hr => hblocks r (List.mem_cons_of_mem _ hr)) ?_
    have hinsert := h.insert (hblocks row List.mem_cons_self)
    unfold insertLru
    split
    · exact hinsert.getRefresh _
    · exact hinsert

lemma allEntries_evictFifo (limitBlocks : Nat) (order : List BlockKey)
    (h : AllEntries P entries) : AllEntries P (evictFifo limitBlocks entries order).1 := by
  induction order generalizing entries with
  | nil => exact h
  | cons oldest order ih =>
    unfold evictFifo
    split
    · exact ih (h.erase oldest)
    · exact h

lemma allEntries_evictLru (limitBlocks : Nat) (h : AllEntries P entries) :
    AllEntries P (evictLru limitBlocks entries) := by
  unfold evictLru
  induction entries.entries.length - limitBlocks generalizing entries with
  | zero => exact h
  | succ n ih => exact ih h.popOldest

lemma allEntries_insertMany
    {blocks : List (Nat × β)} (hblocks : ∀ row ∈ blocks, P (file, row.1) row.2)
    (h : AllEntries P c.entries) (limitBlocks : Nat) :
    AllEntries P (c.insertMany file blocks limitBlocks).entries := by
  cases c with
  | fifo entries order =>
    exact allEntries_evictFifo _ _ (allEntries_foldl_insertFifo blocks hblocks _ h)
  | lru entries =>
    exact allEntries_evictLru _ (allEntries_foldl_insertLru blocks hblocks h)

lemma allEntries_clearFile {Q : BlockKey → β → Prop}
    (h : AllEntries P c.entries) (hQ : ∀ k v, k.1 ≠ file → P k v → Q k v) :
    AllEntries Q (c.clearFile file).entries := by
  have hkeep : (c.clearFile file).entries = c.entries.keep fun k _ => k.1 != file := by
    cases c <;> rfl
  intro k v hlookup
  rw [hkeep, Table.lookup_keep_key] at hlookup
  split at hlookup
  next hfile => exact hQ k v (by simpa using hfile) (h k v hlookup)
  next => cases hlookup

lemma allEntries_clearAll (c : ReadBlockCache β) : AllEntries P c.clearAll.entries := by
  cases c <;> exact allEntries_empty

end ReadBlockCache

end Entries

namespace State

variable {s s' : State β} {file block : Nat} {v : β}

def Held (s : State β) (m file block : Nat) (v : β) : Prop :=
  ∃ contents, (s.past ++ [s.now])[m]? = some contents ∧ contents file block = some v

def HeldSince (s : State β) (since file block : Nat) (v : β) : Prop :=
  ∃ m, since ≤ m ∧ s.Held m file block v

def Fresh (s : State β) (file block : Nat) (v : β) : Prop :=
  s.HeldSince (s.completed file) file block v

def Coherent (s : State β) : Prop :=
  AllEntries (fun k v => s.Fresh k.1 k.2 v) s.cache.entries

/-- Every answered reader has blocks not older than the last invalidation that
had completed when it took them. -/
def AnswersHeld (s : State β) : Prop :=
  ∀ t file since rows, s.readers t = .answered file since rows →
    ∀ row ∈ rows, s.HeldSince since file row.1 row.2

def RowsFresh (s : State β) (file : Nat) (rows : List (Nat × β)) : Prop :=
  ∀ row ∈ rows, s.Fresh file row.1 row.2

def NotAhead (s : State β) (file : Nat) (stamp : FileCacheStamp) : Prop :=
  stamp.epoch ≤ (s.gate.file file).2 ∧ stamp.cacheEpoch ≤ s.gate.cacheEpoch

def Gathered (s : State β) (file : Nat) (stamp : FileCacheStamp)
    (rows : List (Nat × β)) : Prop :=
  s.NotAhead file stamp ∧
    (s.gate.isCurrent file stamp = true → s.RowsFresh file rows)

def ReaderOk (s : State β) : Reader β → Prop
  | .looking r _ stamp _ cached _ => s.Gathered r.file stamp cached
  | .fetching r stamp cached _ fetched => s.Gathered r.file stamp (cached ++ fetched)
  | .answered file since rows => ∀ row ∈ rows, s.HeldSince since file row.1 row.2
  | _ => True

structure Ok (s : State β) : Prop where
  completed_le : ∀ file, s.completed file ≤ s.moment
  coherent : s.Coherent
  readers : ∀ t, s.ReaderOk (s.readers t)

lemma heldSince_now (h : s.now file block = some v) {since : Nat}
    (hsince : since ≤ s.moment) : s.HeldSince since file block v :=
  ⟨s.moment, hsince, s.now, by simp [moment], h⟩

lemma HeldSince.commit {since : Nat} (h : s.HeldSince since file block v)
    (contents : Contents β) :
    State.HeldSince { s with past := s.past ++ [s.now], now := contents }
      since file block v := by
  obtain ⟨m, hm, held, hheld, hv⟩ := h
  refine ⟨m, hm, held, ?_, hv⟩
  have hlt : m < (s.past ++ [s.now]).length := (List.getElem?_eq_some_iff.mp hheld).1
  show (s.past ++ [s.now] ++ [contents])[m]? = some held
  rw [List.getElem?_append_left hlt, hheld]

/-! ## Readers -/

section ReaderSteps

variable {r : ReadRequest} {owner : Bool} {stamp : FileCacheStamp}
  {cached fetched rows : List (Nat × β)} {missing : List Nat}

lemma RowsFresh.append (h : s.RowsFresh file cached) (h' : s.RowsFresh file fetched) :
    s.RowsFresh file (cached ++ fetched) := by
  intro row hrow
  exact (List.mem_append.mp hrow).elim (h row) (h' row)

lemma Gathered.append (h : s.Gathered file stamp cached)
    (hfresh : s.RowsFresh file fetched) : s.Gathered file stamp (cached ++ fetched) :=
  ⟨h.1, fun hcurrent => (h.2 hcurrent).append hfresh⟩

lemma gathered_snapshot (s : State β) (file : Nat) : s.Gathered file (s.gate.snapshot file) [] :=
  ⟨⟨Nat.le_refl _, Nat.le_refl _⟩, fun _ row hrow => by cases hrow⟩

lemma readerOk_retry (s : State β) (r : ReadRequest) : s.ReaderOk (.retry r) := trivial

lemma rowsFresh_get (h : s.Coherent) (hget : s.cache.get file block = some v) :
    s.RowsFresh file [(block, v)] := by
  intro row hrow
  obtain rfl := List.mem_singleton.mp hrow
  exact h (file, block) v hget

lemma rowsFresh_fetchBlockRange (hok : s.Ok) (file : Nat) (range : Nat × Nat) :
    s.RowsFresh file (fetchBlockRange s.now file range) := by
  intro row hrow
  obtain ⟨block, -, hrow⟩ := List.mem_filterMap.mp hrow
  obtain ⟨v, hv, rfl⟩ := Option.map_eq_some_iff.mp hrow
  exact heldSince_now hv (hok.completed_le file)

def StepOk (s : State β) (next : ReadBlockCache β × Reader β) : Prop :=
  AllEntries (fun k v => s.Fresh k.1 k.2 v) next.1.entries ∧ s.ReaderOk next.2

lemma stepOk_lookBlock (hok : s.Ok) (h : s.Gathered r.file stamp cached)
    (next : Nat) (place : LookIn) :
    s.StepOk (s.lookBlock r owner stamp next cached missing place) := by
  cases place with
  | recentWrites => exact ⟨hok.coherent, h⟩
  | disabled => exact ⟨hok.coherent, h⟩
  | readCache =>
    refine ⟨ReadBlockCache.allEntries_refresh hok.coherent _ _, ?_⟩
    simp only [lookBlock]
    split
    next v hv => exact h.append (rowsFresh_get hok.coherent hv)
    next => exact h

lemma readerOk_checkStamp (h : s.Gathered r.file stamp cached) (parallel : Bool) :
    s.ReaderOk (s.checkStamp r owner stamp cached missing parallel) := by
  unfold checkStamp
  split
  next => exact readerOk_retry s r
  next hcurrent =>
    have hfresh := h.2 (by simpa using hcurrent)
    split
    next => exact hfresh
    next =>
      split
      next => simpa [ReaderOk] using h
      next => trivial

lemma rowsFresh_sortBlocks (h : s.RowsFresh file rows) : s.RowsFresh file (sortBlocks rows) :=
  fun row hrow => h row ((List.mem_insertionSort _).mp hrow)

lemma rowsFresh_mergeSortedBlocks (h : s.RowsFresh file cached) (h' : s.RowsFresh file fetched) :
    s.RowsFresh file (mergeSortedBlocks cached fetched) :=
  fun row hrow => (List.mem_merge.mp hrow).elim (h row) (h' row)

lemma allEntries_storeReadBlocks (h : s.Coherent) (hrows : s.RowsFresh file rows) :
    AllEntries (fun k v => s.Fresh k.1 k.2 v) (s.storeReadBlocks file rows).entries := by
  unfold storeReadBlocks
  split
  · exact h
  · refine ReadBlockCache.allEntries_insertMany ?_ h _
    exact hrows

lemma stepOk_publishIfCurrent (hok : s.Ok) (h : s.Gathered r.file stamp (cached ++ fetched)) :
    s.StepOk (s.publishIfCurrent r stamp cached fetched) := by
  unfold publishIfCurrent
  split
  next hcurrent =>
    have hrows := h.2 hcurrent
    have hcached : s.RowsFresh r.file cached :=
      fun row hrow => hrows row (List.mem_append_left _ hrow)
    have hfetched : s.RowsFresh r.file (sortBlocks fetched) :=
      rowsFresh_sortBlocks fun row hrow => hrows row (List.mem_append_right _ hrow)
    exact ⟨allEntries_storeReadBlocks hok.coherent hfetched,
      rowsFresh_mergeSortedBlocks hcached hfetched⟩
  next => exact ⟨hok.coherent, readerOk_retry s r⟩

lemma stepOk_peekBlock (hok : s.Ok) (file block : Nat) : s.StepOk (s.peekBlock file block) := by
  refine ⟨ReadBlockCache.allEntries_refresh hok.coherent _ _, fun row hrow => ?_⟩
  obtain ⟨v, hv, rfl⟩ := List.mem_map.mp hrow
  exact hok.coherent (file, block) v (Option.mem_toList.mp hv)

lemma stepOk_readerStep (hok : s.Ok) {p : Reader β} (hp : s.ReaderOk p)
    {a : ReaderStep} {next : ReadBlockCache β × Reader β}
    (h : s.readerStep p a = some next) : s.StepOk next := by
  unfold readerStep at h
  split at h
  next r => cases h; exact ⟨hok.coherent, readerOk_retry s r⟩
  next r => cases h; exact ⟨hok.coherent, readerOk_retry s r⟩
  next r owner => cases h; exact ⟨hok.coherent, gathered_snapshot s r.file⟩
  next r owner stamp at' cached missing place =>
    split at h
    next => cases h; exact stepOk_lookBlock hok hp at' place
    next => cases h
  next r owner stamp at' cached missing parallel =>
    split at h
    next => cases h; exact ⟨hok.coherent, readerOk_checkStamp hp parallel⟩
    next => cases h
  next => cases h; exact ⟨hok.coherent, trivial⟩
  next r stamp cached pending fetched query =>
    obtain ⟨range, -, rfl⟩ := Option.map_eq_some_iff.mp h
    refine ⟨hok.coherent, ?_⟩
    have hgathered : s.Gathered r.file stamp
        (cached ++ fetched ++ fetchBlockRange s.now r.file range) :=
      Gathered.append hp (rowsFresh_fetchBlockRange hok r.file range)
    rwa [List.append_assoc] at hgathered
  next => cases h; exact ⟨hok.coherent, trivial⟩
  next => cases h; exact stepOk_publishIfCurrent hok hp
  next file block => cases h; exact stepOk_peekBlock hok file block
  next file block => cases h; exact stepOk_peekBlock hok file block
  next => cases h

end ReaderSteps

/-! ## Invalidations -/

def Room (s : State β) : Action β → Prop
  | .invalidate file => (s.gate.file file).2 < u64Max
  | .invalidateAll => s.gate.cacheEpoch < u64Max
  | _ => True

end State

namespace FileCacheGenerationGate

variable {g : FileCacheGenerationGate}

lemma file_invalidateAnd (file file' : Nat) :
    (g.invalidateAnd file).file file' =
      if file' = file then ((g.file file).1, saturatingAdd (g.file file).2 1)
      else g.file file' := by
  unfold FileCacheGenerationGate.file invalidateAnd
  rw [Table.lookup_insert_eq_ite]
  split <;> rfl

lemma epoch_invalidateAnd {file : Nat} (hroom : (g.file file).2 < u64Max)
    (file' : Nat) :
    ((g.invalidateAnd file).file file').2 =
      (g.file file').2 + if file' = file then 1 else 0 := by
  rw [file_invalidateAnd]
  split
  next h =>
    subst h
    exact Nat.min_eq_left hroom
  next => rfl

lemma cacheEpoch_invalidateAllAnd (hroom : g.cacheEpoch < u64Max) :
    g.invalidateAllAnd.cacheEpoch = g.cacheEpoch + 1 := by
  have hlt : g.cacheEpoch + 1 < 2 ^ 64 := by
    unfold u64Max at hroom
    omega
  exact Nat.mod_eq_of_lt hlt

lemma epoch_of_isCurrent {file : Nat} {stamp : FileCacheStamp}
    (h : g.isCurrent file stamp = true) : stamp.epoch = (g.file file).2 :=
  (congrArg FileCacheStamp.epoch (beq_iff_eq.mp h)).symm

lemma cacheEpoch_of_isCurrent {file : Nat} {stamp : FileCacheStamp}
    (h : g.isCurrent file stamp = true) : stamp.cacheEpoch = g.cacheEpoch :=
  (congrArg FileCacheStamp.cacheEpoch (beq_iff_eq.mp h)).symm

end FileCacheGenerationGate

namespace State

variable {s s' : State β} {file : Nat} {stamp : FileCacheStamp} {rows : List (Nat × β)}

def invalidated (s : State β) (file : Nat) : State β :=
  { s with
    gate := s.gate.invalidateAnd file
    cache := s.cache.clearFile file
    completed := Function.update s.completed file s.moment }

def allInvalidated (s : State β) : State β :=
  { s with
    gate := s.gate.invalidateAllAnd
    cache := s.cache.clearAll
    completed := fun _ => s.moment }

lemma fresh_invalidated_of_ne {file' block : Nat} {v : β} (hne : file' ≠ file)
    (h : s.Fresh file' block v) : (s.invalidated file).Fresh file' block v := by
  have hcompleted : (s.invalidated file).completed file' = s.completed file' :=
    Function.update_of_ne hne _ _
  unfold Fresh
  rw [hcompleted]
  exact h

lemma Gathered.invalidated {file' : Nat} (h : s.Gathered file' stamp rows)
    (hroom : (s.gate.file file).2 < u64Max) : (s.invalidated file).Gathered file' stamp rows := by
  have hepoch : ((s.invalidated file).gate.file file').2 =
      (s.gate.file file').2 + if file' = file then 1 else 0 :=
    FileCacheGenerationGate.epoch_invalidateAnd hroom file'
  refine ⟨⟨?_, h.1.2⟩, fun hcurrent => ?_⟩
  · rw [hepoch]
    exact Nat.le_trans h.1.1 (Nat.le_add_right _ _)
  · have hstamp := FileCacheGenerationGate.epoch_of_isCurrent hcurrent
    rw [hepoch] at hstamp
    have hle := h.1.1
    by_cases hfile : file' = file
    · rw [if_pos hfile] at hstamp
      omega
    · intro row hrow
      refine fresh_invalidated_of_ne hfile (h.2 ?_ row hrow)
      have hsame : (s.invalidated file).gate.file file' = s.gate.file file' := by
        refine (FileCacheGenerationGate.file_invalidateAnd file file').trans ?_
        rw [if_neg hfile]
      have hsnapshot : (s.invalidated file).gate.snapshot file' = s.gate.snapshot file' := by
        unfold FileCacheGenerationGate.snapshot
        rw [hsame]
        rfl
      unfold FileCacheGenerationGate.isCurrent at hcurrent ⊢
      rwa [hsnapshot] at hcurrent

lemma Gathered.allInvalidated (h : s.Gathered file stamp rows)
    (hroom : s.gate.cacheEpoch < u64Max) : s.allInvalidated.Gathered file stamp rows := by
  have hepoch : s.allInvalidated.gate.cacheEpoch = s.gate.cacheEpoch + 1 :=
    FileCacheGenerationGate.cacheEpoch_invalidateAllAnd hroom
  have hle := h.1.2
  refine ⟨⟨h.1.1, by omega⟩, fun hcurrent => ?_⟩
  have hstamp := FileCacheGenerationGate.cacheEpoch_of_isCurrent hcurrent
  omega

lemma ReaderOk.imp {p : Reader β} (h : s.ReaderOk p)
    (hgathered : ∀ file stamp rows, s.Gathered file stamp rows → s'.Gathered file stamp rows)
    (hheld : ∀ since file block v, s.HeldSince since file block v →
      s'.HeldSince since file block v) : s'.ReaderOk p := by
  cases p with
  | looking r owner stamp next cached missing => exact hgathered _ _ _ h
  | fetching r stamp cached pending fetched => exact hgathered _ _ _ h
  | answered file since rows => exact fun row hrow => hheld _ _ _ _ (h row hrow)
  | _ => trivial

lemma Ok.invalidated (h : s.Ok) (hroom : (s.gate.file file).2 < u64Max) :
    (s.invalidated file).Ok where
  completed_le file' := by
    by_cases hfile : file' = file
    · subst hfile
      exact Nat.le_of_eq (Function.update_self _ _ _)
    · exact Nat.le_trans (Nat.le_of_eq (Function.update_of_ne hfile _ _))
        (h.completed_le file')
  coherent :=
    ReadBlockCache.allEntries_clearFile h.coherent
      fun _ _ hne hfresh => fresh_invalidated_of_ne hne hfresh
  readers t :=
    (h.readers t).imp (fun _ _ _ hgathered => hgathered.invalidated hroom)
      fun _ _ _ _ hheld => hheld

lemma Ok.allInvalidated (h : s.Ok) (hroom : s.gate.cacheEpoch < u64Max) : s.allInvalidated.Ok where
  completed_le _ := Nat.le_refl _
  coherent := ReadBlockCache.allEntries_clearAll _
  readers t :=
    (h.readers t).imp (fun _ _ _ hgathered => hgathered.allInvalidated hroom)
      fun _ _ _ _ hheld => hheld

lemma Ok.commit (h : s.Ok) (contents : Contents β) :
    Ok { s with past := s.past ++ [s.now], now := contents } where
  completed_le file := by
    have := h.completed_le file
    simp only [moment, List.length_append, List.length_singleton] at this ⊢
    omega
  coherent k v hlookup := (h.coherent k v hlookup).commit contents
  readers t :=
    (h.readers t).imp
      (fun _ _ _ hgathered => ⟨hgathered.1, fun hcurrent row hrow =>
        (hgathered.2 hcurrent row hrow).commit contents⟩)
      fun _ _ _ _ hheld => hheld.commit contents

lemma Ok.reader (h : s.Ok) {next : ReadBlockCache β × Reader β} (hnext : s.StepOk next)
    (t : Nat) :
    Ok { s with cache := next.1, readers := Function.update s.readers t next.2 } where
  completed_le := h.completed_le
  coherent := hnext.1
  readers t' := by
    show State.ReaderOk _ (Function.update s.readers t next.2 t')
    have ht : s.ReaderOk (Function.update s.readers t next.2 t') := by
      by_cases heq : t' = t
      · rw [heq, Function.update_self]
        exact hnext.2
      · rw [Function.update_of_ne heq]
        exact h.readers t'
    exact ht.imp (fun _ _ _ hgathered => hgathered) fun _ _ _ _ hheld => hheld

lemma Ok.step (h : s.Ok) {a : Action β} (hroom : s.Room a)
    (hstep : step s a = some s') : s'.Ok := by
  cases a with
  | reader t a =>
    obtain ⟨next, hnext, rfl⟩ := Option.map_eq_some_iff.mp hstep
    exact h.reader (stepOk_readerStep h (h.readers t) hnext) t
  | commit contents =>
    cases hstep
    exact h.commit contents
  | invalidate file =>
    cases hstep
    exact h.invalidated hroom
  | invalidateAll =>
    cases hstep
    exact h.allInvalidated hroom
  | reload settings =>
    cases hstep
    exact ⟨h.completed_le, h.coherent, fun t =>
      (h.readers t).imp (fun _ _ _ hgathered => hgathered) fun _ _ _ _ hheld => hheld⟩

lemma ok_initial (policy : ReadCacheEvictionPolicy) (settings : Settings)
    (contents : Contents β) : (initial policy settings contents).Ok where
  completed_le _ := Nat.le_refl _
  coherent := ReadBlockCache.allEntries_new policy
  readers _ := trivial

end State

namespace Action

def invalidates (file : Nat) : Action β → Bool
  | .invalidate file' => file' == file
  | _ => false

def invalidatesAll : Action β → Bool
  | .invalidateAll => true
  | _ => false

end Action

namespace State

variable {s s' : State β}

lemma counters_step {a : Action β} (hroom : s.Room a) (hstep : step s a = some s') :
    (∀ file, (s'.gate.file file).2 =
        (s.gate.file file).2 + if a.invalidates file then 1 else 0) ∧
      s'.gate.cacheEpoch = s.gate.cacheEpoch + if a.invalidatesAll then 1 else 0 := by
  cases a with
  | reader t a =>
    obtain ⟨next, -, rfl⟩ := Option.map_eq_some_iff.mp hstep
    exact ⟨fun _ => rfl, rfl⟩
  | invalidate file =>
    cases hstep
    refine ⟨fun file' => ?_, rfl⟩
    refine (FileCacheGenerationGate.epoch_invalidateAnd hroom file').trans ?_
    by_cases hfile : file' = file
    · simp [Action.invalidates, hfile]
    · simp [Action.invalidates, hfile, Ne.symm hfile]
  | invalidateAll =>
    cases hstep
    exact ⟨fun _ => rfl, FileCacheGenerationGate.cacheEpoch_invalidateAllAnd hroom⟩
  | commit contents | reload settings =>
    cases hstep
    exact ⟨fun _ => rfl, rfl⟩

lemma along_room (trace : List (Action β))
    (hfile : ∀ file, (s.gate.file file).2 + trace.countP (Action.invalidates file) ≤ u64Max)
    (hall : s.gate.cacheEpoch + trace.countP Action.invalidatesAll ≤ u64Max) :
    Along step Room s trace := by
  induction trace generalizing s with
  | nil => trivial
  | cons a rest ih =>
    simp only [List.countP_cons] at hfile hall
    have hroom : s.Room a := by
      cases a with
      | invalidate file =>
        have := hfile file
        simp only [Action.invalidates, beq_self_eq_true, if_true] at this
        show (s.gate.file file).2 < u64Max
        omega
      | invalidateAll =>
        simp only [Action.invalidatesAll, if_true] at hall
        show s.gate.cacheEpoch < u64Max
        omega
      | reader _ _ | commit _ | reload _ => trivial
    refine ⟨hroom, ?_⟩
    cases hstep : step s a with
    | none => trivial
    | some mid =>
      obtain ⟨hepoch, hcache⟩ := counters_step hroom hstep
      refine ih (fun file => ?_) ?_
      · rw [hepoch file, Nat.add_assoc, Nat.add_comm (ite _ _ _)]
        exact hfile file
      · rw [hcache, Nat.add_assoc, Nat.add_comm (ite _ _ _)]
        exact hall

/--
Whatever the number of readers and however their fills interleave with
commits, invalidations and reconfigurations: as long as no file is invalidated
`2 ^ 64` times, nor the whole cache, every block in the read cache has a value
that the store held not earlier than the completion of the last invalidation
of its file, and so has every block that a reader obtained.
-/
theorem cached_blocks_fresh (policy : ReadCacheEvictionPolicy) (settings : Settings)
    (contents : Contents β) (trace : List (Action β))
    (hrun : run step (initial policy settings contents) trace = some s)
    (hfile : ∀ file, trace.countP (Action.invalidates file) < 2 ^ 64)
    (hall : trace.countP Action.invalidatesAll < 2 ^ 64) :
    s.Coherent ∧ s.AnswersHeld := by
  have hroom : Along step Room (initial policy settings contents) trace := by
    refine along_room trace (fun file => ?_) ?_
    · have hzero : ((initial policy settings contents).gate.file file).2 = 0 := rfl
      have := hfile file
      unfold u64Max
      omega
    · have hzero : (initial policy settings contents).gate.cacheEpoch = 0 := rfl
      unfold u64Max
      omega
  have hok : s.Ok :=
    run_invariant (fun _ _ _ h hguard hstep => h.step hguard hstep)
      (ok_initial policy settings contents) hroom hrun
  refine ⟨hok.coherent, fun t file since rows ht => ?_⟩
  have hreader := hok.readers t
  rw [ht] at hreader
  exact hreader

section LateFill

def oneBlock : Settings := ⟨1, 0, false⟩

def holding (v : Bool) : Contents Bool :=
  fun file block => if file = 0 ∧ block = 0 then some v else none

def counted (n : Nat) : State Bool :=
  { initial .fifo oneBlock (holding false) with gate := ⟨0, AList.singleton 0 (0, n)⟩ }

/-- A fill of the block under way when the store changes and the file is
invalidated. -/
def lateFill : List (Action Bool) :=
  [.reader 1 (.begin ⟨0, 0, 0, false⟩), .reader 1 .snapshot, .reader 1 (.look .readCache),
    .reader 1 (.check false), .reader 1 (.fetch 0), .commit (holding true),
    .invalidate 0, .reader 1 .publish]

/-- The late fill is turned away after a first invalidation. -/
theorem cached_blocks_fresh_lateFill :
    ∃ s, run step (initial .fifo oneBlock (holding false)) lateFill = some s ∧
      s.readers 1 = .starting ⟨0, 0, 0, false⟩ true ∧ s.Coherent ∧ s.AnswersHeld := by
  have hfew : ∀ count : Action Bool → Bool, lateFill.countP count < 2 ^ 64 :=
    fun _ => Nat.lt_of_le_of_lt List.countP_le_length (by decide)
  exact ⟨_, rfl, rfl, cached_blocks_fresh .fifo oneBlock (holding false) lateFill rfl
    (fun _ => hfew _) (hfew _)⟩

lemma step_counted {n : Nat} (hn : n < u64Max) :
    step (counted n) (.invalidate 0) = some (counted (n + 1)) := by
  have hadd : saturatingAdd n 1 = n + 1 := Nat.min_eq_left hn
  have hgate : (counted n).gate.invalidateAnd 0 = (counted (n + 1)).gate := by
    show FileCacheGenerationGate.mk 0
      (AList.insert 0 (0, saturatingAdd n 1) (AList.singleton 0 (0, n))) = _
    rw [hadd, AList.insert_singleton_eq]
    rfl
  have hcompleted : Function.update (counted n).completed 0 (counted n).moment =
      (counted n).completed := Function.update_eq_self 0 _
  simp only [step, hgate, hcompleted]
  rfl

lemma run_counted (k : Nat) {n : Nat} (h : n + k ≤ u64Max) :
    run step (counted n) (List.replicate k (.invalidate 0)) = some (counted (n + k)) := by
  induction k generalizing n with
  | zero => rfl
  | succ k ih =>
    rw [List.replicate_succ]
    refine run_cons_eq_some.mpr ⟨counted (n + 1), step_counted (by omega), ?_⟩
    rw [ih (by omega), Nat.add_right_comm]
    rfl

/-- With the counter at its maximum the invalidation leaves the stamp of a fill
current, and the fill publishes the block it fetched before the change. -/
theorem late_fill_published :
    ∃ s : State Bool,
      run step (initial .fifo oneBlock (holding false))
        (.invalidate 0 :: List.replicate (u64Max - 1) (.invalidate 0) ++ lateFill) = some s ∧
      s.cache.get 0 0 = some false ∧ ¬ s.Coherent := by
  have hfirst : step (initial .fifo oneBlock (holding false)) (.invalidate 0) =
      some (counted 1) := by
    have hcompleted : Function.update (fun _ : Nat => 0) 0 0 = fun _ => 0 :=
      Function.update_eq_self 0 _
    show some { counted 1 with completed := Function.update (fun _ : Nat => 0) 0 0 } = _
    rw [hcompleted]
    rfl
  have hmany : run step (counted 1) (List.replicate (u64Max - 1) (.invalidate 0)) =
      some (counted u64Max) := run_counted (u64Max - 1) (by decide)
  obtain ⟨s, hlate, hcached, hcompleted, hpast, hnow⟩ : ∃ s,
      run step (counted u64Max) lateFill = some s ∧ s.cache.get 0 0 = some false ∧
      s.completed 0 = 1 ∧ s.past = [holding false] ∧ s.now = holding true :=
    ⟨_, rfl, rfl, rfl, rfl, rfl⟩
  refine ⟨s, ?_, hcached, fun hcoherent => ?_⟩
  · rw [run_append (run_cons_eq_some.mpr ⟨_, hfirst, hmany⟩), hlate]
  · obtain ⟨m, hm, contents, hheld, hv⟩ := hcoherent (0, 0) false hcached
    rw [hpast, hnow] at hheld
    rw [hcompleted] at hm
    match m, hm, hheld with
    | 1, _, hheld =>
      cases hheld
      exact absurd hv (by decide)
    | m + 2, _, hheld => cases hheld

end LateFill

end State

end Fod.ReadCache
