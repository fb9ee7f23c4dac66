import Fod.Index.Model

/-!
# The stored duplicate sets after a round of scans and hash runs

A candidate hash run hashes the files whose size another indexed file has, and
leaves every other row of `index_file_hashes` as it is.  Such a leftover row
may describe a file that has changed since, or that a scan no longer finds, and
it still counts when the duplicate sets are rebuilt.
-/

namespace Fod.Index

variable {sha256 : Bytes → Bytes} {settings : IndexerSettings} {sources : List Nat}
  {disk : Nat → SourceTree} {tree : SourceTree} {c c' : Catalogue} {id : Nat} {row : IndexFile}
  {key : DuplicateKey}

section Expected

variable (sha256 : Bytes → Bytes) (settings : IndexerSettings) (disk : Nat → SourceTree)
  (c : Catalogue)

def IndexedNow (row : IndexFile) : Prop :=
  eligibleHashFile settings row = true ∧ (disk row.source).stat row.path = some row.snapshot

instance : DecidablePred (IndexedNow settings disk) := fun _ => inferInstanceAs (Decidable (_ ∧ _))

def sameContent (size : Nat) (content : Bytes) : List Nat :=
  c.files.keysWith fun row => decide (IndexedNow settings disk row ∧ row.snapshot.size = size ∧
    (disk row.source).opened row.path = .bytes content)

structure ExactDuplicateSets : Prop where
  stored : ∀ size content, 1 < (sameContent settings disk c size content).length →
    ∃ set, c.duplicateSets.lookup ⟨.sha256, sha256 content, size⟩ = some set ∧
      set.fileCount = (sameContent settings disk c size content).length
  only : ∀ key set, c.duplicateSets.lookup key = some set →
    ∃ content, key = ⟨.sha256, sha256 content, key.fileSize⟩ ∧
      1 < (sameContent settings disk c key.fileSize content).length

def HashedAgain (row : IndexFile) : Prop :=
  eligibleHashFile settings row = true ∧ globalCandidateSize c.files row.snapshot.size = true

instance : DecidablePred (HashedAgain settings c) := fun _ => inferInstanceAs (Decidable (_ ∧ _))

def LeftoverKey (id : Nat) (key : DuplicateKey) : Prop :=
  ∃ row hash, c.files.lookup id = some row ∧ c.hashes.lookup id = some hash ∧
    groupKey settings c.files id hash = some key ∧ ¬ HashedAgain settings c row

def ContentKey (id : Nat) (key : DuplicateKey) : Prop :=
  ∃ row content, c.files.lookup id = some row ∧ HashedAgain settings c row ∧
    (disk row.source).stat row.path = some row.snapshot ∧
    (disk row.source).opened row.path = .bytes content ∧
    key = ⟨.sha256, sha256 content, row.snapshot.size⟩

/-- No leftover hash is that of another leftover, or of a file hashed again. -/
def LeftoversApart : Prop :=
  ∀ id key, LeftoverKey settings c id key → ∀ other, other ≠ id →
    ¬ LeftoverKey settings c other key ∧ ¬ ContentKey sha256 settings disk c other key

def FoundOk (source : Nat) (path : RelPath) (snapshot : FileSnapshot) : Prop :=
  path ≠ [] ∧ isIgnoredFileRelativePath settings path = false ∧
    (∃ len, WalkItem.entry path .regular len ∈ (disk source).walk) ∧
    (disk source).stat path = some snapshot ∧ snapshot.size ≠ 0 ∧
    (disk source).opened path ≠ .denied

def NoCollisions : Prop :=
  ∀ source path content source' path' content',
    (disk source).opened path = .bytes content → (disk source').opened path' = .bytes content' →
    sha256 content = sha256 content' → content = content'

end Expected

/-! ## One hash run -/

def HashedNow (sha256 : Bytes → Bytes) (tree : SourceTree) (row : IndexFile)
    (hash : IndexFileHash) : Prop :=
  (tree.stat row.path = some row.snapshot ∧ ∃ content partialHash,
      tree.opened row.path = .bytes content ∧
      hash = ⟨.sha256, some partialHash, some (sha256 content), .full, row.snapshot⟩) ∨
    (tree.stat row.path ≠ some row.snapshot ∧ ∃ observed, hash = changedRetryRow observed)

variable {path : RelPath} {content : Bytes} {source : Nat} {files : List (Nat × IndexFile)}
  {order : List Nat} {rows : List IndexFile} {size : Nat}

lemma SourceTree.snapshot_ok {snapshot : FileSnapshot}
    (h : tree.snapshot path = .ok snapshot) : tree.stat path = some snapshot := by
  unfold SourceTree.snapshot at h
  split at h
  · cases h
  · cases h
    assumption

lemma SourceTree.content_ok
    (h : tree.content path = .ok content) : tree.opened path = .bytes content := by
  unfold SourceTree.content at h
  split at h
  · cases h
  · cases h
  · cases h
    assumption

lemma partialResult_ok {result : (Nat × IndexFileHash) × Option PartialHashResult}
    (h : partialResult sha256 (fun _ _ => tree) (id, row) = .ok result) :
    (tree.stat row.path = some row.snapshot ∧ ∃ hash partialHash,
        result = ((id, hash), some ⟨id, row, row.snapshot, partialHash⟩)) ∨
      (tree.stat row.path ≠ some row.snapshot ∧ ∃ observed,
        result = ((id, changedRetryRow observed), none)) := by
  obtain ⟨snapshot, hsnapshot, h⟩ := Scan.ok_of_bind h
  have hstat := SourceTree.snapshot_ok hsnapshot
  by_cases hsame : snapshot = row.snapshot
  · subst hsame
    rw [if_neg (by simp)] at h
    obtain ⟨content, hcontent, h⟩ := Scan.ok_of_bind h
    obtain ⟨after, hafter, h⟩ := Scan.ok_of_bind h
    obtain rfl : row.snapshot = after :=
      Option.some.inj (hstat.symm.trans (SourceTree.snapshot_ok hafter))
    rw [if_neg (by simp)] at h
    cases h
    exact .inl ⟨hstat, _, _, rfl⟩
  · rw [if_pos hsame] at h
    cases h
    refine .inr ⟨fun hnow => hsame ?_, snapshot, rfl⟩
    exact Option.some.inj (hstat.symm.trans hnow)

lemma fullResult_ok {partialHash : Bytes} {result : Nat × IndexFileHash}
    (hstat : tree.stat row.path = some row.snapshot)
    (h : fullResult sha256 (fun _ _ => tree) ⟨id, row, row.snapshot, partialHash⟩ = .ok result) :
    ∃ hash, result = (id, hash) ∧ HashedNow sha256 tree row hash := by
  obtain ⟨before, hbefore, h⟩ := Scan.ok_of_bind h
  obtain rfl : row.snapshot = before :=
    Option.some.inj (hstat.symm.trans (SourceTree.snapshot_ok hbefore))
  rw [if_neg (by simp)] at h
  obtain ⟨content, hcontent, h⟩ := Scan.ok_of_bind h
  obtain ⟨after, hafter, h⟩ := Scan.ok_of_bind h
  obtain rfl : row.snapshot = after :=
    Option.some.inj (hstat.symm.trans (SourceTree.snapshot_ok hafter))
  rw [if_neg (by simp)] at h
  cases h
  exact ⟨_, rfl, .inl ⟨hstat, content, partialHash, SourceTree.content_ok hcontent, rfl⟩⟩

lemma mem_selectHashScope {candidatesOnly : Bool} :
    (id, row) ∈ selectHashScope settings candidatesOnly source c.files ↔
      c.files.lookup id = some row ∧ row.source = source ∧ eligibleHashFile settings row = true ∧
        (candidatesOnly = true → globalCandidateSize c.files row.snapshot.size = true) := by
  rw [Table.lookup_eq_some, selectHashScope, List.mem_filter, List.mem_map]
  cases candidatesOnly <;> simp [and_assoc]

lemma stagedHashes_ok {rows : List (Nat × IndexFileHash)}
    (h : stagedHashes sha256 true (fun _ _ => tree) files = .ok rows) :
    ∃ first full, rows = first ++ full ∧
      (∀ id hash, (id, hash) ∈ full → ∃ row, (id, row) ∈ files ∧ HashedNow sha256 tree row hash) ∧
      (∀ id row, (id, row) ∈ files → tree.stat row.path = some row.snapshot →
        ∃ hash, (id, hash) ∈ full) ∧
      (∀ id hash, (id, hash) ∈ first → ∃ row, (id, row) ∈ files ∧
        (tree.stat row.path ≠ some row.snapshot → HashedNow sha256 tree row hash)) ∧
      ∀ id row, (id, row) ∈ files → ∃ hash, (id, hash) ∈ first := by
  obtain ⟨first, hfirst, h⟩ := Scan.ok_of_bind h
  obtain ⟨full, hfull, h⟩ := Scan.ok_of_bind h
  cases h
  obtain ⟨htoFirst, hofFirst⟩ := Scan.mapM_ok hfirst
  obtain ⟨htoFull, hofFull⟩ := Scan.mapM_ok hfull
  refine ⟨first.map Prod.fst, full, rfl, ?_, ?_, ?_, ?_⟩
  · intro id hash hmem
    obtain ⟨item, hitem, hrun⟩ := hofFull _ hmem
    have hsampled := List.reduceOption_mem_iff.mp (List.mem_filter.mp hitem).1
    obtain ⟨result, hresult, hsome⟩ := List.mem_map.mp hsampled
    obtain ⟨⟨id', row⟩, hrow, hpartial⟩ := hofFirst result hresult
    rcases partialResult_ok hpartial with ⟨hstat, _, partialHash, rfl⟩ | ⟨_, _, rfl⟩
    · cases hsome
      obtain ⟨hash', hpair, hnow⟩ := fullResult_ok hstat hrun
      cases hpair
      exact ⟨row, hrow, hnow⟩
    · cases hsome
  · intro id row hrow hstat
    obtain ⟨result, hresult, hpartial⟩ := htoFirst _ hrow
    rcases partialResult_ok hpartial with ⟨_, _, partialHash, rfl⟩ | ⟨hchanged, _⟩
    · have hitem := List.reduceOption_mem_iff.mpr (List.mem_map_of_mem (f := Prod.snd) hresult)
      obtain ⟨pair, hmem, hrun⟩ := htoFull _ (List.mem_filter.mpr ⟨hitem, rfl⟩)
      obtain ⟨hash, rfl, _⟩ := fullResult_ok hstat hrun
      exact ⟨hash, hmem⟩
    · exact absurd hstat hchanged
  · intro id hash hmem
    obtain ⟨result, hresult, hpair⟩ := List.mem_map.mp hmem
    obtain ⟨⟨id', row⟩, hrow, hpartial⟩ := hofFirst result hresult
    rcases partialResult_ok hpartial with ⟨hstat, _, _, rfl⟩ | ⟨_, observed, rfl⟩
    · cases hpair
      exact ⟨row, hrow, fun hchanged => absurd hstat hchanged⟩
    · cases hpair
      exact ⟨row, hrow, fun hchanged => .inr ⟨hchanged, observed, rfl⟩⟩
  · intro id row hrow
    obtain ⟨result, hresult, hpartial⟩ := htoFirst _ hrow
    rcases partialResult_ok hpartial with ⟨_, hash, _, rfl⟩ | ⟨_, observed, rfl⟩
    · exact ⟨hash, List.mem_map.mpr ⟨_, hresult, rfl⟩⟩
    · exact ⟨_, List.mem_map.mpr ⟨_, hresult, rfl⟩⟩

lemma lookup_stagedHashes {rows : List (Nat × IndexFileHash)}
    (hunique : ∀ row', (id, row') ∈ files → row' = row)
    (h : stagedHashes sha256 true (fun _ _ => tree) files = .ok rows)
    (hrow : (id, row) ∈ files) (t : Table Nat IndexFileHash) :
    ∃ hash, HashedNow sha256 tree row hash ∧
      (rows.foldl (fun t row => t.insert row.1 row.2) t).lookup id = some hash := by
  obtain ⟨first, full, rfl, hofFull, htoFull, hofFirst, htoFirst⟩ := stagedHashes_ok h
  rw [List.foldl_append]
  rcases Table.lookup_foldl_insert_cases full
      (first.foldl (fun t row => t.insert row.1 row.2) t) id with
    ⟨hash, hhash, hlookup⟩ | ⟨hnone, hlookup⟩
  · obtain ⟨row', hrow', hnow⟩ := hofFull id hash hhash
    rw [hunique row' hrow'] at hnow
    exact ⟨hash, hnow, hlookup⟩
  · have hchanged : tree.stat row.path ≠ some row.snapshot := by
      intro hstat
      obtain ⟨hash, hhash⟩ := htoFull id row hrow hstat
      exact hnone hash hhash
    rw [hlookup]
    rcases Table.lookup_foldl_insert_cases first t id with
      ⟨hash, hhash, hlookupFirst⟩ | ⟨hnoneFirst, _⟩
    · obtain ⟨row', hrow', hnow⟩ := hofFirst id hash hhash
      rw [hunique row' hrow'] at hnow
      exact ⟨hash, hnow hchanged, hlookupFirst⟩
    · obtain ⟨hash, hhash⟩ := htoFirst id row hrow
      exact absurd hhash (hnoneFirst hash)

lemma lookup_stagedHashes_of_notMem
    {rows : List (Nat × IndexFileHash)} (hnot : ∀ row, (id, row) ∉ files)
    (h : stagedHashes sha256 true (fun _ _ => tree) files = .ok rows)
    (t : Table Nat IndexFileHash) :
    (rows.foldl (fun t row => t.insert row.1 row.2) t).lookup id = t.lookup id := by
  obtain ⟨first, full, rfl, hofFull, _, hofFirst, _⟩ := stagedHashes_ok h
  rcases Table.lookup_foldl_insert_cases (first ++ full) t id with ⟨hash, hhash, _⟩ | ⟨_, hlookup⟩
  · rcases List.mem_append.mp hhash with hmem | hmem
    · obtain ⟨row, hrow, _⟩ := hofFirst id hash hmem
      exact absurd hrow (hnot row)
    · obtain ⟨row, hrow, _⟩ := hofFull id hash hmem
      exact absurd hrow (hnot row)
  · exact hlookup

lemma mem_groupMembers : id ∈ groupMembers settings c key ↔
    ∃ hash, c.hashes.lookup id = some hash ∧ groupKey settings c.files id hash = some key := by
  rw [groupMembers, Table.mem_keys_keep]
  simp

lemma exists_file_of_groupMembers (hcount : 1 < (groupMembers settings c key).length) :
    ∃ id row, c.files.lookup id = some row := by
  obtain ⟨id, hid⟩ := List.exists_mem_of_length_pos (Nat.zero_lt_of_lt hcount)
  obtain ⟨hash, _, hkey⟩ := mem_groupMembers.mp hid
  obtain ⟨row, hrow, _⟩ := Option.bind_eq_some_iff.mp hkey
  exact ⟨id, row, hrow⟩

lemma nodup_groupMembers : (groupMembers settings c key).Nodup :=
  AList.keys_nodup _

lemma mem_duplicateKeys : key ∈ duplicateKeys settings c ↔
    1 < (groupMembers settings c key).length := by
  rw [duplicateKeys, List.mem_filter, decide_eq_true_iff, List.mem_dedup, List.mem_filterMap]
  refine ⟨And.right, fun hcount => ⟨?_, hcount⟩⟩
  obtain ⟨id, hid⟩ := List.exists_mem_of_length_pos (Nat.zero_lt_of_lt hcount)
  obtain ⟨hash, hlookup, hkey⟩ := mem_groupMembers.mp hid
  exact ⟨⟨id, hash⟩, Table.lookup_eq_some.mp hlookup, hkey⟩

def Rebuilt (settings : IndexerSettings) (c : Catalogue) : Prop :=
  ∀ key, c.duplicateSets.lookup key =
    if 1 < (groupMembers settings c key).length then some (duplicateRow settings c key) else none

lemma rebuildDuplicateSets_ok {n : Nat} (h : rebuildDuplicateSets settings c = (.ok n, c')) :
    c' = { c with duplicateSets := c'.duplicateSets } ∧ Rebuilt settings c' := by
  unfold rebuildDuplicateSets at h
  simp only at h
  split at h
  · cases h
    refine ⟨rfl, fun key => ?_⟩
    have hfold := Table.lookup_foldl (k := key)
      (fun t key => t.insert key (duplicateRow settings c key)) id
      (fun key _ => some (duplicateRow settings c key)) (fun _ _ => rfl) (duplicateKeys settings c)
      (fun row _ t k => by
        rw [Table.lookup_insert_eq_ite]
        by_cases hk : k = row <;> simp [hk]) ∅
    rw [List.map_id] at hfold
    have hsame : (key ∈ duplicateKeys settings c) = (1 < (groupMembers settings c key).length) :=
      propext mem_duplicateKeys
    simp only [hsame] at hfold
    exact hfold
  · cases h

structure HashedRound (sha256 : Bytes → Bytes) (settings : IndexerSettings)
    (disk : Nat → SourceTree) (c : Catalogue) (done : List Nat) (c' : Catalogue) : Prop where
  files : c'.files = c.files
  again : ∀ id row, c.files.lookup id = some row → HashedAgain settings c row →
    row.source ∈ done → ∃ hash, c'.hashes.lookup id = some hash ∧
      HashedNow sha256 (disk row.source) row hash
  leftover : ∀ id, (∀ row, c.files.lookup id = some row → HashedAgain settings c row →
    row.source ∉ done) → c'.hashes.lookup id = c.hashes.lookup id
  rebuilt : done ≠ [] → Rebuilt settings c'

lemma loadSource_ok (h : loadSource sources source = .ok ()) : source ∈ sources := by
  unfold loadSource at h
  split at h
  · assumption
  · cases h

lemma hashSource_ok {candidatesOnly : Bool} {view : Nat → Moment → SourceTree} {source n : Nat}
    (h : hashSource sha256 settings sources candidatesOnly view source c = (.ok n, c')) :
    source ∈ sources ∧ ∃ rows, stagedHashes sha256 candidatesOnly view
        (selectHashScope settings candidatesOnly source c.files) = .ok rows ∧
      rebuildDuplicateSets settings (upsertIndexFileHashesStaged rows c) = (.ok n, c') := by
  unfold hashSource at h
  split at h
  · cases h
  next hload =>
    split at h
    · cases h
    next rows hrows => exact ⟨loadSource_ok hload, rows, hrows, h⟩

lemma HashedRound.step {done : List Nat} {mid : Catalogue} {source n : Nat}
    (hround : HashedRound sha256 settings disk c done mid)
    (h : hashSource sha256 settings sources true (fun _ _ => disk source) source mid = (.ok n, c')) :
    HashedRound sha256 settings disk c (done ++ [source]) c' := by
  obtain ⟨_, rows, hrows, hrebuild⟩ := hashSource_ok h
  obtain ⟨hsame, hrebuilt⟩ := rebuildDuplicateSets_ok hrebuild
  have hfiles : c'.files = _ := congrArg Catalogue.files hsame
  have hhashes : c'.hashes = _ := congrArg Catalogue.hashes hsame
  have hscope : ∀ id row, (id, row) ∈ selectHashScope settings true source mid.files ↔
      c.files.lookup id = some row ∧ row.source = source ∧ HashedAgain settings c row := by
    intro id row
    rw [mem_selectHashScope, hround.files]
    simp [HashedAgain]
  refine ⟨hfiles.trans hround.files, fun id row hrow hagain hdone => ?_, fun id hid => ?_,
    fun _ => hrebuilt⟩
  · rw [hhashes]
    by_cases hsource : row.source = source
    · have hunique : ∀ row', (id, row') ∈ selectHashScope settings true source mid.files →
          row' = row := fun row' hrow' =>
        Option.some.inj (((hscope id row').mp hrow').1.symm.trans hrow)
      obtain ⟨hash, hnow, hlookup⟩ := lookup_stagedHashes hunique hrows
        ((hscope id row).mpr ⟨hrow, hsource, hagain⟩) mid.hashes
      rw [← hsource] at hnow
      exact ⟨hash, hlookup, hnow⟩
    · have hbefore : row.source ∈ done := by simpa [hsource] using hdone
      obtain ⟨hash, hlookup, hnow⟩ := hround.again id row hrow hagain hbefore
      refine ⟨hash, ?_, hnow⟩
      refine (lookup_stagedHashes_of_notMem (fun row' hrow' => hsource ?_) hrows
        mid.hashes).trans hlookup
      obtain ⟨hlookup', hsource', _⟩ := (hscope id row').mp hrow'
      rwa [Option.some.inj (hrow.symm.trans hlookup')]
  · rw [hhashes]
    refine (lookup_stagedHashes_of_notMem (fun row hrow => ?_) hrows mid.hashes).trans
      (hround.leftover id fun row hrow hagain hdone =>
        hid row hrow hagain (List.mem_append_left _ hdone))
    obtain ⟨hlookup, rfl, hagain⟩ := (hscope id row).mp hrow
    exact hid row hlookup hagain (by simp)

lemma hashAll_ok (h : hashAll sha256 settings sources disk order c = .ok c') :
    HashedRound sha256 settings disk c order c' := by
  have hstart : HashedRound sha256 settings disk c [] c :=
    ⟨rfl, by simp, fun _ _ => rfl, fun hne => absurd rfl hne⟩
  refine Scan.foldlM_invariant (fun done mid source next hmid hstep => ?_) order hstart h
  split at hstep
  · cases hstep
  next hrun =>
    cases hstep
    exact hmid.step hrun

/-! ## The files of a scan -/

lemma mem_stagedFiles (h : stagedFiles settings tree source = .ok rows) (hrow : row ∈ rows) :
    row.source = source := by
  obtain ⟨staged, hstaged, h⟩ := Scan.ok_of_bind h
  cases h
  obtain ⟨item, _, hitem⟩ := (Scan.mapM_ok hstaged).2 _ (List.reduceOption_mem_iff.mp hrow)
  cases item with
  | failed => cases hitem
  | nonUtf8 => cases hitem
  | entry path kind =>
    simp only [scanEntry] at hitem
    split at hitem
    · cases hitem
    split at hitem
    · cases hitem
      rfl
    split at hitem
    · cases hitem
    split at hitem
    · cases hitem
      rfl
    split at hitem
    · cases hitem
    · cases hitem
      rfl

lemma stagedRow_cases (rows : List IndexFile) (target : IndexFile) :
    (stagedRow rows target = target ∧ ∀ row ∈ rows, row.place ≠ target.place) ∨
      (stagedRow rows target ∈ rows ∧ (stagedRow rows target).place = target.place) := by
  unfold stagedRow
  cases hfound : rows.find? fun staged => staged.place == target.place with
  | none =>
    refine .inl ⟨rfl, fun row hrow => ?_⟩
    simpa using List.find?_eq_none.mp hfound row hrow
  | some staged =>
    refine .inr ⟨List.mem_of_find?_eq_some hfound, ?_⟩
    have hplace := List.find?_some hfound
    simpa using hplace

structure Placed (c : Catalogue) : Prop where
  fresh : ∀ id row, c.files.lookup id = some row → id < c.nextFile
  unique : ∀ id row id' row', c.files.lookup id = some row → c.files.lookup id' = some row' →
    row.place = row'.place → id = id'

lemma Placed.insertIndexFile (hc : Placed c)
    (hnew : ∀ id old, c.files.lookup id = some old → old.place ≠ row.place) :
    Placed (insertIndexFile c row) := by
  refine ⟨fun id old hold => ?_, fun id old id' old' hold hold' hplace => ?_⟩
  · rcases Table.lookup_insert_cases hold with ⟨rfl, _⟩ | ⟨_, hold⟩
    · exact Nat.lt_succ_self _
    · exact Nat.lt_succ_of_lt (hc.fresh id old hold)
  · rcases Table.lookup_insert_cases hold with ⟨rfl, rfl⟩ | ⟨_, hbefore⟩
    · rcases Table.lookup_insert_cases hold' with ⟨rfl, _⟩ | ⟨_, hbefore'⟩
      · rfl
      · exact absurd hplace.symm (hnew id' old' hbefore')
    · rcases Table.lookup_insert_cases hold' with ⟨_, rfl⟩ | ⟨_, hbefore'⟩
      · exact absurd hplace (hnew id old hbefore)
      · exact hc.unique id old id' old' hbefore hbefore' hplace

lemma Placed.lookup_insertIndexFile (hc : Placed c) {old : IndexFile}
    (hold : c.files.lookup id = some old) :
    (Index.insertIndexFile c row).files.lookup id = some old := by
  have hne : id ≠ c.nextFile := Nat.ne_of_lt (hc.fresh id old hold)
  exact (AList.lookup_insert_ne hne).trans hold

lemma Placed.foldl_insertIndexFile (hc : Placed c) (hnodup : (rows.map IndexFile.place).Nodup)
    (hnew : ∀ row ∈ rows, ∀ id old, c.files.lookup id = some old → old.place ≠ row.place) :
    Placed (rows.foldl Index.insertIndexFile c) ∧
      (∀ row ∈ rows, ∃ id, (rows.foldl Index.insertIndexFile c).files.lookup id = some row) ∧
      ∀ id old, c.files.lookup id = some old →
        (rows.foldl Index.insertIndexFile c).files.lookup id = some old := by
  induction rows generalizing c with
  | nil => exact ⟨hc, by simp, fun _ _ hold => hold⟩
  | cons row rows ih =>
    rw [List.map_cons, List.nodup_cons] at hnodup
    have hhere := hnew row List.mem_cons_self
    obtain ⟨hplaced, hthere, hkept⟩ := ih (hc.insertIndexFile hhere) hnodup.2 fun later hlater id old hold => by
      rcases Table.lookup_insert_cases hold with ⟨_, rfl⟩ | ⟨_, hold⟩
      · exact fun heq => hnodup.1 (heq ▸ List.mem_map_of_mem hlater)
      · exact hnew later (List.mem_cons_of_mem _ hlater) id old hold
    refine ⟨hplaced, fun staged hstaged => ?_, fun id old hold =>
      hkept id old (hc.lookup_insertIndexFile hold)⟩
    rcases List.mem_cons.mp hstaged with rfl | hstaged
    · exact ⟨c.nextFile, hkept _ _ (AList.lookup_insert _)⟩
    · exact hthere staged hstaged

lemma place_stagedRow (rows : List IndexFile) (target : IndexFile) :
    (stagedRow rows target).place = target.place := by
  rcases stagedRow_cases rows target with ⟨hsame, _⟩ | ⟨_, hplace⟩
  · rw [hsame]
  · exact hplace

lemma Placed.updated (hc : Placed c) (rows : List IndexFile) :
    Placed { c with files := c.files.adjust fun _ target => stagedRow rows target } := by
  refine ⟨fun id row hrow => ?_, fun id row id' row' hrow hrow' hplace => ?_⟩
  · rw [Table.lookup_adjust, Option.map_eq_some_iff] at hrow
    obtain ⟨target, htarget, _⟩ := hrow
    exact hc.fresh id target htarget
  · rw [Table.lookup_adjust, Option.map_eq_some_iff] at hrow hrow'
    obtain ⟨target, htarget, rfl⟩ := hrow
    obtain ⟨target', htarget', rfl⟩ := hrow'
    rw [place_stagedRow, place_stagedRow] at hplace
    exact hc.unique id target id' target' htarget htarget' hplace

lemma Placed.upsertIndexFilesStaged (hc : Placed c) (h : upsertIndexFilesStaged rows c = .ok c') :
    Placed c' ∧ (∀ row ∈ rows, ∃ id, c'.files.lookup id = some row) ∧
      ∀ id old, c.files.lookup id = some old → (∀ row ∈ rows, row.place ≠ old.place) →
        c'.files.lookup id = some old := by
  unfold Index.upsertIndexFilesStaged at h
  split at h
  · cases h
  next hnodup =>
    cases h
    rw [not_not] at hnodup
    obtain ⟨hall, hinserted, hkept⟩ := (hc.updated rows).foldl_insertIndexFile
      (hnodup.sublist (List.filter_sublist.map _)) fun row hrow id old hold hplace => by
        rw [Table.lookup_adjust, Option.map_eq_some_iff] at hold
        obtain ⟨target, htarget, rfl⟩ := hold
        rw [place_stagedRow] at hplace
        have hnone : (c.files.entries.any fun target => target.2.place == row.place) = false :=
          (Bool.not_eq_true' _).mp (List.mem_filter.mp hrow).2
        exact List.any_eq_false.mp hnone ⟨id, target⟩ (Table.lookup_eq_some.mp htarget)
          (by simp [hplace])
    have hupdated : ∀ id target, c.files.lookup id = some target →
        (c.files.adjust fun _ target => stagedRow rows target).lookup id =
          some (stagedRow rows target) := fun id target htarget => by
      rw [Table.lookup_adjust, htarget]
      rfl
    refine ⟨hall, fun row hrow => ?_, fun id old hold hother => ?_⟩
    · by_cases htarget : c.files.entries.any fun target => target.2.place == row.place
      · obtain ⟨⟨id, target⟩, hmem, hplace⟩ := List.any_eq_true.mp htarget
        rw [beq_iff_eq] at hplace
        refine ⟨id, hkept id row ?_⟩
        rw [hupdated id target (Table.lookup_eq_some.mpr hmem)]
        rcases stagedRow_cases rows target with ⟨_, hnone⟩ | ⟨hstaged, hsame⟩
        · exact absurd hplace.symm (hnone row hrow)
        · exact congrArg some
            (List.inj_on_of_nodup_map hnodup hstaged hrow (hsame.trans hplace))
      · exact hinserted row (List.mem_filter.mpr
          ⟨hrow, (Bool.not_eq_true' _).mpr (Bool.eq_false_iff.mpr htarget)⟩)
    · refine hkept id old ?_
      rw [hupdated id old hold]
      rcases stagedRow_cases rows old with ⟨hsame, _⟩ | ⟨hstaged, hplace⟩
      · rw [hsame]
      · exact absurd hplace (hother _ hstaged)

/-! ## Histories -/

lemma files_foldl_insertIndexFile {P : IndexFile → Prop}
    (hrows : ∀ row ∈ rows, P row) (hc : ∀ id row, c.files.lookup id = some row → P row) :
    ∀ id row, (rows.foldl insertIndexFile c).files.lookup id = some row → P row := by
  induction rows generalizing c with
  | nil => exact hc
  | cons new rows ih =>
    refine ih (fun row hrow => hrows row (List.mem_cons_of_mem _ hrow)) fun id row hrow => ?_
    rcases Table.lookup_insert_cases hrow with ⟨_, rfl⟩ | ⟨_, hold⟩
    · exact hrows row List.mem_cons_self
    · exact hc id row hold

lemma act_cases (action : Action) (h : act sha256 sources c action = c') : c' = c ∨
      (∃ settings tree source rows, source ∈ sources ∧
        stagedFiles settings tree source = .ok rows ∧ upsertIndexFilesStaged rows c = .ok c') ∨
      ∃ settings d, c' = (rebuildDuplicateSets settings d).2 ∧ d.nextFile = c.nextFile ∧
        ∀ id row, d.files.lookup id = some row → c.files.lookup id = some row := by
  subst h
  cases action with
  | scan settings tree source =>
    simp only [act]
    cases hrun : scanSource settings sources tree source c with
    | error e => exact .inl rfl
    | ok c' =>
      obtain ⟨_, hload, hrun⟩ := Scan.ok_of_bind hrun
      obtain ⟨rows, hrows, hrun⟩ := Scan.ok_of_bind hrun
      exact .inr (.inl ⟨settings, tree, source, rows, loadSource_ok hload, hrows, hrun⟩)
  | hash settings candidatesOnly view source =>
    simp only [act, hashSource]
    cases loadSource sources source with
    | error e => exact .inl rfl
    | ok =>
      cases stagedHashes sha256 candidatesOnly view
          (selectHashScope settings candidatesOnly source c.files) with
      | error e => exact .inl rfl
      | ok rows => exact .inr (.inr ⟨settings, _, rfl, rfl, fun _ _ hrow => hrow⟩)
  | clean settings dryRun tree source =>
    simp only [act]
    cases hrun : cleanSource settings sources dryRun tree source c with
    | error e => exact .inl rfl
    | ok c' =>
      obtain ⟨_, _, hrun⟩ := Scan.ok_of_bind hrun
      obtain ⟨state, _, hrun⟩ := Scan.ok_of_bind hrun
      simp only at hrun
      split at hrun
      · cases hrun
        exact .inl rfl
      split at hrun
      · cases hrun
      next hrebuild =>
        cases hrun
        refine .inr (.inr ⟨settings, deleteStaleRows c (c.files.keysWith (staleFile source state)),
          ?_, rfl, fun id row hrow => ?_⟩)
        · rw [hrebuild]
          rfl
        · rw [deleteStaleRows, Table.lookup_keep, Option.filter_eq_some_iff] at hrow
          exact hrow.1
  | reportDuplicates settings => exact .inr (.inr ⟨settings, c, rfl, rfl, fun _ _ hrow => hrow⟩)

lemma rebuildDuplicateSets_cases (settings : IndexerSettings) (c : Catalogue) :
    ∃ sets, (rebuildDuplicateSets settings c).2 = { c with duplicateSets := sets } ∧
      ((∀ id, id ∉ c.files) → ∀ key, sets.lookup key = none) := by
  cases h : rebuildDuplicateSets settings c with
  | mk result c' =>
    cases result with
    | ok n =>
      obtain ⟨hsame, hrebuilt⟩ := rebuildDuplicateSets_ok h
      refine ⟨c'.duplicateSets, hsame, fun hnone key => ?_⟩
      rw [hrebuilt key, if_neg]
      intro hcount
      obtain ⟨id, row, hrow⟩ := exists_file_of_groupMembers hcount
      rw [hsame] at hrow
      exact hnone id (AList.lookup_isSome.mp (by simp [hrow]))
    | error e =>
      unfold rebuildDuplicateSets at h
      simp only at h
      split at h
      · cases h
      · cases h
        exact ⟨∅, rfl, fun _ _ => rfl⟩

structure Registered (sources : List Nat) (c : Catalogue) : Prop extends Placed c where
  source : ∀ id row, c.files.lookup id = some row → row.source ∈ sources
  sets : sources = [] → ∀ key, c.duplicateSets.lookup key = none

lemma Registered.upsertIndexFilesStaged (hc : Registered sources c) (hsource : source ∈ sources)
    (hrows : stagedFiles settings tree source = .ok rows)
    (h : upsertIndexFilesStaged rows c = .ok c') : Registered sources c' := by
  refine ⟨(hc.toPlaced.upsertIndexFilesStaged h).1, ?_, fun hnone =>
    absurd hsource (by simp [hnone])⟩
  have hstaged : ∀ row ∈ rows, row.source ∈ sources := fun row hrow => by
    rwa [mem_stagedFiles hrows hrow]
  unfold Index.upsertIndexFilesStaged at h
  split at h
  · cases h
  · cases h
    refine files_foldl_insertIndexFile
      (fun row hrow => hstaged row (List.mem_filter.mp hrow).1) fun id row hrow => ?_
    rw [Table.lookup_adjust, Option.map_eq_some_iff] at hrow
    obtain ⟨target, htarget, rfl⟩ := hrow
    rcases stagedRow_cases rows target with ⟨hsame, _⟩ | ⟨hmem, _⟩
    · rw [hsame]
      exact hc.source id target htarget
    · exact hstaged _ hmem

lemma Registered.act (hc : Registered sources c) (action : Action) :
    Registered sources (act sha256 sources c action) := by
  rcases act_cases action rfl with hsame | ⟨_, _, _, rows, hsource, hrows, hupsert⟩ |
    ⟨settings, d, hrebuild, hnext, hfiles⟩
  · rwa [hsame]
  · exact hc.upsertIndexFilesStaged hsource hrows hupsert
  · obtain ⟨sets, heq, hnone⟩ := rebuildDuplicateSets_cases settings d
    rw [hrebuild, heq]
    refine ⟨⟨fun id row hrow => ?_, fun id row id' row' hrow hrow' => ?_⟩, fun id row hrow => ?_,
      fun hsources => hnone fun id hid => ?_⟩
    · exact hnext ▸ hc.fresh id row (hfiles id row hrow)
    · exact hc.unique id row id' row' (hfiles id row hrow) (hfiles id' row' hrow')
    · exact hc.source id row (hfiles id row hrow)
    · obtain ⟨row, hrow⟩ := Option.isSome_iff_exists.mp (AList.lookup_isSome.mpr hid)
      have hsource := hc.source id row (hfiles id row hrow)
      rw [hsources] at hsource
      cases hsource

lemma registered_after (history : List Action) :
    Registered sources (.after sha256 sources history) := by
  have hempty : ∀ id row, Catalogue.empty.files.lookup id = some row → False :=
    fun id row hrow => by simp [Catalogue.empty] at hrow
  have hstart : Registered sources .empty :=
    ⟨⟨fun id row hrow => (hempty id row hrow).elim,
      fun id row _ _ hrow => (hempty id row hrow).elim⟩,
      fun id row hrow => (hempty id row hrow).elim, fun _ _ => rfl⟩
  exact List.foldlRecOn history _ hstart fun _ hc action _ => hc.act action

/-- After any history of scans, hash runs and cleans a source has at most one row for a path,
and only registered sources have rows. -/
theorem index_rows_unique (sha256 : Bytes → Bytes) (sources : List Nat) (history : List Action) :
    let c : Catalogue := .after sha256 sources history
    (∀ id row, c.files.lookup id = some row → row.source ∈ sources ∧ id < c.nextFile) ∧
      ∀ id row id' row', c.files.lookup id = some row → c.files.lookup id' = some row' →
        row.place = row'.place → id = id' := by
  have h : Registered sources (.after sha256 sources history) := registered_after history
  exact ⟨fun id row hrow => ⟨h.source id row hrow, h.fresh id row hrow⟩, h.unique⟩

def okRow (source : Nat) (path : RelPath) (snapshot : FileSnapshot) : IndexFile :=
  ⟨source, path, snapshot, .regular, .ok⟩

lemma FoundOk.mem_stagedFiles {snapshot : FileSnapshot}
    (hfound : FoundOk settings disk source path snapshot)
    (h : stagedFiles settings (disk source) source = .ok rows) :
    okRow source path snapshot ∈ rows := by
  obtain ⟨hpath, hignored, ⟨len, hwalk⟩, hstat, hsize, hopen⟩ := hfound
  obtain ⟨staged, hstaged, h⟩ := Scan.ok_of_bind h
  cases h
  have hdirectory : isIgnoredDirectoryRelativePath settings path = false :=
    (Bool.or_eq_false_iff.mp hignored).1
  have hvisible : visible settings (.entry path .regular len) = true := by
    simp [visible, hdirectory]
  obtain ⟨row, hrow, hentry⟩ :=
    (Scan.mapM_ok hstaged).1 _ (List.mem_filter.mpr ⟨hwalk, hvisible⟩)
  simp [scanEntry, hpath, hignored, hstat, hsize, hopen] at hentry
  rw [← hentry] at hrow
  exact List.reduceOption_mem_iff.mpr hrow

structure ScannedRound (sources : List Nat) (settings : IndexerSettings) (disk : Nat → SourceTree)
    (done : List Nat) (c : Catalogue) : Prop where
  registered : Registered sources c
  found : ∀ source ∈ done, ∀ path snapshot, FoundOk settings disk source path snapshot →
    ∃ id, c.files.lookup id = some (okRow source path snapshot)

lemma scanAll_ok (hc : Registered sources c) (h : scanAll settings sources disk order c = .ok c') :
    ScannedRound sources settings disk order c' := by
  have hstart : ScannedRound sources settings disk [] c := ⟨hc, by simp⟩
  refine Scan.foldlM_invariant (fun done mid source next hmid hstep => ?_) order hstart h
  obtain ⟨_, hload, hstep⟩ := Scan.ok_of_bind hstep
  obtain ⟨rows, hrows, hstep⟩ := Scan.ok_of_bind hstep
  obtain ⟨_, hstored, hkept⟩ := hmid.registered.toPlaced.upsertIndexFilesStaged hstep
  refine ⟨hmid.registered.upsertIndexFilesStaged (loadSource_ok hload) hrows hstep,
    fun other hother path snapshot hfound => ?_⟩
  by_cases hsame : other = source
  · subst hsame
    exact hstored _ (hfound.mem_stagedFiles hrows)
  · have hdone : other ∈ done := by simpa [hsame] using hother
    obtain ⟨id, hid⟩ := hmid.found other hdone path snapshot hfound
    refine ⟨id, hkept id _ hid fun row hrow hplace => hsame ?_⟩
    exact (congrArg Prod.fst hplace).symm.trans (mem_stagedFiles hrows hrow)

/-! ## The sets after the round -/

lemma mem_sameContent :
    id ∈ sameContent settings disk c size content ↔ ∃ row, c.files.lookup id = some row ∧
      IndexedNow settings disk row ∧ row.snapshot.size = size ∧
      (disk row.source).opened row.path = .bytes content := by
  rw [sameContent, Table.mem_keysWith]
  simp

lemma nodup_sameContent : (sameContent settings disk c size content).Nodup :=
  Table.nodup_keysWith _

lemma sameContent_congr (hfiles : c'.files = c.files) (size : Nat) (content : Bytes) :
    sameContent settings disk c' size content = sameContent settings disk c size content := by
  rw [sameContent, sameContent, hfiles]

lemma eligible_iff : eligibleHashFile settings row = true ↔
    row.status = .ok ∧ row.kind = .regular ∧ row.snapshot.size ≠ 0 ∧
      isIgnoredFileRelativePath settings row.path = false := by
  simp [eligibleHashFile, isIgnoredIndexedFile, and_assoc]

lemma contentKey_of_sameContent (hcount : 1 < (sameContent settings disk c size content).length)
    (hid : id ∈ sameContent settings disk c size content) :
    ContentKey sha256 settings disk c id ⟨.sha256, sha256 content, size⟩ := by
  have hsize : globalCandidateSize c.files size = true := by
    refine decide_eq_true (hcount.trans_le ?_)
    refine ((Table.nodup_keysWith _).subperm fun other hother => ?_).length_le
    obtain ⟨row, hrow, ⟨heligible, _⟩, rfl, _⟩ := mem_sameContent.mp hother
    obtain ⟨hok, hregular, hpos, _⟩ := eligible_iff.mp heligible
    refine (Table.mem_keysWith _).mpr ⟨row, hrow, ?_⟩
    simp [hok, hregular, Nat.pos_of_ne_zero hpos]
  obtain ⟨row, hrow, ⟨heligible, hstat⟩, rfl, hcontent⟩ := mem_sameContent.mp hid
  exact ⟨row, content, hrow, ⟨heligible, hsize⟩, hstat, hcontent, rfl⟩

section

variable (hround : HashedRound sha256 settings disk c order c')

include hround

lemma HashedRound.mem_groupMembers (horder : ∀ id row, c.files.lookup id = some row → row.source ∈ order) :
    id ∈ groupMembers settings c' key ↔
      LeftoverKey settings c id key ∨ ContentKey sha256 settings disk c id key := by
  rw [Index.mem_groupMembers, hround.files]
  constructor
  · rintro ⟨hash, hhash, hkey⟩
    obtain ⟨row, hrow, _⟩ := Option.bind_eq_some_iff.mp hkey
    by_cases hagain : HashedAgain settings c row
    · obtain ⟨hash', hhash', hnow⟩ := hround.again id row hrow hagain (horder id row hrow)
      obtain rfl : hash = hash' := Option.some.inj (hhash.symm.trans hhash')
      rcases hnow with ⟨hstat, content, partialHash, hcontent, rfl⟩ | ⟨_, observed, rfl⟩
      · refine .inr ⟨row, content, hrow, hagain, hstat, hcontent, ?_⟩
        simp only [groupKey, hrow, Option.bind_eq_bind, Option.bind_some] at hkey
        split at hkey
        · exact (Option.some.inj hkey).symm
        · cases hkey
      · simp [groupKey, hrow, changedRetryRow] at hkey
    · rw [hround.leftover id fun row' hrow' hagain' _ =>
        hagain (Option.some.inj (hrow.symm.trans hrow') ▸ hagain')] at hhash
      exact .inl ⟨row, hash, hrow, hhash, hkey, hagain⟩
  · rintro (⟨row, hash, hrow, hhash, hkey, hagain⟩ | ⟨row, content, hrow, hagain, hstat, hcontent, rfl⟩)
    · refine ⟨hash, (hround.leftover id fun row' hrow' hagain' _ => hagain ?_).trans hhash, hkey⟩
      exact Option.some.inj (hrow.symm.trans hrow') ▸ hagain'
    · obtain ⟨hash, hhash, hnow⟩ := hround.again id row hrow hagain (horder id row hrow)
      refine ⟨hash, hhash, ?_⟩
      rcases hnow with ⟨_, content', partialHash, hcontent', rfl⟩ | ⟨hchanged, _⟩
      · obtain ⟨_, _, hpos, hignored⟩ := eligible_iff.mp hagain.1
        obtain rfl : content = content' := Opened.bytes.inj (hcontent.symm.trans hcontent')
        simp [groupKey, hrow, hpos, hignored]
      · exact absurd hstat hchanged

lemma HashedRound.lookup_duplicateSets (hc : Registered sources c)
    (horder : ∀ source ∈ sources, source ∈ order)
    (hsame : order = [] → c'.duplicateSets = c.duplicateSets) : Rebuilt settings c' := by
  by_cases hnone : order = []
  · intro key
    have hsources : sources = [] := List.eq_nil_iff_forall_not_mem.mpr fun source hsource => by
      simpa [hnone] using horder source hsource
    rw [hsame hnone, hc.sets hsources, if_neg]
    intro hcount
    obtain ⟨id, row, hrow⟩ := exists_file_of_groupMembers hcount
    rw [hround.files] at hrow
    have hsource := hc.source id row hrow
    rw [hsources] at hsource
    cases hsource
  · exact hround.rebuilt hnone

lemma HashedRound.sameContent_subset (horder : ∀ id row, c.files.lookup id = some row → row.source ∈ order)
    (hcount : 1 < (sameContent settings disk c' size content).length) :
    sameContent settings disk c' size content ⊆
      groupMembers settings c' ⟨.sha256, sha256 content, size⟩ := by
  rw [sameContent_congr hround.files] at hcount ⊢
  intro id hid
  exact (hround.mem_groupMembers horder).mpr (.inr (contentKey_of_sameContent hcount hid))

end

lemma mem_sameContent_of_contentKey (hsha : NoCollisions sha256 disk)
    (hfiles : c'.files = c.files) {size source : Nat}
    (hcontent : (disk source).opened path = .bytes content)
    (hid : ContentKey sha256 settings disk c id ⟨.sha256, sha256 content, size⟩) :
    id ∈ sameContent settings disk c' size content := by
  rw [sameContent_congr hfiles]
  obtain ⟨row, content', hrow, hagain, hstat, hcontent', hkey⟩ := hid
  obtain ⟨_, hhash, hsize⟩ := DuplicateKey.mk.inj hkey
  obtain rfl := hsha _ _ _ _ _ _ hcontent hcontent' hhash
  exact mem_sameContent.mpr ⟨row, hrow, ⟨hagain.1, hstat⟩, hsize.symm, hcontent'⟩

lemma exists_ne_of_groupMembers (hcount : 1 < (groupMembers settings c key).length) (id : Nat) :
    ∃ other ∈ groupMembers settings c key, other ≠ id := by
  by_contra hall
  push Not at hall
  have hsub : groupMembers settings c key ⊆ [id] := fun other hother => by
    simpa using hall other hother
  have hle := (nodup_groupMembers.subperm hsub).length_le
  simp only [List.length_singleton] at hle
  omega

lemma HashedRound.exact_of_apart (hround : HashedRound sha256 settings disk c order c')
    (horder : ∀ id row, c.files.lookup id = some row → row.source ∈ order)
    (hrebuilt : Rebuilt settings c') (hsha : NoCollisions sha256 disk)
    (hapart : LeftoversApart sha256 settings disk c) :
    ExactDuplicateSets sha256 settings disk c' := by
  -- in a group of two or more there is no leftover
  have hagain : ∀ key id, 1 < (groupMembers settings c' key).length →
      id ∈ groupMembers settings c' key → ContentKey sha256 settings disk c id key := by
    intro key id hcount hid
    refine ((hround.mem_groupMembers horder).mp hid).resolve_left fun hleft => ?_
    obtain ⟨other, hother, hne⟩ := exists_ne_of_groupMembers hcount id
    obtain ⟨hnoLeft, hnoContent⟩ := hapart id key hleft other hne
    exact ((hround.mem_groupMembers horder).mp hother).elim hnoLeft hnoContent
  refine ⟨fun size content hcount => ?_, fun key set hset => ?_⟩
  · have hsub := hround.sameContent_subset horder hcount
    have hmany := hcount.trans_le (nodup_sameContent.subperm hsub).length_le
    obtain ⟨one, hone⟩ := List.exists_mem_of_length_pos (Nat.zero_lt_of_lt hcount)
    obtain ⟨row, _, _, _, hcontent⟩ := mem_sameContent.mp hone
    have hback : groupMembers settings c' ⟨.sha256, sha256 content, size⟩ ⊆
        sameContent settings disk c' size content := fun id hid =>
      mem_sameContent_of_contentKey hsha hround.files hcontent (hagain _ id hmany hid)
    refine ⟨_, (hrebuilt _).trans (if_pos hmany), ?_⟩
    exact Nat.le_antisymm (nodup_groupMembers.subperm hback).length_le
      (nodup_sameContent.subperm hsub).length_le
  · rw [hrebuilt key] at hset
    split at hset
    next hmany =>
      obtain ⟨one, hone⟩ := List.exists_mem_of_length_pos (Nat.zero_lt_of_lt hmany)
      obtain ⟨row, content, _, _, _, hcontent, rfl⟩ := hagain key one hmany hone
      refine ⟨content, rfl, hmany.trans_le (nodup_groupMembers.subperm fun id hid => ?_).length_le⟩
      exact mem_sameContent_of_contentKey hsha hround.files hcontent (hagain _ id hmany hid)
    · cases hset

lemma HashedRound.apart_of_exact (hround : HashedRound sha256 settings disk c order c')
    (horder : ∀ id row, c.files.lookup id = some row → row.source ∈ order)
    (hrebuilt : Rebuilt settings c') (hexact : ExactDuplicateSets sha256 settings disk c') :
    LeftoversApart sha256 settings disk c := by
  intro id key hleft other hne
  -- a leftover in a group with another file is counted, and is no file of the class
  have hshared : other ∉ groupMembers settings c' key := by
    intro hother
    have hid := (hround.mem_groupMembers horder).mpr (.inl hleft)
    have hmany : 1 < (groupMembers settings c' key).length := by
      have hpair : [id, other] ⊆ groupMembers settings c' key := by
        simp [hid, hother]
      exact (List.Nodup.subperm (by simp [hne.symm]) hpair).length_le
    have hset := (hrebuilt key).trans (if_pos hmany)
    obtain ⟨content, hkey, hcount⟩ := hexact.only key _ hset
    obtain ⟨set, hset', hlength⟩ := hexact.stored key.fileSize content hcount
    rw [← hkey, hset] at hset'
    have hsub := hround.sameContent_subset horder hcount
    rw [← hkey] at hsub
    have hle : (groupMembers settings c' key).length ≤
        (sameContent settings disk c' key.fileSize content).length := by
      rw [← hlength, ← Option.some.inj hset']
      exact Nat.le_refl _
    have hperm := (nodup_sameContent.subperm hsub).perm_of_length_le hle
    have hmem := hperm.mem_iff.mpr hid
    rw [sameContent_congr hround.files] at hcount hmem
    have hcontent : ContentKey sha256 settings disk c id _ := contentKey_of_sameContent hcount hmem
    obtain ⟨row, _, hrow, hagain, _⟩ := hcontent
    obtain ⟨row', _, hrow', _, _, hnot⟩ := hleft
    exact hnot (Option.some.inj (hrow.symm.trans hrow') ▸ hagain)
  rw [hround.mem_groupMembers horder, not_or] at hshared
  exact hshared

/-- **Duplicate sets are exact unless a leftover hash is shared.**  After any
history the sources are scanned and then hashed, while no source file changes.
The scans index every file they find ok, each of them once.  The stored sets are
the classes of files of equal size and content exactly if no file that is not
hashed again has a stored hash that belongs to another file too. -/
theorem duplicate_sets_exact_iff (sha256 : Bytes → Bytes) (sources : List Nat)
    (history : List Action) (settings : IndexerSettings) (disk : Nat → SourceTree)
    (scans hashes : List Nat) (scanned hashed : Catalogue)
    (hscans : ∀ source ∈ sources, source ∈ scans)
    (hhashes : ∀ source ∈ sources, source ∈ hashes)
    (hscanned : scanAll settings sources disk scans (.after sha256 sources history) = .ok scanned)
    (hhashed : hashAll sha256 settings sources disk hashes scanned = .ok hashed)
    (hsha : NoCollisions sha256 disk) :
    (∀ source ∈ sources, ∀ path snapshot, FoundOk settings disk source path snapshot →
        ∃! id, ∃ row, hashed.files.lookup id = some row ∧ row.place = (source, path) ∧
          IndexedNow settings disk row) ∧
      (ExactDuplicateSets sha256 settings disk hashed ↔
        LeftoversApart sha256 settings disk scanned) := by
  have hround := hashAll_ok hhashed
  obtain ⟨hregistered, hfound⟩ := scanAll_ok (registered_after history) hscanned
  have horder : ∀ id row, scanned.files.lookup id = some row → row.source ∈ hashes :=
    fun id row hrow => hhashes _ (hregistered.source id row hrow)
  have hrebuilt : Rebuilt settings hashed := by
    refine hround.lookup_duplicateSets hregistered hhashes fun hnone => ?_
    subst hnone
    cases hhashed
    rfl
  refine ⟨fun source hsource path snapshot hok => ?_,
    hround.apart_of_exact horder hrebuilt, hround.exact_of_apart horder hrebuilt hsha⟩
  obtain ⟨id, hid⟩ := hfound source (hscans source hsource) path snapshot hok
  obtain ⟨_, hignored, _, hstat, hsize, _⟩ := hok
  rw [hround.files]
  refine ⟨id, ⟨_, hid, rfl, eligible_iff.mpr ⟨rfl, rfl, hsize, hignored⟩, hstat⟩, ?_⟩
  rintro other ⟨row, hrow, hplace, _⟩
  exact hregistered.unique other row id _ hrow hid hplace

def twoFiles (a b : Bytes) : SourceTree where
  root := .directory
  walk := [.entry [['a']] .regular (some a.length), .entry [['b']] .regular (some b.length)]
  stat path :=
    if path = [['a']] then some ⟨a.length, some 0, some 1, some 1⟩
    else if path = [['b']] then some ⟨b.length, some b.length, some 2, some 1⟩ else none
  opened path := if path = [['a']] then .bytes a else if path = [['b']] then .bytes b else .denied

def plainHash (content : Bytes) : Bytes := content

/-- The first round over two equal files. -/
theorem duplicate_sets_exact_iff_firstRound :
    ∃ scanned hashed,
      scanAll .default [1] (fun _ => twoFiles [7] [7]) [1] (.after plainHash [1] []) = .ok scanned ∧
      hashAll plainHash .default [1] (fun _ => twoFiles [7] [7]) [1] scanned = .ok hashed ∧
      ((∀ source ∈ [1], ∀ path snapshot,
          FoundOk .default (fun _ => twoFiles [7] [7]) source path snapshot →
          ∃! id, ∃ row, hashed.files.lookup id = some row ∧ row.place = (source, path) ∧
            IndexedNow .default (fun _ => twoFiles [7] [7]) row) ∧
        (ExactDuplicateSets plainHash .default (fun _ => twoFiles [7] [7]) hashed ↔
          LeftoversApart plainHash .default (fun _ => twoFiles [7] [7]) scanned)) :=
  ⟨_, _, rfl, rfl, duplicate_sets_exact_iff plainHash [1] [] .default _ [1] [1] _ _ (by simp) (by simp)
    rfl rfl fun _ _ _ _ _ _ _ _ heq => heq⟩

/-- Two equal files have been hashed; then one of them changes to another size.
Neither is hashed again, and the set of both stays. -/
theorem changed_file_stays_duplicate :
    ∃ scanned hashed,
      scanAll .default [1] (fun _ => twoFiles [7] [7, 8]) [1]
        (.after plainHash [1] [.scan .default (twoFiles [7] [7]) 1,
          .hash .default true (fun _ _ => twoFiles [7] [7]) 1]) = .ok scanned ∧
      hashAll plainHash .default [1] (fun _ => twoFiles [7] [7, 8]) [1] scanned = .ok hashed ∧
      NoCollisions plainHash (fun _ => twoFiles [7] [7, 8]) ∧
      ¬ ExactDuplicateSets plainHash .default (fun _ => twoFiles [7] [7, 8]) hashed := by
  refine ⟨_, _, rfl, rfl, fun _ _ _ _ _ _ _ _ heq => heq, fun hexact => ?_⟩
  obtain ⟨content, hkey, hcount⟩ := hexact.only ⟨.sha256, [7], 1⟩ ⟨2, 2⟩ rfl
  obtain ⟨_, hcontent, _⟩ := DuplicateKey.mk.inj hkey
  obtain rfl : [7] = content := hcontent
  exact absurd hcount (by decide)

end Fod.Index
