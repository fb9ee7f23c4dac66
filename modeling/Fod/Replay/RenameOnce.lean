import Fod.Replay.Creations

/-!
# Renames are applied once

After a rename that was applied, the entry of the request is the only one with the new
name.  So the second run finds it there and changes nothing.
-/

namespace Fod.Replay

open Scan (ok_of_bind)

variable {t t' removed : Tables} {r : RenameRequest} {location new old : Location}
  {source target : Entry}

lemma lookup_moved {ν : Type} {rows : Table Nat ν} {move : ν → ν} {id k : Nat} {row : ν}
    (h : (rows.adjust fun k row => if k = id then move row else row).lookup k = some row) :
    (k = id ∧ ∃ row', rows.lookup id = some row' ∧ row = move row') ∨
      (k ≠ id ∧ rows.lookup k = some row) := by
  rw [Table.lookup_adjust, Option.map_eq_some_iff] at h
  obtain ⟨row', hrow', heq⟩ := h
  by_cases hk : k = id
  · subst hk
    exact .inl ⟨rfl, row', hrow', by simpa using heq.symm⟩
  · rw [if_neg hk] at heq
    exact .inr ⟨hk, heq ▸ hrow'⟩

lemma moveEntry_located (hthere : t.Located old source) :
    (t.moveEntry new source).Located new source := by
  cases source with
  | file f =>
    obtain ⟨row, hrow, hshown, -⟩ := hthere
    exact ⟨{ row with location := new }, by simp [Tables.moveEntry, Table.lookup_adjust, hrow],
      hshown, rfl⟩
  | hardlink id f =>
    obtain ⟨row, hrow, hfile, -⟩ := hthere
    exact ⟨{ row with location := new }, by simp [Tables.moveEntry, Table.lookup_adjust, hrow],
      hfile, rfl⟩
  | symlink s =>
    obtain ⟨row, hrow, -⟩ := hthere
    exact ⟨{ row with location := new }, by simp [Tables.moveEntry, Table.lookup_adjust, hrow], rfl⟩
  | symlinkHardlink id s =>
    obtain ⟨row, hrow, hsymlink, -⟩ := hthere
    exact ⟨{ row with location := new }, by simp [Tables.moveEntry, Table.lookup_adjust, hrow],
      hsymlink, rfl⟩
  | directory d =>
    obtain ⟨row, hrow, -⟩ := hthere
    exact ⟨{ row with location := new }, by simp [Tables.moveEntry, Table.lookup_adjust, hrow], rfl⟩

lemma located_of_moveEntry (hthere : t.Located old source) {e : Entry}
    (he : (t.moveEntry new source).Located location e) : e = source ∨ t.Located location e := by
  cases source with
  | file f =>
    cases e with
    | file k =>
      obtain ⟨row, hrow, hshown, hlocation⟩ := he
      rcases lookup_moved hrow with ⟨rfl, -⟩ | ⟨-, hold⟩
      · exact .inl rfl
      · exact .inr ⟨row, hold, hshown, hlocation⟩
    | hardlink | symlink | symlinkHardlink | directory => exact .inr he
  | hardlink id f =>
    cases e with
    | hardlink k g =>
      obtain ⟨row₀, hrow₀, hfile, -⟩ := hthere
      obtain ⟨row, hrow, hg, hlocation⟩ := he
      rcases lookup_moved hrow with ⟨rfl, row', hrow', rfl⟩ | ⟨-, hold⟩
      · rw [hrow₀] at hrow'
        cases hrow'
        exact .inl (congrArg _ (hg.symm.trans hfile))
      · exact .inr ⟨row, hold, hg, hlocation⟩
    | file | symlink | symlinkHardlink | directory => exact .inr he
  | symlink s =>
    cases e with
    | symlink k =>
      obtain ⟨row, hrow, hlocation⟩ := he
      rcases lookup_moved hrow with ⟨rfl, -⟩ | ⟨-, hold⟩
      · exact .inl rfl
      · exact .inr ⟨row, hold, hlocation⟩
    | file | hardlink | symlinkHardlink | directory => exact .inr he
  | symlinkHardlink id s =>
    cases e with
    | symlinkHardlink k g =>
      obtain ⟨row₀, hrow₀, hsymlink, -⟩ := hthere
      obtain ⟨row, hrow, hg, hlocation⟩ := he
      rcases lookup_moved hrow with ⟨rfl, row', hrow', rfl⟩ | ⟨-, hold⟩
      · rw [hrow₀] at hrow'
        cases hrow'
        exact .inl (congrArg _ (hg.symm.trans hsymlink))
      · exact .inr ⟨row, hold, hg, hlocation⟩
    | file | hardlink | symlink | directory => exact .inr he
  | directory d =>
    cases e with
    | directory k =>
      obtain ⟨row, hrow, hlocation⟩ := he
      rcases lookup_moved hrow with ⟨rfl, -⟩ | ⟨-, hold⟩
      · exact .inl rfl
      · exact .inr ⟨row, hold, hlocation⟩
    | file | hardlink | symlink | symlinkHardlink => exact .inr he

/-! ## The entry that is replaced -/

lemma chosenLink_cases {f id : Nat} {link : Hardlink} (h : t.chosenLink f = some (id, link)) :
    t.hardlinks.lookup id = some link ∧ link.file = f := by
  unfold Tables.chosenLink at h
  obtain ⟨k, hmin, h⟩ := Option.bind_eq_some_iff.mp h
  obtain ⟨row, hrow, heq⟩ := Option.map_eq_some_iff.mp h
  cases heq
  refine ⟨hrow, ?_⟩
  obtain ⟨link', hlink', hfile⟩ := (Table.mem_keysWith _).mp (List.min?_mem hmin)
  rw [hrow] at hlink'
  cases hlink'
  simpa using hfile

lemma chosenAlias_cases {s id : Nat} {link : SymlinkHardlink}
    (h : t.chosenAlias s = some (id, link)) :
    t.symlinkHardlinks.lookup id = some link ∧ link.symlink = s := by
  unfold Tables.chosenAlias at h
  obtain ⟨k, hmin, h⟩ := Option.bind_eq_some_iff.mp h
  obtain ⟨row, hrow, heq⟩ := Option.map_eq_some_iff.mp h
  cases heq
  refine ⟨hrow, ?_⟩
  obtain ⟨link', hlink', hsymlink⟩ := (Table.mem_keysWith _).mp (List.min?_mem hmin)
  rw [hrow] at hlink'
  cases hlink'
  simpa using hsymlink

structure FileRemoved (t removed : Tables) (f : Nat) : Prop where
  others : ∀ k ≠ f, removed.files.lookup k = t.files.lookup k
  own : ∀ row, removed.files.lookup f = some row → row.unlinked = true ∨
    ∃ id link, t.hardlinks.lookup id = some link ∧ link.file = f ∧ row.location = link.location
  links : ∀ k link, removed.hardlinks.lookup k = some link → t.hardlinks.lookup k = some link
  kept : ∀ k link, t.hardlinks.lookup k = some link → link.file ≠ f →
    removed.hardlinks.lookup k = some link
  rest : removed.symlinks = t.symlinks ∧ removed.symlinkHardlinks = t.symlinkHardlinks ∧
    removed.directories = t.directories

lemma fileRemoved_of_deleteFile {f : Nat} (h : t.deleteFile f = .ok removed) :
    FileRemoved t removed f := by
  unfold Tables.deleteFile at h
  split at h
  · cases h
  · have hremoved := (Except.ok.inj h).symm
    rw [hremoved]
    refine ⟨fun k hk => AList.lookup_erase_ne hk, fun row hrow => ?_, fun k link hlink => ?_,
      fun k link hlink hfile => ?_, rfl, rfl, rfl⟩
    · simp at hrow
    · rw [Table.lookup_keep, Option.filter_eq_some_iff] at hlink
      exact hlink.1
    · rw [Table.lookup_keep, hlink]
      simp [Option.filter, hfile]

lemma fileRemoved_of_removePrimaryFile {f : Nat} (h : t.removePrimaryFile f = .ok removed) :
    FileRemoved t removed f := by
  unfold Tables.removePrimaryFile at h
  cases hrow : t.files.lookup f with
  | none =>
    simp only [hrow] at h
    cases h
  | some row =>
    simp only [hrow] at h
    cases hchosen : t.chosenLink f with
    | some chosen =>
      obtain ⟨id, link⟩ := chosen
      obtain ⟨hlink, hfile⟩ := chosenLink_cases hchosen
      simp only [hchosen] at h
      have hremoved := (Except.ok.inj h).symm
      rw [hremoved]
      refine ⟨fun k hk => AList.lookup_insert_ne hk, fun row' hrow' => ?_, fun k link' hlink' => ?_,
        fun k link' hlink' hfile' => ?_, rfl, rfl, rfl⟩
      · simp only [Tables.promote, AList.lookup_insert, Option.some.injEq] at hrow'
        exact .inr ⟨id, link, hlink, hfile, by rw [← hrow']⟩
      · exact (Table.lookup_erase_cases hlink').2
      · have hne : k ≠ id := by
          rintro rfl
          rw [hlink] at hlink'
          cases hlink'
          exact hfile' hfile
        exact (AList.lookup_erase_ne hne).trans hlink'
    | none =>
      simp only [hchosen] at h
      split at h
      · have hremoved := (Except.ok.inj h).symm
        rw [hremoved]
        refine ⟨fun k hk => AList.lookup_insert_ne hk, fun row' hrow' => ?_, fun _ _ h => h,
          fun _ _ h _ => h, rfl, rfl, rfl⟩
        simp only [AList.lookup_insert, Option.some.injEq] at hrow'
        exact .inl (by rw [← hrow'])
      · exact fileRemoved_of_deleteFile h

structure SymlinkRemoved (t removed : Tables) (s : Nat) : Prop where
  others : ∀ k ≠ s, removed.symlinks.lookup k = t.symlinks.lookup k
  own : ∀ row, removed.symlinks.lookup s = some row →
    ∃ id link, t.symlinkHardlinks.lookup id = some link ∧ link.symlink = s ∧
      row.location = link.location
  links : ∀ k link, removed.symlinkHardlinks.lookup k = some link →
    t.symlinkHardlinks.lookup k = some link
  kept : ∀ k link, t.symlinkHardlinks.lookup k = some link → link.symlink ≠ s →
    removed.symlinkHardlinks.lookup k = some link
  rest : removed.files = t.files ∧ removed.hardlinks = t.hardlinks ∧
    removed.directories = t.directories

lemma symlinkRemoved_of_removeSymlink (t : Tables) (s : Nat) :
    SymlinkRemoved t (t.removeSymlink s) s := by
  unfold Tables.removeSymlink
  cases hchosen : t.chosenAlias s with
  | none =>
    refine ⟨fun k hk => AList.lookup_erase_ne hk, fun row hrow => ?_, fun _ _ h => h,
      fun _ _ h _ => h, rfl, rfl, rfl⟩
    simp at hrow
  | some chosen =>
    obtain ⟨id, link⟩ := chosen
    obtain ⟨hlink, hsymlink⟩ := chosenAlias_cases hchosen
    refine ⟨fun k hk => ?_, fun row hrow => ?_, fun k link' hlink' => ?_,
      fun k link' hlink' hsymlink' => ?_, rfl, rfl, rfl⟩
    · simp [Table.lookup_adjust, hk]
    · rcases lookup_moved hrow with ⟨-, row', -, rfl⟩ | ⟨hne, -⟩
      · exact ⟨id, link, hlink, hsymlink, rfl⟩
      · exact absurd rfl hne
    · exact (Table.lookup_erase_cases hlink').2
    · have hne : k ≠ id := by
        rintro rfl
        rw [hlink] at hlink'
        cases hlink'
        exact hsymlink' hsymlink
      exact (AList.lookup_erase_ne hne).trans hlink'

lemma removeDirectory_cases {d : Nat} (h : t.removeDirectory d = .ok (some removed)) :
    removed = { t with directories := t.directories.erase d } := by
  unfold Tables.removeDirectory at h
  split at h
  · cases h
  · split at h
    · cases h
    · cases h
      rfl

lemma vacated (h : t.removeTarget target = .ok (some removed))
    (honly : ∀ e, t.Located location e → e = target) (e : Entry) : ¬ removed.Located location e := by
  intro he
  cases target with
  | file f =>
    obtain ⟨_, hfile, heq⟩ := ok_of_map h
    cases heq
    have hremoved := fileRemoved_of_removePrimaryFile hfile
    obtain ⟨hsymlinks, haliases, hdirectories⟩ := hremoved.rest
    cases e with
    | file k =>
      obtain ⟨row, hrow, hshown, hlocation⟩ := he
      by_cases hk : k = f
      · subst hk
        rcases hremoved.own row hrow with hhidden | ⟨id, link, hlink, -, hpromoted⟩
        · simp [hshown] at hhidden
        · -- the promoted link had another name
          have := honly (.hardlink id link.file) ⟨link, hlink, rfl, hpromoted ▸ hlocation⟩
          cases this
      · rw [hremoved.others k hk] at hrow
        have := honly (.file k) ⟨row, hrow, hshown, hlocation⟩
        exact hk (Entry.file.inj this)
    | hardlink k g =>
      obtain ⟨row, hrow, hg, hlocation⟩ := he
      have := honly (.hardlink k g) ⟨row, hremoved.links k row hrow, hg, hlocation⟩
      cases this
    | symlink k =>
      have := honly (.symlink k) (by simpa [Tables.Located, hsymlinks] using he)
      cases this
    | symlinkHardlink k g =>
      have := honly (.symlinkHardlink k g) (by simpa [Tables.Located, haliases] using he)
      cases this
    | directory k =>
      have := honly (.directory k) (by simpa [Tables.Located, hdirectories] using he)
      cases this
  | symlink s =>
    cases h
    have hremoved := symlinkRemoved_of_removeSymlink t s
    obtain ⟨hfiles, hhardlinks, hdirectories⟩ := hremoved.rest
    cases e with
    | symlink k =>
      obtain ⟨row, hrow, hlocation⟩ := he
      by_cases hk : k = s
      · subst hk
        obtain ⟨id, link, hlink, -, hpromoted⟩ := hremoved.own row hrow
        have := honly (.symlinkHardlink id link.symlink) ⟨link, hlink, rfl, hpromoted ▸ hlocation⟩
        cases this
      · rw [hremoved.others k hk] at hrow
        have := honly (.symlink k) ⟨row, hrow, hlocation⟩
        exact hk (Entry.symlink.inj this)
    | symlinkHardlink k g =>
      obtain ⟨row, hrow, hg, hlocation⟩ := he
      have := honly (.symlinkHardlink k g) ⟨row, hremoved.links k row hrow, hg, hlocation⟩
      cases this
    | file k =>
      have := honly (.file k) (by simpa [Tables.Located, hfiles] using he)
      cases this
    | hardlink k g =>
      have := honly (.hardlink k g) (by simpa [Tables.Located, hhardlinks] using he)
      cases this
    | directory k =>
      have := honly (.directory k) (by simpa [Tables.Located, hdirectories] using he)
      cases this
  | hardlink id f =>
    cases h
    cases e with
    | hardlink k g =>
      obtain ⟨row, hrow, hg, hlocation⟩ := he
      obtain ⟨hne, hold⟩ := Table.lookup_erase_cases hrow
      have := honly (.hardlink k g) ⟨row, hold, hg, hlocation⟩
      exact hne (Entry.hardlink.inj this).1
    | file k => cases honly (.file k) he
    | symlink k => cases honly (.symlink k) he
    | symlinkHardlink k g => cases honly (.symlinkHardlink k g) he
    | directory k => cases honly (.directory k) he
  | symlinkHardlink id s =>
    cases h
    cases e with
    | symlinkHardlink k g =>
      obtain ⟨row, hrow, hg, hlocation⟩ := he
      obtain ⟨hne, hold⟩ := Table.lookup_erase_cases hrow
      have := honly (.symlinkHardlink k g) ⟨row, hold, hg, hlocation⟩
      exact hne (Entry.symlinkHardlink.inj this).1
    | file k => cases honly (.file k) he
    | hardlink k g => cases honly (.hardlink k g) he
    | symlink k => cases honly (.symlink k) he
    | directory k => cases honly (.directory k) he
  | directory d =>
    rw [removeDirectory_cases h] at he
    cases e with
    | directory k =>
      obtain ⟨row, hrow, hlocation⟩ := he
      obtain ⟨hne, hold⟩ := Table.lookup_erase_cases hrow
      have := honly (.directory k) ⟨row, hold, hlocation⟩
      exact hne (Entry.directory.inj this)
    | file k => cases honly (.file k) he
    | hardlink k g => cases honly (.hardlink k g) he
    | symlink k => cases honly (.symlink k) he
    | symlinkHardlink k g => cases honly (.symlinkHardlink k g) he

lemma source_stays (h : t.removeTarget target = .ok (some removed))
    (htarget : t.Located new target) (hsource : t.Located old source) (hne : source ≠ target)
    (hinode : Tables.sameInode source target = false) : removed.Located old source := by
  cases target with
  | file f =>
    obtain ⟨_, hfile, heq⟩ := ok_of_map h
    cases heq
    have hremoved := fileRemoved_of_removePrimaryFile hfile
    obtain ⟨hsymlinks, haliases, hdirectories⟩ := hremoved.rest
    cases source with
    | file k =>
      obtain ⟨row, hrow, hshown, hlocation⟩ := hsource
      have hk : k ≠ f := fun hk => hne (congrArg Entry.file hk)
      exact ⟨row, (hremoved.others k hk).trans hrow, hshown, hlocation⟩
    | hardlink k g =>
      obtain ⟨row, hrow, hg, hlocation⟩ := hsource
      have hfile' : row.file ≠ f := by
        rintro rfl
        simp [Tables.sameInode, Entry.fileId, hg] at hinode
      exact ⟨row, hremoved.kept k row hrow hfile', hg, hlocation⟩
    | symlink k => simpa [Tables.Located, hsymlinks] using hsource
    | symlinkHardlink k g => simpa [Tables.Located, haliases] using hsource
    | directory k => simpa [Tables.Located, hdirectories] using hsource
  | symlink s =>
    cases h
    have hremoved := symlinkRemoved_of_removeSymlink t s
    obtain ⟨hfiles, hhardlinks, hdirectories⟩ := hremoved.rest
    cases source with
    | symlink k =>
      obtain ⟨row, hrow, hlocation⟩ := hsource
      have hk : k ≠ s := fun hk => hne (congrArg Entry.symlink hk)
      exact ⟨row, (hremoved.others k hk).trans hrow, hlocation⟩
    | symlinkHardlink k g =>
      obtain ⟨row, hrow, hg, hlocation⟩ := hsource
      have hsymlink : row.symlink ≠ s := by
        rintro rfl
        simp [Tables.sameInode, Entry.symlinkId, hg] at hinode
      exact ⟨row, hremoved.kept k row hrow hsymlink, hg, hlocation⟩
    | file k => simpa [Tables.Located, hfiles] using hsource
    | hardlink k g => simpa [Tables.Located, hhardlinks] using hsource
    | directory k => simpa [Tables.Located, hdirectories] using hsource
  | hardlink id f =>
    cases h
    cases source with
    | hardlink k g =>
      obtain ⟨row, hrow, hg, hlocation⟩ := hsource
      obtain ⟨row', hrow', hf, -⟩ := htarget
      have hk : k ≠ id := by
        rintro rfl
        rw [hrow] at hrow'
        cases hrow'
        exact hne (congrArg _ (hg.symm.trans hf))
      exact ⟨row, (AList.lookup_erase_ne hk).trans hrow, hg, hlocation⟩
    | file | symlink | symlinkHardlink | directory => exact hsource
  | symlinkHardlink id s =>
    cases h
    cases source with
    | symlinkHardlink k g =>
      obtain ⟨row, hrow, hg, hlocation⟩ := hsource
      obtain ⟨row', hrow', hs, -⟩ := htarget
      have hk : k ≠ id := by
        rintro rfl
        rw [hrow] at hrow'
        cases hrow'
        exact hne (congrArg _ (hg.symm.trans hs))
      exact ⟨row, (AList.lookup_erase_ne hk).trans hrow, hg, hlocation⟩
    | file | hardlink | symlink | directory => exact hsource
  | directory d =>
    rw [removeDirectory_cases h]
    cases source with
    | directory k =>
      obtain ⟨row, hrow, hlocation⟩ := hsource
      have hk : k ≠ d := fun hk => hne (congrArg Entry.directory hk)
      exact ⟨row, (AList.lookup_erase_ne hk).trans hrow, hlocation⟩
    | file | hardlink | symlink | symlinkHardlink => exact hsource

lemma located_of_resolve {found : Entry} (h : t.resolve location = some (some found)) :
    t.Located location found ∧ ∀ e, t.Located location e → e = found := by
  unfold Tables.resolve at h
  split at h
  · cases h
  · rename_i e hentries
    cases h
    refine ⟨Tables.mem_entriesAt.mp (by simp [hentries]), fun e' he' => ?_⟩
    have hmem := Tables.mem_entriesAt.mpr he'
    simpa [hentries] using hmem
  · cases h

lemma vacant_of_resolve (h : t.resolve location = some none) (e : Entry) :
    ¬ t.Located location e := by
  unfold Tables.resolve at h
  split at h
  · rename_i hentries
    rw [← Tables.mem_entriesAt, hentries]
    simp
  · cases h
  · cases h

lemma eq_of_sameRow {e found : Entry} (hthere : t.Located location found)
    (hrow : e.sameRow found = true) (halias : t.aliasChanged e = false) : e = found := by
  cases e with
  | symlinkHardlink id s =>
    cases found with
    | symlinkHardlink k g =>
      obtain ⟨row, hlookup, hg, -⟩ := hthere
      have hid : id = k := by simpa [Entry.sameRow] using hrow
      subst hid
      simp only [Tables.aliasChanged, hlookup, Option.map_some, hg, bne_eq_false_iff_eq,
        Option.some.injEq] at halias
      rw [halias]
    | _ => simp [Entry.sameRow] at hrow
  | _ => simpa [Entry.sameRow] using hrow

/-- The new name is free, or only the entry has it that is expected there. -/
def Tables.TargetReady (t : Tables) (r : RenameRequest) : Prop :=
  match r.target with
  | none => ∀ e, ¬ t.Located r.new e
  | some target => t.Located r.new target ∧ ∀ e, t.Located r.new e → e = target

lemma renameStopped_cases (h : t.renameStopped r = none) :
    t.Located r.old r.source ∧ t.TargetReady r := by
  unfold Tables.renameStopped at h
  split at h
  · cases h
  split at h
  · cases h
  split at h
  · cases h
  rename_i source hold
  split at h
  · cases h
  rename_i hmatches
  split at h
  · cases h
  rename_i found hnew
  split at h
  · cases h
  split at h
  · cases h
  rename_i hexpected
  split at h
  · cases h
  split at h
  · cases h
  rename_i halias
  simp only [Bool.or_eq_true, not_or, Bool.not_eq_true] at halias
  constructor
  · cases source with
    | none => simp at hmatches
    | some source =>
      have hthere := (located_of_resolve hold).1
      have hrow : r.source.sameRow source = true := by simpa using hmatches
      exact eq_of_sameRow hthere hrow halias.1 ▸ hthere
  · unfold Tables.TargetReady
    cases htarget : r.target with
    | none =>
      cases found with
      | none => exact vacant_of_resolve hnew
      | some found => simp [htarget, Entry.matchesTarget] at hexpected
    | some target =>
      cases found with
      | none => simp [htarget, Entry.matchesTarget] at hexpected
      | some found =>
        have hrow : target.sameRow found = true := by
          simpa [htarget, Entry.matchesTarget] using hexpected
        have hthere := located_of_resolve hnew
        have halias' : t.aliasChanged target = false := by simpa [htarget] using halias.2
        exact eq_of_sameRow hthere.1 hrow halias' ▸ hthere

lemma sameRow_refl (e : Entry) : e.sameRow e = true := by
  cases e <;> simp [Entry.sameRow]

lemma alreadyRenamed_of_only (hthere : t.Located r.new r.source)
    (honly : ∀ e, t.Located r.new e → e = r.source) : t.alreadyRenamed r = true := by
  simp [Tables.alreadyRenamed, Tables.resolve, Tables.entriesAt_eq_singleton hthere honly,
    sameRow_refl]

lemma alreadyRenamed_of_move (hthere : t.Located old r.source)
    (hvacant : ∀ e, ¬ t.Located r.new e) :
    (t.moveEntry r.new r.source).alreadyRenamed r = true := by
  refine alreadyRenamed_of_only (moveEntry_located hthere) fun e he => ?_
  exact (located_of_moveEntry hthere he).resolve_right (hvacant e)

lemma replaceTarget_cases {outcome : RenameOutcome} (hsource : t.Located r.old r.source)
    (hready : t.TargetReady r) (hnew : t.alreadyRenamed r = false)
    (hinode : r.target.any (Tables.sameInode r.source) = false)
    (h : t.replaceTarget r = .ok (t', outcome)) :
    t' = t ∨ (outcome = .applied ∧ t'.alreadyRenamed r = true) := by
  unfold Tables.replaceTarget at h
  unfold Tables.TargetReady at hready
  cases htarget : r.target with
  | none =>
    simp only [htarget] at h hready
    obtain ⟨_, -, h⟩ := ok_of_bind h
    cases h
    exact .inr ⟨rfl, alreadyRenamed_of_move hsource hready⟩
  | some target =>
    simp only [htarget] at h hready
    obtain ⟨result, hremove, h⟩ := ok_of_bind h
    cases result with
    | none =>
      cases h
      exact .inl rfl
    | some removed =>
      obtain ⟨_, -, h⟩ := ok_of_bind h
      cases h
      have hne : r.source ≠ target := by
        rintro heq
        rw [alreadyRenamed_of_only (heq ▸ hready.1) (heq ▸ hready.2)] at hnew
        cases hnew
      have hinode' : Tables.sameInode r.source target = false := by simpa [htarget] using hinode
      have hstays := source_stays hremove hready.1 hsource hne hinode'
      exact .inr ⟨rfl, alreadyRenamed_of_move hstays (vacated hremove hready.2)⟩

lemma rename_cases {outcome : RenameOutcome} (hnew : t.alreadyRenamed r = false)
    (h : t.rename r = .ok (t', outcome)) :
    t' = t ∨ (outcome = .applied ∧ t'.alreadyRenamed r = true) := by
  unfold Tables.rename at h
  cases hstopped : t.renameStopped r with
  | some stopped =>
    simp only [hstopped] at h
    cases h
    exact .inl rfl
  | none =>
    obtain ⟨hsource, hready⟩ := renameStopped_cases hstopped
    simp only [hstopped] at h
    obtain ⟨_, -, h⟩ := ok_of_bind h
    have hrest : (if r.target.any (Tables.sameInode r.source) then .ok (t, .noOpSameFile)
        else t.replaceTarget r) = Except.ok (t', outcome) := by
      cases htarget : r.target with
      | none => simpa [htarget] using h
      | some target =>
        simp only [htarget] at h
        obtain ⟨_, -, h⟩ := ok_of_bind h
        exact h
    split at hrest
    · cases hrest
      exact .inl rfl
    · rename_i hinode
      exact replaceTarget_cases hsource hready hnew (by simpa using hinode) hrest

lemma rename_once {cfg : Config} {reply : Reply}
    (hfirst : (Operation.rename r).attempt cfg t = .ok (t', reply)) :
    Operation.ExactlyOnce cfg t (.rename r) t' reply := by
  rcases (Operation.attempt_cases hfirst).2 with ⟨hfound, rfl⟩ | ⟨hprobe, hbody⟩
  · exact .of_probe hfirst hfound
  · obtain ⟨outcome, hrename, rfl⟩ := ok_of_map_reply hbody
    have hnew : t.alreadyRenamed r = false := by
      by_contra hnew
      simp [Operation.probe, hnew] at hprobe
    rcases rename_cases hnew hrename with rfl | ⟨rfl, hfound⟩
    · exact .of_unchanged hfirst
    · exact .of_probe hfirst (by simp [Operation.probe, hfound])

end Fod.Replay
