import Fod.Lib.Scan
import Fod.Replay.LostAck

/-!
# Creations are made once

The second run of a creation finds the name taken.  The entry that has it is the one
of the first run, as long as the texts that are compared have no whitespace at their
ends.
-/

namespace Fod.Replay

open Fod.Data
open Scan (ok_of_bind)

variable {t t' : Tables} {location : Location}

lemma isWhitespace_of_isDigit {c : Char} (h : c.isDigit = true) : isWhitespace c = false := by
  have hrange : 48 ≤ c.toNat ∧ c.toNat ≤ 57 := by
    simp only [Char.isDigit, Bool.and_eq_true, decide_eq_true_eq] at h
    exact h
  simp [isWhitespace]
  omega

lemma isDigit_of_mem_decimal {n : Nat} {c : Char} (h : c ∈ decimal n) : c.isDigit = true :=
  Nat.isDigit_of_mem_toDigits (by decide) (by decide) h

lemma trim_marked {seed : Text} {n : Nat} (h : seed.dropWhile isWhitespace = seed) :
    trim (seed ++ Tables.openUnlinkMark ++ decimal n) =
      seed ++ Tables.openUnlinkMark ++ decimal n := by
  have hdigits : decimal n ≠ [] := Nat.toDigits_ne_nil
  have hright : (seed ++ Tables.openUnlinkMark ++ decimal n).rdropWhile isWhitespace =
      seed ++ Tables.openUnlinkMark ++ decimal n := by
    rw [List.rdropWhile_eq_self_iff]
    intro hne
    have hlast := isDigit_of_mem_decimal (List.getLast_mem hdigits)
    rw [List.getLast_append_of_ne_nil _ hdigits, isWhitespace_of_isDigit hlast]
    exact Bool.false_ne_true
  rw [trim, hright]
  cases seed with
  | nil => rfl
  | cons c rest =>
    have hc : isWhitespace c = false := by
      by_contra hspace
      have hlength := congrArg List.length h
      have := (List.dropWhile_suffix (l := rest) isWhitespace).length_le
      simp [Bool.eq_true_of_not_eq_false hspace] at hlength
      omega
    simp [hc]

/-- The seed is found again: as it is, or with the mark of the newest earlier file. -/
def SeedFound (t : Tables) (seed : Text) : Prop :=
  if t.seedUsers seed = [] then trim seed = seed else seed.dropWhile isWhitespace = seed

instance (t : Tables) (seed : Text) : Decidable (SeedFound t seed) := by
  unfold SeedFound
  infer_instance

lemma createdInodeSeedMatches_effective {seed : Text} (h : SeedFound t seed) :
    Tables.createdInodeSeedMatches (trim (t.effectiveFileInodeSeed seed)) seed = true := by
  unfold SeedFound at h
  unfold Tables.effectiveFileInodeSeed
  cases hmax : (t.seedUsers seed).max? with
  | none =>
    rw [if_pos (List.max?_eq_none_iff.mp hmax)] at h
    simp [Tables.createdInodeSeedMatches, h]
  | some n =>
    have hused : t.seedUsers seed ≠ [] := by
      intro hnil
      simp [hnil] at hmax
    rw [if_neg hused] at h
    have hsuffix : List.dropPrefix? (seed ++ Tables.openUnlinkMark ++ decimal n)
        (seed ++ Tables.openUnlinkMark) = some (decimal n) :=
      List.dropPrefix?_append_of_beq _ (by simp)
    have hall : (decimal n).all Char.isDigit = true :=
      List.all_eq_true.mpr fun c hc => isDigit_of_mem_decimal hc
    have hdigits : (decimal n).isEmpty = false := List.isEmpty_eq_false_iff.mpr Nat.toDigits_ne_nil
    simp only [Tables.createdInodeSeedMatches, trim_marked h, hsuffix, hall, hdigits,
      Bool.not_false, Bool.and_self, Bool.or_true]

lemma vacant_cases (h : t.requireNamespaceVacant location = .ok ()) :
    (location.1 = 0 ∨ t.directories.lookup location.1 ≠ none) ∧ t.entriesAt location = [] := by
  unfold Tables.requireNamespaceVacant at h
  grind

lemma not_located_of_vacant (h : t.requireNamespaceVacant location = .ok ()) (e : Entry) :
    ¬ t.Located location e := by
  rw [← Tables.mem_entriesAt, (vacant_cases h).2]
  simp

lemma occupied {e : Entry} (hparent : location.1 = 0 ∨ t'.directories.lookup location.1 ≠ none)
    (hthere : t'.Located location e) :
    t'.requireNamespaceVacant location = .error .namespaceEntryExists := by
  have hne : t'.entriesAt location ≠ [] := List.ne_nil_of_mem (Tables.mem_entriesAt.mpr hthere)
  unfold Tables.requireNamespaceVacant
  rw [if_neg (by grind), if_pos hne]

lemma confirmCreated_insert_eq {ν : Type} {rows : Table Nat ν} {wanted : ν → Bool}
    {asked : Nat → ν → Bool} {id : Nat} {row : ν}
    (hnone : ∀ k v, rows.lookup k = some v → wanted v = false) (hwanted : wanted row = true) :
    Tables.confirmCreated (rows.insert id row) wanted asked =
      if asked id row then some id else none := by
  simp [Tables.confirmCreated, Table.keysWith_insert_eq_singleton wanted hnone hwanted]

lemma confirmCreated_insert {ν : Type} {rows : Table Nat ν} {wanted : ν → Bool}
    {asked : Nat → ν → Bool} {id : Nat} {row : ν}
    (hnone : ∀ k v, rows.lookup k = some v → wanted v = false) (hwanted : wanted row = true)
    (hasked : asked id row = true) :
    Tables.confirmCreated (rows.insert id row) wanted asked = some id := by
  rw [confirmCreated_insert_eq hnone hwanted, if_pos hasked]

lemma ok_of_map {ε α β : Type} {x : Except ε α} {f : α → β} {b : β}
    (h : x.map f = .ok b) : ∃ a, x = .ok a ∧ f a = b := by
  cases x with
  | error e => cases h
  | ok a => exact ⟨a, rfl, Except.ok.inj h⟩

lemma ok_of_map_reply {α : Type} {x : Except Error (Tables × α)} {answer : α → Reply}
    {reply : Reply} (h : x.map (Prod.map id answer) = .ok (t', reply)) :
    ∃ a, x = .ok (t', a) ∧ reply = answer a := by
  obtain ⟨⟨t₁, a⟩, hx, heq⟩ := ok_of_map h
  cases heq
  exact ⟨a, hx, rfl⟩

variable {cfg : Config} {new : Tables.NewEntry} {reply : Reply}

lemma insertFile_cases {special : Option Special} {id : Nat}
    (h : t.insertFile new special = .ok (t', id)) :
    ∃ gid mode, t.requireNamespaceVacant new.location = .ok () ∧
      t.inheritParentSetgid new.location.1 new.gid new.mode false = .ok (gid, mode) ∧
      id = t.nextEntry ∧
      t' = { t with
        files := t.files.insert t.nextEntry
          ⟨new.location, false, mode, new.uid, gid, t.effectiveFileInodeSeed new.seed, special⟩
        data := (t.data.createDataObject ∅).1.setFile t.nextEntry ⟨0, t.data.nextObject⟩
        nextEntry := t.nextEntry + 1 } := by
  obtain ⟨_, hvacant, h⟩ := ok_of_bind h
  obtain ⟨⟨gid, mode⟩, hinherit, h⟩ := ok_of_bind h
  cases h
  exact ⟨gid, mode, hvacant, hinherit, rfl, rfl⟩

lemma file_elsewhere (hvacant : t.requireNamespaceVacant location = .ok ()) {id : Nat} {row : File}
    (hrow : t.files.lookup id = some row) : (row.location == location && !row.unlinked) = false := by
  by_contra hhere
  simp only [Bool.not_eq_false, Bool.and_eq_true, beq_iff_eq, Bool.not_eq_true'] at hhere
  exact not_located_of_vacant hvacant (.file id) ⟨row, hrow, hhere.2, hhere.1⟩

lemma insertFile_again {special : Option Special} {id : Nat}
    (h : t.insertFile new special = .ok (t', id)) (again : Option Special) :
    t'.insertFile new again = .error .namespaceEntryExists := by
  obtain ⟨gid, mode, hvacant, -, -, ht'⟩ := insertFile_cases h
  have hparent : new.location.1 = 0 ∨ t'.directories.lookup new.location.1 ≠ none := by
    rw [ht']
    exact (vacant_cases hvacant).1
  have hthere : t'.Located new.location (.file t.nextEntry) := by
    rw [ht']
    exact ⟨_, AList.lookup_insert _, rfl, rfl⟩
  unfold Tables.insertFile
  rw [occupied hparent hthere]
  rfl

lemma createFile_once (hseed : SeedFound t new.seed)
    (hfirst : (Operation.createFile new).attempt cfg t = .ok (t', reply)) :
    Operation.ExactlyOnce cfg t (.createFile new) t' reply := by
  obtain ⟨id, hinsert, rfl⟩ := ok_of_map_reply (show (t.createFile new).map _ = _ from hfirst)
  obtain ⟨gid, mode, hvacant, hinherit, rfl, ht'⟩ := insertFile_cases hinsert
  have hconfirm : t'.confirmCreatedFile new gid mode = some t.nextEntry := by
    rw [ht']
    refine confirmCreated_insert (fun k row hrow => ?_) (by simp) ?_
    · simp [file_elsewhere hvacant hrow]
    · simp [createdInodeSeedMatches_effective hseed, Db.fileSize, Db.setFile]
  refine .of_confirm hfirst ?_ ?_
  · exact congrArg (Except.map _) (insertFile_again hinsert none)
  · simp [Operation.confirm, hinherit, hconfirm, Except.toOption]

lemma createSpecialFile_once {special : Special} (hseed : SeedFound t new.seed)
    (hkind : trim special.kind = special.kind)
    (hfirst : (Operation.createSpecialFile new special).attempt cfg t = .ok (t', reply)) :
    Operation.ExactlyOnce cfg t (.createSpecialFile new special) t' reply := by
  obtain ⟨id, hinsert, rfl⟩ :=
    ok_of_map_reply (show (t.createSpecialFile new special).map _ = _ from hfirst)
  obtain ⟨gid, mode, hvacant, hinherit, rfl, ht'⟩ := insertFile_cases hinsert
  have hconfirm : t'.confirmCreatedSpecialFile new gid mode special = some t.nextEntry := by
    rw [ht']
    refine confirmCreated_insert (fun k row hrow => ?_) (by simp) ?_
    · simp [file_elsewhere hvacant hrow]
    · simp [createdInodeSeedMatches_effective hseed, Db.fileSize, Db.setFile, hkind]
  refine .of_confirm hfirst ?_ ?_
  · exact congrArg (Except.map _) (insertFile_again hinsert (some special))
  · simp [Operation.confirm, hinherit, hconfirm, Except.toOption]

lemma createDirectory_once (hseed : trim new.seed = new.seed)
    (hfirst : (Operation.createDirectory new).attempt cfg t = .ok (t', reply)) :
    Operation.ExactlyOnce cfg t (.createDirectory new) t' reply := by
  obtain ⟨id, hinsert, rfl⟩ := ok_of_map_reply (show (t.createDirectory new).map _ = _ from hfirst)
  obtain ⟨_, hvacant, hinsert⟩ := ok_of_bind hinsert
  obtain ⟨⟨gid, mode⟩, hinherit, hinsert⟩ := ok_of_bind hinsert
  obtain ⟨ht', rfl⟩ := Prod.mk.inj (Except.ok.inj hinsert)
  have hthere : t'.Located new.location (.directory t.nextEntry) := by
    rw [← ht']
    exact ⟨_, AList.lookup_insert _, rfl⟩
  -- the new row may be the one that the parent had
  have hparent : new.location.1 = 0 ∨ t'.directories.lookup new.location.1 ≠ none := by
    refine (vacant_cases hvacant).1.imp id fun hdir => ?_
    rw [← ht']
    simp only [Table.lookup_insert_eq_ite]
    split
    · exact Option.some_ne_none _
    · exact hdir
  have hconfirm : t'.confirmCreatedDirectory new gid mode = some t.nextEntry := by
    rw [← ht']
    refine confirmCreated_insert (fun k row hrow => ?_) (by simp) (by simp [hseed])
    refine beq_eq_false_iff_ne.mpr fun hhere => ?_
    exact not_located_of_vacant hvacant (.directory k) ⟨row, hrow, hhere⟩
  refine .of_confirm hfirst ?_ ?_
  · have htaken : t'.createDirectory new = .error .namespaceEntryExists := by
      simp only [Tables.createDirectory, occupied hparent hthere]
      rfl
    exact congrArg (Except.map _) htaken
  · simp [Operation.confirm, hinherit, hconfirm, Except.toOption]

lemma createSymlink_again {target : Text} {id : Nat}
    (h : t.createSymlink new target = .ok (t', id)) :
    t'.createSymlink new target = .error .namespaceEntryExists ∧
      (Operation.createSymlink new target).confirm t t' =
        if trim target = target ∧ trim new.seed = new.seed then some (.id id) else none := by
  obtain ⟨_, hvacant, h⟩ := ok_of_bind h
  obtain ⟨⟨gid, mode⟩, hinherit, h⟩ := ok_of_bind h
  obtain ⟨ht', rfl⟩ := Prod.mk.inj (Except.ok.inj h)
  have hthere : t'.Located new.location (.symlink t.nextEntry) := by
    rw [← ht']
    exact ⟨_, AList.lookup_insert _, rfl⟩
  have hparent : new.location.1 = 0 ∨ t'.directories.lookup new.location.1 ≠ none := by
    rw [← ht']
    exact (vacant_cases hvacant).1
  have hconfirm : t'.confirmCreatedSymlink new target gid =
      if trim target = target ∧ trim new.seed = new.seed then some t.nextEntry else none := by
    rw [← ht']
    refine (confirmCreated_insert_eq (fun k row hrow => ?_) (by simp)).trans (by simp)
    refine beq_eq_false_iff_ne.mpr fun hhere => ?_
    exact not_located_of_vacant hvacant (.symlink k) ⟨row, hrow, hhere⟩
  constructor
  · simp only [Tables.createSymlink, occupied hparent hthere]
    rfl
  · by_cases hplain : trim target = target ∧ trim new.seed = new.seed
    · simp [Operation.confirm, hinherit, hconfirm, Except.toOption, hplain]
    · simp [Operation.confirm, hinherit, hconfirm, Except.toOption, if_neg hplain]

lemma createSymlink_once {target : Text} (hseed : trim new.seed = new.seed)
    (htarget : trim target = target)
    (hfirst : (Operation.createSymlink new target).attempt cfg t = .ok (t', reply)) :
    Operation.ExactlyOnce cfg t (.createSymlink new target) t' reply := by
  obtain ⟨id, hinsert, rfl⟩ :=
    ok_of_map_reply (show (t.createSymlink new target).map _ = _ from hfirst)
  obtain ⟨htaken, hconfirm⟩ := createSymlink_again hinsert
  refine .of_confirm hfirst ?_ ?_
  · exact congrArg (Except.map _) htaken
  · rw [hconfirm, if_pos ⟨htarget, hseed⟩]

/-- A target with whitespace at its ends is stored as it is, and then not recognised. -/
theorem createSymlink_unconfirmed {target : Text} (htarget : trim target ≠ target)
    (hfirst : (Operation.createSymlink new target).attempt cfg t = .ok (t', reply)) :
    (Operation.createSymlink new target).afterLostAck cfg t = .error .namespaceEntryExists := by
  obtain ⟨id, hinsert, rfl⟩ :=
    ok_of_map_reply (show (t.createSymlink new target).map _ = _ from hfirst)
  obtain ⟨htaken, hconfirm⟩ := createSymlink_again hinsert
  have hagain : (Operation.createSymlink new target).attempt cfg t' =
      .error .namespaceEntryExists := congrArg (Except.map _) htaken
  simp [Operation.afterLostAck, hfirst, hagain, Error.isUniqueViolation, hconfirm, htarget]

lemma createHardlink_once {file uid gid : Nat}
    (hfirst : (Operation.createHardlink file location uid gid).attempt cfg t = .ok (t', reply)) :
    Operation.ExactlyOnce cfg t (.createHardlink file location uid gid) t' reply := by
  obtain ⟨id, hinsert, rfl⟩ :=
    ok_of_map_reply (show (t.createHardlink file location uid gid).map _ = _ from hfirst)
  unfold Tables.createHardlink at hinsert
  by_cases hsource : (t.files.lookup file).all File.unlinked = true
  · simp only [hsource, if_true] at hinsert
    cases hinsert
  · simp only [hsource] at hinsert
    obtain ⟨_, hvacant, hinsert⟩ := ok_of_bind hinsert
    obtain ⟨ht', rfl⟩ := Prod.mk.inj (Except.ok.inj hinsert)
    have hthere : t'.Located location (.hardlink t.nextEntry file) := by
      rw [← ht']
      exact ⟨_, AList.lookup_insert _, rfl, rfl⟩
    have hparent : location.1 = 0 ∨ t'.directories.lookup location.1 ≠ none := by
      rw [← ht']
      exact (vacant_cases hvacant).1
    have hsource' : ¬ (t'.files.lookup file).all File.unlinked = true := by
      rw [← ht']
      exact hsource
    have hconfirm : t'.confirmCreatedHardlink file location uid gid = some t.nextEntry := by
      rw [← ht']
      refine confirmCreated_insert (fun k row hrow => ?_) (by simp) (by simp)
      refine beq_eq_false_iff_ne.mpr fun hhere => ?_
      exact not_located_of_vacant hvacant (.hardlink k row.file) ⟨row, hrow, rfl, hhere⟩
    refine .of_confirm hfirst ?_ ?_
    · have htaken : t'.createHardlink file location uid gid = .error .namespaceEntryExists := by
        simp only [Tables.createHardlink, hsource', occupied hparent hthere]
        rfl
      exact congrArg (Except.map _) htaken
    · simp [Operation.confirm, hconfirm]

end Fod.Replay
