import Fod.Data.Store

/-!
# Files that share objects

A transaction that writes one file leaves the contents of every other file as
they are: the object it writes belongs to that file alone.
-/

namespace Fod.Data

namespace Db

variable {db db₀ : Db} {f g o : Nat} {row : FileRow} {object : DataObject}

structure Wf (db : Db) : Prop where
  stored : ∀ {f row}, db.files.lookup f = some row → ∃ object, db.objects.lookup row.dataObject = some object
  counted : ∀ {o object}, db.objects.lookup o = some object → db.references o ≤ object.referenceCount
  fresh : ∀ {o object}, db.objects.lookup o = some object → o < db.nextObject

variable {b : Nat}

lemma find_of_lookup (hrow : db.files.lookup f = some row) :
    db.find f b = (db.objects.lookup row.dataObject).bind (·.blocks.lookup b) := by
  simp [find, hrow]

lemma find_eq_none (hrow : db.files.lookup f = none) : db.find f b = none := by
  simp [find, hrow]

lemma references_setFile (hrow : db.files.lookup f = some row) (row' : FileRow) (o : Nat) :
    (db.setFile f row').references o + (if row.dataObject = o then 1 else 0) =
      db.references o + if row'.dataObject = o then 1 else 0 := by
  have h := Table.length_keysWith_insert (fun row => row.dataObject == o) hrow row'
  simp only [beq_iff_eq] at h
  exact h

lemma references_pos (hrow : db.files.lookup f = some row) : 0 < db.references row.dataObject := by
  have hmem : f ∈ db.files.keysWith fun r => r.dataObject == row.dataObject :=
    (Table.mem_keysWith _).mpr ⟨row, hrow, beq_self_eq_true _⟩
  exact List.length_pos_of_mem hmem

lemma eq_of_references_le_one {row' : FileRow} (h : db.references row.dataObject ≤ 1)
    (hrow : db.files.lookup f = some row) (hrow' : db.files.lookup g = some row')
    (hsame : row'.dataObject = row.dataObject) : g = f := by
  have hf : f ∈ db.files.keysWith fun r => r.dataObject == row.dataObject :=
    (Table.mem_keysWith _).mpr ⟨row, hrow, beq_self_eq_true _⟩
  have hg : g ∈ db.files.keysWith fun r => r.dataObject == row.dataObject :=
    (Table.mem_keysWith _).mpr ⟨row', hrow', beq_iff_eq.mpr hsame⟩
  rw [references] at h
  match hkeys : db.files.keysWith fun r => r.dataObject == row.dataObject with
  | [] => simp [hkeys] at hf
  | [k] =>
    simp only [hkeys, List.mem_singleton] at hf hg
    rw [hf, hg]
  | k :: k' :: rest => simp [hkeys] at h

lemma references_eq_zero (hwf : db.Wf) (hnone : db.objects.lookup o = none) :
    db.references o = 0 := by
  rw [references, List.length_eq_zero_iff, List.eq_nil_iff_forall_not_mem]
  intro g hg
  obtain ⟨row, hrow, hsame⟩ := (Table.mem_keysWith _).mp hg
  obtain ⟨object, hobject⟩ := hwf.stored hrow
  rw [beq_iff_eq.mp hsame, hnone] at hobject
  cases hobject

lemma updateObject_eq (hobject : db.objects.lookup o = some object)
    (change : DataObject → DataObject) :
    db.updateObject o change = { db with objects := db.objects.insert o (change object) } := by
  simp [updateObject, hobject]

lemma lookup_updateObject {o' : Nat} (change : DataObject → DataObject) :
    (db.updateObject o change).objects.lookup o' =
      if o' = o then (db.objects.lookup o).map change else db.objects.lookup o' := by
  unfold updateObject
  cases h : db.objects.lookup o with
  | none =>
    by_cases ho : o' = o
    · subst ho
      simp [h]
    · simp [ho]
  | some object => simp [Table.lookup_insert_eq_ite]

@[simp] lemma files_updateObject (change : DataObject → DataObject) :
    (db.updateObject o change).files = db.files := by
  unfold updateObject
  cases db.objects.lookup o <;> rfl

@[simp] lemma nextObject_updateObject (change : DataObject → DataObject) :
    (db.updateObject o change).nextObject = db.nextObject := by
  unfold updateObject
  cases db.objects.lookup o <;> rfl

lemma Wf.insert (h : db.Wf) (hobject : db.references o ≤ object.referenceCount)
    {next : Nat} (hnext : db.nextObject ≤ next) (ho : o < next) :
    Wf { db with objects := db.objects.insert o object, nextObject := next } where
  stored hrow := by
    obtain ⟨old, hold⟩ := h.stored hrow
    simp only [Table.lookup_insert_eq_ite]
    split
    · exact ⟨_, rfl⟩
    · exact ⟨old, hold⟩
  counted hlookup := by
    rcases Table.lookup_insert_cases hlookup with ⟨rfl, rfl⟩ | ⟨_, hold⟩
    · exact hobject
    · exact h.counted hold
  fresh hlookup := by
    rcases Table.lookup_insert_cases hlookup with ⟨rfl, rfl⟩ | ⟨_, hold⟩
    · exact ho
    · exact (h.fresh hold).trans_le hnext

lemma Wf.erase (h : db.Wf) (hnone : db.references o = 0) :
    Wf { db with objects := db.objects.erase o } where
  stored {f row} hrow := by
    obtain ⟨old, hold⟩ := h.stored hrow
    have hne : row.dataObject ≠ o := by
      rintro rfl
      have hpos : 0 < db.references row.dataObject := references_pos hrow
      omega
    exact ⟨old, by rw [AList.lookup_erase_ne hne, hold]⟩
  counted hlookup := h.counted (Table.lookup_erase_cases hlookup).2
  fresh hlookup := h.fresh (Table.lookup_erase_cases hlookup).2

lemma Wf.setFile (h : db.Wf) (hrow : db.files.lookup f = some row) {row' : FileRow}
    (hobject : db.objects.lookup row'.dataObject = some object)
    (hroom : db.references row'.dataObject < object.referenceCount ∨ row'.dataObject = row.dataObject) :
    (db.setFile f row').Wf where
  stored hlookup := by
    rcases Table.lookup_insert_cases hlookup with ⟨rfl, rfl⟩ | ⟨_, hold⟩
    · exact ⟨object, hobject⟩
    · exact h.stored hold
  counted {o object'} hlookup := by
    have hcount := references_setFile hrow row' o
    have hold := h.counted hlookup
    by_cases hnew : row'.dataObject = o
    · subst hnew
      obtain rfl : object' = object := Option.some.inj (hlookup.symm.trans hobject)
      rcases hroom with hroom | hsame
      · rw [if_pos rfl] at hcount
        omega
      · rw [if_pos rfl, if_pos hsame.symm] at hcount
        omega
    · rw [if_neg hnew] at hcount
      omega
  fresh hlookup := h.fresh hlookup

lemma find_congr (hfiles : db.files.lookup g = db₀.files.lookup g)
    (hobject : ∀ row, db₀.files.lookup g = some row →
      (db.objects.lookup row.dataObject).map DataObject.blocks =
        (db₀.objects.lookup row.dataObject).map DataObject.blocks) (b : Nat) :
    db.find g b = db₀.find g b := by
  cases hg : db₀.files.lookup g with
  | none => rw [find_eq_none (hfiles.trans hg), find_eq_none hg]
  | some row =>
    have hblocks := congrArg (Option.bind · (AList.lookup b)) (hobject row hg)
    rw [find_of_lookup (hfiles.trans hg), find_of_lookup hg]
    simpa [Option.bind_map, Function.comp_def] using hblocks

lemma lookup_setFile_of_ne (hg : g ≠ f) : (db.setFile f row).files.lookup g = db.files.lookup g :=
  AList.lookup_insert_ne hg

lemma find_setFile_of_ne (hg : g ≠ f) : (db.setFile f row).find g b = db.find g b :=
  find_congr (lookup_setFile_of_ne hg) (fun _ _ => rfl) b

lemma find_setFile :
    (db.setFile f row).find f b = (db.objects.lookup row.dataObject).bind (·.blocks.lookup b) :=
  find_of_lookup (AList.lookup_insert _)

/-! ## A write to one file -/

def SameOthers (db₀ db : Db) (f : Nat) : Prop :=
  ∀ g, g ≠ f → db.fileSize g = db₀.fileSize g ∧ ∀ b, db.find g b = db₀.find g b

lemma SameOthers.refl : SameOthers db db f := fun _ _ => ⟨rfl, fun _ => rfl⟩

structure Written (db₀ db : Db) (f size : Nat) (blocks : Nat → Option Bytes) : Prop where
  wf : db.Wf
  size : db.fileSize f = some size
  find : ∀ b, db.find f b = blocks b
  others : SameOthers db₀ db f

namespace Written

variable {size : Nat} {blocks : Nat → Option Bytes}

lemma recount (h : Written db₀ db f size blocks) (hobject : db.objects.lookup o = some object)
    {change : DataObject → DataObject} (hblocks : (change object).blocks = object.blocks)
    (hn : db.references o ≤ (change object).referenceCount) :
    Written db₀ (db.updateObject o change) f size blocks := by
  rw [updateObject_eq hobject]
  have hsame : ∀ g b, Db.find { db with objects := db.objects.insert o (change object) } g b =
      db.find g b := by
    intro g b
    refine find_congr ?_ (fun row hrow => ?_) b
    · rfl
    · rw [Table.lookup_insert_eq_ite]
      split
      next ho => rw [ho, hobject, Option.map_some, Option.map_some, hblocks]
      next => rfl
  exact ⟨h.wf.insert hn le_rfl (h.wf.fresh hobject), h.size,
    fun b => (hsame f b).trans (h.find b),
    fun g hg => ⟨(h.others g hg).1, fun b => (hsame g b).trans ((h.others g hg).2 b)⟩⟩

lemma erase (h : Written db₀ db f size blocks) (hnone : db.references o = 0) :
    Written db₀ { db with objects := db.objects.erase o } f size blocks := by
  have hsame : ∀ g b, Db.find { db with objects := db.objects.erase o } g b = db.find g b := by
    intro g b
    refine find_congr ?_ (fun row hrow => ?_) b
    · rfl
    · have hne : row.dataObject ≠ o := by
        rintro rfl
        exact absurd (references_pos hrow) (by omega)
      rw [AList.lookup_erase_ne hne]
  exact ⟨h.wf.erase hnone, h.size, fun b => (hsame f b).trans (h.find b),
    fun g hg => ⟨(h.others g hg).1, fun b => (hsame g b).trans ((h.others g hg).2 b)⟩⟩

end Written

lemma fileDataObjectInfo_eq (hrow : db.files.lookup f = some row)
    (hobject : db.objects.lookup row.dataObject = some object) :
    db.fileDataObjectInfo f = some (row.dataObject, object) := by
  simp [fileDataObjectInfo, hrow, hobject]

structure Ready (db : Db) (target : DataObjectWriteTarget) (blocks : Table Nat Bytes) : Prop where
  object : ∃ n, db.objects.lookup target.dataObject = some ⟨n, blocks⟩
  replaced : ∀ old, target.replaced = some old → old.1 ≠ target.dataObject

namespace Ready

variable {target : DataObjectWriteTarget} {blocks : Table Nat Bytes}

lemma update (h : Ready db target blocks) (edit : Table Nat Bytes → Table Nat Bytes) :
    Ready (db.updateObject target.dataObject fun object => { object with blocks := edit object.blocks })
      target (edit blocks) := by
  obtain ⟨n, hobject⟩ := h.object
  rw [updateObject_eq hobject]
  exact ⟨⟨n, AList.lookup_insert _⟩, h.replaced⟩

lemma find_finish (h : Ready db target blocks) (deferred : Bool) (f size : Nat) :
    (db.finishDataObjectWrite deferred f size target).fileSize f = some size ∧
      ∀ b, (db.finishDataObjectWrite deferred f size target).find f b = blocks.lookup b := by
  obtain ⟨n, hobject⟩ := h.object
  have hfile : (db.setFile f ⟨size, target.dataObject⟩).files.lookup f =
      some ⟨size, target.dataObject⟩ := AList.lookup_insert _
  -- whatever happens to the replaced object, the new one stays
  have hkept : ∀ db' : Db, db'.files = (db.setFile f ⟨size, target.dataObject⟩).files →
      db'.objects.lookup target.dataObject = some ⟨n, blocks⟩ →
      db'.fileSize f = some size ∧ ∀ b, db'.find f b = blocks.lookup b := by
    intro db' hfiles hlookup
    refine ⟨by rw [fileSize, hfiles, hfile]; rfl, fun b => ?_⟩
    have hrow : db'.files.lookup f = some ⟨size, target.dataObject⟩ := by rw [hfiles, hfile]
    rw [find_of_lookup hrow, hlookup]
    rfl
  have hupdated : ∀ old (change : DataObject → DataObject), old ≠ target.dataObject →
      ((db.setFile f ⟨size, target.dataObject⟩).updateObject old change).files =
          (db.setFile f ⟨size, target.dataObject⟩).files ∧
        ((db.setFile f ⟨size, target.dataObject⟩).updateObject old change).objects.lookup
          target.dataObject = some ⟨n, blocks⟩ := by
    intro old change hne
    rw [updateObject]
    split
    · exact ⟨rfl, hobject⟩
    · exact ⟨rfl, (AList.lookup_insert_ne hne.symm).trans hobject⟩
  rw [finishDataObjectWrite]
  cases hreplaced : target.replaced with
  | none => exact hkept _ rfl hobject
  | some old =>
    have hne := h.replaced old hreplaced
    dsimp only
    split
    · split
      · exact hkept _ (hupdated _ _ hne).1 (hupdated _ _ hne).2
      · exact hkept _ rfl ((AList.lookup_erase_ne hne.symm).trans hobject)
    · exact hkept _ (hupdated _ _ hne).1 (hupdated _ _ hne).2

end Ready

lemma dataObjectWriteTarget_ready (hrow : db.files.lookup f = some row)
    (hobject : db.objects.lookup row.dataObject = some object) (hne : row.dataObject ≠ db.nextObject)
    (size : Nat) (preferReplacement : Bool) :
    ∃ db' target, db.dataObjectWriteTarget f size preferReplacement = some (db', target) ∧
      Ready db' target (if preferReplacement then ∅ else object.blocks) ∧
      target.payloadRowsEmpty = (preferReplacement || object.blocks.keys.isEmpty) := by
  rw [dataObjectWriteTarget]
  cases preferReplacement with
  | true =>
    rw [if_pos rfl, fileDataObjectInfo_eq hrow hobject]
    refine ⟨_, _, rfl, ⟨⟨1, AList.lookup_insert _⟩, ?_⟩, rfl⟩
    rintro old ⟨⟩
    exact hne
  | false =>
    rw [if_neg (by simp), detachSharedDataObject, fileDataObjectInfo_eq hrow hobject]
    dsimp only
    split
    · refine ⟨_, _, rfl, ⟨⟨object.referenceCount, hobject⟩, ?_⟩, rfl⟩
      rintro old ⟨⟩
    · refine ⟨_, _, rfl, ⟨⟨1, ?_⟩, ?_⟩, rfl⟩
      · have hold : ((db.createDataObject object.blocks).1.setFile f ⟨size, db.nextObject⟩).objects.lookup
            row.dataObject = some object := (AList.lookup_insert_ne hne).trans hobject
        dsimp only [createDataObject] at hold ⊢
        rw [touchOldObject, updateObject_eq hold]
        exact (AList.lookup_insert_ne hne.symm).trans (AList.lookup_insert _)
      · rintro old ⟨⟩

structure Prepared (db₀ db : Db) (f : Nat) (target : DataObjectWriteTarget)
    (blocks : Table Nat Bytes) : Prop where
  wf : db.Wf
  object : ∃ n, 0 < n ∧ db.objects.lookup target.dataObject = some ⟨n, blocks⟩
  exclusive : ∀ g row, db.files.lookup g = some row → row.dataObject = target.dataObject →
    g = f ∧ target.replaced = none
  own : ∃ row, db.files.lookup f = some row ∧
    match target.replaced with
    | none => row.dataObject = target.dataObject
    | some (old, n) => row.dataObject = old ∧ ∃ blocks, db.objects.lookup old = some ⟨n, blocks⟩
  files : ∀ g, g ≠ f → db.files.lookup g = db₀.files.lookup g
  others : ∀ g, g ≠ f → ∀ b, db.find g b = db₀.find g b

namespace Prepared

variable {target : DataObjectWriteTarget} {blocks : Table Nat Bytes}

section

variable (h : Prepared db₀ db f target blocks)

include h

lemma replaced_ne {old : Nat × Nat}
    (hreplaced : target.replaced = some old) {row : FileRow} (hrow : db.files.lookup g = some row) :
    row.dataObject ≠ target.dataObject := by
  intro hsame
  have hnone := (h.exclusive g row hrow hsame).2
  rw [hreplaced] at hnone
  cases hnone

lemma update (edit : Table Nat Bytes → Table Nat Bytes) :
    Prepared db₀
      (db.updateObject target.dataObject fun object => { object with blocks := edit object.blocks })
      f target (edit blocks) := by
  obtain ⟨n, hn, hobject⟩ := h.object
  have hne : ∀ g, g ≠ f → ∀ row, db.files.lookup g = some row →
      row.dataObject ≠ target.dataObject :=
    fun g hg row hrow hsame => hg (h.exclusive g row hrow hsame).1
  have hcount : db.references target.dataObject ≤ n := h.wf.counted hobject
  rw [updateObject_eq hobject]
  refine ⟨h.wf.insert hcount le_rfl (h.wf.fresh hobject), ⟨n, hn, AList.lookup_insert _⟩,
    h.exclusive, ?_, h.files, fun g hg b => ?_⟩
  · obtain ⟨row, hrow, hown⟩ := h.own
    refine ⟨row, hrow, ?_⟩
    cases hreplaced : target.replaced with
    | none => simpa [hreplaced] using hown
    | some old =>
      simp only [hreplaced] at hown
      obtain ⟨hold, b, hb⟩ := hown
      have hother : old.1 ≠ target.dataObject := hold ▸ h.replaced_ne hreplaced hrow
      exact ⟨hold, b, by rw [AList.lookup_insert_ne hother, hb]⟩
  · rw [← h.others g hg]
    refine find_congr ?_ (fun row hrow => ?_) b
    · rfl
    · rw [AList.lookup_insert_ne (hne g hg row hrow)]

lemma setFile (size : Nat) :
    Written db₀ (db.setFile f ⟨size, target.dataObject⟩) f size blocks.lookup := by
  obtain ⟨n, hn, hobject⟩ := h.object
  obtain ⟨row, hrow, hown⟩ := h.own
  refine ⟨h.wf.setFile hrow hobject ?_, ?_, fun b => ?_, fun g hg => ⟨?_, fun b => ?_⟩⟩
  · cases hreplaced : target.replaced with
    | none =>
      simp only [hreplaced] at hown
      exact .inr hown.symm
    | some old =>
      have hnew : db.references target.dataObject = 0 := by
        rw [Db.references, List.length_eq_zero_iff, List.eq_nil_iff_forall_not_mem]
        intro g hg
        obtain ⟨row', hrow', hsame⟩ := (Table.mem_keysWith _).mp hg
        exact h.replaced_ne hreplaced hrow' (beq_iff_eq.mp hsame)
      exact .inl (by rw [hnew]; exact hn)
  · simp [fileSize, Db.setFile]
  · rw [find_setFile, hobject]
    rfl
  · rw [fileSize, lookup_setFile_of_ne hg, h.files g hg, fileSize]
  · rw [find_setFile_of_ne hg, h.others g hg]

lemma finish (deferred : Bool) (size : Nat) :
    Written db₀ (db.finishDataObjectWrite deferred f size target) f size blocks.lookup := by
  have hset := h.setFile size
  obtain ⟨row, hrow, hown⟩ := h.own
  rw [finishDataObjectWrite]
  cases hreplaced : target.replaced with
  | none => exact hset
  | some old =>
    obtain ⟨old, references⟩ := old
    simp only [hreplaced] at hown
    obtain ⟨rfl, oldBlocks, hold⟩ := hown
    have hne := h.replaced_ne hreplaced hrow
    have hcount := references_setFile hrow ⟨size, target.dataObject⟩ row.dataObject
    rw [if_pos rfl, if_neg hne.symm] at hcount
    have hcounted : db.references row.dataObject ≤ references := h.wf.counted hold
    dsimp only
    split
    next hlast =>
      have hnone : (db.setFile f ⟨size, target.dataObject⟩).references row.dataObject = 0 := by
        omega
      split
      next => exact hset.recount hold rfl (Nat.le_of_eq hnone)
      next => exact hset.erase hnone
    next hshared =>
      refine hset.recount hold rfl ?_
      change _ ≤ references - 1
      omega

end

end Prepared

lemma Wf.dataObject_lt (h : db.Wf) (hrow : db.files.lookup f = some row) :
    row.dataObject < db.nextObject :=
  (h.stored hrow).elim fun _ hobject => h.fresh hobject

lemma Wf.createDataObject (h : db.Wf) (blocks : Table Nat Bytes) :
    (db.createDataObject blocks).1.Wf := by
  have hnone : db.objects.lookup db.nextObject = none := by
    cases hlookup : db.objects.lookup db.nextObject with
    | none => rfl
    | some object => exact absurd (h.fresh hlookup) (Nat.lt_irrefl _)
  refine h.insert ?_ (Nat.le_succ _) (Nat.lt_succ_self _)
  rw [references_eq_zero h hnone]
  exact Nat.zero_le _

lemma prepared_create (h : db.Wf) (hrow : db.files.lookup f = some row)
    (hobject : db.objects.lookup row.dataObject = some object) (blocks : Table Nat Bytes)
    (empty : Bool) : Prepared db (db.createDataObject blocks).1 f
      ⟨db.nextObject, some (row.dataObject, object.referenceCount), empty⟩ blocks where
  wf := h.createDataObject blocks
  object := ⟨1, Nat.one_pos, AList.lookup_insert _⟩
  exclusive g row' hrow' hsame := absurd (h.dataObject_lt hrow') (by rw [hsame]; exact Nat.lt_irrefl _)
  own := ⟨row, hrow, rfl, object.blocks, by
    have hne : row.dataObject ≠ db.nextObject := (h.dataObject_lt hrow).ne
    exact (AList.lookup_insert_ne hne).trans hobject⟩
  files _ _ := rfl
  others g _ b := by
    refine find_congr ?_ (fun row' hrow' => ?_) b
    · rfl
    · have hne : row'.dataObject ≠ db.nextObject := (h.dataObject_lt hrow').ne
      exact congrArg _ (AList.lookup_insert_ne hne)

lemma detachSharedDataObject_prepared (h : db.Wf) (hrow : db.files.lookup f = some row)
    (hobject : db.objects.lookup row.dataObject = some object) (size : Nat) :
    ∃ db' o, db.detachSharedDataObject f size = some (db', o, object.blocks.keys.isEmpty) ∧
      Prepared db db' f ⟨o, none, object.blocks.keys.isEmpty⟩ object.blocks := by
  simp only [detachSharedDataObject, fileDataObjectInfo_eq hrow hobject]
  have hcounted := h.counted hobject
  have hpos := references_pos hrow
  split
  next hsingle =>
    refine ⟨db, row.dataObject, rfl, h, ⟨_, by omega, hobject⟩, ?_, ⟨row, hrow, rfl⟩,
      fun _ _ => rfl, fun _ _ _ => rfl⟩
    intro g row' hrow' hsame
    exact ⟨eq_of_references_le_one (hcounted.trans hsingle) hrow hrow' hsame, rfl⟩
  next hshared =>
    have hne : row.dataObject ≠ db.nextObject := (h.dataObject_lt hrow).ne
    have hcreated : (db.createDataObject object.blocks).1.files.lookup f = some row := hrow
    let copied := (db.createDataObject object.blocks).1.setFile f ⟨size, db.nextObject⟩
    have hset : Written db copied f size object.blocks.lookup :=
      (prepared_create h hrow hobject object.blocks false).setFile size
    have hold : copied.objects.lookup row.dataObject = some object :=
      (AList.lookup_insert_ne hne).trans hobject
    have hcount : copied.references row.dataObject + 1 = db.references row.dataObject + 0 := by
      have hrefs := references_setFile hcreated ⟨size, db.nextObject⟩ row.dataObject
      rwa [if_pos rfl, if_neg hne.symm] at hrefs
    have htouch : Written db (copied.touchOldObject row.dataObject) f size object.blocks.lookup := by
      refine hset.recount hold rfl ?_
      change _ ≤ object.referenceCount - 1
      omega
    have htouched : copied.touchOldObject row.dataObject = { copied with
        objects := copied.objects.insert row.dataObject
          { object with referenceCount := object.referenceCount - 1 } } := updateObject_eq hold _
    refine ⟨copied.touchOldObject row.dataObject, db.nextObject, rfl, htouch.wf,
      ⟨1, Nat.one_pos, ?_⟩, ?_, ⟨⟨size, db.nextObject⟩, ?_, rfl⟩, fun g hg => ?_,
      fun g hg => (htouch.others g hg).2⟩
    all_goals rw [htouched]
    · exact (AList.lookup_insert_ne hne.symm).trans (AList.lookup_insert _)
    · intro g row' hrow' hnew
      rcases Table.lookup_insert_cases hrow' with ⟨rfl, _⟩ | ⟨_, hold'⟩
      · exact ⟨rfl, rfl⟩
      · exact absurd (h.dataObject_lt hold') (by rw [hnew]; exact Nat.lt_irrefl _)
    · exact AList.lookup_insert _
    · exact AList.lookup_insert_ne hg

lemma dataObjectWriteTarget_prepared (h : db.Wf) (hrow : db.files.lookup f = some row)
    (size : Nat) (preferReplacement : Bool) :
    ∃ db' target blocks, db.dataObjectWriteTarget f size preferReplacement = some (db', target) ∧
      Prepared db db' f target blocks ∧
      (∀ b, blocks.lookup b = if preferReplacement then none else db.find f b) ∧
      (target.payloadRowsEmpty = true → ∀ b, blocks.lookup b = none) := by
  obtain ⟨object, hobject⟩ := h.stored hrow
  rw [dataObjectWriteTarget]
  split
  next =>
    rw [fileDataObjectInfo_eq hrow hobject]
    exact ⟨_, _, ∅, rfl, prepared_create h hrow hobject ∅ true, fun _ => rfl, fun _ _ => rfl⟩
  next =>
    obtain ⟨db', o, hdetach, hprepared⟩ := detachSharedDataObject_prepared h hrow hobject size
    rw [hdetach]
    refine ⟨db', _, object.blocks, rfl, hprepared, fun b => ?_, fun hempty b => ?_⟩
    · rw [find_of_lookup hrow, hobject]
      rfl
    · rw [AList.lookup_eq_none, AList.mem_keys, List.isEmpty_iff.mp hempty]
      exact List.not_mem_nil

end Db

end Fod.Data
