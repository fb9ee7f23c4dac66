import Fod.Objects.Model

/-!
# Reference counts of a committed transaction

What the writes of a transaction do to the files and to the counts of the objects,
for each plan.
-/

namespace Fod.Objects

open Fod.Data

/-- Every file has its object, and every object counts the files that have it. -/
structure Counted (db : Db) : Prop where
  stored : ∀ f row, db.files.lookup f = some row →
    ∃ object, db.objects.lookup row.dataObject = some object
  counted : ∀ o object, db.objects.lookup o = some object →
    object.referenceCount = db.references o ∧ 1 ≤ db.references o
  fresh : ∀ o object, db.objects.lookup o = some object → o < db.nextObject

namespace Plan

def file : Plan → Nat
  | inPlace f _ _ _ => f
  | swap f _ _ _ _ => f
  | adopt _ dst _ _ _ _ => dst
  | remove f _ _ => f

def released : Plan → Option (Nat × Release)
  | inPlace _ _ _ _ => none
  | swap _ _ o _ r => some (o, r)
  | adopt _ _ _ _ old r => r.map (old, ·)
  | remove _ o r => some (o, r)

def object (db : Db) : Plan → Option Nat
  | inPlace _ _ o _ => some o
  | swap _ _ _ _ _ => some db.nextObject
  | adopt _ _ _ o _ _ => some o
  | remove _ _ _ => none

def changed : Plan → Option Nat
  | inPlace _ _ o _ => some o
  | _ => none

end Plan

section Writes

variable {db : Db} {f o o' : Nat} {row : FileRow}

lemma updateFile_eq (hrow : db.files.lookup f = some row) (change : FileRow → FileRow) :
    updateFile db f change = db.setFile f (change row) := by
  simp [updateFile, hrow]

lemma lookup_release (r : Release) :
    (Write.apply db (.release o r)).objects.lookup o' =
      if o' = o then
        match r with
        | .delete => none
        | .touch => (db.objects.lookup o).map fun object =>
          { object with referenceCount := object.referenceCount - 1 }
      else db.objects.lookup o' := by
  cases r with
  | delete => simp [Write.apply, Table.lookup_erase_eq_ite]
  | touch => simp [Write.apply, Db.touchOldObject, Db.lookup_updateObject]

@[simp] lemma files_release (r : Release) : (Write.apply db (.release o r)).files = db.files := by
  cases r <;> simp [Write.apply, Db.touchOldObject]

@[simp] lemma nextObject_release (r : Release) :
    (Write.apply db (.release o r)).nextObject = db.nextObject := by
  cases r <;> simp [Write.apply, Db.touchOldObject]

lemma references_congr {db' : Db} (h : db'.files = db.files) (o : Nat) :
    db'.references o = db.references o := by
  rw [Db.references, Db.references, h]

lemma references_eq_zero_of (h : ∀ g row, db.files.lookup g = some row → row.dataObject ≠ o) :
    db.references o = 0 := by
  rw [Db.references, List.length_eq_zero_iff, List.eq_nil_iff_forall_not_mem]
  intro g hg
  obtain ⟨row, hrow, hsame⟩ := (Table.mem_keysWith _).mp hg
  exact h g row hrow (beq_iff_eq.mp hsame)

lemma references_deleteFile (hrow : db.files.lookup f = some row) (o : Nat) :
    Db.references { db with files := db.files.erase f } o +
      (if row.dataObject = o then 1 else 0) = db.references o := by
  have h := Table.length_keysWith_erase (fun row => row.dataObject == o) hrow
  simp only [beq_iff_eq] at h
  exact h

end Writes

/-! ## Whole plans -/

structure Effect (db db' : Db) (plan : Plan) : Prop where
  counted : Counted db'
  others : ∀ g, g ≠ plan.file → db'.files.lookup g = db.files.lookup g
  object : ∀ row, db'.files.lookup plan.file = some row → plan.object db = some row.dataObject
  references : ∀ o, db.references o ≤
    db'.references o + if plan.released.map Prod.fst = some o then 1 else 0
  absent : ∀ o, o < db.nextObject → db.objects.lookup o = none → db'.objects.lookup o = none
  next : db.nextObject ≤ db'.nextObject
  blocks : ∀ o object object', plan.changed ≠ some o → db.objects.lookup o = some object →
    db'.objects.lookup o = some object' → object'.blocks = object.blocks
  deleted : ∀ o, plan.released = some (o, .delete) → db'.objects.lookup o = none

section Effects

variable {db : Db} {f size o : Nat} {row : FileRow} {r : Release}

lemma Counted.lt_next (h : Counted db) (hrow : db.files.lookup f = some row) :
    row.dataObject < db.nextObject := by
  obtain ⟨object, hobject⟩ := h.stored f row hrow
  exact h.fresh _ _ hobject

lemma Counted.references_next (h : Counted db) : db.references db.nextObject = 0 := by
  refine references_eq_zero_of fun g row hrow hsame => ?_
  have := h.lt_next hrow
  omega

lemma stored_of_referential (h : Referential db) (hrow : db.files.lookup f = some row) :
    ∃ object, db.objects.lookup row.dataObject = some object :=
  Option.isSome_iff_exists.mp (h ⟨f, row⟩ (Table.lookup_eq_some.mp hrow))

lemma effect_inPlace (h : Counted db) (hrow : db.files.lookup f = some row)
    (ho : row.dataObject = o) (rows : List BlockRow) :
    Effect db (view db (.inPlace f size o rows) 2) (.inPlace f size o rows) := by
  let mid := Write.apply db (.changeBlocks o rows)
  have hfiles : mid.files = db.files := Db.files_updateObject _
  have hview : view db (.inPlace f size o rows) 2 = mid.setFile f ⟨size, row.dataObject⟩ :=
    updateFile_eq (hfiles ▸ hrow) _
  have href (o' : Nat) : (mid.setFile f ⟨size, row.dataObject⟩).references o' =
      db.references o' := by
    have hset := Db.references_setFile (hfiles ▸ hrow) ⟨size, row.dataObject⟩ o'
    rw [references_congr hfiles] at hset
    dsimp only at hset
    omega
  have hlookup (o' : Nat) (object' : DataObject) (hlookup : mid.objects.lookup o' = some object') :
      ∃ object, db.objects.lookup o' = some object ∧
        object'.referenceCount = object.referenceCount := by
    rw [show mid = db.updateObject o _ from rfl, Db.lookup_updateObject] at hlookup
    split at hlookup
    next heq =>
      obtain ⟨object, hobject, rfl⟩ := Option.map_eq_some_iff.mp hlookup
      exact ⟨object, heq ▸ hobject, rfl⟩
    next => exact ⟨object', hlookup, rfl⟩
  rw [hview]
  constructor
  · constructor
    · intro g row' hrow'
      have hsame : ∃ old, db.files.lookup g = some old ∧ old.dataObject = row'.dataObject := by
        rcases Table.lookup_insert_cases hrow' with ⟨rfl, rfl⟩ | ⟨_, hold⟩
        · exact ⟨row, hrow, rfl⟩
        · exact ⟨row', hfiles ▸ hold, rfl⟩
      obtain ⟨old, hold, heq⟩ := hsame
      obtain ⟨object, hobject⟩ := h.stored g old hold
      refine Option.isSome_iff_exists.mp ?_
      change (mid.objects.lookup row'.dataObject).isSome
      rw [show mid = db.updateObject o _ from rfl, Db.lookup_updateObject, ← heq]
      split
      next hsame =>
        rw [hsame] at hobject
        simp [hobject]
      next => simp [hobject]
    · intro o' object' hobject'
      obtain ⟨object, hobject, hcount⟩ := hlookup o' object' hobject'
      rw [href, hcount]
      exact h.counted o' object hobject
    · intro o' object' hobject'
      obtain ⟨object, hobject, -⟩ := hlookup o' object' hobject'
      have hfresh := h.fresh o' object hobject
      change o' < mid.nextObject
      rwa [show mid.nextObject = db.nextObject from Db.nextObject_updateObject _]
  · intro g hg
    change (mid.files.insert f _).lookup g = _
    rw [AList.lookup_insert_ne (show g ≠ f from hg), hfiles]
  · intro row' hrow'
    change (mid.files.insert f _).lookup f = _ at hrow'
    rw [AList.lookup_insert] at hrow'
    cases hrow'
    simp [Plan.object, ho]
  · intro o'
    rw [href]
    exact Nat.le_add_right _ _
  · intro o' _ hnone
    refine Option.eq_none_iff_forall_ne_some.mpr fun object' hobject' => ?_
    obtain ⟨object, hobject, -⟩ := hlookup o' object' hobject'
    rw [hnone] at hobject
    cases hobject
  · change db.nextObject ≤ mid.nextObject
    rw [show mid.nextObject = db.nextObject from Db.nextObject_updateObject _]
  · intro o' object object' hchanged hobject hobject'
    change mid.objects.lookup o' = _ at hobject'
    have hne : o' ≠ o := fun heq => hchanged (by rw [heq]; rfl)
    rw [show mid = db.updateObject o _ from rfl, Db.lookup_updateObject, if_neg hne, hobject] at hobject'
    cases hobject'
    rfl
  · intro o' hreleased
    cases hreleased

lemma of_release {mid : Db} {o' : Nat} {object' : DataObject}
    (hlookup : (Write.apply mid (.release o r)).objects.lookup o' = some object') :
    ∃ object, mid.objects.lookup o' = some object ∧ object'.blocks = object.blocks ∧
      if o' = o then r = .touch ∧ object'.referenceCount = object.referenceCount - 1
      else object'.referenceCount = object.referenceCount := by
  rw [lookup_release] at hlookup
  split at hlookup
  next heq =>
    cases r with
    | delete => cases hlookup
    | touch =>
      obtain ⟨object, hobject, rfl⟩ := Option.map_eq_some_iff.mp hlookup
      exact ⟨object, heq ▸ hobject, rfl, by simp [heq]⟩
  next hne => exact ⟨object', hlookup, rfl, by simp [hne]⟩

lemma effect_release (mid : Db) {db' : Db} {plan : Plan} (h : Counted db)
    (hreleased : plan.released = some (row.dataObject, r))
    (htouch : r = .touch → 2 ≤ db.references row.dataObject)
    (hothers : ∀ g, g ≠ plan.file → db'.files.lookup g = db.files.lookup g)
    (hobject : ∀ row', db'.files.lookup plan.file = some row' →
      plan.object db = some row'.dataObject)
    (hrefs : ∀ o', db'.references o' + (if row.dataObject = o' then 1 else 0) =
      db.references o' + if plan.object db = some o' then 1 else 0)
    (hobjects : db'.objects = (Write.apply mid (.release row.dataObject r)).objects)
    (hmid : ∀ o' object', mid.objects.lookup o' = some object' →
      object'.referenceCount = db.references o' + (if plan.object db = some o' then 1 else 0) ∧
      ((∃ object, db.objects.lookup o' = some object ∧ object'.blocks = object.blocks) ∨
        (o' = db.nextObject ∧ plan.object db = some o' ∧ db.nextObject < db'.nextObject)))
    (hnext : db.nextObject ≤ db'.nextObject) (href : Referential db') :
    Effect db db' plan where
  counted := by
    refine ⟨fun g row' hrow' => stored_of_referential href hrow', ?_, ?_⟩
    · intro o' object' hobject'
      obtain ⟨object, hlookup, -, hcount⟩ := of_release (hobjects ▸ hobject')
      obtain ⟨hfiles, hold⟩ := hmid o' object hlookup
      have hrefs := hrefs o'
      have hpos : 1 ≤ db.references o' + if plan.object db = some o' then 1 else 0 := by
        rcases hold with ⟨before, hbefore, -⟩ | ⟨-, hjoined, -⟩
        · exact (h.counted o' before hbefore).2.trans (Nat.le_add_right _ _)
        · rw [if_pos hjoined]
          exact Nat.le_add_left _ _
      split at hcount
      next heq =>
        obtain ⟨hr, hcount⟩ := hcount
        have htwo := htouch hr
        rw [if_pos heq.symm] at hrefs
        rw [heq] at hrefs hfiles ⊢
        omega
      next hne =>
        rw [if_neg (Ne.symm hne)] at hrefs
        omega
    · intro o' object' hobject'
      obtain ⟨object, hlookup, -⟩ := of_release (hobjects ▸ hobject')
      rcases (hmid o' object hlookup).2 with ⟨before, hbefore, -⟩ | ⟨rfl, -, hlt⟩
      · exact (h.fresh o' before hbefore).trans_le hnext
      · exact hlt
  others := hothers
  object := hobject
  references o' := by
    have := hrefs o'
    simp only [hreleased, Option.map_some, Option.some.injEq]
    omega
  absent o' hlt hnone := by
    refine Option.eq_none_iff_forall_ne_some.mpr fun object' hobject' => ?_
    obtain ⟨object, hlookup, -⟩ := of_release (hobjects ▸ hobject')
    rcases (hmid o' object hlookup).2 with ⟨before, hbefore, -⟩ | ⟨rfl, -, -⟩
    · simp [hnone] at hbefore
    · omega
  next := hnext
  blocks o' object object' _ hbefore hobject' := by
    obtain ⟨object₁, hlookup, hblocks, -⟩ := of_release (hobjects ▸ hobject')
    rcases (hmid o' object₁ hlookup).2 with ⟨object₂, hsame, hkept⟩ | ⟨rfl, -, -⟩
    · rw [hbefore] at hsame
      cases hsame
      exact hblocks.trans hkept
    · exact absurd (h.fresh _ _ hbefore) (Nat.lt_irrefl _)
  deleted o' ho' := by
    rw [hreleased] at ho'
    obtain ⟨rfl, rfl⟩ := Prod.mk.inj (Option.some.inj ho')
    rw [hobjects, lookup_release, if_pos rfl]

lemma effect_move (mid : Db) {db' : Db} {plan : Plan} (h : Counted db)
    (hrow : db.files.lookup plan.file = some row)
    (hreleased : plan.released = some (row.dataObject, r))
    (htouch : r = .touch → 2 ≤ db.references row.dataObject) (hmoved : plan.object db = some o)
    (hfiles : mid.files = db.files.insert plan.file ⟨size, o⟩)
    (hview : db' = Write.apply mid (.release row.dataObject r))
    (hmid : ∀ o' object', mid.objects.lookup o' = some object' →
      object'.referenceCount = db.references o' + (if o = o' then 1 else 0) ∧
      ((∃ object, db.objects.lookup o' = some object ∧ object'.blocks = object.blocks) ∨
        (o' = db.nextObject ∧ o = o' ∧ db.nextObject < mid.nextObject)))
    (hnext : db.nextObject ≤ mid.nextObject) (href : Referential db') : Effect db db' plan := by
  subst hview
  have hfiles' : (Write.apply mid (.release row.dataObject r)).files =
      (db.setFile plan.file ⟨size, o⟩).files := (files_release r).trans hfiles
  refine effect_release mid h hreleased htouch ?_ ?_ ?_ rfl ?_ ?_ href
  · intro g hg
    rw [hfiles']
    exact AList.lookup_insert_ne hg
  · intro row' hrow'
    rw [hfiles'] at hrow'
    obtain rfl := Option.some.inj ((AList.lookup_insert _).symm.trans hrow')
    exact hmoved
  · intro o'
    rw [references_congr hfiles']
    simpa [hmoved] using Db.references_setFile hrow ⟨size, o⟩ o'
  · simpa [hmoved] using hmid
  · rwa [nextObject_release]

lemma effect_swap (h : Counted db) (hrow : db.files.lookup f = some row)
    (ho : row.dataObject = o) (blocks : Table Nat Bytes) (htouch : r = .touch → 2 ≤ db.references o)
    (href : Referential (view db (.swap f size o blocks r) 2)) :
    Effect db (view db (.swap f size o blocks r) 2) (.swap f size o blocks r) := by
  subst ho
  let mid := (db.createDataObject blocks).1.setFile f ⟨size, db.nextObject⟩
  have hfile : updateFile (db.createDataObject blocks).1 f (fun _ => ⟨size, db.nextObject⟩) = mid :=
    updateFile_eq (show (db.createDataObject blocks).1.files.lookup f = some row from hrow) _
  refine effect_move mid h hrow rfl htouch rfl rfl
    (congrArg (Write.apply · (.release row.dataObject r)) hfile) ?_ (Nat.le_succ _) href
  intro o' object' hobject'
  rcases Table.lookup_insert_cases hobject' with ⟨rfl, rfl⟩ | ⟨hold, hobject'⟩
  · exact ⟨by simp [h.references_next], .inr ⟨rfl, rfl, Nat.lt_succ_self _⟩⟩
  · rw [if_neg (Ne.symm hold)]
    exact ⟨(h.counted o' object' hobject').1, .inl ⟨object', hobject', rfl⟩⟩

lemma effect_adopt {src dst old : Nat} (h : Counted db) (hrow : db.files.lookup dst = some row)
    (ho : row.dataObject = old) (htouch : r = .touch → 2 ≤ db.references old)
    (href : Referential (view db (.adopt src dst size o old (some r)) 3)) :
    Effect db (view db (.adopt src dst size o old (some r)) 3)
      (.adopt src dst size o old (some r)) := by
  subst ho
  let added := Write.apply db (.addReference o)
  let mid := added.setFile dst ⟨size, o⟩
  have hadded : added.files = db.files := Db.files_updateObject _
  have hnext : mid.nextObject = db.nextObject := Db.nextObject_updateObject _
  have hfile : updateFile added dst (fun _ => ⟨size, o⟩) = mid := updateFile_eq (hadded ▸ hrow) _
  refine effect_move mid h hrow rfl htouch rfl (congrArg (AList.insert dst _) hadded)
    (congrArg (Write.apply · (.release row.dataObject r)) hfile) ?_ hnext.ge href
  intro o' object' hobject'
  rw [show mid.objects = (db.updateObject o _).objects from rfl, Db.lookup_updateObject] at hobject'
  split at hobject'
  next heq =>
    obtain ⟨object, hobject, rfl⟩ := Option.map_eq_some_iff.mp hobject'
    subst heq
    exact ⟨by simp [(h.counted o' object hobject).1], .inl ⟨object, hobject, rfl⟩⟩
  next hother =>
    rw [if_neg (Ne.symm hother)]
    exact ⟨(h.counted o' object' hobject').1, .inl ⟨object', hobject', rfl⟩⟩

lemma effect_remove (h : Counted db) (hrow : db.files.lookup f = some row)
    (ho : row.dataObject = o) (htouch : r = .touch → 2 ≤ db.references o)
    (href : Referential (view db (.remove f o r) 2)) :
    Effect db (view db (.remove f o r) 2) (.remove f o r) := by
  subst ho
  have hview : view db (.remove f row.dataObject r) 2 =
      { Write.apply db (.release row.dataObject r) with files := db.files.erase f } := by
    have hfiles : (db.touchOldObject row.dataObject).files = db.files := Db.files_updateObject _
    cases r with
    | delete => rfl
    | touch => exact congrArg (fun files => Db.mk (AList.erase f files) _ _) hfiles
  rw [hview] at href ⊢
  refine effect_release db h rfl htouch ?_ ?_ ?_ rfl ?_ ?_ href
  · intro g hg
    exact AList.lookup_erase_ne (show g ≠ f from hg)
  · intro row' hrow'
    change (db.files.erase f).lookup f = _ at hrow'
    rw [AList.lookup_erase] at hrow'
    cases hrow'
  · exact references_deleteFile hrow
  · intro o' object' hobject'
    exact ⟨(h.counted o' object' hobject').1, .inl ⟨object', hobject', rfl⟩⟩
  · exact (nextObject_release r).ge

end Effects

end Fod.Objects
