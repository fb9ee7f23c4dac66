import Fod.Locks.PosixTable

/-!
# The lock table byte by byte

A table of lock records says for every owner and every byte which lock the owner
holds there.  `setlk` changes this for its own owner and range and for nothing
else, and it is granted exactly if no other owner holds a conflicting lock on a
byte of the range.
-/

namespace Fod.Locks

namespace PosixLockRecord

def last (record : PosixLockRecord) : Nat := record.stop.getD u64Max

def Covers (record : PosixLockRecord) (p : Nat) : Prop := record.start ≤ p ∧ p ≤ record.last

instance (record : PosixLockRecord) (p : Nat) : Decidable (record.Covers p) :=
  inferInstanceAs (Decidable (_ ∧ _))

structure Valid (record : PosixLockRecord) : Prop where
  range : record.start ≤ record.last
  bound : record.last ≤ u64Max
  typ : record.typ ≠ .unlock

end PosixLockRecord

def lockTypeAt (records : List PosixLockRecord) (owner p : Nat) : Option LockType :=
  (records.find? fun record => record.owner == owner && decide (record.Covers p)).map
    PosixLockRecord.typ

/-- The ranges of an owner are disjoint, and owners do not conflict. -/
structure WellFormed (records : List PosixLockRecord) : Prop where
  valid : ∀ record ∈ records, record.Valid
  disjoint : records.Pairwise fun a b =>
    a.owner = b.owner → rangeOverlaps a.start a.stop b.start b.stop = false
  compatible : records.Pairwise fun a b => a.owner ≠ b.owner → ¬ Conflicting a b

structure SetlkRequest where
  owner : Nat
  start : Nat
  stop : Nat
  typ : LockType
  pid : Nat
  range : start ≤ stop
  bound : stop ≤ u64Max

namespace SetlkRequest

def record (req : SetlkRequest) : PosixLockRecord :=
  ⟨req.owner, req.typ, req.start, some req.stop, req.pid⟩

def replacement (req : SetlkRequest) : Option PosixLockRecord :=
  if req.typ = .unlock then none else some req.record

def Denied (req : SetlkRequest) (readOnly : Bool) : Prop := readOnly = true ∧ req.typ = .write

instance (req : SetlkRequest) (readOnly : Bool) : Decidable (req.Denied readOnly) :=
  inferInstanceAs (Decidable (_ ∧ _))

end SetlkRequest

inductive SetlkReply where
  | ok
  | erofs
  | ewouldblock
  | eio
  deriving DecidableEq

def setlk (readOnly : Bool) (records : List PosixLockRecord) (req : SetlkRequest) :
    List PosixLockRecord × SetlkReply :=
  if req.typ = .unlock then
    (updateOwnerLockRange records req.owner req.start req.stop none, .ok)
  else if req.Denied readOnly then (records, .erofs)
  else if (lockConflict records req.owner req.typ req.start req.stop).isSome then
    (records, .ewouldblock)
  else (updateOwnerLockRange records req.owner req.start req.stop (some req.record), .ok)

def clearLocksForOwner (records : List PosixLockRecord) (owner : Nat) : List PosixLockRecord :=
  records.filter fun record => record.owner != owner

inductive LockAction where
  | setlk (req : SetlkRequest)
  | clearOwner (owner : Nat)

def lockAct (readOnly : Bool) (records : List PosixLockRecord) : LockAction → List PosixLockRecord
  | .setlk req => (Locks.setlk readOnly records req).1
  | .clearOwner owner => clearLocksForOwner records owner

variable {records : List PosixLockRecord} {record whole other : PosixLockRecord}
  {owner start stop p : Nat} {typ : LockType}

lemma rangeOverlaps_eq_false :
    rangeOverlaps record.start record.stop other.start other.stop = false ↔
      other.last < record.start ∨ record.last < other.start := by
  simp only [rangeOverlaps, PosixLockRecord.last, Bool.and_eq_false_iff, decide_eq_false_iff_not]
  omega

lemma rangeOverlaps_request : rangeOverlaps start (some stop) record.start record.stop = true ↔
      start ≤ record.last ∧ record.start ≤ stop := by
  simp [rangeOverlaps, PosixLockRecord.last]

lemma exists_covers_of_conflicting (hrecord : record.Valid) (hother : other.Valid)
    (h : Conflicting record other) :
    ∃ p, record.Covers p ∧ other.Covers p ∧ (record.typ = .write ∨ other.typ = .write) := by
  obtain ⟨hrange, htyp⟩ := h
  have hvalid := hrecord.range
  have hvalid' := hother.range
  simp only [rangeOverlaps, Bool.and_eq_true, decide_eq_true_eq] at hrange
  simp only [PosixLockRecord.last] at hvalid hvalid'
  refine ⟨max record.start other.start, ⟨Nat.le_max_left _ _, ?_⟩, ⟨Nat.le_max_right _ _, ?_⟩, htyp⟩
  · exact Nat.max_le.mpr ⟨hvalid, hrange.2⟩
  · exact Nat.max_le.mpr ⟨hrange.1, hvalid'⟩

def Apart (a b : PosixLockRecord) : Prop :=
  (a.owner = b.owner → rangeOverlaps a.start a.stop b.start b.stop = false) ∧
    (a.owner ≠ b.owner → ¬ Conflicting a b)

lemma Apart.symm {a b : PosixLockRecord} (h : Apart a b) : Apart b a := by
  refine ⟨fun howner => ?_, fun howner hconflict => h.2 howner.symm hconflict.symm⟩
  have hapart := h.1 howner.symm
  rw [rangeOverlaps_eq_false] at hapart ⊢
  exact hapart.symm

instance : Std.Symm Apart := ⟨fun _ _ => Apart.symm⟩

lemma Apart.fragments {a b a' b' : PosixLockRecord} (h : Apart a b) (ha : Fragment a' a)
    (hb : Fragment b' b) : Apart a' b' := by
  refine ⟨fun howner => ?_, fun howner hconflict => ?_⟩
  · have hapart := h.1 (by rw [← ha.owner, ← hb.owner, howner])
    have ha₁ := ha.start
    have ha₂ := ha.stop
    have hb₁ := hb.start
    have hb₂ := hb.stop
    rw [rangeOverlaps_eq_false] at hapart ⊢
    simp only [PosixLockRecord.last] at hapart ⊢
    omega
  · refine h.2 (by rwa [← ha.owner, ← hb.owner]) ?_
    exact (hb.conflicting (ha.conflicting hconflict).symm).symm

lemma wellFormed_iff :
    WellFormed records ↔ (∀ record ∈ records, record.Valid) ∧ records.Pairwise Apart := by
  constructor
  · intro h
    exact ⟨h.valid, h.disjoint.and h.compatible⟩
  · rintro ⟨hvalid, hapart⟩
    exact ⟨hvalid, hapart.imp And.left, hapart.imp And.right⟩

lemma WellFormed.apart (h : WellFormed records) (hrecord : record ∈ records)
    (hother : other ∈ records) (hne : record ≠ other) : Apart record other :=
  (wellFormed_iff.mp h).2.forall hrecord hother hne

def Holds (records : List PosixLockRecord) (owner p : Nat) (typ : LockType) : Prop :=
  ∃ record ∈ records, record.owner = owner ∧ record.Covers p ∧ record.typ = typ

lemma lockTypeAt_eq_some (h : WellFormed records) :
    lockTypeAt records owner p = some typ ↔ Holds records owner p typ := by
  rw [lockTypeAt, Option.map_eq_some_iff]
  constructor
  · rintro ⟨record, hfind, htyp⟩
    have hfound := List.find?_some hfind
    simp only [Bool.and_eq_true, beq_iff_eq, decide_eq_true_eq] at hfound
    exact ⟨record, List.mem_of_find?_eq_some hfind, hfound.1, hfound.2, htyp⟩
  · rintro ⟨record, hrecord, howner, hcovers, htyp⟩
    cases hfind : records.find? fun record => record.owner == owner && decide (record.Covers p) with
    | none =>
      have hnone := List.find?_eq_none.mp hfind record hrecord
      simp [howner, hcovers] at hnone
    | some first =>
      refine ⟨first, rfl, ?_⟩
      have hfound := List.find?_some hfind
      simp only [Bool.and_eq_true, beq_iff_eq, decide_eq_true_eq] at hfound
      obtain ⟨hfirst, hhere⟩ := hfound
      by_cases hsame : first = record
      · rw [hsame, htyp]
      · have hapart := (h.apart (List.mem_of_find?_eq_some hfind) hrecord hsame).1
          (hfirst.trans howner.symm)
        rw [rangeOverlaps_eq_false] at hapart
        obtain ⟨h₁, h₂⟩ := hhere
        obtain ⟨h₃, h₄⟩ := hcovers
        omega

/-! ## Replacing a range -/

lemma splits_iff : ¬ (record.owner != owner ||
      !rangeOverlaps start (some stop) record.start record.stop) = true ↔
    record.owner = owner ∧ rangeOverlaps start (some stop) record.start record.stop = true := by
  simp

lemma covers_splitRecord
    (hoverlap : rangeOverlaps start (some stop) record.start record.stop = true) :
    (∃ part ∈ splitRecord record start stop, part.Covers p) ↔
      record.Covers p ∧ ¬ (start ≤ p ∧ p ≤ stop) := by
  rw [rangeOverlaps_request] at hoverlap
  have hlast : record.stop.getD u64Max = record.last := rfl
  simp only [splitRecord, List.mem_append, or_and_right, exists_or, hlast]
  constructor
  · rintro (⟨part, hpart, hcovers⟩ | ⟨part, hpart, hcovers⟩)
    · split at hpart
      · obtain rfl := List.mem_singleton.mp hpart
        obtain ⟨hlow, hhigh⟩ : record.start ≤ p ∧ p ≤ start - 1 := hcovers
        exact ⟨⟨hlow, by omega⟩, by omega⟩
      · cases hpart
    · split at hpart
      · obtain rfl := List.mem_singleton.mp hpart
        obtain ⟨hlow, hhigh⟩ : stop + 1 ≤ p ∧ p ≤ record.last := hcovers
        exact ⟨⟨by omega, hhigh⟩, by omega⟩
      · cases hpart
  · rintro ⟨⟨hlow, hhigh⟩, hout⟩
    by_cases hbefore : p < start
    · refine .inl ⟨{ record with stop := some (start - 1) }, ?_, hlow, ?_⟩
      · rw [if_pos (by omega)]
        exact List.mem_singleton_self _
      · exact Nat.le_sub_one_of_lt hbefore
    · refine .inr ⟨{ record with start := stop + 1 }, ?_, ?_, hhigh⟩
      · rw [if_pos (by omega)]
        exact List.mem_singleton_self _
      · change stop + 1 ≤ p
        omega

lemma holds_updateOwnerLockRange {replacement : Option PosixLockRecord} {o : Nat} :
    Holds (updateOwnerLockRange records owner start stop replacement) o p typ ↔
      (Holds records o p typ ∧ ¬ (o = owner ∧ start ≤ p ∧ p ≤ stop)) ∨
        Holds replacement.toList o p typ := by
  simp only [Holds, updateOwnerLockRange, List.mem_append, or_and_right, exists_or]
  refine or_congr_left ?_
  simp only [List.mem_flatMap]
  constructor
  · rintro ⟨part, ⟨record, hrecord, hpart⟩, howner, hcovers, htyp⟩
    split at hpart
    next hkept =>
      obtain rfl := List.mem_singleton.mp hpart
      refine ⟨⟨part, hrecord, howner, hcovers, htyp⟩, fun hin => ?_⟩
      have hoverlap : rangeOverlaps start (some stop) part.start part.stop = true := by
        rw [rangeOverlaps_request]
        obtain ⟨h₁, h₂⟩ := hcovers
        omega
      simp [howner, hin.1, hoverlap] at hkept
    next hsplit =>
      rw [splits_iff] at hsplit
      have hfragment := fragment_of_mem_splitRecord hsplit.2 hpart
      have hhere := (covers_splitRecord hsplit.2).mp ⟨part, hpart, hcovers⟩
      exact ⟨⟨record, hrecord, hfragment.owner ▸ howner, hhere.1, hfragment.typ ▸ htyp⟩,
        fun hin => hhere.2 hin.2⟩
  · rintro ⟨⟨record, hrecord, howner, hcovers, htyp⟩, hout⟩
    by_cases hkept : (record.owner != owner ||
        !rangeOverlaps start (some stop) record.start record.stop) = true
    · refine ⟨record, ⟨record, hrecord, ?_⟩, howner, hcovers, htyp⟩
      rw [if_pos hkept]
      exact List.mem_singleton_self _
    · have hsplit := splits_iff.mp hkept
      obtain ⟨part, hpart, hhere⟩ := (covers_splitRecord hsplit.2).mpr
        ⟨hcovers, fun hin => hout ⟨howner ▸ hsplit.1, hin⟩⟩
      have hfragment := fragment_of_mem_splitRecord hsplit.2 hpart
      refine ⟨part, ⟨record, hrecord, ?_⟩, hfragment.owner.trans howner, hhere,
        hfragment.typ.trans htyp⟩
      rw [if_neg hkept]
      exact hpart

lemma splitRecord_outside (hpart : record ∈ splitRecord whole start stop) :
    record.last < start ∨ stop < record.start := by
  simp only [splitRecord, List.mem_append] at hpart
  rcases hpart with hpart | hpart
  · split at hpart
    · obtain rfl := List.mem_singleton.mp hpart
      refine .inl ?_
      change start - 1 < start
      omega
    · cases hpart
  · split at hpart
    · obtain rfl := List.mem_singleton.mp hpart
      exact .inr (Nat.lt_succ_self stop)
    · cases hpart

lemma valid_splitRecord (hwhole : whole.Valid)
    (hoverlap : rangeOverlaps start (some stop) whole.start whole.stop = true)
    (hpart : record ∈ splitRecord whole start stop) : record.Valid := by
  have hfragment := fragment_of_mem_splitRecord hoverlap hpart
  refine ⟨?_, Nat.le_trans hfragment.stop hwhole.bound, hfragment.typ ▸ hwhole.typ⟩
  simp only [splitRecord, List.mem_append] at hpart
  rcases hpart with hpart | hpart
  · split at hpart
    · obtain rfl := List.mem_singleton.mp hpart
      change whole.start ≤ start - 1
      omega
    · cases hpart
  · split at hpart
    · obtain rfl := List.mem_singleton.mp hpart
      assumption
    · cases hpart

lemma apart_splitRecord (hrange : start ≤ stop) :
    (splitRecord record start stop).Pairwise Apart := by
  have hparts : Apart { record with stop := some (start - 1) } { record with start := stop + 1 } := by
    refine ⟨fun _ => ?_, fun hne => absurd rfl hne⟩
    rw [rangeOverlaps_eq_false]
    refine .inr ?_
    change start - 1 < stop + 1
    omega
  unfold splitRecord
  split
  · split
    · exact List.pairwise_pair.mpr hparts
    · exact List.pairwise_singleton _ _
  · split
    · exact List.pairwise_singleton _ _
    · exact List.Pairwise.nil

lemma kept_part (hpart : record ∈ if (whole.owner != owner ||
      !rangeOverlaps start (some stop) whole.start whole.stop) = true then [whole]
      else splitRecord whole start stop) :
    Fragment record whole ∧ (record.owner = owner → record.last < start ∨ stop < record.start) := by
  split at hpart
  next hkept =>
    obtain rfl := List.mem_singleton.mp hpart
    refine ⟨.refl record, fun howner => ?_⟩
    by_contra hinside
    have hoverlap : rangeOverlaps start (some stop) record.start record.stop = true := by
      rw [rangeOverlaps_request]
      omega
    simp [howner, hoverlap] at hkept
  next hsplit =>
    exact ⟨fragment_of_mem_splitRecord (splits_iff.mp hsplit).2 hpart,
      fun _ => splitRecord_outside hpart⟩

lemma WellFormed.updateOwnerLockRange {replacement : Option PosixLockRecord}
    (h : WellFormed records) (hrange : start ≤ stop)
    (hnew : ∀ new ∈ replacement, new.Valid ∧ new.owner = owner ∧ new.start = start ∧
      new.last = stop ∧ ∀ record ∈ records, record.owner ≠ owner → ¬ Conflicting new record) :
    WellFormed (updateOwnerLockRange records owner start stop replacement) := by
  obtain ⟨hvalid, hapart⟩ := wellFormed_iff.mp h
  refine wellFormed_iff.mpr ⟨fun part hpart => ?_, List.pairwise_append.mpr ⟨?_, ?_, ?_⟩⟩
  · rcases List.mem_append.mp hpart with hold | hreplaced
    · obtain ⟨record, hrecord, hpart⟩ := List.mem_flatMap.mp hold
      split at hpart
      · obtain rfl := List.mem_singleton.mp hpart
        exact hvalid part hrecord
      next hsplit =>
        exact valid_splitRecord (hvalid record hrecord) (splits_iff.mp hsplit).2 hpart
    · exact (hnew part (Option.mem_toList.mp hreplaced)).1
  · refine List.pairwise_flatMap.mpr ⟨fun record _ => ?_, hapart.imp fun hab a' ha' b' hb' => ?_⟩
    · split
      · exact List.pairwise_singleton _ _
      · exact apart_splitRecord hrange
    · exact hab.fragments (kept_part ha').1 (kept_part hb').1
  · cases replacement with
    | none => exact List.Pairwise.nil
    | some new => exact List.pairwise_singleton _ _
  · intro part hpart new hreplaced
    obtain ⟨_, rfl, rfl, rfl, hfree⟩ := hnew new (Option.mem_toList.mp hreplaced)
    obtain ⟨record, hrecord, hpart⟩ := List.mem_flatMap.mp hpart
    obtain ⟨hfragment, houtside⟩ := kept_part hpart
    refine ⟨fun howner => rangeOverlaps_eq_false.mpr (houtside howner).symm, fun howner hconflict => ?_⟩
    exact hfree record hrecord (hfragment.owner ▸ howner) (hfragment.conflicting hconflict).symm

/-! ## Requests -/

variable {req : SetlkRequest} {readOnly : Bool}

def FreeFor (records : List PosixLockRecord) (req : SetlkRequest) : Prop :=
  ∀ p, req.start ≤ p → p ≤ req.stop → ∀ other, other ≠ req.owner →
    ∀ held, lockTypeAt records other p = some held →
      req.typ ≠ .unlock → held ≠ .write ∧ req.typ ≠ .write

lemma SetlkRequest.valid_record (htyp : req.typ ≠ .unlock) : req.record.Valid :=
  ⟨req.range, req.bound, htyp⟩

lemma lockConflict_eq_none (h : WellFormed records) (htyp : req.typ ≠ .unlock) :
    lockConflict records req.owner req.typ req.start req.stop = none ↔ FreeFor records req := by
  constructor
  · intro hnone p hlow hhigh other hother held hheld _
    obtain ⟨record, hrecord, rfl, hcovers, rfl⟩ := (lockTypeAt_eq_some h).mp hheld
    have hfree := not_conflicting_of_lockConflict_eq_none hnone hrecord hother
      (h.valid record hrecord).typ htyp req.pid
    have hoverlap : rangeOverlaps req.start (some req.stop) record.start record.stop = true := by
      rw [rangeOverlaps_request]
      obtain ⟨h₁, h₂⟩ := hcovers
      omega
    refine ⟨fun hwrite => hfree ⟨hoverlap, .inr hwrite⟩, fun hwrite => hfree ⟨hoverlap, .inl hwrite⟩⟩
  · intro hfree
    refine List.find?_eq_none.mpr fun record hrecord hfound => ?_
    simp only [Bool.and_eq_true, bne_iff_ne] at hfound
    obtain ⟨⟨hother, hoverlap⟩, hconflicts⟩ := hfound
    have hvalid := h.valid record hrecord
    have hconflict : Conflicting req.record record := by
      refine ⟨hoverlap, ?_⟩
      change req.typ = .write ∨ record.typ = .write
      cases hreq : req.typ <;> cases hheld : record.typ <;>
        simp_all [posixLockTypeConflicts]
    obtain ⟨p, ⟨hlow, hhigh⟩, hcovers, hwrite⟩ :=
      exists_covers_of_conflicting (SetlkRequest.valid_record htyp) hvalid hconflict
    have hheld := (lockTypeAt_eq_some h).mpr ⟨record, hrecord, rfl, hcovers, rfl⟩
    obtain ⟨hread, hreq⟩ := hfree p hlow hhigh record.owner hother record.typ hheld htyp
    exact hwrite.elim hreq hread

lemma lockTypeAt_eq_of_holds {records' : List PosixLockRecord} {owner' p' : Nat}
    (h : WellFormed records) (h' : WellFormed records')
    (hholds : ∀ typ, Holds records owner p typ ↔ Holds records' owner' p' typ) :
    lockTypeAt records owner p = lockTypeAt records' owner' p' := by
  refine Option.ext fun typ => ?_
  rw [lockTypeAt_eq_some h, lockTypeAt_eq_some h', hholds]

structure GrantsExactly (records : List PosixLockRecord) (req : SetlkRequest)
    (updated : List PosixLockRecord) : Prop where
  wellFormed : WellFormed updated
  typeAt : ∀ owner p, lockTypeAt updated owner p =
    if owner = req.owner ∧ req.start ≤ p ∧ p ≤ req.stop then
      if req.typ = .unlock then none else some req.typ
    else lockTypeAt records owner p

lemma granted_updateOwnerLockRange (h : WellFormed records) (hfree : FreeFor records req) :
    GrantsExactly records req
      (updateOwnerLockRange records req.owner req.start req.stop req.replacement) := by
  have hwf : WellFormed
      (updateOwnerLockRange records req.owner req.start req.stop req.replacement) := by
    refine h.updateOwnerLockRange req.range fun new hnew => ?_
    unfold SetlkRequest.replacement at hnew
    split at hnew
    · cases hnew
    next htyp =>
      cases hnew
      refine ⟨SetlkRequest.valid_record htyp, rfl, rfl, rfl, fun record hrecord hother => ?_⟩
      exact not_conflicting_of_lockConflict_eq_none ((lockConflict_eq_none h htyp).mpr hfree)
        hrecord hother (h.valid record hrecord).typ htyp req.pid
  refine ⟨hwf, fun owner p => ?_⟩
  have hcovers : req.record.Covers p ↔ req.start ≤ p ∧ p ≤ req.stop := Iff.rfl
  have howner : req.record.owner = req.owner := rfl
  have htyp : req.record.typ = req.typ := rfl
  refine Option.ext fun typ => ?_
  rw [lockTypeAt_eq_some hwf, holds_updateOwnerLockRange, ← lockTypeAt_eq_some h]
  unfold SetlkRequest.replacement
  by_cases hin : owner = req.owner ∧ req.start ≤ p ∧ p ≤ req.stop
  · by_cases hunlock : req.typ = .unlock
    · simp [hin, hunlock, Holds]
    · simp [hin, hunlock, Holds, hcovers, howner, htyp]
  · by_cases hunlock : req.typ = .unlock
    · simp [hin, hunlock, Holds]
    · simp only [hin, hunlock, if_false, not_false_eq_true, and_true, Holds, Option.toList_some,
        List.mem_singleton, exists_eq_left, hcovers, howner, htyp, or_iff_left_iff_imp]
      rintro ⟨rfl, hrange, _⟩
      exact absurd ⟨rfl, hrange⟩ hin

lemma setlk_ok_iff (h : WellFormed records) :
    (setlk readOnly records req).2 = .ok ↔ FreeFor records req ∧ ¬ req.Denied readOnly := by
  by_cases hunlock : req.typ = .unlock
  · rw [setlk, if_pos hunlock]
    refine ⟨fun _ => ⟨fun _ _ _ _ _ _ _ hlock => absurd hunlock hlock, fun hdenied => ?_⟩,
      fun _ => rfl⟩
    have hwrite := hdenied.2
    rw [hunlock] at hwrite
    cases hwrite
  · by_cases hdenied : req.Denied readOnly
    · rw [setlk, if_neg hunlock, if_pos hdenied]
      exact ⟨fun hok => (by cases hok), fun hfree => absurd hdenied hfree.2⟩
    · rw [setlk, if_neg hunlock, if_neg hdenied, ← lockConflict_eq_none h hunlock]
      cases hconflict : lockConflict records req.owner req.typ req.start req.stop with
      | none => exact ⟨fun _ => ⟨rfl, hdenied⟩, fun _ => rfl⟩
      | some record => exact ⟨fun hok => (by cases hok), fun hfree => (by cases hfree.1)⟩

lemma setlk_granted (h : WellFormed records) (hok : (setlk readOnly records req).2 = .ok) :
    GrantsExactly records req (setlk readOnly records req).1 := by
  obtain ⟨hfree, hdenied⟩ := (setlk_ok_iff h).mp hok
  have hgranted := granted_updateOwnerLockRange h hfree
  by_cases hunlock : req.typ = .unlock
  · rw [SetlkRequest.replacement, if_pos hunlock] at hgranted
    rw [setlk, if_pos hunlock]
    exact hgranted
  · rw [SetlkRequest.replacement, if_neg hunlock] at hgranted
    rw [setlk, if_neg hunlock, if_neg hdenied, (lockConflict_eq_none h hunlock).mpr hfree]
    exact hgranted

lemma setlk_refused (h : (setlk readOnly records req).2 ≠ .ok) :
    (setlk readOnly records req).1 = records := by
  by_cases hunlock : req.typ = .unlock
  · rw [setlk, if_pos hunlock] at h
    exact absurd rfl h
  · by_cases hdenied : req.Denied readOnly
    · rw [setlk, if_neg hunlock, if_pos hdenied]
    · rw [setlk, if_neg hunlock, if_neg hdenied] at h ⊢
      by_cases hconflict : (lockConflict records req.owner req.typ req.start req.stop).isSome
      · rw [if_pos hconflict]
      · rw [if_neg hconflict] at h
        exact absurd rfl h

lemma WellFormed.clearLocksForOwner (h : WellFormed records) (owner : Nat) :
    WellFormed (clearLocksForOwner records owner) :=
  ⟨fun record hrecord => h.valid record (List.mem_filter.mp hrecord).1,
    h.disjoint.filter _, h.compatible.filter _⟩

lemma lockTypeAt_clearLocksForOwner (h : WellFormed records) (cleared : Nat) :
    lockTypeAt (clearLocksForOwner records cleared) owner p =
      if owner = cleared then none else lockTypeAt records owner p := by
  refine Option.ext fun typ => ?_
  rw [lockTypeAt_eq_some (h.clearLocksForOwner cleared)]
  simp only [Holds, clearLocksForOwner, List.mem_filter, bne_iff_ne]
  split
  next howner =>
    subst howner
    simp only [reduceCtorEq, iff_false]
    rintro ⟨record, ⟨_, hne⟩, howner, _⟩
    exact hne howner
  next howner =>
    rw [lockTypeAt_eq_some h]
    refine exists_congr fun record => ?_
    rw [and_assoc]
    refine and_congr_right fun _ => ⟨And.right, fun hrest => ⟨?_, hrest⟩⟩
    rw [hrest.1]
    exact howner

lemma WellFormed.setlk (h : WellFormed records) (req : SetlkRequest) :
    WellFormed (setlk readOnly records req).1 := by
  by_cases hok : (Locks.setlk readOnly records req).2 = .ok
  · exact (setlk_granted h hok).wellFormed
  · rwa [setlk_refused hok]

lemma WellFormed.lockAct (h : WellFormed records) (action : LockAction) :
    WellFormed (lockAct readOnly records action) := by
  cases action with
  | setlk req => exact h.setlk req
  | clearOwner owner => exact h.clearLocksForOwner owner

end Fod.Locks
