import Mathlib

/-!
# POSIX byte-range lock records

The table of one resource is a list of records.  Ranges are inclusive and an
absent end means `u64::MAX`.  The functions below decide conflicts and replace
one owner's coverage of a range; `fragment_of_mem_updateOwnerLockRange` says
once what the replacement can leave behind.
-/

namespace Fod.Locks

inductive LockType where
  | read
  | write
  | unlock
  deriving DecidableEq

structure PosixLockRecord where
  owner : Nat
  typ : LockType
  start : Nat
  stop : Option Nat
  pid : Nat
  deriving DecidableEq

def u64Max : Nat := 2 ^ 64 - 1

def posixLockTypeConflicts (existing requested : LockType) : Bool :=
  match requested with
  | .read => existing == .write
  | .write => existing == .read || existing == .write
  | .unlock => false

def rangeOverlaps (startA : Nat) (stopA : Option Nat) (startB : Nat)
    (stopB : Option Nat) : Bool :=
  startA ≤ stopB.getD u64Max && startB ≤ stopA.getD u64Max

def lockConflict (records : List PosixLockRecord) (owner : Nat)
    (requestedType : LockType) (requestedStart requestedStop : Nat) :
    Option PosixLockRecord :=
  records.find? fun record =>
    record.owner != owner &&
      rangeOverlaps requestedStart (some requestedStop) record.start record.stop &&
      posixLockTypeConflicts record.typ requestedType

def splitRecord (record : PosixLockRecord) (start stop : Nat) :
    List PosixLockRecord :=
  (if record.start < start then [{ record with stop := some (start - 1) }] else []) ++
    (if stop < record.stop.getD u64Max then [{ record with start := stop + 1 }] else [])

def updateOwnerLockRange (records : List PosixLockRecord) (owner start stop : Nat)
    (replacement : Option PosixLockRecord) : List PosixLockRecord :=
  (records.flatMap fun record =>
    if record.owner != owner || !rangeOverlaps start (some stop) record.start record.stop then
      [record]
    else splitRecord record start stop) ++ replacement.toList

def Conflicting (a b : PosixLockRecord) : Prop :=
  rangeOverlaps a.start a.stop b.start b.stop = true ∧
    (a.typ = .write ∨ b.typ = .write)

instance (a b : PosixLockRecord) : Decidable (Conflicting a b) :=
  inferInstanceAs (Decidable (_ ∧ _))

lemma Conflicting.symm {a b : PosixLockRecord} (h : Conflicting a b) : Conflicting b a := by
  obtain ⟨hrange, htyp⟩ := h
  refine ⟨?_, htyp.symm⟩
  simp only [rangeOverlaps, Bool.and_eq_true, decide_eq_true_eq] at hrange ⊢
  exact hrange.symm

structure Fragment (record whole : PosixLockRecord) : Prop where
  owner : record.owner = whole.owner
  typ : record.typ = whole.typ
  start : whole.start ≤ record.start
  stop : record.stop.getD u64Max ≤ whole.stop.getD u64Max

lemma Fragment.refl (record : PosixLockRecord) : Fragment record record :=
  ⟨rfl, rfl, le_rfl, le_rfl⟩

lemma Fragment.conflicting {record whole other : PosixLockRecord}
    (h : Fragment record whole) (hconflict : Conflicting record other) :
    Conflicting whole other := by
  obtain ⟨hrange, htyp⟩ := hconflict
  refine ⟨?_, h.typ ▸ htyp⟩
  have hstart := h.start
  have hstop := h.stop
  simp only [rangeOverlaps, Bool.and_eq_true, decide_eq_true_eq] at hrange ⊢
  omega

lemma fragment_of_mem_splitRecord {record part : PosixLockRecord} {start stop : Nat}
    (hoverlap : rangeOverlaps start (some stop) record.start record.stop = true)
    (hpart : part ∈ splitRecord record start stop) : Fragment part record := by
  simp only [rangeOverlaps, Option.getD_some, Bool.and_eq_true, decide_eq_true_eq] at hoverlap
  simp only [splitRecord, List.mem_append] at hpart
  obtain hpart | hpart := hpart
  · split at hpart
    · obtain rfl := List.mem_singleton.mp hpart
      exact ⟨rfl, rfl, le_rfl, by simp only [Option.getD_some]; omega⟩
    · cases hpart
  · split at hpart
    · obtain rfl := List.mem_singleton.mp hpart
      exact ⟨rfl, rfl, by simp only; omega, le_rfl⟩
    · cases hpart

lemma fragment_of_mem_updateOwnerLockRange {records : List PosixLockRecord}
    {owner start stop : Nat} {replacement : Option PosixLockRecord} {record : PosixLockRecord}
    (h : record ∈ updateOwnerLockRange records owner start stop replacement) :
    (∃ whole ∈ records, Fragment record whole) ∨ replacement = some record := by
  simp only [updateOwnerLockRange, List.mem_append, List.mem_flatMap,
    Option.mem_toList] at h
  obtain ⟨whole, hwhole, hrecord⟩ | hreplacement := h
  · refine .inl ⟨whole, hwhole, ?_⟩
    split at hrecord
    · obtain rfl := List.mem_singleton.mp hrecord
      exact Fragment.refl record
    · rename_i hsplit
      simp only [Bool.or_eq_true, not_or, Bool.not_eq_true, Bool.not_eq_false'] at hsplit
      exact fragment_of_mem_splitRecord hsplit.2 hrecord
  · exact .inr hreplacement

lemma not_conflicting_of_lockConflict_eq_none {records : List PosixLockRecord}
    {owner start stop : Nat} {typ : LockType} (h : lockConflict records owner typ start stop = none)
    {record : PosixLockRecord} (hmem : record ∈ records) (howner : record.owner ≠ owner)
    (hrecord : record.typ ≠ .unlock) (htyp : typ ≠ .unlock) (pid : Nat) :
    ¬ Conflicting ⟨owner, typ, start, some stop, pid⟩ record := by
  rintro ⟨hrange, hwrite⟩
  have hnone := List.find?_eq_none.mp h record hmem
  simp only [hrange, Bool.and_true, Bool.and_eq_true, bne_iff_ne, ne_eq, howner,
    not_false_eq_true, true_and, Bool.not_eq_true] at hnone
  cases typ <;> cases hr : record.typ <;> simp_all [posixLockTypeConflicts]

end Fod.Locks
