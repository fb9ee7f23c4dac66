import Mathlib

/-!
# The binary format of COPY

A header, tuples of fields with their lengths, and a trailer; all numbers have their
most significant byte first.  A field without value has the length `-1`.
-/

namespace CopyBinary

def natBytes : Nat → Nat → List UInt8
  | 0, _ => []
  | w + 1, n => natBytes w (n / 256) ++ [UInt8.ofNat n]

def ofNatBytes (bytes : List UInt8) : Nat := bytes.foldl (fun n b => n * 256 + b.toNat) 0

def intBytes (w : Nat) (v : Int) : List UInt8 := natBytes w (v % 256 ^ w).toNat

def ofIntBytes (bytes : List UInt8) : Int := (ofNatBytes bytes : Int).bmod (256 ^ bytes.length)

def Fits (w : Nat) (v : Int) : Prop := -(256 ^ w / 2) ≤ v ∧ v < (256 ^ w + 1) / 2

instance (w : Nat) (v : Int) : Decidable (Fits w v) := inferInstanceAs (Decidable (_ ∧ _))

abbrev Field := Option (List UInt8)

def signature : List UInt8 := [80, 71, 67, 79, 80, 89, 10, 255, 13, 10, 0]

def takeBytes (n : Nat) (input : List UInt8) : Option (List UInt8 × List UInt8) :=
  if n ≤ input.length then some (input.take n, input.drop n) else none

def readInt (w : Nat) (input : List UInt8) : Option (Int × List UInt8) := do
  let (bytes, rest) ← takeBytes w input
  some (ofIntBytes bytes, rest)

def readField (input : List UInt8) : Option (Field × List UInt8) := do
  let (len, rest) ← readInt 4 input
  if len = -1 then some (none, rest)
  else if len < 0 then none
  else do
    let (bytes, rest) ← takeBytes len.toNat rest
    some (some bytes, rest)

def readFields : Nat → List UInt8 → Option (List Field × List UInt8)
  | 0, input => some ([], input)
  | n + 1, input => do
    let (field, rest) ← readField input
    let (fields, rest) ← readFields n rest
    some (field :: fields, rest)

def readTuples : Nat → List UInt8 → Option (List (List Field))
  | 0, _ => none
  | fuel + 1, input => do
    let (count, rest) ← readInt 2 input
    if count = -1 then if rest = [] then some [] else none
    else if count < 0 then none
    else do
      let (fields, rest) ← readFields count.toNat rest
      let tuples ← readTuples fuel rest
      some (fields :: tuples)

def decode (input : List UInt8) : Option (List (List Field)) := do
  let (magic, rest) ← takeBytes signature.length input
  if magic ≠ signature then none
  else do
    let (flags, rest) ← takeBytes 4 rest
    if ofNatBytes flags / 2 ^ 16 ≠ 0 then none
    else do
      let (extension, rest) ← readInt 4 rest
      if extension < 0 then none
      else do
        let (_, rest) ← takeBytes extension.toNat rest
        readTuples (rest.length + 1) rest

section

variable {w : Nat}

@[simp] lemma length_natBytes (w n : Nat) : (natBytes w n).length = w := by
  induction w generalizing n with
  | zero => rfl
  | succ w ih => simp [natBytes, ih]

@[simp] lemma length_intBytes (w : Nat) (v : Int) : (intBytes w v).length = w := length_natBytes w _

lemma ofNatBytes_natBytes {n : Nat} (h : n < 256 ^ w) : ofNatBytes (natBytes w n) = n := by
  induction w generalizing n with
  | zero =>
    simp at h
    simp [natBytes, ofNatBytes, h]
  | succ w ih =>
    have hquot : n / 256 < 256 ^ w := Nat.div_lt_of_lt_mul (by rwa [Nat.pow_succ, Nat.mul_comm] at h)
    have hprev := ih hquot
    simp only [natBytes, ofNatBytes, List.foldl_append, List.foldl_cons, List.foldl_nil] at hprev ⊢
    rw [hprev, UInt8.toNat_ofNat']
    omega

lemma fits_natCast {n : Nat} (h : n < (256 ^ w + 1) / 2) : Fits w n := by
  have hpos : (0 : Int) < 256 ^ w := by positivity
  zify at h
  exact ⟨by omega, h⟩

lemma ofIntBytes_intBytes {v : Int} (h : Fits w v) : ofIntBytes (intBytes w v) = v := by
  have hpos : (0 : Int) < 256 ^ w := by positivity
  have hnonneg := Int.emod_nonneg v hpos.ne'
  have hlt := Int.emod_lt_of_pos v hpos
  have hbytes : ofNatBytes (intBytes w v) = (v % 256 ^ w).toNat := by
    apply ofNatBytes_natBytes
    zify
    omega
  rw [ofIntBytes, hbytes, length_intBytes, Int.toNat_of_nonneg hnonneg]
  have hmod : v % 256 ^ w = v % ((256 ^ w : Nat) : Int) := by simp
  rw [hmod, Int.emod_bmod]
  apply Int.bmod_eq_of_le
  · simpa using h.1
  · simpa using h.2

@[simp] lemma takeBytes_append (bytes rest : List UInt8) :
    takeBytes bytes.length (bytes ++ rest) = some (bytes, rest) := by
  simp [takeBytes]

@[simp] lemma takeBytes_zero (rest : List UInt8) : takeBytes 0 rest = some ([], rest) := by
  simp [takeBytes]

lemma readInt_append {v : Int} (h : Fits w v) (rest : List UInt8) :
    readInt w (intBytes w v ++ rest) = some (v, rest) := by
  have htake := takeBytes_append (intBytes w v) rest
  rw [length_intBytes] at htake
  simp [readInt, htake, ofIntBytes_intBytes h]

end

def fieldBytes : Field → List UInt8
  | none => intBytes 4 (-1)
  | some bytes => intBytes 4 bytes.length ++ bytes

def tupleBytes (fields : List Field) : List UInt8 :=
  intBytes 2 fields.length ++ fields.flatMap fieldBytes

def header : List UInt8 := signature ++ intBytes 4 0 ++ intBytes 4 0

def trailer : List UInt8 := intBytes 2 (-1)

def FieldFits (field : Field) : Prop := ∀ bytes ∈ field, bytes.length < 2 ^ 31

lemma readField_append {field : Field} (h : FieldFits field) (rest : List UInt8) :
    readField (fieldBytes field ++ rest) = some (field, rest) := by
  cases field with
  | none => simp [readField, fieldBytes, readInt_append (show Fits 4 (-1) by decide)]
  | some bytes =>
    have hlen : Fits 4 bytes.length := fits_natCast (h bytes rfl)
    have hnonneg : ¬ (bytes.length : Int) < 0 := by omega
    have hminus : (bytes.length : Int) ≠ -1 := by omega
    simp [readField, fieldBytes, readInt_append hlen, hminus, hnonneg]

lemma readFields_append {fields : List Field} (h : ∀ field ∈ fields, FieldFits field)
    (rest : List UInt8) :
    readFields fields.length (fields.flatMap fieldBytes ++ rest) = some (fields, rest) := by
  induction fields with
  | nil => rfl
  | cons field fields ih =>
    have hfield := readField_append (h field (by simp)) (fields.flatMap fieldBytes ++ rest)
    have hrest := ih fun f hf => h f (by simp [hf])
    simp [readFields, hfield, hrest]

lemma readTuples_append {tuples : List (List Field)}
    (hcount : ∀ fields ∈ tuples, fields.length < 2 ^ 15)
    (hfits : ∀ fields ∈ tuples, ∀ field ∈ fields, FieldFits field) {fuel : Nat}
    (hfuel : tuples.length < fuel) :
    readTuples fuel (tuples.flatMap tupleBytes ++ trailer) = some tuples := by
  induction tuples generalizing fuel with
  | nil =>
    obtain ⟨fuel, rfl⟩ := Nat.exists_eq_succ_of_ne_zero (Nat.ne_of_gt hfuel)
    have hend := readInt_append (show Fits 2 (-1) by decide) []
    rw [List.append_nil] at hend
    simp [readTuples, trailer, hend]
  | cons fields tuples ih =>
    obtain ⟨fuel, rfl⟩ := Nat.exists_eq_succ_of_ne_zero (Nat.ne_of_gt (Nat.zero_lt_of_lt hfuel))
    have hlen : Fits 2 fields.length := fits_natCast (hcount fields (by simp))
    have hnonneg : ¬ (fields.length : Int) < 0 := by omega
    have hminus : (fields.length : Int) ≠ -1 := by omega
    have hfields := readFields_append (hfits fields (by simp)) (tuples.flatMap tupleBytes ++ trailer)
    have hrest := @ih (fun f hf => hcount f (by simp [hf])) (fun f hf => hfits f (by simp [hf])) fuel
      (by simpa using hfuel)
    simp [readTuples, tupleBytes, readInt_append hlen, hminus, hnonneg, hfields, hrest]

lemma decode_append {tuples : List (List Field)}
    (hcount : ∀ fields ∈ tuples, fields.length < 2 ^ 15)
    (hfits : ∀ fields ∈ tuples, ∀ field ∈ fields, FieldFits field) :
    decode (header ++ tuples.flatMap tupleBytes ++ trailer) = some tuples := by
  have hflags := takeBytes_append (intBytes 4 0)
    (intBytes 4 0 ++ (tuples.flatMap tupleBytes ++ trailer))
  have hzero : ofNatBytes (intBytes 4 0) = 0 := by decide
  have hextension := readInt_append (show Fits 4 0 by decide) (tuples.flatMap tupleBytes ++ trailer)
  have hlength : tuples.length ≤ (tuples.flatMap tupleBytes).length := by
    induction tuples with
    | nil => simp
    | cons fields tuples ih =>
      have := ih (fun f hf => hcount f (by simp [hf])) (fun f hf => hfits f (by simp [hf]))
      simp [tupleBytes]
      omega
  have htuples := @readTuples_append tuples hcount hfits
    ((tuples.flatMap tupleBytes ++ trailer).length + 1) (by simp only [List.length_append]; omega)
  rw [length_intBytes] at hflags
  simp only [decode, header, List.append_assoc, takeBytes_append, hflags, Option.bind_eq_bind,
    Option.bind_some, ne_eq, not_true_eq_false, if_false, hzero, hextension]
  simpa using htuples

end CopyBinary
