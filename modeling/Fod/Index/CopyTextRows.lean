import Fod.Lib.CopyText
import Fod.Lib.Scan

/-!
# Staged rows as COPY TEXT

`build_copy_text_payload` with the encoders of `index_staging.rs`, and what the server
reads from a payload.
-/

namespace Fod.Staging

open CopyText TextFields

def escapeCopyTextChar : Char → Text
  | '\\' => ['\\', '\\']
  | '\t' => ['\\', 't']
  | '\n' => ['\\', 'n']
  | '\r' => ['\\', 'r']
  | '\x08' => ['\\', 'b']
  | '\x0c' => ['\\', 'f']
  | other => [other]

def escapeCopyTextField (value : Text) : Text := value.flatMap escapeCopyTextChar

def hexEncodeBytes (bytes : List UInt8) : Text :=
  bytes.flatMap fun byte => [Nat.digitChar (byte.toNat / 16), Nat.digitChar (byte.toNat % 16)]

def appendCopyTextNullField (out : Text) : Text := out ++ ['\\', 'N']

def appendCopyTextStringField (out value : Text) : Text := out ++ escapeCopyTextField value

def appendCopyTextI64Field (out : Text) (value : Int) : Text := out ++ signedDecimal value

def appendCopyTextU64Field (out : Text) (value : Nat) : Text := out ++ decimal value

def appendCopyTextBoolField (out : Text) (value : Bool) : Text := out ++ [if value then 't' else 'f']

def appendCopyTextOptionalI64Field (out : Text) : Option Int → Text
  | some value => appendCopyTextI64Field out value
  | none => appendCopyTextNullField out

def appendCopyTextOptionalU64Field (out : Text) : Option Nat → Text
  | some value => appendCopyTextU64Field out value
  | none => appendCopyTextNullField out

def appendCopyTextByteaField (out : Text) (value : List UInt8) : Text :=
  out ++ ['\\', '\\', 'x'] ++ hexEncodeBytes value

def buildCopyTextPayload {T : Type} (rows : List T) (writeRow : T → Text → Text) : Text :=
  rows.foldl (fun out row => writeRow row out ++ ['\n']) []

inductive Field where
  | string (value : Text)
  | i64 (value : Option Int)
  | u64 (value : Option Nat)
  | bool (value : Bool)
  | bytea (value : Option (List UInt8))

namespace Field

def append (out : Text) : Field → Text
  | .string value => appendCopyTextStringField out value
  | .i64 value => appendCopyTextOptionalI64Field out value
  | .u64 value => appendCopyTextOptionalU64Field out value
  | .bool value => appendCopyTextBoolField out value
  | .bytea (some value) => appendCopyTextByteaField out value
  | .bytea none => appendCopyTextNullField out

def type : Field → ColumnType
  | .string _ => .text
  | .i64 _ => .integer
  | .u64 _ => .integer
  | .bool _ => .boolean
  | .bytea _ => .bytea

def value : Field → Option Value
  | .string value => some (.text value)
  | .i64 value => value.map .integer
  | .u64 value => value.map fun n => .integer n
  | .bool value => some (.boolean value)
  | .bytea value => value.map .bytea

end Field

def writeRow : List Field → Text → Text
  | [], out => out
  | [field], out => field.append out
  | field :: fields, out => writeRow fields (field.append out ++ ['\t'])

structure IndexFileStageRow where
  idIndexSource : Nat
  idScanRun : Nat
  path : Text
  size : Nat
  mtimeNs : Option Int
  inode : Option Nat
  device : Option Nat
  fileKind : Text
  scanStatus : Text
  sourceChanged : Bool

def IndexFileStageRow.write (row : IndexFileStageRow) (out : Text) : Text :=
  let out := appendCopyTextU64Field out row.idIndexSource ++ ['\t']
  let out := appendCopyTextU64Field out row.idScanRun ++ ['\t']
  let out := appendCopyTextStringField out row.path ++ ['\t']
  let out := appendCopyTextU64Field out row.size ++ ['\t']
  let out := appendCopyTextOptionalI64Field out row.mtimeNs ++ ['\t']
  let out := appendCopyTextOptionalU64Field out row.inode ++ ['\t']
  let out := appendCopyTextOptionalU64Field out row.device ++ ['\t']
  let out := appendCopyTextStringField out row.fileKind ++ ['\t']
  let out := appendCopyTextStringField out row.scanStatus ++ ['\t']
  appendCopyTextBoolField out row.sourceChanged

def IndexFileStageRow.fields (row : IndexFileStageRow) : List Field :=
  [.u64 row.idIndexSource, .u64 row.idScanRun, .string row.path, .u64 row.size, .i64 row.mtimeNs,
    .u64 row.inode, .u64 row.device, .string row.fileKind, .string row.scanStatus,
    .bool row.sourceChanged]

lemma IndexFileStageRow.write_eq (row : IndexFileStageRow) : row.write = writeRow row.fields := rfl

/-! ## One field -/

lemma escapeCopyTextChar_cases (c : Char) :
    (∃ d, escapeCopyTextChar c = ['\\', d] ∧ escaped d = some c) ∨
      escapeCopyTextChar c = [c] ∧ c ≠ '\\' ∧ c ≠ '\r' ∧ c ≠ '\t' ∧ c ≠ '\n' := by
  unfold escapeCopyTextChar
  split <;> try exact .inl ⟨_, rfl, rfl⟩
  next hback htab hnewline hreturn _ _ => exact .inr ⟨rfl, hback, hreturn, htab, hnewline⟩

lemma unescape_escape (value : Text) : unescape (escapeCopyTextField value) = some value := by
  induction value with
  | nil => rfl
  | cons c value ih =>
    simp only [escapeCopyTextField, List.flatMap_cons] at ih ⊢
    rcases escapeCopyTextChar_cases c with ⟨d, hpair, hd⟩ | ⟨hplain, hback, hreturn, -⟩
    · rw [hpair]
      simp [unescape, hd, ih]
    · rw [hplain, List.singleton_append, unescape]
      · simp [ih, hback, hreturn]
      · rintro _ _ rfl
        exact absurd rfl hback

lemma encoded_escape {sep : Char} (hsep : sep = '\t' ∨ sep = '\n') (value : Text) :
    Encoded sep (escapeCopyTextField value) := by
  induction value with
  | nil => exact .nil
  | cons c value ih =>
    simp only [escapeCopyTextField, List.flatMap_cons] at ih ⊢
    refine Encoded.append ?_ ih
    rcases escapeCopyTextChar_cases c with ⟨d, hpair, _⟩ | ⟨hplain, hback, -, htab, hnewline⟩
    · rw [hpair]
      exact .pair d .nil
    · rw [hplain]
      refine .plain hback ?_ .nil
      rcases hsep with rfl | rfl
      · exact htab
      · exact hnewline

def Bare (text : Text) : Prop := ∀ c ∈ text, c ≠ '\\' ∧ c ≠ '\r' ∧ c ≠ '\t' ∧ c ≠ '\n'

lemma bare_decimal (n : Nat) : Bare (decimal n) := by
  intro c hc
  have hdigit := isDigit_of_mem_decimal hc
  refine ⟨?_, ?_, ?_, ?_⟩ <;>
    · rintro rfl
      exact absurd hdigit (by decide)

lemma bare_signedDecimal (v : Int) : Bare (signedDecimal v) := by
  cases v with
  | ofNat n => exact bare_decimal n
  | negSucc n =>
    rintro c (_ | ⟨_, hc⟩)
    · decide
    · exact bare_decimal _ c hc

lemma digitChar_spec : ∀ n < 16, hexValue (Nat.digitChar n) = some n ∧
    (Nat.digitChar n ≠ '\\' ∧ Nat.digitChar n ≠ '\r' ∧ Nat.digitChar n ≠ '\t' ∧ Nat.digitChar n ≠ '\n') := by
  decide

lemma nibbles_lt (byte : UInt8) : byte.toNat / 16 < 16 ∧ byte.toNat % 16 < 16 := by
  have := byte.toNat_lt
  omega

lemma bare_hexEncodeBytes (bytes : List UInt8) : Bare (hexEncodeBytes bytes) := by
  intro c hc
  obtain ⟨byte, _, hc⟩ := List.mem_flatMap.mp hc
  simp only [List.mem_cons, List.not_mem_nil, or_false] at hc
  rcases hc with rfl | rfl
  · exact (digitChar_spec _ (nibbles_lt byte).1).2
  · exact (digitChar_spec _ (nibbles_lt byte).2).2

lemma hexPairs_hexEncodeBytes (bytes : List UInt8) : hexPairs (hexEncodeBytes bytes) = some bytes := by
  induction bytes with
  | nil => rfl
  | cons byte bytes ih =>
    obtain ⟨hhigh, hlow⟩ := nibbles_lt byte
    have hbyte : UInt8.ofNat (16 * (byte.toNat / 16) + byte.toNat % 16) = byte := by
      rw [Nat.div_add_mod, UInt8.ofNat_toNat]
    simp only [hexEncodeBytes, List.flatMap_cons, List.cons_append, List.nil_append] at ih ⊢
    rw [hexPairs, (digitChar_spec _ hhigh).1, (digitChar_spec _ hlow).1, ih]
    simp only [Option.bind_eq_bind, Option.bind_some, hbyte]

section

variable {text : Text}

lemma Bare.encoded (h : Bare text) {sep : Char} (hsep : sep = '\t' ∨ sep = '\n') : Encoded sep text := by
  apply encoded_of_plain
  intro c hc
  obtain ⟨hback, -, htab, hnewline⟩ := h c hc
  rcases hsep with rfl | rfl
  · exact ⟨hback, htab⟩
  · exact ⟨hback, hnewline⟩

lemma Bare.decodeField (h : Bare text) (column : ColumnType) :
    decodeField column text = (column.input text).map some := by
  have hnull : text ≠ ['\\', 'N'] := by
    rintro rfl
    exact (h '\\' (by simp)).1 rfl
  rw [CopyText.decodeField, if_neg hnull, unescape_plain fun c hc => ⟨(h c hc).1, (h c hc).2.1⟩]
  rfl

end

lemma input_decimal (n : Nat) : ColumnType.integer.input (decimal n) = some (.integer n) := by
  obtain ⟨c, rest, hcons, -, hminus⟩ := decimal_eq_cons n
  have hvalue := digitsValue_decimal n
  rw [hcons] at hvalue ⊢
  unfold ColumnType.input
  split <;> simp_all

lemma input_signedDecimal (v : Int) : ColumnType.integer.input (signedDecimal v) = some (.integer v) := by
  cases v with
  | ofNat n => exact input_decimal n
  | negSucc n =>
    simp [signedDecimal, ColumnType.input, digitsValue_decimal, Int.negSucc_eq]

lemma Field.spec (field : Field) : decodeField field.type (field.append []) = some field.value ∧
      ∀ sep, sep = '\t' ∨ sep = '\n' → Encoded sep (field.append []) := by
  have hnone (column : ColumnType) : decodeField column ['\\', 'N'] = some none := rfl
  have hpair (sep : Char) : Encoded sep ['\\', 'N'] := .pair 'N' .nil
  cases field with
  | string value =>
    refine ⟨?_, fun sep hsep => encoded_escape hsep value⟩
    have hnull : escapeCopyTextField value ≠ ['\\', 'N'] := by
      intro heq
      have hvalue := unescape_escape value
      rw [heq] at hvalue
      cases hvalue
      exact absurd heq (by decide)
    simp [append, appendCopyTextStringField, decodeField, hnull, unescape_escape, type, ColumnType.input,
      Field.value]
  | i64 value =>
    cases value with
    | none => exact ⟨hnone _, fun sep _ => hpair sep⟩
    | some v =>
      refine ⟨?_, fun sep hsep => (bare_signedDecimal v).encoded hsep⟩
      exact ((bare_signedDecimal v).decodeField .integer).trans (by rw [input_signedDecimal]; rfl)
  | u64 value =>
    cases value with
    | none => exact ⟨hnone _, fun sep _ => hpair sep⟩
    | some n =>
      refine ⟨?_, fun sep hsep => (bare_decimal n).encoded hsep⟩
      exact ((bare_decimal n).decodeField .integer).trans (by rw [input_decimal]; rfl)
  | bool value =>
    have hbare : Bare [if value then 't' else 'f'] := by cases value <;> simp [Bare]
    refine ⟨?_, fun sep hsep => hbare.encoded hsep⟩
    cases value <;> rfl
  | bytea value =>
    cases value with
    | none => exact ⟨hnone _, fun sep _ => hpair sep⟩
    | some bytes =>
      have hbare := bare_hexEncodeBytes bytes
      have hplain := unescape_plain fun c hc => ⟨(hbare c hc).1, (hbare c hc).2.1⟩
      constructor
      · simp [append, appendCopyTextByteaField, decodeField, type, unescape, escaped, hplain,
          ColumnType.input, hexPairs_hexEncodeBytes, Field.value]
      · intro sep hsep
        refine .pair '\\' (.plain (by decide) ?_ (hbare.encoded hsep))
        rcases hsep with rfl | rfl <;> decide

lemma Field.append_eq (out : Text) (field : Field) : field.append out = out ++ field.append [] := by
  rcases field with v | (_ | v) | (_ | v) | v | (_ | v) <;> simp [append, appendCopyTextStringField,
    appendCopyTextOptionalI64Field, appendCopyTextI64Field, appendCopyTextNullField,
    appendCopyTextOptionalU64Field, appendCopyTextU64Field, appendCopyTextBoolField,
    appendCopyTextByteaField]

def rowText (row : List Field) : Text := List.intercalate ['\t'] (row.map (Field.append []))

lemma writeRow_eq (row : List Field) (out : Text) : writeRow row out = out ++ rowText row := by
  induction row generalizing out with
  | nil => simp [writeRow, rowText]
  | cons field row ih =>
    cases row with
    | nil => simp [writeRow, rowText, field.append_eq out]
    | cons next row =>
      rw [writeRow, ih, field.append_eq out]
      · simp [rowText, List.intercalate_cons_cons]
      · simp

lemma buildCopyTextPayload_eq (rows : List (List Field)) :
    buildCopyTextPayload rows writeRow = (rows.map rowText).flatMap (· ++ ['\n']) := by
  have hfold (out : Text) : rows.foldl (fun out row => writeRow row out ++ ['\n']) out =
      out ++ (rows.map rowText).flatMap (· ++ ['\n']) := by
    induction rows generalizing out with
    | nil => simp
    | cons row rows ih =>
      rw [List.foldl_cons, ih, writeRow_eq]
      simp only [List.map_cons, List.flatMap_cons, List.append_assoc]
  exact hfold []

lemma encoded_rowText (row : List Field) : Encoded '\n' (rowText row) := by
  induction row with
  | nil => exact .nil
  | cons field row ih =>
    have hfield := field.spec.2 '\n' (.inr rfl)
    cases row with
    | nil => simpa [rowText] using hfield
    | cons next row =>
      simp only [rowText, List.map_cons, List.intercalate_cons_cons, List.append_assoc] at ih ⊢
      exact hfield.append (.plain (by decide) (by decide) ih)

lemma pieces_rowText {row : List Field} (hne : row ≠ []) :
    pieces '\t' (rowText row) = row.map (Field.append []) := by
  apply pieces_intercalate (by decide) (by simpa using hne)
  intro e he
  obtain ⟨field, _, rfl⟩ := List.mem_map.mp he
  exact field.spec.2 '\t' (.inl rfl)

lemma decodeFields_row (row : List Field) :
    decodeFields (row.map Field.type) (row.map (Field.append [])) = some (row.map Field.value) := by
  induction row with
  | nil => rfl
  | cons field row ih => simp [decodeFields, field.spec.1, ih]

lemma decodeLine_rowText (row : List Field) :
    decodeLine (row.map Field.type) (rowText row) = some (row.map Field.value) := by
  cases row with
  | nil => rfl
  | cons field row =>
    rw [decodeLine, if_neg (by simp), pieces_rowText (List.cons_ne_nil _ _), decodeFields_row]

lemma rowText_ne_end (row : List Field) : rowText row ≠ ['\\', '.'] := by
  intro heq
  have hdecode := decodeLine_rowText row
  rw [heq] at hdecode
  cases row with
  | nil => simp [decodeLine] at hdecode
  | cons field row =>
    have hpieces : pieces '\t' ['\\', '.'] = [['\\', '.']] := by decide
    rw [decodeLine, if_neg (by simp), hpieces] at hdecode
    simp [decodeFields, decodeField, unescape, escaped] at hdecode

theorem copyText_roundTrip (columns : List ColumnType) (rows : List (List Field))
    (htypes : ∀ row ∈ rows, row.map Field.type = columns) :
    decode columns (buildCopyTextPayload rows writeRow) = some (rows.map (·.map Field.value)) := by
  rw [buildCopyTextPayload_eq, decode, rawLines_eq]
  · apply Scan.mapM_map_eq_pure
    intro row hrow
    rw [← htypes row hrow]
    exact decodeLine_rowText row
  · intro line hline
    obtain ⟨row, _, rfl⟩ := List.mem_map.mp hline
    exact encoded_rowText row
  · intro line hline
    obtain ⟨row, _, rfl⟩ := List.mem_map.mp hline
    exact rowText_ne_end row

/-- A name that is the text of a missing value, and one that is the mark of the end. -/
theorem copyText_roundTrip_marks :
    decode [.text, .integer, .bytea]
      (buildCopyTextPayload [[.string ['\\', 'N'], .i64 none, .bytea none],
        [.string ['\\', '.'], .i64 (some (-7)), .bytea (some [0, 255])]] writeRow) =
      some [[some (.text ['\\', 'N']), none, none],
        [some (.text ['\\', '.']), some (.integer (-7)), some (.bytea [0, 255])]] :=
  copyText_roundTrip [.text, .integer, .bytea] _ (by decide)

end Fod.Staging
