import Fod.Lib.TextFields

/-!
# The text format of COPY

Rows end with newlines and fields with tabs; a backslash takes the meaning from the
character behind it or gives it another one.  Numeric escapes are not read here.
-/

namespace CopyText

open Fod.TextFields

abbrev Text := List Char

def pieces (sep : Char) : Text → List Text
  | [] => [[]]
  | '\\' :: c :: rest => (pieces sep rest).modifyHead (['\\', c] ++ ·)
  | c :: rest =>
    if c = sep then [] :: pieces sep rest else (pieces sep rest).modifyHead ([c] ++ ·)

def escaped : Char → Option Char
  | 'b' => some '\x08'
  | 'f' => some '\x0c'
  | 'n' => some '\n'
  | 'r' => some '\r'
  | 't' => some '\t'
  | 'v' => some '\x0b'
  | c => if c.isDigit ∨ c = 'x' ∨ c = '.' then none else some c

/-- A carriage return among lines that end with newlines is an error. -/
def unescape : Text → Option Text
  | [] => some []
  | '\\' :: c :: rest => do
    let c ← escaped c
    let text ← unescape rest
    some (c :: text)
  | c :: rest => if c = '\\' ∨ c = '\r' then none else (unescape rest).map (c :: ·)

inductive ColumnType where
  | text
  | integer
  | boolean
  | bytea
  deriving DecidableEq

inductive Value where
  | text (value : Text)
  | integer (value : Int)
  | boolean (value : Bool)
  | bytea (value : List UInt8)

def hexValue (c : Char) : Option Nat :=
  if '0' ≤ c ∧ c ≤ '9' then some (c.toNat - '0'.toNat)
  else if 'a' ≤ c ∧ c ≤ 'f' then some (c.toNat - 'a'.toNat + 10)
  else if 'A' ≤ c ∧ c ≤ 'F' then some (c.toNat - 'A'.toNat + 10)
  else none

def hexPairs : Text → Option (List UInt8)
  | [] => some []
  | [_] => none
  | a :: b :: rest => do
    let high ← hexValue a
    let low ← hexValue b
    let bytes ← hexPairs rest
    some (UInt8.ofNat (16 * high + low) :: bytes)

def ColumnType.input : ColumnType → Text → Option Value
  | .text, value => some (.text value)
  | .integer, '-' :: digits => (digitsValue digits).map fun n => .integer (-n)
  | .integer, digits => (digitsValue digits).map fun n => .integer n
  | .boolean, ['t'] => some (.boolean true)
  | .boolean, ['f'] => some (.boolean false)
  | .boolean, _ => none
  | .bytea, '\\' :: 'x' :: digits => (hexPairs digits).map .bytea
  | .bytea, _ => none

def decodeField (column : ColumnType) (raw : Text) : Option (Option Value) :=
  if raw = ['\\', 'N'] then some none else (unescape raw).bind fun text => (column.input text).map some

def decodeFields : List ColumnType → List Text → Option (List (Option Value))
  | [], [] => some []
  | column :: columns, raw :: raws => do
    let value ← decodeField column raw
    let values ← decodeFields columns raws
    some (value :: values)
  | _, _ => none

def decodeLine (columns : List ColumnType) (line : Text) : Option (List (Option Value)) :=
  if columns = [] then if line = [] then some [] else none
  else decodeFields columns (pieces '\t' line)

/-- The last line may lack its newline.  A line `\.` ends the data. -/
def rawLines (input : Text) : List Text :=
  let lines := pieces '\n' input
  let lines := if lines.getLast? = some [] then lines.dropLast else lines
  lines.takeWhile (· ≠ ['\\', '.'])

def decode (columns : List ColumnType) (input : Text) : Option (List (List (Option Value))) :=
  (rawLines input).mapM (decodeLine columns)

inductive Encoded (sep : Char) : Text → Prop
  | nil : Encoded sep []
  | plain {c : Char} {rest : Text} : c ≠ '\\' → c ≠ sep → Encoded sep rest → Encoded sep (c :: rest)
  | pair (c : Char) {rest : Text} : Encoded sep rest → Encoded sep ('\\' :: c :: rest)

section

variable {sep : Char} {e e' rest : Text}

lemma Encoded.append (h : Encoded sep e) (h' : Encoded sep e') : Encoded sep (e ++ e') := by
  induction h with
  | nil => exact h'
  | plain hc hsep _ ih => exact .plain hc hsep ih
  | pair c _ ih => exact .pair c ih

lemma encoded_of_plain (h : ∀ c ∈ e, c ≠ '\\' ∧ c ≠ sep) : Encoded sep e := by
  induction e with
  | nil => exact .nil
  | cons c e ih => exact .plain (h c (by simp)).1 (h c (by simp)).2 (ih fun d hd => h d (by simp [hd]))

lemma pieces_plain {c : Char} (hc : c ≠ '\\') (hsep : c ≠ sep) (rest : Text) :
    pieces sep (c :: rest) = (pieces sep rest).modifyHead ([c] ++ ·) := by
  rw [pieces, if_neg hsep]
  rintro _ _ rfl
  exact absurd rfl hc

lemma pieces_sep (hsep : sep ≠ '\\') (rest : Text) : pieces sep (sep :: rest) = [] :: pieces sep rest := by
  rw [pieces]
  · simp
  · rintro _ _ rfl
    exact absurd rfl hsep

lemma pieces_append (h : Encoded sep e) : pieces sep (e ++ rest) = (pieces sep rest).modifyHead (e ++ ·) := by
  induction h with
  | nil =>
    rw [List.nil_append]
    cases pieces sep rest <;> rfl
  | plain hc hsep _ ih =>
    rw [List.cons_append, pieces_plain hc hsep, ih]
    cases pieces sep rest <;> rfl
  | pair c _ ih =>
    rw [List.cons_append, List.cons_append, pieces, ih]
    cases pieces sep rest <;> rfl

lemma pieces_append_sep (hsep : sep ≠ '\\') (h : Encoded sep e) :
    pieces sep (e ++ sep :: rest) = e :: pieces sep rest := by
  rw [pieces_append h, pieces_sep hsep]
  simp

lemma pieces_intercalate (hsep : sep ≠ '\\') {es : List Text} (hne : es ≠ [])
    (h : ∀ e ∈ es, Encoded sep e) : pieces sep (List.intercalate [sep] es) = es := by
  induction es with
  | nil => exact absurd rfl hne
  | cons e es ih =>
    cases es with
    | nil =>
      have hpieces : pieces sep (e ++ []) = _ := pieces_append (h e (by simp))
      simpa [pieces] using hpieces
    | cons e' es =>
      have hrest := ih (by simp) fun f hf => h f (by simp [hf])
      rw [List.intercalate_cons_cons, List.append_assoc, List.singleton_append,
        pieces_append_sep hsep (h e (by simp)), hrest]

lemma rawLines_eq {lines : List Text} (henc : ∀ line ∈ lines, Encoded '\n' line)
    (hend : ∀ line ∈ lines, line ≠ ['\\', '.']) :
    rawLines (lines.flatMap (· ++ ['\n'])) = lines := by
  have hpieces : pieces '\n' (lines.flatMap (· ++ ['\n'])) = lines ++ [[]] := by
    induction lines with
    | nil => rfl
    | cons line lines ih =>
      have hrest := ih (fun l hl => henc l (by simp [hl])) (fun l hl => hend l (by simp [hl]))
      rw [List.flatMap_cons, List.append_assoc, List.singleton_append,
        pieces_append_sep (by decide) (henc line (by simp)), hrest, List.cons_append]
  simp only [rawLines, hpieces, List.getLast?_append_of_ne_nil _ (List.cons_ne_nil _ _),
    List.getLast?_singleton, if_true, List.dropLast_concat]
  simpa using hend

lemma unescape_plain {text : Text} (h : ∀ c ∈ text, c ≠ '\\' ∧ c ≠ '\r') : unescape text = some text := by
  induction text with
  | nil => rfl
  | cons c text ih =>
    obtain ⟨hc, hreturn⟩ := h c (by simp)
    rw [unescape]
    · simp [hc, hreturn, ih fun d hd => h d (by simp [hd])]
    · rintro _ _ rfl
      exact absurd rfl hc

end

end CopyText
