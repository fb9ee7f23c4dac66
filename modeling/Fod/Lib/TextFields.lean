import Mathlib

/-!
# Lines and fields of a text

Texts are lists of characters.  `lines`, `parseUnsigned` and `parseSigned` read
them as `str::lines` and `str::parse` do; what is written in decimal, one line per
entry and with a separator between the fields, is read back as it was.
-/

namespace Fod.TextFields

def decimal (n : Nat) : List Char := Nat.toDigits 10 n

def signedDecimal : Int → List Char
  | .ofNat n => decimal n
  | .negSucc n => '-' :: decimal (n + 1)

def digitsValue (text : List Char) : Option Nat :=
  if text ≠ [] ∧ text.all Char.isDigit then some (Nat.ofDigitChars 10 text 0) else none

def stripPlus : List Char → List Char
  | '+' :: rest => rest
  | text => text

def parseUnsigned (max : Nat) (text : List Char) : Option Nat :=
  (digitsValue (stripPlus text)).filter (· ≤ max)

def parseSigned (max : Nat) : List Char → Option Int
  | '-' :: rest => ((digitsValue rest).filter (· ≤ max + 1)).map fun n => -Int.ofNat n
  | text => (parseUnsigned max text).map Int.ofNat

def stripReturn (line : List Char) : List Char :=
  if line.getLast? = some '\r' then line.dropLast else line

/-- A line ends with `\n` or `\r\n`; what follows the last end is a line unless it
is empty. -/
def lines (text : List Char) : List (List Char) :=
  let parts := text.splitOn '\n'
  parts.dropLast.map stripReturn ++ parts.getLast?.toList.filter (· ≠ [])

def joinLines (ls : List (List Char)) : List Char := List.intercalate ['\n'] ls

lemma isDigit_of_mem_decimal {n : Nat} {c : Char} (h : c ∈ decimal n) : c.isDigit = true :=
  Nat.isDigit_of_mem_toDigits (by decide) (by decide) h

lemma notMem_decimal {n : Nat} {c : Char} (h : c.isDigit = false) : c ∉ decimal n := by
  intro hc
  rw [isDigit_of_mem_decimal hc] at h
  cases h

lemma decimal_ne_nil (n : Nat) : decimal n ≠ [] := Nat.toDigits_ne_nil

lemma digitsValue_decimal (n : Nat) : digitsValue (decimal n) = some n := by
  rw [digitsValue, if_pos ⟨decimal_ne_nil n,
    List.all_eq_true.mpr fun _ hc => isDigit_of_mem_decimal hc⟩, decimal,
    Nat.ofDigitChars_toDigits (by decide) (by decide)]

lemma decimal_eq_cons (n : Nat) : ∃ c rest, decimal n = c :: rest ∧ c ≠ '+' ∧ c ≠ '-' := by
  obtain ⟨c, rest, h⟩ := List.exists_cons_of_ne_nil (decimal_ne_nil n)
  have hdigit := isDigit_of_mem_decimal (h ▸ List.mem_cons_self : c ∈ decimal n)
  refine ⟨c, rest, h, ?_, ?_⟩ <;>
    · rintro rfl
      exact absurd hdigit (by decide)

lemma parseUnsigned_decimal {max n : Nat} (h : n ≤ max) :
    parseUnsigned max (decimal n) = some n := by
  obtain ⟨c, rest, hcons, hplus, -⟩ := decimal_eq_cons n
  have hvalue := digitsValue_decimal n
  rw [hcons] at hvalue ⊢
  have hstrip : stripPlus (c :: rest) = c :: rest := by
    unfold stripPlus
    split
    next heq => exact absurd (List.cons.inj heq).1 hplus
    next => rfl
  rw [parseUnsigned, hstrip, hvalue, Option.filter_some_pos (by simpa using h)]

lemma parseSigned_decimal {max n : Nat} (h : n ≤ max) :
    parseSigned max (decimal n) = some (n : Int) := by
  obtain ⟨c, rest, hcons, -, hminus⟩ := decimal_eq_cons n
  have hvalue := parseUnsigned_decimal h
  rw [hcons] at hvalue ⊢
  unfold parseSigned
  split
  next heq => exact absurd (List.cons.inj heq).1 hminus
  next => rw [hvalue, Option.map_some, Int.ofNat_eq_natCast]

lemma stripReturn_eq {line : List Char} (h : '\r' ∉ line) : stripReturn line = line := by
  rw [stripReturn, if_neg fun hlast => h (List.mem_of_getLast? hlast)]

lemma lines_joinLines {ls : List (List Char)} (hnonempty : ∀ l ∈ ls, l ≠ [])
    (hbreak : ∀ l ∈ ls, '\n' ∉ l) (hreturn : ∀ l ∈ ls, '\r' ∉ l) : lines (joinLines ls) = ls := by
  by_cases hls : ls = []
  · subst hls
    rfl
  · have hstrip : ls.dropLast.map stripReturn = ls.dropLast :=
      (List.map_congr_left fun l hl =>
        stripReturn_eq (hreturn l (List.dropLast_subset ls hl))).trans (List.map_id _)
    have hlast : ls.getLast hls ≠ [] := hnonempty _ (List.getLast_mem hls)
    rw [lines, joinLines, List.splitOn_intercalate _ hbreak hls]
    simp only [hstrip, List.getLast?_eq_some_getLast hls, Option.toList_some]
    rw [List.filter_cons_of_pos (by simpa using hlast), List.filter_nil,
      List.dropLast_concat_getLast hls]

end Fod.TextFields
