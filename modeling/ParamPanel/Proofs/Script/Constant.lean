import Mathlib.Data.List.Basic
import ParamPanel.Script.Markers
import ParamPanel.Proofs.Script.Expression
import ParamPanel.Proofs.Script.Heading
import ParamPanel.Proofs.Text.Lines

/-!
# Constants

The expressions that have a value without being computed: truth words, plain numbers and strings
between quotes. Each is read as the value it writes, and none of them ends its statement or its
line.
-/

namespace ParamPanel.Script

open Text

/-- One decimal digit or more. -/
structure Digits where
  text : List Char
  areDigits : Decimal.Literal.areDigits text = true

def Digits.number (digits : Digits) : Nat :=
  Nat.ofDigits 10 (digits.text.reverse.map fun c => c.toNat - '0'.toNat)

/-- An expression that is a constant. -/
inductive Constant where
  | boolean (flag : Bool)
  | number (whole : Digits) (fraction : Option Digits)
  /-- A string may hold quotes and marks of comments and headings, but no semicolon. -/
  | string (text : List Char) (single : IsSingleLine text) (unended : statementEnd ∉ text)

namespace Constant

def text : Constant → List Char
  | boolean true => ['t', 'r', 'u', 'e']
  | boolean false => ['f', 'a', 'l', 's', 'e']
  | number whole none => whole.text
  | number whole (some fraction) => whole.text ++ '.' :: fraction.text
  | string text _ _ => '"' :: (text ++ ['"'])

/-- The value that a constant writes. A number with a fraction is the whole number that all of its
digits make, divided by ten for each digit of the fraction. -/
def value : Constant → Value
  | boolean flag => .boolean flag
  | number whole none => .number (Float.ofScientific whole.number false 0)
  | number whole (some fraction) =>
    .number (Float.ofScientific (whole.number * 10 ^ fraction.text.length + fraction.number) true
      fraction.text.length)
  | string text _ _ => .string (String.ofList text)

end Constant

lemma Digits.ne_nil (digits : Digits) : digits.text ≠ [] :=
  (Decimal.Literal.areDigits_iff.mp digits.areDigits).1

lemma Digits.ofDigits_text (digits : Digits) : Decimal.ofDigits digits.text = digits.number :=
  Decimal.ofDigits_eq digits.text

lemma Digits.isDigit_of_mem (digits : Digits) : ∀ c ∈ digits.text, c.isDigit = true :=
  (Decimal.Literal.areDigits_iff.mp digits.areDigits).2

lemma isNameChar_of_isDigit {c : Char} (h : c.isDigit = true) : isNameChar c = true := by
  simp [isNameChar, isWordChar, Char.isAlphanum, h]

/-- Text of a number is made of digits and of points. -/
lemma Constant.mem_number {whole : Digits} {fraction : Option Digits} :
    ∀ c ∈ (number whole fraction).text, c.isDigit = true ∨ c = '.' := by
  intro c mem
  cases fraction with
  | none => exact .inl (whole.isDigit_of_mem c mem)
  | some fraction =>
    rcases List.mem_append.mp mem with left | right
    · exact .inl (whole.isDigit_of_mem c left)
    · rcases List.mem_cons.mp right with point | right
      · exact .inr point
      · exact .inl (fraction.isDigit_of_mem c right)

lemma isBlank_of_mem_number {whole : Digits} {fraction : Option Digits} :
    ∀ c ∈ (Constant.number whole fraction).text, isBlank c = false := by
  intro c mem
  rcases Constant.mem_number c mem with digit | rfl
  · exact isBlank_of_isNameChar (isNameChar_of_isDigit digit)
  · decide

namespace Constant

lemma isSingleLine_text (constant : Constant) : IsSingleLine constant.text := by
  cases constant with
  | boolean flag => cases flag <;> simp [text]
  | number whole fraction => exact isSingleLine_of_not_blank isBlank_of_mem_number
  | string text single unended =>
    simp [Constant.text, single]

lemma statementEnd_not_mem_text (constant : Constant) : statementEnd ∉ constant.text := by
  cases constant with
  | boolean flag => cases flag <;> decide
  | number whole fraction =>
    intro mem
    rcases mem_number _ mem with digit | point
    · exact absurd digit (by decide)
    · exact absurd point (by decide)
  | string text single unended =>
    intro mem
    rcases List.mem_cons.mp mem with quote | mem
    · exact absurd quote (by decide)
    · rcases List.mem_append.mp mem with inside | quote
      · exact unended inside
      · exact absurd quote (by decide)

lemma text_ne_nil (constant : Constant) : constant.text ≠ [] := by
  cases constant with
  | boolean flag => cases flag <;> simp [text]
  | number whole fraction => cases fraction <;> simp [text, whole.ne_nil]
  | string text single unended => simp [Constant.text]

lemma trim_text (constant : Constant) : trim constant.text = constant.text := by
  cases constant with
  | boolean flag => cases flag <;> decide
  | number whole fraction =>
    rw [trim_eq_self_iff]
    exact ⟨fun c first => isBlank_of_mem_number c (List.mem_of_mem_head? first),
      fun c last => isBlank_of_mem_number c (List.mem_of_getLast? last)⟩
  | string text single unended => exact trim_between rfl rfl text

end Constant

/-- A constant is read as the value it writes. -/
theorem valueOf_text (constant : Constant) : valueOf constant.text = constant.value := by
  cases constant with
  | boolean flag =>
    have word : (Constant.boolean flag).text = truthWord flag := by cases flag <;> rfl
    rw [Constant.value, valueOf_eq_boolean_iff, Constant.trim_text, word]
  | number whole fraction =>
    cases fraction with
    | none =>
      rw [Constant.value, valueOf_eq_number_iff, Constant.trim_text, ← whole.ofDigits_text,
        ← Decimal.Literal.toFloat_whole]
      exact ⟨_, .whole whole.areDigits, rfl⟩
    | some fraction =>
      rw [Constant.value, valueOf_eq_number_iff, Constant.trim_text, ← whole.ofDigits_text,
        ← fraction.ofDigits_text, ← Decimal.Literal.toFloat_pointed _ fraction.ne_nil]
      exact ⟨_, .pointed whole.areDigits fraction.areDigits, rfl⟩
  | string text single unended =>
    have blank : ∀ c ∈ ([] : List Char), isBlank c = true := by simp
    exact valueOf_quoted single.1 blank blank

end ParamPanel.Script
