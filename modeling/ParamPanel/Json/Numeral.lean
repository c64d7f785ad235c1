import ParamPanel.Decimal.Literal

/-!
# JSON numerals

How a number in a JSON text is read. Whole numbers of 64 bits stay whole. Any other is worked out in
doubles: of its digits as many as fit into 64 bits make a whole number, which is multiplied or
divided by a power of ten. That may miss the nearest double by a last place.
-/

namespace ParamPanel.Json

/-- A number as it is written in a JSON text. -/
structure NumberLexeme where
  negative : Bool
  whole : List Char
  /-- The digits behind the point; none when there is no point. -/
  fraction : List Char
  exponent : Option Int
deriving DecidableEq, Repr

/-- The value of a number in a JSON text. -/
inductive Numeral where
  | integer (n : Int)
  | real (x : Float)
deriving DecidableEq

def Numeral.toFloat : Numeral → Float
  | integer n => Float.ofInt n
  | real x => x

/-- Reads digits onto a whole number while it stays below `2 ^ 64`, and gives the digits left. -/
def gather (n : Nat) : List Char → Nat × List Char
  | [] => (n, [])
  | c :: digits =>
    let next := 10 * n + (c.toNat - '0'.toNat)
    if next < 1 <<< 64 then gather next digits else (n, c :: digits)

def powerOfTen (n : Nat) : Float := Float.ofScientific 1 false n

/-- A whole number times a power of ten, in doubles. There is no answer beyond the doubles. A power
too small for a double is divided by in two steps. -/
def scaled? (significand : Nat) (scale : Int) : Option Float :=
  let size := Float.ofNat significand
  if 308 < scale then if significand = 0 then some size else none
  else if 0 ≤ scale then
    let product := size * powerOfTen scale.toNat
    if product.isInf then none else some product
  else if -308 ≤ scale then some (size / powerOfTen (-scale).toNat)
  else if -616 ≤ scale then some (size / powerOfTen 308 / powerOfTen (-scale - 308).toNat)
  else some (Float.ofNat 0)

/-- A whole number with its sign; a negative one keeps to 64 bits, and a negative zero is real. -/
def signedInteger (negative : Bool) (n : Nat) : Numeral :=
  if negative then
    if 0 < n ∧ n ≤ 1 <<< 63 then .integer (-(n : Int)) else .real (-Float.ofNat n)
  else .integer n

/-- The value of a number; none when it lies beyond the doubles. -/
def NumberLexeme.value? (lexeme : NumberLexeme) : Option Numeral :=
  let (whole, beyond) := gather 0 lexeme.whole
  if beyond.isEmpty ∧ lexeme.fraction.isEmpty ∧ lexeme.exponent = none then
    some (signedInteger lexeme.negative whole)
  else
    let (significand, ignored) := gather whole lexeme.fraction
    let scale := beyond.length - (lexeme.fraction.length - ignored.length : Nat) +
      lexeme.exponent.getD 0
    (scaled? significand scale).map fun size => .real (if lexeme.negative then -size else size)

/-- The digits behind a point, at least one, and the text behind them; without a point, none. -/
def splitFraction? (text : List Char) : Option (List Char × List Char) :=
  if text.head? = some '.' then
    let digits := text.tail.takeWhile Char.isDigit
    if digits.isEmpty then none else some (digits, text.tail.dropWhile Char.isDigit)
  else some ([], text)

/-- The power of ten behind the digits, and the text behind it; without its mark, none. -/
def splitExponent? (text : List Char) : Option (Option Int × List Char) :=
  if text.head? = some 'e' ∨ text.head? = some 'E' then
    let (negative, rest) := Decimal.Literal.splitSign text.tail
    let digits := rest.takeWhile Char.isDigit
    let size : Int := Decimal.ofDigits digits
    if digits.isEmpty then none
    else some (some (if negative then -size else size), rest.dropWhile Char.isDigit)
  else some (none, text)

/-- A number at the start of a text, without its sign, and the text behind it. A whole part of more
than one digit does not start with zero. -/
def splitUnsigned? (negative : Bool) (text : List Char) : Option (NumberLexeme × List Char) :=
  let whole := text.takeWhile Char.isDigit
  if whole.isEmpty ∨ (whole.head? = some '0' ∧ 1 < whole.length) then none
  else match splitFraction? (text.dropWhile Char.isDigit) with
    | none => none
    | some (fraction, rest) =>
      match splitExponent? rest with
      | none => none
      | some (exponent, rest) => some (⟨negative, whole, fraction, exponent⟩, rest)

def splitNumber? (text : List Char) : Option (NumberLexeme × List Char) :=
  if text.head? = some '-' then splitUnsigned? true text.tail else splitUnsigned? false text

theorem length_dropWhile_le (p : Char → Bool) (text : List Char) :
    (text.dropWhile p).length ≤ text.length :=
  (List.dropWhile_sublist p).length_le

theorem length_splitSign_le (text : List Char) :
    (Decimal.Literal.splitSign text).2.length ≤ text.length := by
  cases text with
  | nil => simp [Decimal.Literal.splitSign]
  | cons c rest =>
    simp only [Decimal.Literal.splitSign]
    split
    · simp
    · split <;> simp

theorem length_of_splitFraction? {text digits rest : List Char}
    (h : splitFraction? text = some (digits, rest)) : rest.length ≤ text.length := by
  have run := length_dropWhile_le Char.isDigit text.tail
  unfold splitFraction? at h
  dsimp only at h
  split at h
  · split at h
    · cases h
    · cases h
      simp only [List.length_tail] at run
      omega
  · cases h
    exact Nat.le_refl _

theorem length_of_splitExponent? {text rest : List Char} {exponent : Option Int}
    (h : splitExponent? text = some (exponent, rest)) : rest.length ≤ text.length := by
  have sign := length_splitSign_le text.tail
  have run := length_dropWhile_le Char.isDigit (Decimal.Literal.splitSign text.tail).2
  unfold splitExponent? at h
  dsimp only at h
  split at h
  · split at h
    · cases h
    · cases h
      simp only [List.length_tail] at sign
      omega
  · cases h
    exact Nat.le_refl _

theorem length_of_splitUnsigned? {negative : Bool} {text rest : List Char} {lexeme : NumberLexeme}
    (h : splitUnsigned? negative text = some (lexeme, rest)) : rest.length < text.length := by
  unfold splitUnsigned? at h
  dsimp only at h
  split at h
  · cases h
  rename_i digits
  have whole : (text.dropWhile Char.isDigit).length < text.length := by
    have parts := congrArg List.length
      (List.takeWhile_append_dropWhile (p := Char.isDigit) (l := text))
    have some_digit : 0 < (text.takeWhile Char.isDigit).length := by
      rw [List.length_pos_iff]
      intro none_left
      simp [none_left] at digits
    simp only [List.length_append] at parts
    omega
  split at h
  · cases h
  rename_i fraction behind split_fraction
  have point := length_of_splitFraction? split_fraction
  split at h
  · cases h
  rename_i exponent last split_exponent
  have power := length_of_splitExponent? split_exponent
  cases h
  omega

theorem length_of_splitNumber? {text rest : List Char} {lexeme : NumberLexeme}
    (h : splitNumber? text = some (lexeme, rest)) : rest.length < text.length := by
  unfold splitNumber? at h
  split at h
  · have shorter := length_of_splitUnsigned? h
    simp only [List.length_tail] at shorter
    omega
  · exact length_of_splitUnsigned? h

end ParamPanel.Json
