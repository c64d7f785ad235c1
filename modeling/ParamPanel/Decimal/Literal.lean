import ParamPanel.Decimal.Nearest

/-!
# Decimal literals

The two forms in which scripts write numbers: the plain `digits(.digits)?` of an assignment, and
the signed form with an optional power of ten that trailing comments may use.
-/

namespace ParamPanel.Decimal

/-- A number as written: its sign, the digits on either side of the point, and its power of ten. -/
structure Literal where
  negative : Bool
  whole : List Char
  fraction : List Char
  exponent : Int
deriving DecidableEq, Repr

namespace Literal

/-- The double nearest to the number; a negative zero keeps its sign. -/
def toFloat (literal : Literal) : Float :=
  let size := nearest (ofDigits (literal.whole ++ literal.fraction))
    (literal.exponent - literal.fraction.length)
  if literal.negative then -size else size

/-- Whether a text is one digit or more, and nothing else. -/
def areDigits (text : List Char) : Bool := !text.isEmpty && text.all Char.isDigit

/-- The plain form: digits, and if there is a point, digits behind it. -/
def plain? (text : List Char) : Option Literal :=
  let whole := text.takeWhile Char.isDigit
  match text.dropWhile Char.isDigit with
  | [] => if areDigits whole then some ⟨false, whole, [], 0⟩ else none
  | c :: fraction =>
    if c = '.' ∧ areDigits whole ∧ areDigits fraction then some ⟨false, whole, fraction, 0⟩
    else none

/-- A sign, if there is one, and the text behind it. -/
def splitSign : List Char → Bool × List Char
  | [] => (false, [])
  | c :: text =>
    if c = '-' then (true, text) else if c = '+' then (false, text) else (false, c :: text)

/-- The power of ten written behind the digits; nothing written is the power zero. -/
def exponent? : List Char → Option Int
  | [] => some 0
  | c :: text =>
    let (negative, digits) := splitSign text
    if (c = 'e' ∨ c = 'E') ∧ areDigits digits then
      some (if negative then -(ofDigits digits : Int) else ofDigits digits)
    else none

/-- The signed form: digits with a point anywhere among them or none, and a power of ten. -/
def signed? (text : List Char) : Option Literal :=
  let (negative, text) := splitSign text
  let whole := text.takeWhile Char.isDigit
  let rest := text.dropWhile Char.isDigit
  let (fraction, rest) :=
    if rest.head? = some '.' then
      (rest.tail.takeWhile Char.isDigit, rest.tail.dropWhile Char.isDigit)
    else ([], rest)
  if whole.isEmpty ∧ fraction.isEmpty then none
  else (exponent? rest).map fun exponent => ⟨negative, whole, fraction, exponent⟩

end Literal

/-- The finite double that a text in the signed form writes. -/
def finite? (text : List Char) : Option Float :=
  ((Literal.signed? text).map Literal.toFloat).filter Float.isFinite

theorem isFinite_of_finite? {text : List Char} {x : Float} (h : finite? text = some x) :
    x.isFinite = true := by
  have kept := Option.eq_some_of_filter_eq_some h
  simp [finite?, kept] at h
  exact h

end ParamPanel.Decimal
