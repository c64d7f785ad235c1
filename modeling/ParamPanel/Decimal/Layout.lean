import ParamPanel.Decimal.Shortest

/-!
# Number layouts

How the digits of a double are set out: with all places written, or as one digit, a point and a
power of ten. A `Layout` says which, and with what marks.
-/

namespace ParamPanel.Decimal

/-- The choices that a number format makes. -/
structure Layout where
  /-- The least place of a first digit that is still written plainly. -/
  plainFrom : Int
  /-- The greatest place of a first digit that is still written plainly. -/
  plainTo : Int
  /-- What follows a plainly written whole number. -/
  wholeEnd : String
  /-- What stands in front of a power of ten that is not negative. -/
  upMark : String
  /-- What stands in front of the size of a negative power of ten. -/
  downMark : String
deriving DecidableEq, Repr

namespace Layout

/-- A positive decimal with all its places. -/
def plain (layout : Layout) (digits : List Char) (place : Int) : List Char :=
  if place < 0 then '0' :: '.' :: (List.replicate (-place - 1).toNat '0' ++ digits)
  else
    let wholeLength := place.toNat + 1
    if digits.length ≤ wholeLength then
      digits ++ List.replicate (wholeLength - digits.length) '0' ++ layout.wholeEnd.toList
    else digits.take wholeLength ++ '.' :: digits.drop wholeLength

/-- A positive decimal as a first digit, the other digits behind a point, and a power of ten. -/
def scientific (layout : Layout) (digits : List Char) (place : Int) : List Char :=
  let mark := if place < 0 then layout.downMark else layout.upMark
  let body := if digits.length ≤ 1 then digits else digits.take 1 ++ '.' :: digits.drop 1
  body ++ mark.toList ++ Nat.toDigits 10 place.natAbs

/-- The text of a finite double; a zero is written plainly and keeps its sign. -/
def write (layout : Layout) (x : Float) : List Char :=
  let bits := x.toBits.toNat
  let size := bits % (1 <<< 63)
  let sign := if bits < 1 <<< 63 then [] else ['-']
  if size = 0 then sign ++ layout.plain ['0'] 0
  else
    let decimal := shortest size
    let digits := Nat.toDigits 10 decimal.digits
    let place := digits.length - 1 + decimal.scale
    sign ++ if layout.plainFrom ≤ place ∧ place ≤ layout.plainTo then layout.plain digits place
      else layout.scientific digits place

end Layout

end ParamPanel.Decimal
