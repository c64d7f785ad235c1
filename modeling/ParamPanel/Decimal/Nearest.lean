/-!
# Nearest double

Decimal digits turned into the double nearest to the number they write, for numbers of any length
and any power of ten.
-/

namespace ParamPanel.Decimal

/-- Positive infinity, which stands for every magnitude beyond the doubles. -/
def infinity : Float := Float.ofBits 0x7ff0000000000000

/-- The number that decimal digits write; leading zeros count for nothing. -/
def ofDigits (digits : List Char) : Nat :=
  digits.foldl (fun n c => 10 * n + (c.toNat - '0'.toNat)) 0

/-- The double nearest to `significand · 10 ^ scale`, the even one of two. -/
def nearest (significand : Nat) (scale : Int) : Float :=
  Float.ofScientific significand (scale < 0) scale.natAbs

end ParamPanel.Decimal
