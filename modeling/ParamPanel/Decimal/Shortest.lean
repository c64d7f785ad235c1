/-!
# Shortest decimals

A double stands for every real number that is nearer to it than to its neighbours. `shortest` finds
the decimal with the fewest digits among those, and the nearest one when several have as few. All
of it is arithmetic on natural numbers: nothing is rounded on the way.
-/

namespace ParamPanel.Decimal

/-- The real numbers that round to a positive double, as multiples of `2 ^ power`. The ends belong
to the range when the double's significand is even. -/
structure Interval where
  value : Nat
  lower : Nat
  upper : Nat
  power : Int
  closed : Bool

/-- The interval of the positive double with these bits, counted in quarters of its last place.
The neighbours are half a place away, and the one below a power of two is only half as far. -/
def Interval.ofBits (bits : Nat) : Interval :=
  let field : Nat := bits / (1 <<< 52) % (1 <<< 11)
  let low : Nat := bits % (1 <<< 52)
  let significand := if field = 0 then low else low + (1 <<< 52)
  let power : Int := if field = 0 then -1074 else (field : Int) - 1075
  let narrow := low = 0 ∧ 1 < field
  ⟨4 * significand, 4 * significand - (if narrow then 1 else 2), 4 * significand + 2, power - 2,
    significand % 2 = 0⟩

/-- The number `digits · 10 ^ scale`. -/
structure Scaled where
  digits : Nat
  scale : Int
deriving DecidableEq, Repr

/-- The number of digits that a number is written with; zero has none. -/
def digitCount (n : Nat) : Nat := if n = 0 then 0 else (Nat.toDigits 10 n).length

namespace Interval

/-- The place of the value's first digit: the largest `k` with `10 ^ k ≤ value · 2 ^ power`. -/
def leadingPlace (interval : Interval) : Int :=
  let numerator := interval.value <<< interval.power.toNat
  let denominator := 1 <<< (-interval.power).toNat
  if denominator ≤ numerator then (digitCount (numerator / denominator) : Int) - 1
  else -(digitCount ((denominator - 1) / numerator) : Int)

/-- The decimal in the interval with `count` digits that is nearest to the value, if the interval
holds one. Only the two decimals around the value can be it; an even one wins a tie. -/
def withDigits? (interval : Interval) (count : Nat) : Option Scaled :=
  let scale := interval.leadingPlace - count + 1
  let unit := Nat.pow 10 scale.toNat <<< (-interval.power).toNat
  let factor := Nat.pow 10 (-scale).toNat <<< interval.power.toNat
  let value := interval.value * factor
  let holds (digits : Nat) : Bool :=
    let point := digits * unit
    if interval.closed then interval.lower * factor ≤ point ∧ point ≤ interval.upper * factor
    else interval.lower * factor < point ∧ point < interval.upper * factor
  let below := value / unit
  let above := below + 1
  if holds below ∧ holds above then
    let down := value - below * unit
    let up := above * unit - value
    if down < up ∨ (down = up ∧ below % 2 = 0) then some ⟨below, scale⟩ else some ⟨above, scale⟩
  else if holds below then some ⟨below, scale⟩
  else if holds above then some ⟨above, scale⟩
  else none

end Interval

/-- The same number with up to `fuel` zeros taken off the end of its digits. -/
def Scaled.strip : Nat → Scaled → Scaled
  | 0, scaled => scaled
  | fuel + 1, ⟨digits, scale⟩ =>
    if digits % 10 = 0 then Scaled.strip fuel ⟨digits / 10, scale + 1⟩ else ⟨digits, scale⟩

/-- The shortest decimal that reads back as the positive double with these bits. Seventeen digits
tell any two doubles apart, so the search ends there. -/
def shortest (bits : Nat) : Scaled :=
  let interval := Interval.ofBits bits
  let found := (List.range 17).findSome? fun count => interval.withDigits? (count + 1)
  (found.getD ⟨0, 0⟩).strip 17

end ParamPanel.Decimal
