import Galley.Number.Double

/-!
# Decimal digits of a double

Two ways to write a positive double in decimal: the fewest digits that read
back as the same double, and a fixed number of significant digits. Both answer
with digits and the power of ten that belongs to the first of them.
-/

namespace Galley.Number

/-- A positive decimal number: its digits are those of `digits`, the first of
which counts `10 ^ exponent`. -/
structure Decimal where
  digits : Nat
  exponent : Int
  deriving Repr, DecidableEq

/-- Number of decimal digits, none for zero. -/
def decimalLength (n : Nat) : Nat :=
  if n = 0 then 0 else (Nat.toDigits 10 n).length

/-- The greatest power of ten that does not exceed a positive ratio. -/
def decimalExponent (num den : Nat) : Int :=
  if den ≤ num then (decimalLength (num / den) : Int) - 1
  else -(decimalLength ((den + num - 1) / num - 1) : Int)

/-- The ratio of natural numbers that equals `num / den / 10 ^ exponent`. -/
def scaledTen (num den : Nat) (exponent : Int) : Nat × Nat :=
  if 0 ≤ exponent then (num, den * tenPow exponent.toNat)
  else (num * tenPow (-exponent).toNat, den)

/-- The numbers that round to one double, all over a common denominator. -/
structure RoundingInterval where
  low : Nat
  value : Nat
  high : Nat
  den : Nat
  closed : Bool

/-- The interval of a double `mantissa * 2 ^ exponent`. Below a power of two
the doubles lie twice as close; the ends belong to it if the mantissa is even. -/
def RoundingInterval.of (mantissa : Nat) (exponent : Int) : RoundingInterval :=
  let below := if mantissa = twoPow 52 && -1074 < exponent then 1 else 2
  let (unit, den) := scaled 1 4 (-exponent)
  { low := (4 * mantissa - below) * unit
    value := 4 * mantissa * unit
    high := (4 * mantissa + 2) * unit
    den := den
    closed := mantissa % 2 = 0 }

/-- Whether `point * 10 ^ exponent` lies in the interval. -/
def RoundingInterval.contains (interval : RoundingInterval) (point : Nat) (exponent : Int) : Bool :=
  let (top, bottom) := scaledTen point 1 (-exponent)
  let scaledPoint := top * interval.den
  let low := interval.low * bottom
  let high := interval.high * bottom
  if interval.closed then low ≤ scaledPoint && scaledPoint ≤ high
  else low < scaledPoint && scaledPoint < high

/-- The digits of the given count that read back: the nearer of two, and of two
equally near ones the even one. -/
def shortestAt (interval : RoundingInterval) (count : Nat) : Option Decimal :=
  let exponent := decimalExponent interval.value interval.den
  let unit := exponent - (count - 1 : Nat)
  let (top, bottom) := scaledTen interval.value interval.den unit
  let floor := top / bottom
  let candidate (point : Nat) : Option Decimal :=
    if interval.contains point unit then
      some ⟨point, unit + (decimalLength point : Int) - 1⟩
    else none
  match candidate floor, candidate (floor + 1) with
  | some lower, some upper => if roundDiv top bottom = floor then some lower else some upper
  | some lower, none => some lower
  | none, upper => upper

/-- The fewest digits that read back as the double `mantissa * 2 ^ exponent`. -/
def shortest (mantissa : Nat) (exponent : Int) : Decimal :=
  let interval := RoundingInterval.of mantissa exponent
  ((List.range 17).findSome? fun count => shortestAt interval (count + 1)).getD ⟨mantissa, exponent⟩

/-- The given number of significant digits, a half rounded to the even digit. -/
def significant (count : Nat) (mantissa : Nat) (exponent : Int) : Decimal :=
  let (top, bottom) := scaled mantissa 1 (-exponent)
  let leading := decimalExponent top bottom
  let (num, den) := scaledTen top bottom (leading - (count - 1 : Nat))
  let digits := roundDiv num den
  if digits = tenPow count then ⟨tenPow (count - 1), leading + 1⟩ else ⟨digits, leading⟩

end Galley.Number
