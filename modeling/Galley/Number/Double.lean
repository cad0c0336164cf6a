import Galley.Number.Power

/-!
# Nearest doubles

Exact arithmetic behind double precision. A value is a ratio of natural
numbers until it is rounded once, to the nearest double and on a tie to the
even one. Everything here is decided in integers, so it can be reasoned about
without the hardware's operations.
-/

namespace Galley.Number

/-- The quotient rounded to the nearest integer, a half to the even one. -/
def roundDiv (num den : Nat) : Nat :=
  let quotient := num / den
  let remainder := num % den
  if 2 * remainder < den then quotient
  else if den < 2 * remainder then quotient + 1
  else quotient + quotient % 2

/-- Number of binary digits. -/
def bitLength (n : Nat) : Nat :=
  if n = 0 then 0 else Nat.log2 n + 1

/-- The pair of natural numbers whose ratio is `num / den / 2 ^ exponent`. -/
def scaled (num den : Nat) (exponent : Int) : Nat × Nat :=
  if 0 ≤ exponent then (num, den * twoPow exponent.toNat)
  else (num * twoPow (-exponent).toNat, den)

/-- A finite double, `mantissa * 2 ^ exponent`. -/
structure Double where
  mantissa : Int
  exponent : Int
  deriving Repr, DecidableEq

namespace Double

def zero : Double := ⟨0, 0⟩

/-- The exponent at which a positive ratio has 53 binary digits before the
point, or the least exponent there is. -/
def exponentFor (num den : Nat) : Int :=
  let guess : Int := (bitLength num : Int) - (bitLength den : Int) - 53
  let (top, bottom) := scaled num den guess
  max (-1074) (if bottom * twoPow 53 ≤ top then guess + 1 else guess)

/-- The double nearest to a ratio of natural numbers, without an upper bound
on its exponent. -/
def ofRatio (num den : Nat) : Double :=
  if num = 0 then zero
  else
    let exponent := exponentFor num den
    let (top, bottom) := scaled num den exponent
    ⟨(roundDiv top bottom : Nat), exponent⟩

def neg (x : Double) : Double := ⟨-x.mantissa, x.exponent⟩

/-- The double nearest to a signed ratio. -/
def ofSignedRatio (num : Int) (den : Nat) : Double :=
  if num < 0 then (ofRatio num.natAbs den).neg else ofRatio num.natAbs den

/-- The double nearest to an integer. -/
def ofInt (n : Int) : Double :=
  ofSignedRatio n 1

/-- The double nearest to `mantissa * 2 ^ exponent`. -/
def ofScaled (mantissa exponent : Int) : Double :=
  if 0 ≤ exponent then ofSignedRatio (mantissa * twoPow exponent.toNat) 1
  else ofSignedRatio mantissa (twoPow (-exponent).toNat)

/-- The rounded product. -/
def mul (x y : Double) : Double :=
  ofScaled (x.mantissa * y.mantissa) (x.exponent + y.exponent)

/-- The rounded sum. -/
def add (x y : Double) : Double :=
  let exponent := min x.exponent y.exponent
  ofScaled (x.mantissa * twoPow (x.exponent - exponent).toNat +
    y.mantissa * twoPow (y.exponent - exponent).toNat) exponent

/-- The integer part, towards zero. -/
def truncate (x : Double) : Int :=
  if 0 ≤ x.exponent then x.mantissa * twoPow x.exponent.toNat
  else x.mantissa.tdiv (twoPow (-x.exponent).toNat)

/-- Whether the value is too large for the format. -/
def isHuge (x : Double) : Bool :=
  x.mantissa ≠ 0 && 1024 < (bitLength x.mantissa.natAbs : Int) + x.exponent

/-- The bits of a magnitude, those of infinity where it is too large. -/
def magnitudeBits (x : Double) : Nat :=
  let infinity := 2047 * twoPow 52
  let (mantissa, exponent) :=
    if x.mantissa.natAbs = twoPow 53 then (twoPow 52, x.exponent + 1)
    else (x.mantissa.natAbs, x.exponent)
  if x.isHuge then infinity
  else if mantissa < twoPow 52 then mantissa
  else (exponent + 1075).toNat * twoPow 52 + (mantissa - twoPow 52)

/-- The machine number of a rounded value. -/
def toFloat (x : Double) (negative : Bool) : Float :=
  let magnitude := Float.ofBits (UInt64.ofNat x.magnitudeBits)
  if negative then -magnitude else magnitude

end Double

/-- The parts of a machine number. -/
inductive FloatParts
  | nan
  | infinite (negative : Bool)
  | finite (negative : Bool) (mantissa : Nat) (exponent : Int)
  deriving Repr, DecidableEq

/-- Reads the parts off the bits. -/
def FloatParts.of (x : Float) : FloatParts :=
  if x.isNaN then .nan
  else
    let bits : Nat := x.toBits.toNat
    let negative := decide (twoPow 63 ≤ bits)
    let field : Nat := bits / twoPow 52 % 2048
    let fraction : Nat := bits % twoPow 52
    if field = 2047 then .infinite negative
    else if field = 0 then .finite negative fraction (-1074)
    else .finite negative (twoPow 52 + fraction) ((field : Int) - 1075)

/-- The machine number nearest to an integer, if it is not too large. -/
def floatOfInt? (n : Int) : Option Float :=
  let value := Double.ofInt n
  if value.isHuge then none else some (value.toFloat (n < 0))

/-- The machine number nearest to a decimal fraction, given by its digits
before and behind the point. -/
def floatOfDecimal (negative : Bool) (whole fraction : List Char) : Float :=
  let value (digits : List Char) : Nat :=
    digits.foldl (fun total digit => 10 * total + (digit.toNat - '0'.toNat)) 0
  (Double.ofRatio (value (whole ++ fraction)) (tenPow fraction.length)).toFloat negative

/-- How a machine number compares with an integer, both taken exactly. -/
def floatEqualsInt (x : Float) (n : Int) : Bool :=
  match FloatParts.of x with
  | .finite negative mantissa exponent =>
    let signed : Int := if negative then -mantissa else mantissa
    if 0 ≤ exponent then signed * twoPow exponent.toNat == n
    else signed == n * twoPow (-exponent).toNat
  | _ => false

end Galley.Number
