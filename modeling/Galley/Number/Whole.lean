import Galley.Failure

/-!
# Whole numbers from floats

The integers near a machine number, taken exactly from its parts. A number that
is no number or has no bound has none.
-/

namespace Galley.Number

/-- The value of finite parts as a quotient of integers. -/
def quotientOf (negative : Bool) (mantissa : Nat) (exponent : Int) : Int × Nat :=
  let magnitude : Int := if 0 ≤ exponent then mantissa * twoPow exponent.toNat else mantissa
  (if negative then -magnitude else magnitude, if 0 ≤ exponent then 1 else twoPow (-exponent).toNat)

/-- Applies a rounding of quotients to a machine number. -/
def roundWith (rounding : Int → Nat → Int) (x : Float) : Except Failure Int :=
  match FloatParts.of x with
  | .nan => throw .sizeNotANumber
  | .infinite _ => throw .infiniteSize
  | .finite negative mantissa exponent =>
    let (top, bottom) := quotientOf negative mantissa exponent
    return rounding top bottom

/-- The least integer that is not below a number. -/
def ceiling (x : Float) : Except Failure Int :=
  roundWith (fun top bottom => -((-top).fdiv bottom)) x

/-- The integer part of a number, towards zero. -/
def truncate (x : Float) : Except Failure Int :=
  roundWith (fun top bottom => top.tdiv bottom) x

/-- The integer nearest to a number, a half to the even one. -/
def nearest (x : Float) : Except Failure Int :=
  roundWith (fun top bottom =>
    let magnitude : Int := roundDiv top.natAbs bottom
    if top < 0 then -magnitude else magnitude) x

end Galley.Number
