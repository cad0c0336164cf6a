import Galley.Number.Shortest

/-!
# Numbers as text

The written forms of floats and integers. A `FloatStyle` says where positional
writing ends and whether a whole number keeps its point; the digits come from
`Galley.Number.Shortest`.
-/

namespace Galley.Number

/-- The choices of a written form. -/
structure FloatStyle where
  /-- Exponents from -4 to below this one are written positionally. -/
  positionalBelow : Int
  /-- Whether a whole number is written with a point and a zero. -/
  keepsPoint : Bool

/-- The full form: positional below `10 ^ 16`, always with a point or an
exponent. -/
def fullStyle : FloatStyle := ⟨16, true⟩

/-- The short form of lengths and positions: six digits, no idle point. -/
def shortStyle : FloatStyle := ⟨6, false⟩

def shortDigitCount : Nat := 6

/-- The digits without zeros at the end. The first digit always stays. -/
def significantDigits (decimal : Decimal) : List Char :=
  let digits := Nat.toDigits 10 decimal.digits
  let kept := (digits.reverse.dropWhile (· == '0')).reverse
  if kept.isEmpty then ['0'] else kept

/-- The exponent with its sign and at least two digits. -/
def exponentText (exponent : Int) : List Char :=
  let digits := Nat.toDigits 10 exponent.natAbs
  let padded := if digits.length < 2 then '0' :: digits else digits
  (if exponent < 0 then '-' else '+') :: padded

/-- Writes a positive decimal in the given style. -/
def FloatStyle.write (style : FloatStyle) (decimal : Decimal) : List Char :=
  let digits := significantDigits decimal
  let exponent := decimal.exponent
  if -4 ≤ exponent && exponent < style.positionalBelow then
    if exponent < 0 then
      '0' :: '.' :: List.replicate (-exponent - 1).toNat '0' ++ digits
    else
      let count := exponent.toNat + 1
      let whole := digits.take count ++ List.replicate (count - digits.length) '0'
      let fraction := digits.drop count
      if !fraction.isEmpty then whole ++ '.' :: fraction
      else if style.keepsPoint then whole ++ ['.', '0']
      else whole
  else
    let fraction := digits.drop 1
    digits.take 1 ++ (if fraction.isEmpty then [] else '.' :: fraction) ++
      'e' :: exponentText exponent

/-- Writes a machine number, given how the digits of a magnitude are chosen. -/
def FloatStyle.writeFloat (style : FloatStyle) (digits : Nat → Int → Decimal) (x : Float) :
    String :=
  match FloatParts.of x with
  | .nan => "nan"
  | .infinite negative => if negative then "-inf" else "inf"
  | .finite negative mantissa exponent =>
    let magnitude :=
      if mantissa = 0 then (if style.keepsPoint then ['0', '.', '0'] else ['0'])
      else style.write (digits mantissa exponent)
    String.ofList (if negative then '-' :: magnitude else magnitude)

/-- The full form of a float: the fewest digits that read back. -/
def floatText (x : Float) : String :=
  fullStyle.writeFloat shortest x

/-- The short form of a float: at most six significant digits. -/
def shortFloatText (x : Float) : String :=
  shortStyle.writeFloat (significant shortDigitCount) x

/-- The full form of a non-negative exact double. -/
def Double.text (x : Double) : String :=
  if x.mantissa = 0 then "0.0"
  else String.ofList (fullStyle.write (shortest x.mantissa.natAbs x.exponent))

/-- Integers with more decimal digits than this are neither read nor written. -/
def digitLimit : Nat := 4300

/-- Whether an integer has too many decimal digits to be written. -/
def exceedsDigitLimit (n : Int) : Bool :=
  tenPow digitLimit ≤ n.natAbs

/-- The value of a run of ASCII digits. -/
def naturalOf (digits : List Char) : Nat :=
  digits.foldl (fun total digit => 10 * total + (digit.toNat - '0'.toNat)) 0

end Galley.Number
