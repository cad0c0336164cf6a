import Galley.Failure
import Galley.Text.Lines

/-!
# Reading numbers

An integer is written with decimal digits of any script, an optional sign,
single underscores between digits and white space around. Integers with too
many digits are refused before anything else about them is looked at. A float
is read in the form in which it is written.
-/

namespace Galley.Number

/-- Whether underscores stand between digits only, one at a time. -/
def separatesDigits : List Char → Bool
  | [] => false
  | ['_'] => false
  | '_' :: '_' :: _ => false
  | [_] => true
  | _ :: rest => separatesDigits rest

/-- The value of decimal digits of any script. -/
def decimalNumber (digits : List Char) : Nat :=
  digits.foldl (fun total digit => 10 * total + (Text.decimalValue? digit).getD 0) 0

/-- Splits off a sign. -/
def splitSign : List Char → Bool × List Char
  | '-' :: rest => (true, rest)
  | '+' :: rest => (false, rest)
  | chars => (false, chars)

/-- Reads an integer. -/
def readInteger (chars : List Char) : Except Failure Int :=
  let (negative, body) := splitSign (Text.trimWhile Text.isPlainSpace chars)
  let run := body.takeWhile fun c => (Text.decimalValue? c).isSome || c == '_'
  let digits := run.filter (· != '_')
  if run.head? == some '_' || !separatesDigits run then
    throw (.invalidInteger (String.ofList chars))
  else if digitLimit < digits.length then throw (.unreadableInteger digits.length)
  else if run.length < body.length then throw (.invalidInteger (String.ofList chars))
  else
    let value : Int := decimalNumber digits
    return if negative then -value else value

/-- The value of digits behind the mark of an exponent. -/
def exponentOf (chars : List Char) : Int :=
  let (negative, digits) := splitSign (chars.drop 1)
  if negative then -(naturalOf digits : Int) else naturalOf digits

/-- Reads the full form of a float. What spells no number is none. -/
def readFloat (chars : List Char) : Float :=
  let (negative, body) := splitSign chars
  let whole := body.takeWhile Text.isAsciiDigit
  let behind := body.drop whole.length
  let fraction :=
    if behind.head? == some '.' then (behind.drop 1).takeWhile Text.isAsciiDigit else []
  let exponent := exponentOf (body.dropWhile fun c => c == '.' || Text.isAsciiDigit c) -
    fraction.length
  let digits := naturalOf (whole ++ fraction)
  if body = ['i', 'n', 'f'] then Double.toFloat ⟨1, 1024⟩ negative
  else if whole.isEmpty then 0.0 / 0.0
  else
    (Double.ofRatio (digits * tenPow exponent.toNat) (tenPow (-exponent).toNat)).toFloat negative

/-- The written form of an integer, if it is short enough. -/
def integerText (n : Int) : Except Failure String :=
  if exceedsDigitLimit n then throw .unwritableInteger else return toString n

end Galley.Number
