import Galley.Number.Read

/-!
# Integers given as text

A setting may spell an integer in many ways. The plain way, an optional minus
and digits without idle zeros, is tried first, and an integer that is too long
is refused as soon as its digits have been seen. Any other spelling is cleared
of white space, of a plus sign, of zeros in front, of a fraction of zeros and
of single underscores; what is left has to be plain, and one that is still too
long is no better than any other text.
-/

namespace Galley.Settings.IntegerText

/-- Reads an optional minus and a run of digits, which may start with a zero
only if there is no other digit. A run that is too long is an error of its own,
whatever follows it. -/
def readPlain (chars : List Char) : Except SettingFault Int :=
  let sign := chars.takeWhile (· == '-')
  let body := chars.drop sign.length
  let digits := body.takeWhile Text.isAsciiDigit
  let magnitude : Int := Number.naturalOf digits
  if 1 < sign.length || digits.isEmpty then throw .noIntegerText
  else if digits.head? == some '0' && digits.length ≠ 1 then throw .noIntegerText
  else if Number.digitLimit < sign.length + digits.length then throw .integerTooLong
  else if digits.length < body.length then throw .noIntegerText
  else return if sign.isEmpty then magnitude else -magnitude

/-- Drops the zeros in front of a number and the underscores among them. What
stood last stays if no digit or minus follows; it is the first argument. -/
def dropZerosBehind (last : Char) : List Char → Option (List Char)
  | [] => some [last]
  | c :: rest =>
    if c = '0' ∨ c = '_' then dropZerosBehind c rest
    else if c = '.' then some (last :: c :: rest)
    else if c = '-' ∨ Text.isAsciiDigit c then some (c :: rest)
    else none

/-- Drops the zeros in front of a number. Nothing but a digit may start it. -/
def dropZeros : List Char → Option (List Char)
  | [] => none
  | first :: rest =>
    if first = '0' then dropZerosBehind first rest
    else if Text.isAsciiDigit first then some (first :: rest)
    else none

/-- Drops a fraction of zeros. -/
def dropFraction (chars : List Char) : List Char :=
  let whole := chars.takeWhile (· != '.')
  let fraction := chars.drop (whole.length + 1)
  if !fraction.isEmpty && fraction.all (· == '0') then whole else chars

/-- Drops underscores, each of which has to stand alone between two characters. -/
def dropUnderscores (chars : List Char) : Option (List Char) :=
  if chars.head? == some '_' || !Number.separatesDigits chars then none
  else some (chars.filter (· != '_'))

/-- Splits off the sign of a number. A plus is no sign in front of a minus. -/
def splitSign : List Char → Option (List Char × List Char)
  | '+' :: '-' :: _ => none
  | '+' :: rest => some ([], rest)
  | '-' :: rest => some (['-'], rest)
  | chars => some ([], chars)

/-- A spelling without everything that a plain one has not. -/
def clean (chars : List Char) : Option (List Char) := do
  let (sign, body) ← splitSign (Text.trimWhile Text.isPlainSpace chars)
  let number ← dropZeros body
  let digits ← dropUnderscores (dropFraction number)
  return sign ++ digits

/-- Reads an integer. -/
def read (chars : List Char) : Except SettingFault Int :=
  match readPlain chars with
  | .error .noIntegerText =>
    match clean chars with
    | some plain => (readPlain plain).mapError fun _ => .noIntegerText
    | none => throw .noIntegerText
  | result => result

end Galley.Settings.IntegerText
