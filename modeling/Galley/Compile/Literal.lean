import Galley.Compile.Machine

/-!
# Literals

What the text of a leaf stands for: escaped characters, raw text, equations,
numbers and strings.
-/

namespace Galley.Compile.Literal

open Document Text

/-- Whether a number is that of a character. -/
def isScalar (code : Nat) : Bool :=
  code ≤ 0x10ffff && !(0xd800 ≤ code && code ≤ 0xdfff)

/-- The text between the first character and the last one. -/
def inside (chars : List Char) : List Char :=
  (chars.drop 1).dropLast

/-- The digits of an escape that gives a character by its number. Any other
escape stands for the characters behind its backslash. -/
def escapedDigits? (chars : List Char) : Option (List Char) :=
  match chars.drop 1 with
  | 'u' :: '\x7b' :: rest => some rest.dropLast
  | _ => none

/-- Whether the characters are hexadecimal digits, at least one. -/
def isHexadecimal (chars : List Char) : Bool :=
  !chars.isEmpty && chars.all isHexDigit

/-- The text of a raw block behind its first line, if that line is empty or
names a language. -/
def withoutLanguage (body : List Char) : List Char :=
  let firstLine := body.takeWhile (· != '\n')
  match body.dropWhile (· != '\n') with
  | _ :: rest => if firstLine.isEmpty || isIdentifier firstLine then rest else body
  | [] => if isIdentifier firstLine then [] else body

/-- The trimmed body of raw text. From three backticks on, it may start with
the name of a language. -/
def raw (chars : List Char) : List Char :=
  let ticks := (chars.takeWhile (· == '\x60')).length
  let body :=
    if 0 < ticks && 2 * ticks < chars.length then
      (chars.drop ticks).take (chars.length - 2 * ticks)
    else []
  trim (if 3 ≤ ticks then withoutLanguage body else body)

/-- The trimmed body of an equation. -/
def math (chars : List Char) : List Char :=
  trim (inside chars)

/-- Whether the characters are digits with an optional sign in front and
optional decimal places behind. -/
def isDecimal (chars : List Char) : Bool :=
  let body := (Number.splitSign chars).2
  !(body.takeWhile isAsciiDigit).isEmpty &&
    match body.dropWhile isAsciiDigit with
    | [] => true
    | '.' :: places => !places.isEmpty && places.all isAsciiDigit
    | _ => false

/-- The value of a number with or without a point. -/
def float (chars : List Char) : Except Defect Float :=
  if isDecimal chars then
    let (negative, body) := Number.splitSign chars
    return Number.floatOfDecimal negative (body.takeWhile (· != '.'))
      ((body.dropWhile (· != '.')).drop 1)
  else throw (.noDecimal (String.ofList chars))

/-- How many points a unit has. -/
def unitSize? (unit : List Char) : Option Float :=
  if unit = ['p', 't'] then some 1.0
  else if unit = ['m', 'm'] then some (72.0 / 25.4)
  else if unit = ['c', 'm'] then some (72.0 / 2.54)
  else if unit = ['i', 'n'] then some 72.0
  else none

/-- The length that a number with a unit stands for. -/
def length (chars : List Char) : Except Defect Length := do
  let amount ← float (chars.take (chars.length - 2))
  let unit := chars.drop (chars.length - 2)
  match unitSize? unit with
  | some size => return .points (amount * size)
  | none => throw (.unknownUnit (String.ofList unit))

/-- The digits of a character number that stands here, and what follows it. -/
def characterNumber? : List Char → Option (List Char × List Char)
  | 'u' :: '\x7b' :: rest =>
    let digits := rest.takeWhile isHexDigit
    match digits, rest.dropWhile isHexDigit with
    | _ :: _, '\x7d' :: after =>
      if isScalar (hexNumber digits) then some (digits, after) else none
    | _, _ => none
  | _ => none

/-- The characters that a backslash and another character stand for. Before
anything else the pair stands for itself. -/
def escapedPair (c : Char) : List Char :=
  if c = 'n' then ['\n']
  else if c = 't' then ['\t']
  else if c = '\\' || c = '"' then [c]
  else ['\\', c]

/-- Resolves the escapes in a string. The first argument counts the characters
of an escape that are still to be passed. -/
def unescapeAux : Nat → List Char → List Char
  | _, [] => []
  | skip + 1, _ :: chars => unescapeAux skip chars
  | 0, ['\\'] => ['\\']
  | 0, '\\' :: c :: chars =>
    match characterNumber? (c :: chars) with
    | some (digits, _) =>
      Char.ofNat (hexNumber digits) :: unescapeAux (digits.length + 3) (c :: chars)
    | none => escapedPair c ++ unescapeAux 1 (c :: chars)
  | 0, c :: chars => c :: unescapeAux 0 chars

/-- The value of a string between its quotes. -/
def string (chars : List Char) : List Char :=
  unescapeAux 0 (inside chars)

end Galley.Compile.Literal
