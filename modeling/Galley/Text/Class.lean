import Galley.Text.Table

/-!
# Character classes

The classes that markup, notes and printed text depend on. ASCII is
decided by plain comparisons and everything else by the property tables, so
that facts about ASCII texts never unfold a table.
-/

namespace Galley.Text

/-- Whether a character lies outside ASCII and inside the given ranges. -/
def inTable (ranges : Table.Ranges) (c : Char) : Bool :=
  128 ≤ c.toNat && ranges.contains c.toNat

/-- White space: the separators of every script together with the control
characters that separate lines, fields or records. -/
def isSpace (c : Char) : Bool :=
  (9 ≤ c.toNat && c.toNat ≤ 13) || (28 ≤ c.toNat && c.toNat ≤ 32) ||
  c.toNat == 0x85 || c.toNat == 0xa0 || c.toNat == 0x1680 ||
  (0x2000 ≤ c.toNat && c.toNat ≤ 0x200a) || c.toNat == 0x2028 || c.toNat == 0x2029 ||
  c.toNat == 0x202f || c.toNat == 0x205f || c.toNat == 0x3000

/-- White space in the narrower sense, without the control characters that
separate fields or records. -/
def isPlainSpace (c : Char) : Bool :=
  isSpace c && !(28 ≤ c.toNat && c.toNat ≤ 31)

/-- A space or a tab, which keep to their line. -/
def isBlank (c : Char) : Bool :=
  c == ' ' || c == '\t'

/-- One of the letters a to z in either case. -/
def isAsciiLetter (c : Char) : Bool :=
  ('a' ≤ c && c ≤ 'z') || ('A' ≤ c && c ≤ 'Z')

/-- One of the digits 0 to 9. -/
def isAsciiDigit (c : Char) : Bool :=
  '0' ≤ c && c ≤ '9'

/-- A hexadecimal digit in either case. -/
def isHexDigit (c : Char) : Bool :=
  isAsciiDigit c || ('a' ≤ c && c ≤ 'f') || ('A' ≤ c && c ≤ 'F')

/-- A letter of any script. -/
def isLetter (c : Char) : Bool :=
  isAsciiLetter c || inTable Table.alphabetic c

/-- A letter or a character with a numeric value. -/
def isAlphanumeric (c : Char) : Bool :=
  isLetter c || isAsciiDigit c || inTable Table.numeric c

/-- A character with a digit value, superscripts and circled digits included. -/
def isDigit (c : Char) : Bool :=
  isAsciiDigit c || inTable Table.digits c

/-- The value of a decimal digit of any script. -/
def decimalValue? (c : Char) : Option Nat :=
  if isAsciiDigit c then some (c.toNat - '0'.toNat)
  else if c.toNat < 128 then none
  else (Table.decimals.find? fun range => range.1 ≤ c.toNat && c.toNat ≤ range.2).map
    fun range => (c.toNat - range.1) % 10

/-- The value of a hexadecimal digit, and zero for any other character. -/
def hexValue (c : Char) : Nat :=
  if isAsciiDigit c then c.toNat - '0'.toNat
  else if 'a' ≤ c && c ≤ 'f' then c.toNat - 'a'.toNat + 10
  else if 'A' ≤ c && c ≤ 'F' then c.toNat - 'A'.toNat + 10
  else 0

/-- The number that a run of hexadecimal digits stands for. -/
def hexNumber (digits : List Char) : Nat :=
  digits.foldl (fun value digit => 16 * value + hexValue digit) 0

/-- Whether a name may start with this character: a letter or an underscore. -/
def startsName (c : Char) : Bool :=
  isLetter c || c == '_'

/-- Whether a name may go on with this character. -/
def continuesName (c : Char) : Bool :=
  isAlphanumeric c || c == '_'

/-- Whether an identifier of the default identifier syntax may start so. -/
def startsIdentifier (c : Char) : Bool :=
  (startsName c && !inTable Table.startGaps c) || inTable Table.startExtras c

/-- Whether an identifier of the default identifier syntax may go on so. -/
def continuesIdentifier (c : Char) : Bool :=
  (continuesName c && !inTable Table.continueGaps c) || inTable Table.continueExtras c

/-- Whether the characters form one identifier of the default syntax. -/
def isIdentifier : List Char → Bool
  | [] => false
  | first :: rest => startsIdentifier first && rest.all continuesIdentifier

/-- Whether a character stands for itself in quoted text. -/
def isPrintable (c : Char) : Bool :=
  if c.toNat < 128 then 32 ≤ c.toNat && c.toNat < 127
  else !Table.unprintable.contains c.toNat

end Galley.Text
