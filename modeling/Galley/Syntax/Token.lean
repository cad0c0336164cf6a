import Galley.Syntax.Node
import Galley.Text.Lines

/-!
# Tokens

The pieces of the markup language that hold no nested nodes. Each function
takes the characters from its position on and answers with a leaf and the
characters behind it; together they are always the characters it was given.
A token reads on to the end of its text only where it is left unclosed.
-/

namespace Galley.Syntax.Token

open Galley.Text

/-- A leaf and the characters behind it. -/
abbrev Step := Node × List Char

/-- Whether the next character satisfies the predicate. -/
def nextIs (holds : Char → Bool) : List Char → Bool
  | [] => false
  | c :: _ => holds c

/-- Characters that end a run of plain text. -/
def special : List Char := ['\\', '\x60', '$', '*', '_', '#', ']']

/-- Whether a comment starts here. -/
def startsComment : List Char → Bool
  | '/' :: '/' :: _ => true
  | '/' :: '*' :: _ => true
  | _ => false

/-- The characters up to the first one that cannot stand in plain text. -/
def plainRun : List Char → List Char × List Char
  | [] => ([], [])
  | c :: chars =>
    if isSpace c || special.contains c || startsComment (c :: chars) then ([], c :: chars)
    else
      let (run, rest) := plainRun chars
      (c :: run, rest)

/-- A run of plain text. The first character belongs to it whatever it is. -/
def text (first : Char) (chars : List Char) : Step :=
  let (run, rest) := plainRun chars
  (Node.leaf .text (first :: run), rest)

/-- A run of white space in markup: a paragraph break from two newlines on. -/
def blank (chars : List Char) : Step :=
  let run := chars.takeWhile isSpace
  let kind := if 2 ≤ run.count '\n' then Kind.parbreak else Kind.space
  (Node.leaf kind run, chars.dropWhile isSpace)

/-- A comment up to the end of its line. -/
def lineComment (chars : List Char) : Step :=
  (Node.leaf .lineComment (chars.takeWhile (· != '\n')), chars.dropWhile (· != '\n'))

/-- What follows the opening of a comment, up to the end that closes as many
comments as are open. -/
def commentBody : Nat → List Char → Option (List Char × List Char)
  | 0, chars => some ([], chars)
  | _ + 1, [] => none
  | depth + 1, '/' :: '*' :: chars =>
    (commentBody (depth + 2) chars).map fun (body, rest) => ('/' :: '*' :: body, rest)
  | depth + 1, '*' :: '/' :: chars =>
    (commentBody depth chars).map fun (body, rest) => ('*' :: '/' :: body, rest)
  | depth + 1, c :: chars =>
    (commentBody (depth + 1) chars).map fun (body, rest) => (c :: body, rest)

/-- A block comment, given the characters behind its opening. -/
def blockComment (chars : List Char) : Step :=
  match commentBody 1 chars with
  | some (body, rest) => (Node.leaf .blockComment ('/' :: '*' :: body), rest)
  | none => (Node.error ('/' :: '*' :: chars) "unclosed comment", [])

/-- A character by its number, given the characters behind the opening brace. -/
def escapedNumber (chars : List Char) : Step :=
  let digits := chars.takeWhile isHexDigit
  let after := chars.dropWhile isHexDigit
  if !digits.isEmpty && nextIs (· == '\x7d') after then
    (Node.leaf .escape ('\\' :: 'u' :: '\x7b' :: digits ++ ['\x7d']), after.drop 1)
  else (Node.error ('\\' :: 'u' :: '\x7b' :: digits) "invalid unicode escape sequence", after)

/-- A backslash, given the characters behind it: a line break in front of
white space, a character by its number, or one escaped character. -/
def escape (chars : List Char) : Step :=
  match chars with
  | [] => (Node.leaf .linebreak ['\\'], [])
  | 'u' :: '\x7b' :: rest => escapedNumber rest
  | c :: rest =>
    if isSpace c then (Node.leaf .linebreak ['\\'], c :: rest)
    else (Node.leaf .escape ['\\', c], rest)

/-- Raw text between runs of backticks, given the characters from the first
backtick on. Two backticks alone are empty raw text. -/
def raw (chars : List Char) : Step :=
  let ticks := chars.takeWhile (· == '\x60')
  let rest := chars.dropWhile (· == '\x60')
  if ticks.length = 2 then (Node.leaf .raw ticks, rest)
  else
    match breakOn ticks rest with
    | some (body, after) => (Node.leaf .raw (ticks ++ body ++ ticks), after)
    | none => (Node.error chars "unclosed raw text", [])

/-- An equation, given the characters behind the first dollar sign. -/
def math (chars : List Char) : Step :=
  match breakOn ['$'] chars with
  | some (body, after) => (Node.leaf .math ('$' :: body ++ ['$']), after)
  | none => (Node.error ('$' :: chars) "unclosed equation", [])

/-- A name and what follows it. -/
def name (chars : List Char) : List Char × List Char :=
  (chars.takeWhile continuesName, chars.dropWhile continuesName)

/-- A name as a value: a keyword of the language or an identifier. -/
def word (chars : List Char) : Node :=
  if chars = ['t', 'r', 'u', 'e'] || chars = ['f', 'a', 'l', 's', 'e'] then Node.leaf .bool chars
  else if chars = ['n', 'o', 'n', 'e'] then Node.leaf .noneWord chars
  else Node.leaf .ident chars

/-- The units of lengths. -/
def units : List (List Char) := [['p', 't'], ['m', 'm'], ['c', 'm'], ['i', 'n']]

/-- The unit that stands here as a whole word. -/
def unitAt (chars : List Char) : Option (List Char) :=
  units.find? fun unit =>
    unit.isPrefixOf chars && !nextIs continuesName (chars.drop unit.length)

/-- The decimal places of a number, with their point. -/
def decimals (chars : List Char) : List Char × List Char :=
  match chars with
  | '.' :: rest =>
    if nextIs isAsciiDigit rest then
      ('.' :: rest.takeWhile isAsciiDigit, rest.dropWhile isAsciiDigit)
    else ([], chars)
  | _ => ([], chars)

/-- The digits of a number with an optional sign in front. -/
def wholePart (chars : List Char) : List Char × List Char :=
  match chars with
  | '-' :: rest => ('-' :: rest.takeWhile isAsciiDigit, rest.dropWhile isAsciiDigit)
  | _ => (chars.takeWhile isAsciiDigit, chars.dropWhile isAsciiDigit)

/-- A number: an integer, a float, or either of them with a unit. -/
def number (chars : List Char) : Step :=
  let (whole, afterWhole) := wholePart chars
  let (places, rest) := decimals afterWhole
  match unitAt rest with
  | some unit => (Node.leaf .numeric (whole ++ places ++ unit), rest.drop unit.length)
  | none =>
    let kind := if places.isEmpty then Kind.int else Kind.float
    (Node.leaf kind (whole ++ places), rest)

/-- The inside of a string and whether it was closed. A backslash takes the
next character with it. -/
def stringBody : List Char → (List Char × Bool) × List Char
  | [] => (([], false), [])
  | '\n' :: chars => (([], false), '\n' :: chars)
  | '"' :: chars => ((['"'], true), chars)
  | ['\\'] => ((['\\'], false), [])
  | '\\' :: c :: chars =>
    let ((body, closed), rest) := stringBody chars
    (('\\' :: c :: body, closed), rest)
  | c :: chars =>
    let ((body, closed), rest) := stringBody chars
    ((c :: body, closed), rest)

/-- A string, given the characters behind its opening quote. -/
def string (chars : List Char) : Step :=
  let ((body, closed), rest) := stringBody chars
  if closed then (Node.leaf .str ('"' :: body), rest)
  else (Node.error ('"' :: body) "unclosed string", rest)

/-- Spaces and tabs as a list of at most one node. -/
def spaces (chars : List Char) : List Node × List Char :=
  let run := chars.takeWhile isBlank
  (if run.isEmpty then [] else [Node.leaf .space run], chars.dropWhile isBlank)

/-- One run of white space or one comment inside code. -/
def triviaToken : List Char → Option Step
  | '/' :: '/' :: rest => some (lineComment ('/' :: '/' :: rest))
  | '/' :: '*' :: rest => some (blockComment rest)
  | c :: rest =>
    if isSpace c then
      some (Node.leaf .space ((c :: rest).takeWhile isSpace), (c :: rest).dropWhile isSpace)
    else none
  | [] => none

/-- White space and comments, at most the given number of them. -/
def triviaWithin : Nat → List Char → List Node × List Char
  | 0, chars => ([], chars)
  | bound + 1, chars =>
    match triviaToken chars with
    | none => ([], chars)
    | some (node, rest) =>
      let (nodes, rest) := triviaWithin bound rest
      (node :: nodes, rest)

/-- White space and comments inside code. There are no more of them than
characters. -/
def trivia (chars : List Char) : List Node × List Char :=
  triviaWithin chars.length chars

/-- An operator between two values. A minus in front of a digit belongs to the
number. -/
def binaryOperator : List Char → Option Step
  | '=' :: '=' :: rest => some (Node.leaf .eqEq ['=', '='], rest)
  | '!' :: '=' :: rest => some (Node.leaf .exclEq ['!', '='], rest)
  | '+' :: rest => some (Node.leaf .plus ['+'], rest)
  | '-' :: rest =>
    if nextIs isAsciiDigit rest then none else some (Node.leaf .minus ['-'], rest)
  | _ => none

end Galley.Syntax.Token
