import Galley.Text.Class

/-!
# Lines, words and pieces of text

All splitting is done on lists of characters. The functions that cut a text
into pieces keep the order of the pieces, and none of them inspects more than
the separator it is given.
-/

namespace Galley.Text

/-- Puts a character in front of the first piece. -/
def consPiece (c : Char) : List (List Char) → List (List Char)
  | [] => [[c]]
  | piece :: pieces => (c :: piece) :: pieces

/-- The pieces between the characters that satisfy the predicate. -/
def splitWhen (separates : Char → Bool) : List Char → List (List Char)
  | [] => [[]]
  | c :: chars =>
    if separates c then [] :: splitWhen separates chars
    else consPiece c (splitWhen separates chars)

/-- The words between runs of white space. -/
def words (chars : List Char) : List (List Char) :=
  (splitWhen isSpace chars).filter fun word => !word.isEmpty

/-- The pieces between occurrences of a separator, found from left to right.
The first argument counts the characters of a separator still to be passed. -/
def splitOnAux (separator : List Char) : Nat → List Char → List (List Char)
  | _, [] => [[]]
  | skip + 1, _ :: chars => splitOnAux separator skip chars
  | 0, c :: chars =>
    if separator.isPrefixOf (c :: chars) then
      [] :: splitOnAux separator (separator.length - 1) chars
    else consPiece c (splitOnAux separator 0 chars)

/-- The pieces between occurrences of a non-empty separator. -/
def splitOn (separator chars : List Char) : List (List Char) :=
  splitOnAux separator 0 chars

/-- What stands before and behind the first occurrence of a pattern. -/
def breakOn (pattern : List Char) : List Char → Option (List Char × List Char)
  | [] => if pattern.isEmpty then some ([], []) else none
  | c :: chars =>
    if pattern.isPrefixOf (c :: chars) then some ([], (c :: chars).drop pattern.length)
    else (breakOn pattern chars).map fun (before, after) => (c :: before, after)

/-- Whether the pattern occurs somewhere in the text. -/
def occursIn (pattern chars : List Char) : Bool :=
  (breakOn pattern chars).isSome

/-- Replaces every occurrence of one character by another one. -/
def replaceChar (old new : Char) (chars : List Char) : List Char :=
  chars.map fun c => if c == old then new else c

/-- Drops what satisfies the predicate from the end. -/
def dropWhileEnd (drops : Char → Bool) (chars : List Char) : List Char :=
  (chars.reverse.dropWhile drops).reverse

/-- The text without what satisfies the predicate at both ends. -/
def trimWhile (drops : Char → Bool) (chars : List Char) : List Char :=
  dropWhileEnd drops (chars.dropWhile drops)

/-- The text without the white space at both ends. -/
def trim (chars : List Char) : List Char :=
  trimWhile isSpace chars

/-- Drops one final carriage return. -/
def dropReturn (chars : List Char) : List Char :=
  if chars.getLast? == some '\r' then chars.dropLast else chars

/-- ASCII letters in lower case, everything else unchanged. -/
def lowerAscii (chars : List Char) : List Char :=
  chars.map Char.toLower

/-- The lines with their newlines. The last one has none and may be empty. -/
def segments : List Char → List (List Char)
  | [] => [[]]
  | c :: chars =>
    if c == '\n' then [c] :: segments chars else consPiece c (segments chars)

/-- Number of lines, where a final newline does not start a new line. -/
def lineCount (chars : List Char) : Nat :=
  if chars.isEmpty then 0
  else if chars.getLast? == some '\n' then chars.count '\n'
  else chars.count '\n' + 1

/-- The lines without their newlines and without one final carriage return. -/
def lines (chars : List Char) : List (List Char) :=
  ((splitWhen (· == '\n') chars).take (lineCount chars)).map dropReturn

/-- Whether one list comes no later than another one, given the order of their
members: the first place where they differ decides, and a list comes before
those that go on from it. -/
def inOrder {α : Type} [DecidableEq α] (before : α → α → Bool) : List α → List α → Bool
  | [], _ => true
  | _ :: _, [] => false
  | first :: rest, first' :: rest' =>
    if first = first' then inOrder before rest rest' else before first first'

/-- Joins pieces with a separator between them. -/
def joinWith (separator : List Char) (pieces : List (List Char)) : List Char :=
  (pieces.intersperse separator).flatten

end Galley.Text
