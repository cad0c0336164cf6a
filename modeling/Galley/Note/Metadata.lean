import Galley.Note.Basic
import Galley.Fixture
import Galley.Number.Read

/-!
# Metadata of a subtest

Comment lines of a subtest say which errors it expects and whether its pages
are compared. A position is a line and a column, both counted from one and from
the first line behind the run of comments, or a column on that line alone.
-/

namespace Galley

structure Metadata where
  compareRef : Option Bool
  notes : List Note
  deriving DecidableEq, Repr

namespace Metadata

/-- What a note line starts with. -/
def errorMark : List Char := "// Error: ".toList

/-- The place of a note line. -/
structure Line where
  index : Nat
  text : List Char
  /-- How many comment lines follow each other from this one on. -/
  comments : Nat

/-- The failure of a malformed note line. -/
def malformed (line : Line) (reason : String) : Failure :=
  .malformedNote line.index (String.ofList line.text) reason

/-- Reads a number that counts from one, and answers from zero. -/
def readCount (line : Line) (chars : List Char) : Except Failure (Int × List Char) := do
  let digits := chars.takeWhile Text.isDigit
  if digits.isEmpty then throw (malformed line "expected a number")
  let value ← Number.readInteger digits
  if value < 1 then throw (malformed line "positions are one-based")
  return (value - 1, chars.dropWhile Text.isDigit)

/-- Reads a position and answers with its byte offset. -/
def readPosition (source : Syntax.Source) (line : Line) (chars : List Char) :
    Except Failure (Nat × List Char) := do
  let (first, rest) ← readCount line chars
  let (delta, column, rest) ←
    match rest with
    | ':' :: rest => do
      let (column, rest) ← readCount line rest
      pure (first, column, rest)
    | _ => pure (0, first, rest)
  match source.lineColumnToByte (line.index + line.comments + delta) column with
  | some offset => return (offset, rest)
  | none => throw (malformed line "position out of range")

/-- Reads a note line. -/
def readNote (source : Syntax.Source) (line : Line) : Except Failure Note := do
  let (start, rest) ← readPosition source line (line.text.drop errorMark.length)
  let (stop, rest) ←
    match rest with
    | '-' :: rest => readPosition source line rest
    | _ => pure (start, rest)
  return ⟨start, stop, String.ofList (Text.trim rest)⟩

/-- The directive that a line holds, if it holds one. -/
def directive (line : List Char) : Option Bool :=
  if Fixture.withReference.isPrefixOf line then some true
  else if Fixture.noReference.isPrefixOf line then some false
  else none

/-- The note lines among the lines from an index on. -/
def noteLines (index : Nat) : List (List Char) → List Line
  | [] => []
  | line :: lines =>
    let later := noteLines (index + 1) lines
    if errorMark.isPrefixOf line then
      let comments := ((line :: lines).takeWhile fun text => ['/', '/'].isPrefixOf text).length
      ⟨index, line, comments⟩ :: later
    else later

/-- Reads the metadata of a source. The last directive counts. -/
def read (source : Syntax.Source) : Except Failure Metadata := do
  let lines := (Text.lines source.chars).map Text.trim
  let notes ← (noteLines 0 lines).mapM (readNote source)
  return { compareRef := (lines.filterMap directive).getLast?, notes }

end Metadata

end Galley
