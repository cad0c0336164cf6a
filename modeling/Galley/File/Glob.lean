import Galley.Failure
import Galley.Text.Lines

/-!
# Name patterns

In a pattern a star stands for any run of characters, a question mark for one
character, and brackets for one of the characters and ranges between them, or
with an exclamation mark for any other one. A range whose ends are in the wrong
order is dropped, and its neighbours are joined, before the exclamation mark is
looked for.
-/

namespace Galley.File

/-- One place of a name pattern. -/
inductive Wildcard
  | literal (c : Char)
  | single
  | many
  /-- One character inside, or outside, the given inclusive ranges. -/
  | oneOf (negated : Bool) (ranges : List (Char × Char))
  deriving DecidableEq, Repr

abbrev NamePattern := List Wildcard

namespace NamePattern

/-- The chunks between the hyphens that make ranges. The first argument counts
the characters that still belong to a chunk whatever they are: every chunk has
two of them, the first one has one less. -/
def chunks : Nat → List Char → List (List Char)
  | _, [] => [[]]
  | 0, '-' :: chars => [] :: chunks 2 chars
  | least, c :: chars => Text.consPiece c (chunks (least - 1) chars)

/-- A hyphen with nothing behind it belongs to the chunk in front of it. -/
def closeChunks : List (List Char) → List (List Char)
  | [chunk, []] => [chunk ++ ['-']]
  | chunk :: rest => chunk :: closeChunks rest
  | [] => []

/-- Joins two chunks into one if the range between them would be empty. -/
def joinChunks (chunk : List Char) : List (List Char) → List (List Char)
  | (high :: next) :: rest =>
    match chunk.getLast? with
    | some low =>
      if high < low then (chunk.dropLast ++ next) :: rest else chunk :: (high :: next) :: rest
    | none => chunk :: (high :: next) :: rest
  | rest => chunk :: rest

/-- Drops empty ranges, the last one first. -/
def dropEmptyRanges (chunks : List (List Char)) : List (List Char) :=
  chunks.foldr joinChunks []

/-- Characters as ranges of their own. -/
def singles (chars : List Char) : List (Char × Char) :=
  chars.map fun c => (c, c)

/-- The ranges of a chunk and those that follow it. A range reaches from the end
of a chunk to the start of the next one; a hyphen with nothing in front of it
stands for itself. -/
def chunkRanges (chunk : List Char) : List (List Char) → List (Char × Char)
  | [] => singles chunk
  | next :: rest =>
    match chunk.getLast?, next with
    | some low, high :: others => singles chunk.dropLast ++ (low, high) :: chunkRanges others rest
    | some _, [] => singles chunk ++ chunkRanges [] rest
    | none, next => ('-', '-') :: chunkRanges next rest

/-- What stands between brackets as a wildcard. -/
def readBrackets (inside : List Char) : Wildcard :=
  let least := if inside.head? == some '!' then 2 else 1
  match dropEmptyRanges (closeChunks (chunks least inside)) with
  | ('!' :: first) :: rest => .oneOf true (chunkRanges first rest)
  | first :: rest => .oneOf false (chunkRanges first rest)
  | [] => .oneOf false []

/-- Splits what stands between brackets from what follows them. A closing
bracket at its start, or behind an exclamation mark there, belongs to it. -/
def splitBrackets (chars : List Char) : Option (List Char × List Char) :=
  let least :=
    match chars with
    | '!' :: _ => 2
    | _ => 1
  let inside := chars.take least ++ (chars.drop least).takeWhile (· != ']')
  match chars.drop inside.length with
  | [] => none
  | _ :: after => some (inside, after)

/-- Reads a pattern. The first argument bounds its length. -/
def readWithin : Nat → List Char → NamePattern
  | 0, _ => []
  | _, [] => []
  | fuel + 1, '*' :: rest => .many :: readWithin fuel rest
  | fuel + 1, '?' :: rest => .single :: readWithin fuel rest
  | fuel + 1, '[' :: rest =>
    match splitBrackets rest with
    | some (inside, after) => readBrackets inside :: readWithin fuel after
    | none => .literal '[' :: readWithin fuel rest
  | fuel + 1, c :: rest => .literal c :: readWithin fuel rest

/-- Reads a pattern. An opening bracket that is never closed stands for
itself. -/
def read (chars : List Char) : NamePattern :=
  readWithin chars.length chars

/-- Whether a character fits a wildcard for one character. -/
def fits (c : Char) : Wildcard → Bool
  | .literal literal => c == literal
  | .single => true
  | .many => false
  | .oneOf negated ranges => negated != ranges.any fun range => range.1 ≤ c && c ≤ range.2

/-- The ends of a list, itself included. -/
def ends {α : Type} : List α → List (List α)
  | [] => [[]]
  | first :: rest => (first :: rest) :: ends rest

/-- Whether a name fits a pattern. -/
def accepts : NamePattern → List Char → Bool
  | [], chars => chars.isEmpty
  | .many :: rest, chars => (ends chars).any fun tail => accepts rest tail
  | wildcard :: rest, chars =>
    match chars with
    | [] => false
    | c :: chars => fits c wildcard && accepts rest chars

end NamePattern

end Galley.File
