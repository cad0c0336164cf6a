import Galley.File.Path
import Galley.Syntax.Reparse

/-!
# Sources

A source is a text with its tree. Edits replace a range of bytes and update the
tree incrementally where that is possible. Positions are offered in three
forms: bytes, lines with columns, and the span numbers of nodes.
-/

namespace Galley.Syntax

structure Source where
  id : Nat
  path : File.Path
  text : String
  root : Node

/-- The way a tree is brought up to date after an edit: given the old tree, the
new characters, and the start, old end and new end of the edit in characters.
Without an answer the text is parsed from scratch. -/
abbrev Reparser := Node → List Char → Nat → Nat → Nat → Except Failure (Option Node)

/-- The incremental parser. -/
def Reparser.incremental : Reparser :=
  fun root chars start oldEnd newEnd => .ok (reparse root chars start oldEnd newEnd)

namespace Source

/-- The id of sources that belong to no world. -/
def detachedId : Nat := 0xffff

def new (id : Nat) (path : File.Path) (text : String) : Source :=
  { id, path, text, root := parse text }

def detached (text : String) : Source :=
  new detachedId { names := ["<detached>"] } text

def chars (source : Source) : List Char :=
  source.text.toList

def byteLen (source : Source) : Nat :=
  Text.byteLength source.chars

/-- Replaces the whole text. -/
def replace (source : Source) (text : String) : Source :=
  { source with text, root := parse text }

/-- Replaces a range of bytes. The range has to lie within the text and may not
split a character. -/
def editWith (reparser : Reparser) (source : Source) (start stop : Int) (replacement : String) :
    Except Failure Source :=
  if 0 ≤ start ∧ start ≤ stop ∧ stop ≤ source.byteLen then
    match Text.splitAtByte start.toNat source.chars, Text.splitAtByte stop.toNat source.chars with
    | some (before, _), some (covered, after) => do
      let chars := before ++ replacement.toList ++ after
      let text := String.ofList chars
      let root ← reparser source.root chars before.length covered.length
        (before.length + replacement.toList.length)
      return { source with text, root := root.getD (parse text) }
    | _, _ => throw (.editSplitsCharacter start stop)
  else throw (.editOutOfBounds start stop)

/-- Replaces a range of bytes and updates the tree incrementally. -/
def edit (source : Source) (start stop : Int) (replacement : String) : Except Failure Source :=
  editWith .incremental source start stop replacement

/-- The byte positions at which lines start, from the given position on. -/
def startsFrom (position : Nat) : List (List Char) → List Nat
  | [] => []
  | segment :: segments =>
    position :: startsFrom (position + Text.byteLength segment) segments

/-- The byte positions at which the lines of a text start. -/
def lineStarts (source : Source) : List Nat :=
  startsFrom 0 (Text.segments source.chars)

/-- The byte position of a line and a column, both counted from zero and the
column in characters. The newline of a line is part of it. -/
def lineColumnToByte (source : Source) (line column : Int) : Option Nat :=
  if line < 0 ∨ column < 0 then none
  else
    let segments := Text.segments source.chars
    match segments[line.toNat]? with
    | none => none
    | some segment =>
      if segment.length < column.toNat then none
      else some (Text.byteLength (segments.take line.toNat).flatten +
        Text.byteLength (segment.take column.toNat))

/-- The line of a byte position. -/
def byteToLine (source : Source) (position : Int) : Option Nat :=
  if 0 ≤ position ∧ position ≤ source.byteLen then
    some ((source.lineStarts.countP fun start => decide (start ≤ position.toNat)) - 1)
  else none

/-- The column of a byte position in characters. There is none inside a
character. -/
def byteToColumn (source : Source) (position : Int) : Option Nat :=
  match source.byteToLine position with
  | none => none
  | some line =>
    let segments := Text.segments source.chars
    let start := Text.byteLength (segments.take line).flatten
    (Text.splitAtByte (position.toNat - start) (segments.drop line).flatten).map
      fun (before, _) => before.length

end Source

/-- Whether a span lies below that of the following sibling, if there is one. -/
def belowNext (span : Int) : List Node → Bool
  | [] => true
  | next :: _ => decide (span < next.span)

namespace Node

mutual

/-- The byte range of the node with a span number, given where the tree starts.
Only the child whose numbers can include the span is searched. -/
def rangeFrom (span : Int) (offset : Nat) : Node → Option (Nat × Nat)
  | ⟨kind, text, children, own, message⟩ =>
    if own = span then
      some (offset, offset + byteLen ⟨kind, text, children, own, message⟩)
    else rangeIn span offset children

def rangeIn (span : Int) (offset : Nat) : List Node → Option (Nat × Nat)
  | [] => none
  | node :: nodes =>
    if node.span ≤ span && belowNext span nodes then node.rangeFrom span offset
    else rangeIn span (offset + node.byteLen) nodes

end

end Node

/-- The byte range of the node with a span number. -/
def Source.range (source : Source) (span : Int) : Option (Nat × Nat) :=
  source.root.rangeFrom span 0

end Galley.Syntax
