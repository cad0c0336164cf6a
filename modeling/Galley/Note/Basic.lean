import Galley.Syntax.Source

/-!
# Notes

A note is an error message at a range of a source. A fixture expects
some of them and the compiler emits others; the two lists are compared after
they are sorted by where the ranges start.
-/

namespace Galley

structure Note where
  start : Int
  stop : Int
  message : String
  deriving DecidableEq, Repr

namespace Note

/-- Whether one note starts no later than another. -/
def startsBefore (left right : Note) : Bool :=
  decide (left.start ≤ right.start)

/-- Sorts by start. Notes that start together keep their order. -/
def sorted (notes : List Note) : List Note :=
  notes.mergeSort startsBefore

/-- The outcome of a comparison. -/
structure Comparison where
  ok : Bool
  unexpected : List Note
  missing : List Note
  deriving DecidableEq, Repr

/-- Compares the expected notes with the emitted ones. -/
def compare (expected emitted : List Note) : Comparison :=
  let expected := sorted expected
  let emitted := sorted emitted
  if expected = emitted then ⟨true, [], []⟩
  else
    ⟨false, emitted.filter fun note => !expected.contains note,
      expected.filter fun note => !emitted.contains note⟩

/-- The line and column of a position, counted from one and with the lines of
the file in front of the source included. -/
def place (source : Syntax.Source) (lineOffset position : Int) : Int × Nat :=
  (1 + lineOffset + (source.byteToLine position).getD 0,
    1 + (source.byteToColumn position).getD 0)

/-- The report line of a note. -/
def describe (source : Syntax.Source) (lineOffset : Int) (note : Note) : String :=
  let (startLine, startColumn) := place source lineOffset note.start
  let (stopLine, stopColumn) := place source lineOffset note.stop
  s!"Error: {startLine}:{startColumn}-{stopLine}:{stopColumn}: {note.message}"

end Note

end Galley
