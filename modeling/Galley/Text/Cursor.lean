import Galley.Failure
import Galley.Text.Lines

/-!
# Cursors

A cursor stands at an index of a text. It may be moved anywhere; an index in
front of the text counts from the end, as it does when a piece is cut out.
-/

namespace Galley.Text

structure Cursor where
  chars : List Char
  index : Int

namespace Cursor

/-- An index as a position within the text, counted from the end if negative. -/
def clamp (length : Nat) (index : Int) : Nat :=
  (min (if index < 0 then max 0 (index + length) else index) length).toNat

/-- The characters between two indexes. -/
def slice (cursor : Cursor) (start stop : Int) : List Char :=
  let low := clamp cursor.chars.length start
  let high := clamp cursor.chars.length stop
  (cursor.chars.take high).drop low

def done (cursor : Cursor) : Bool :=
  (cursor.chars.length : Int) ≤ cursor.index

/-- The character at an index, none at or behind the end. -/
def charAt (cursor : Cursor) (index : Int) : Except Failure (Option Char) :=
  let length : Int := cursor.chars.length
  if length ≤ index then return none
  else if 0 ≤ index then return cursor.chars[index.toNat]?
  else if -length ≤ index then return cursor.chars[(index + length).toNat]?
  else throw .positionOutOfRange

/-- The character at an offset from the cursor. -/
def peek (cursor : Cursor) (offset : Int) : Except Failure (Option Char) :=
  cursor.charAt (cursor.index + offset)

/-- Whether a text stands at the cursor. -/
def at? (cursor : Cursor) (text : List Char) : Bool :=
  cursor.index ≤ cursor.chars.length &&
    text.isPrefixOf (cursor.chars.drop (clamp cursor.chars.length cursor.index))

/-- Takes the next character. -/
def eat (cursor : Cursor) : Except Failure (Option Char × Cursor) := do
  let next ← cursor.peek 0
  return (next, if next.isSome then { cursor with index := cursor.index + 1 } else cursor)

/-- Takes a text if it stands at the cursor. -/
def eatIf (cursor : Cursor) (text : List Char) : Bool × Cursor :=
  if cursor.at? text then (true, { cursor with index := cursor.index + text.length })
  else (false, cursor)

/-- Moves the cursor over characters that satisfy the predicate, as often as
the fuel says at most. -/
def advanceWhile (holds : Char → Bool) : Nat → Cursor → Except Failure Cursor
  | 0, cursor => return cursor
  | fuel + 1, cursor => do
    match ← cursor.peek 0 with
    | none => return cursor
    | some c =>
      if holds c then advanceWhile holds fuel { cursor with index := cursor.index + 1 }
      else return cursor

/-- Takes the characters that satisfy the predicate. -/
def eatWhile (cursor : Cursor) (holds : Char → Bool) : Except Failure (List Char × Cursor) := do
  let fuel := (cursor.chars.length - cursor.index).toNat
  let moved ← advanceWhile holds fuel cursor
  return (cursor.slice cursor.index moved.index, moved)

/-- The characters from an index up to the cursor. -/
def since (cursor : Cursor) (start : Int) : List Char :=
  cursor.slice start cursor.index

def jump (cursor : Cursor) (index : Int) : Cursor :=
  { cursor with index }

/-- The characters from the cursor on. -/
def after (cursor : Cursor) : List Char :=
  cursor.slice cursor.index cursor.chars.length

end Cursor

end Galley.Text
