import Galley.File.Path
import Galley.Text.Lines

/-!
# Fixtures

A fixture is a text of several subtests with separator lines between them. If
its first part holds nothing but comments it is a header, whose directives are
the defaults of all subtests. Every part knows the line of the file at which it
starts.
-/

namespace Galley

/-- One fragment that is compiled on its own. -/
structure Subtest where
  index : Nat
  text : String
  /-- Number of lines of the file in front of the fragment. -/
  line : Nat
  /-- Whether its pages are compared, unless the fragment says otherwise. -/
  compareRef : Bool
  deriving DecidableEq, Repr

structure Fixture where
  path : File.Path
  parts : List String
  hasHeader : Bool
  compareRef : Bool
  /-- The line at which each part starts. -/
  lines : List Nat
  deriving DecidableEq, Repr

namespace Fixture

/-- What stands between two parts. -/
def separator : List Char := ['\n', '-', '-', '-']

/-- The parts of a text, each without one final carriage return. -/
def splitParts (chars : List Char) : List (List Char) :=
  (Text.splitOn separator chars).map Text.dropReturn

/-- Whether a line is blank or a comment. -/
def isCommentLine (line : List Char) : Bool :=
  ['/', '/'].isPrefixOf line || line.all Text.isSpace

/-- The first part is a header if more parts follow and it is all comments. -/
def isHeader (index : Int) (parts : List (List Char)) : Bool :=
  index == 0 &&
    match parts with
    | first :: _ :: _ => (Text.lines first).all isCommentLine
    | _ => false

/-- The directive that switches the comparison off. -/
def noReference : List Char := "// Ref: false".toList

/-- The directive that switches the comparison on. -/
def withReference : List Char := "// Ref: true".toList

/-- The lines at which parts start, from the given line on. Behind every part
follows a separator. -/
def partLines (line : Nat) : List (List Char) → List Nat
  | [] => []
  | part :: parts => line :: partLines (line + Text.lineCount part + 1) parts

/-- Reads a fixture. -/
def read (path : File.Path) (text : String) : Fixture :=
  let parts := splitParts text.toList
  let hasHeader := isHeader 0 parts
  let switchedOff := hasHeader &&
    (Text.lines (parts.headD [])).any fun line => noReference.isPrefixOf line
  { path
    parts := parts.map String.ofList
    hasHeader
    compareRef := !switchedOff
    lines := partLines 0 parts }

/-- The subtest at each index, none for the header. -/
def subtestAt (fixture : Fixture) (index : Nat) (part : String) (line : Nat) : Option Subtest :=
  if index = 0 && fixture.hasHeader then none
  else some { index, text := part, line, compareRef := fixture.compareRef }

/-- What stands at each part of the file, in order: a subtest or the header. -/
def slots (fixture : Fixture) : List (Option Subtest) :=
  ((fixture.parts.zip fixture.lines).zipIdx).map fun ((part, line), index) =>
    fixture.subtestAt index part line

/-- All parts but the header, in file order. -/
def subtests (fixture : Fixture) : List Subtest :=
  fixture.slots.filterMap id

end Fixture

end Galley
