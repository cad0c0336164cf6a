import Galley.Syntax.Source

/-!
# Faulty reparsers

Stand-ins for the incremental parser that go wrong in a known way. They show
that a session sees what it is there to see.
-/

namespace Galley.Fuzz

open Syntax

inductive Fault
  /-- Leaves the tree as it was. -/
  | stale
  /-- Gives the first top-level node the span of the root. -/
  | misnumber
  /-- Turns the first top-level node into raw text. -/
  | wrongKind
  /-- Never updates a tree. -/
  | full
  deriving DecidableEq, Repr

namespace Fault

/-- The tree with freshly parsed children of which the first one is changed. -/
def changeFirst (change : Node → Node) (root : Node) (chars : List Char) :
    Except Failure (Option Node) :=
  match (parse (String.ofList chars)).children with
  | [] => throw .indexOutOfRange
  | child :: children => return some { root with children := change child :: children }

def reparser : Fault → Reparser
  | stale => fun root _ _ _ _ => return some root
  | misnumber => fun root chars _ _ _ =>
    changeFirst (fun child => { child with span := root.span }) root chars
  | wrongKind => fun root chars _ _ _ =>
    changeFirst (fun child => { child with kind := .raw }) root chars
  | full => fun _ _ _ _ _ => return none

end Fault

end Galley.Fuzz
