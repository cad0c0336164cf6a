import Galley.Syntax.Node

/-!
# Differences between trees

Two trees are compared node by node and without their spans. Children are
paired up to the shorter list, so one inserted node shows as a different number
of children followed by the nodes that moved.
-/

namespace Galley.Syntax

/-- What differs between two nodes, with both values. -/
inductive Aspect
  | kind (expected found : Kind)
  | text (expected found : String)
  | message (expected found : Option String)
  | childCount (expected found : Nat)
  deriving DecidableEq, Repr

namespace Aspect

def title : Aspect → String
  | kind .. => "Kind mismatch"
  | text .. => "Text mismatch"
  | message .. => "Message mismatch"
  | childCount .. => "Child count mismatch"

/-- The written form of a message that may be missing. -/
def optionalText : Option String → String
  | none => "None"
  | some content => Text.quoted content

/-- Both values in written form. -/
def values : Aspect → String × String
  | kind expected found => (Text.quoted expected.name, Text.quoted found.name)
  | text expected found => (Text.quoted expected, Text.quoted found)
  | message expected found => (optionalText expected, optionalText found)
  | childCount expected found => (toString expected, toString found)

end Aspect

/-- A difference at the node with a path of child indexes. -/
structure Mismatch where
  path : List Nat
  aspect : Aspect
  deriving DecidableEq, Repr

namespace Mismatch

/-- The path with a slash in front of every index. -/
def pathText (mismatch : Mismatch) : String :=
  String.join (mismatch.path.map fun index => s!"/{index}")

/-- The report of a difference. -/
def describe (mismatch : Mismatch) : String :=
  let place := if mismatch.path.isEmpty then "<root>" else mismatch.pathText
  let (expected, found) := mismatch.aspect.values
  s!"{place}: {mismatch.aspect.title} (expected {expected}, found {found})"

end Mismatch

namespace Node

/-- The differences between two nodes of one kind apart from their children. -/
def ownDifferences (path : List Nat) (expected found : Node) : List Mismatch :=
  (if expected.text = found.text then []
    else [⟨path, .text expected.text found.text⟩]) ++
  (if expected.message = found.message then []
    else [⟨path, .message expected.message found.message⟩]) ++
  (if expected.children.length = found.children.length then []
    else [⟨path, .childCount expected.children.length found.children.length⟩])

mutual

/-- All differences of a tree from the expected one, at and below a path. -/
def differencesAt (path : List Nat) : Node → Node → List Mismatch
  | ⟨kind, text, children, span, message⟩, found =>
    if kind = found.kind then
      ownDifferences path ⟨kind, text, children, span, message⟩ found ++
        differencesIn path 0 children found.children
    else [⟨path, .kind kind found.kind⟩]

def differencesIn (path : List Nat) (index : Nat) : List Node → List Node → List Mismatch
  | expected :: expecteds, found :: founds =>
    differencesAt (path ++ [index]) expected found ++
      differencesIn path (index + 1) expecteds founds
  | _, _ => []

end

/-- All differences of a tree from the expected one. -/
def differences (expected found : Node) : List Mismatch :=
  differencesAt [] expected found

end Node

end Galley.Syntax
