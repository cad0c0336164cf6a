import Galley.Syntax.Grammar

/-!
# Incremental parsing

After an edit only a run of top-level nodes is parsed anew. Parsing starts a
few nodes in front of the edit and stops as soon as it lands on the start of an
old node behind the edit; every node from there on is kept with its span.
-/

namespace Galley.Syntax

/-- How many untouched top-level nodes in front of an edit are parsed again.
A node may depend on three characters behind its own end, and every top-level
node holds at least one character. -/
def lookbehind : Nat := 3

namespace Reparse

/-- How many nodes end in front of a position. -/
def countBefore (target position : Nat) : List Node → Nat
  | [] => 0
  | node :: nodes =>
    if target ≤ position + node.charLen then 0
    else 1 + countBefore target (position + node.charLen) nodes

/-- The index of the first node that is parsed again. -/
def firstIndex (children : List Node) (start : Nat) : Nat :=
  min (countBefore start 0 children) (children.length - 1) - lookbehind

/-- The nodes that may be kept behind an edit, each with those that follow it
and with the position that its start has in the new text. -/
def anchors (oldEnd newEnd position : Nat) : List Node → List (Nat × List Node)
  | [] => []
  | node :: nodes =>
    let later := anchors oldEnd newEnd (position + node.charLen) nodes
    if oldEnd ≤ position then (position - oldEnd + newEnd, node :: nodes) :: later else later

/-- Parses nodes until an anchor or the end is reached, and answers with them
and the nodes that are kept. -/
def resume (anchors : List (Nat × List Node)) :
    Nat → Nat → List Char → List Node × List Node
  | 0, _, _ => ([], [])
  | fuel + 1, position, chars =>
    match anchors.find? fun anchor => anchor.1 == position with
    | some (_, kept) => ([], kept)
    | none =>
      match chars with
      | [] => ([], [])
      | c :: rest =>
        let (node, rest) := Grammar.topNode c rest
        let (nodes, kept) := resume anchors fuel (position + node.charLen) rest
        (node :: nodes, kept)

end Reparse

/-- Updates a tree after the characters `[start, oldEnd)` of its text became
`[start, newEnd)` of the given text. There is no update of an empty tree. -/
def reparse (root : Node) (chars : List Char) (start oldEnd newEnd : Nat) : Option Node :=
  match root.children with
  | [] => none
  | child :: children =>
    let all := child :: children
    let first := Reparse.firstIndex all start
    let front := all.take first
    let position := Node.charLenOf front
    let low := ((all.drop first).head?.map Node.span).getD upperSpan
    let anchors := Reparse.anchors oldEnd newEnd
      (Node.charLenOf (all.take (first + 1))) (all.drop (first + 1))
    let (parsed, kept) :=
      Reparse.resume anchors (chars.length + 1) position (chars.drop position)
    let high := (kept.head?.map Node.span).getD upperSpan
    match Node.numberWithin parsed low high with
    | some numbered => some { root with children := front ++ numbered ++ kept }
    | none => some { root with children := front ++ parsed ++ kept }.numberRoot

end Galley.Syntax
