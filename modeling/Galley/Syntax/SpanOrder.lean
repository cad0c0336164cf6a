import Galley.Syntax.Numbering

/-!
# The order of spans

Looking up a span and numbering a part of a tree both rely on the order of the
numbers: a child is numbered behind its parent and in front of its next
sibling. The checker finds the first node that breaks this order.
-/

namespace Galley.Syntax

/-- A node, its span, and the range that this span lies outside of. -/
structure Violation where
  node : Node
  span : Int
  low : Int
  high : Int

namespace Violation

/-- The violation with a node that has no spans any more. -/
def erase (violation : Violation) : Violation :=
  { violation with node := violation.node.erase }

/-- The lines of a report. -/
def describe (violation : Violation) : List String :=
  ["    Node: " ++ violation.node.dump,
   s!"    Wrong span order: {violation.span} not in {violation.low}..{violation.high} ❌"]

end Violation

namespace Node

/-- The least number behind a node: that of its next sibling or the end of the
range. -/
def nextSpan (high : Int) : List Node → Int
  | [] => high
  | next :: _ => next.span

mutual

/-- The first violation in a tree whose spans should lie in `[low, high)`. -/
def checkSpans (low high : Int) : Node → Option Violation
  | ⟨kind, text, children, span, message⟩ =>
    if low ≤ span && span < high then checkSpansOf (span + 1) high children
    else some ⟨⟨kind, text, children, span, message⟩, span, low, high⟩

def checkSpansOf (low high : Int) : List Node → Option Violation
  | [] => none
  | node :: nodes =>
    match node.checkSpans low (nextSpan high nodes) with
    | some violation => some violation
    | none => checkSpansOf (nextSpan high nodes) high nodes

end

/-- The first violation in a tree, whatever the range of its spans. -/
def spanViolation (root : Node) : Option Violation :=
  root.checkSpans 0 (Number.twoPow 64 - 1)

end Node

end Galley.Syntax
