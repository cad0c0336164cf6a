import Galley.Number.Power
import Galley.Syntax.Node

/-!
# Span numbers

A run of siblings is numbered in pre-order, evenly spread over a range. A
subtree therefore occupies a contiguous block of numbers, and a part of the
tree can be numbered anew inside the gap between its neighbours.
-/

namespace Galley.Syntax

/-- The span of the root of a freshly parsed tree. -/
def firstSpan : Int := 2

/-- All spans of a tree lie below this number. -/
def upperSpan : Int := Number.twoPow 47

namespace Node

mutual

/-- Numbers a tree in pre-order, from `next` on and `stride` apart. -/
def number (next stride : Int) : Node → Node
  | ⟨kind, text, children, _, message⟩ =>
    ⟨kind, text, numberAll (next + stride) stride children, next, message⟩

/-- Numbers a run of siblings one behind the other. -/
def numberAll (next stride : Int) : List Node → List Node
  | [] => []
  | node :: nodes =>
    node.number next stride :: numberAll (next + stride * node.size) stride nodes

end

/-- Numbers a run of siblings within `[low, high)`. There is no numbering if
the range is too small to give every node a number of its own. -/
def numberWithin (nodes : List Node) (low high : Int) : Option (List Node) :=
  let count : Int := sizeOf nodes
  if count = 0 then some nodes
  else
    let stride := (high - low).fdiv count
    if stride < 1 then none else some (numberAll low stride nodes)

/-- The tree with the numbering of a clean parse. A tree with more nodes than
there are numbers keeps the numbers it has. -/
def numberRoot (root : Node) : Node :=
  match numberWithin [root] firstSpan upperSpan with
  | some [numbered] => numbered
  | _ => root

end Node

end Galley.Syntax
