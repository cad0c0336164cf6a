import Galley.Proofs.Evaluation.Tree

/-!
# Watched evaluation

A tree can be evaluated under a watch, which looks at the machine in front of every node and behind
it, however the node ends, and which leads the evaluation astray as soon as it does not like what it
sees.  What it wants to see may depend on the strong and emphasized text around the node.  If the
watched evaluation does what the plain one does for every way to go astray, the machine has been as
the watch wants it at every node.
-/

namespace Galley.Compile

open Syntax Document Eval

/-- What a machine has to be like in the course of an evaluation. -/
structure Watch where
  /-- Where a node stands, as far as the watch is concerned. -/
  Place : Type
  /-- The place inside strong text. -/
  strong : Place → Place
  /-- The place inside emphasized text. -/
  emph : Place → Place
  fine : Place → Machine → Bool

/-- The watch that likes everything. -/
abbrev idleWatch : Watch where
  Place := Unit
  strong := id
  emph := id
  fine _ _ := true

namespace Watch

variable {α : Type} (watch : Watch) (astray : Stop)

/-- The place of what a node of some kind holds. -/
def inside (place : watch.Place) : Kind → watch.Place
  | .strong => watch.strong place
  | .emph => watch.emph place
  | _ => place

/-- Evaluates as long as the machine is fine before and after. -/
def guard (place : watch.Place) (action : Eval α) : Eval α := fun machine =>
  if watch.fine place machine then
    let (result, after) := action machine
    (if watch.fine place after then result else .error astray, after)
  else (.error astray, machine)

/-- What a node comes to under the watch, given its children where the node holds them for its own
value, and where the node itself stands. -/
def operand (context : Context) (place : watch.Place) (node : Node) (held beside : List Operand) :
    Operand :=
  let value := evalInner context node held
  { node
    value := watch.guard astray place value
    argument := watch.guard astray place (evalArgument node beside value)
    arguments := watch.guard astray place (Operand.list (Operand.meaningful beside))
    content := watch.guard astray place (markupContent context.source beside) }

mutual

/-- A node with its evaluation under the watch. -/
def evalNode (context : Context) : watch.Place → Node → Operand
  | place, ⟨kind, text, children, span, message⟩ =>
    watch.operand astray context place ⟨kind, text, children, span, message⟩
      (operandsOf context (watch.inside place kind) children) (operandsOf context place children)

/-- Siblings with their evaluations under the watch. -/
def operandsOf (context : Context) : watch.Place → List Node → List Operand
  | _, [] => []
  | place, node :: nodes => evalNode context place node :: operandsOf context place nodes

end

variable {watch astray} {place : watch.Place} {context : Context} {node : Node}

@[simp]
theorem node_evalNode : (watch.evalNode astray context place node).node = node := by
  rcases node with ⟨kind, text, children, span, message⟩
  rfl

theorem operandsOf_eq_map (nodes : List Node) :
    watch.operandsOf astray context place nodes =
      nodes.map (watch.evalNode astray context place) := by
  induction nodes with
  | nil => rfl
  | cons node nodes ih => rw [operandsOf, ih, List.map_cons]

theorem evalNode_eq (node : Node) :
    watch.evalNode astray context place node =
      watch.operand astray context place node
        (node.children.map (watch.evalNode astray context (watch.inside place node.kind)))
        (node.children.map (watch.evalNode astray context place)) := by
  rcases node with ⟨kind, text, children, span, message⟩
  rw [evalNode, operandsOf_eq_map, operandsOf_eq_map]

theorem meaningful_map (nodes : List Node) :
    Operand.meaningful (nodes.map (watch.evalNode astray context place)) =
      (nodes.filter isMeaningful).map (watch.evalNode astray context place) :=
  meaningful_map_of (fun _ => node_evalNode) nodes

end Watch

end Galley.Compile
