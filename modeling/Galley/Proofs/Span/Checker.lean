import Galley.Proofs.Shape.Basic
import Galley.Proofs.Span.Order

/-!
# What the checker decides

The checker hands every child a range that is made of the numbers of its parent
and of its next sibling.  All these ranges together say no more than that the
numbers ascend in pre-order, and what does not fit is reported with a node and
a range to see it by.
-/

namespace Galley.Syntax

/-- A violation is about one of the given nodes, with the number of that node
and a range that this number lies outside of. -/
structure Violation.Seen (nodes : List Node) (violation : Violation) : Prop where
  node_mem : violation.node ∈ nodes
  span_eq : violation.span = violation.node.span
  outside : ¬(violation.low ≤ violation.span ∧ violation.span < violation.high)

theorem Violation.Seen.mono {nodes nodes' : List Node} {violation : Violation}
    (hseen : violation.Seen nodes) (hsubset : nodes ⊆ nodes') : violation.Seen nodes' :=
  ⟨hsubset hseen.node_mem, hseen.span_eq, hseen.outside⟩

namespace Node

/-- Siblings are checked one after the other, so what the checker reports comes
from the first one or from those behind it. -/
theorem checkSpansOf_cons_eq_some_iff {low high : Int} {node : Node} {nodes : List Node}
    {violation : Violation} : checkSpansOf low high (node :: nodes) = some violation ↔
      node.checkSpans low (nextSpan high nodes) = some violation ∨
        node.checkSpans low (nextSpan high nodes) = none ∧
          checkSpansOf (nextSpan high nodes) high nodes = some violation := by
  rw [checkSpansOf]
  cases node.checkSpans low (nextSpan high nodes) <;> simp

mutual

theorem seen_of_checkSpans {violation : Violation} (low high : Int) : ∀ node : Node,
    node.checkSpans low high = some violation → violation.Seen node.preorder
  | ⟨kind, text, children, span, message⟩ => by
    intro hcheck
    rw [checkSpans] at hcheck
    split at hcheck
    · apply (seen_of_checkSpansOf (span + 1) high children hcheck).mono
      exact List.subset_cons_self _ _
    · next hrange =>
      rw [← Option.some.inj hcheck]
      exact ⟨List.mem_cons_self, rfl, by simpa using hrange⟩

theorem seen_of_checkSpansOf {violation : Violation} (low high : Int) : ∀ nodes : List Node,
    checkSpansOf low high nodes = some violation → violation.Seen (preorderOf nodes)
  | [] => by
    intro hcheck
    cases hcheck
  | node :: nodes => by
    intro hcheck
    obtain hfirst | ⟨-, hbehind⟩ := checkSpansOf_cons_eq_some_iff.1 hcheck
    · apply (seen_of_checkSpans low _ node hfirst).mono
      exact List.subset_append_left _ _
    · apply (seen_of_checkSpansOf _ high nodes hbehind).mono
      exact List.subset_append_right _ _

end

/-- For a single tree, order in a range asks for the range only where the tree
starts: all other numbers are larger than that of the root. -/
theorem inOrder_singleton_iff {low high : Int} {root : Node} : InOrder low high [root] ↔
    (root.preorder.map span).Pairwise (· < ·) ∧ low ≤ root.span ∧
      ∀ node ∈ root.preorder, node.span < high := by
  constructor
  · rintro ⟨hascending, hwithin⟩
    rw [spansOf_singleton] at hascending hwithin
    have hbelow : ∀ node ∈ root.preorder, low ≤ node.span ∧ node.span < high := by
      intro node hnode
      exact hwithin node.span (List.mem_map_of_mem hnode)
    have hroot : root ∈ root.preorder := by
      rw [preorder_eq]
      exact List.mem_cons_self
    exact ⟨hascending, (hbelow root hroot).1, fun node hnode => (hbelow node hnode).2⟩
  · rintro ⟨hascending, hlow, hbelow⟩
    have hfirst : ∀ node ∈ root.preorder, root.span ≤ node.span := by
      intro node hnode
      rw [preorder_eq] at hascending hnode
      obtain rfl | hinner := List.mem_cons.1 hnode
      · exact Int.le_refl _
      · rw [List.map_cons, List.pairwise_cons] at hascending
        exact Int.le_of_lt (hascending.1 node.span (List.mem_map_of_mem hinner))
    constructor
    · rwa [spansOf_singleton]
    · intro span hspan
      rw [spansOf_singleton] at hspan
      obtain ⟨node, hnode, rfl⟩ := List.mem_map.1 hspan
      exact ⟨Int.le_trans hlow (hfirst node hnode), hbelow node hnode⟩

/-- The checker decides whether the numbers of a tree ascend in pre-order from
the start of the range on and stay below its end.  What it reports otherwise is
a node of the tree with its own number and a range that this number misses. -/
theorem checkSpans_decides_ascent (root : Node) (low high : Int) :
    (root.checkSpans low high = none ↔
      (root.preorder.map span).Pairwise (· < ·) ∧ low ≤ root.span ∧
        ∀ node ∈ root.preorder, node.span < high) ∧
    ∀ violation, root.checkSpans low high = some violation →
      violation.node ∈ root.preorder ∧ violation.span = violation.node.span ∧
        ¬(violation.low ≤ violation.span ∧ violation.span < violation.high) := by
  constructor
  · rw [checkSpans_eq_none_iff, inOrder_singleton_iff]
  · intro violation hcheck
    have hseen := seen_of_checkSpans low high root hcheck
    exact ⟨hseen.node_mem, hseen.span_eq, hseen.outside⟩

end Node

end Galley.Syntax
