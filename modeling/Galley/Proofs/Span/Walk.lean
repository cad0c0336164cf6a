import Galley.Proofs.Shape.Basic
import Galley.Proofs.Span.Order

/-!
# Numbers along a walk

A run of siblings is walked with a stack: the node on top is taken, and its children are laid on
the stack with the first of them on top.  This visits the nodes in pre-order, as many as their
sizes add up to, so that a counter that moves on at each visit hands out evenly spread numbers.
-/

namespace Galley.Syntax.Node

@[simp]
theorem sizeOf_reverse (nodes : List Node) : sizeOf nodes.reverse = sizeOf nodes := by
  induction nodes with
  | nil => rfl
  | cons node nodes ih =>
    rw [List.reverse_cons, sizeOf_append, ih, sizeOf, sizeOf, sizeOf]
    omega

/-- The nodes in the order in which a stack gives them back.  The end of the list is the top of
the stack. -/
def walk (stack : List Node) : List Node :=
  match _htop : stack.getLast? with
  | none => []
  | some top => top :: walk (stack.dropLast ++ top.children.reverse)
termination_by sizeOf stack
decreasing_by
  obtain ⟨below, rfl⟩ := List.getLast?_eq_some_iff.1 _htop
  simp only [List.dropLast_concat, sizeOf_append, sizeOf_reverse, sizeOf, size_eq]
  omega

@[simp]
theorem walk_nil : walk [] = [] := by
  rw [walk]
  rfl

theorem walk_concat (below : List Node) (top : Node) :
    walk (below ++ [top]) = top :: walk (below ++ top.children.reverse) := by
  rw [walk]
  split
  · rename_i hempty
    simp at hempty
  · rename_i last hlast
    rw [List.getLast?_concat] at hlast
    obtain rfl := Option.some.inj hlast
    rw [List.dropLast_concat]

mutual

/-- A tree on top of a stack is walked before anything below it. -/
theorem walk_concat_eq : ∀ (top : Node) (below : List Node),
    walk (below ++ [top]) = top.preorder ++ walk below
  | ⟨kind, text, children, span, message⟩, below => by
    rw [walk_concat, walk_append_reverse children below, preorder, List.cons_append]

/-- So is a run that was laid on the stack, from its first node on. -/
theorem walk_append_reverse : ∀ (nodes : List Node) (below : List Node),
    walk (below ++ nodes.reverse) = preorderOf nodes ++ walk below
  | [], below => by rw [List.reverse_nil, List.append_nil, preorderOf, List.nil_append]
  | node :: nodes, below => by
    rw [List.reverse_cons, ← List.append_assoc, walk_concat_eq node (below ++ nodes.reverse),
      walk_append_reverse nodes below, preorderOf, List.append_assoc]

end

/-- The walk over a run visits its nodes in pre-order. -/
theorem walk_reverse (nodes : List Node) : walk nodes.reverse = preorderOf nodes := by
  have hwalk := walk_append_reverse nodes []
  rwa [List.nil_append, walk_nil, List.append_nil] at hwalk

/-! ## The numbers that are handed out -/

mutual

theorem preorder_withSpan (span : Int) : ∀ node : Node,
    (node.withSpan span).preorder = node.preorder.map (withSpan span)
  | ⟨kind, text, children, own, message⟩ => by
    rw [withSpan, preorder, preorder, preorderOf_withSpanOf span children, List.map_cons, withSpan]

theorem preorderOf_withSpanOf (span : Int) : ∀ nodes : List Node,
    preorderOf (withSpanOf span nodes) = (preorderOf nodes).map (withSpan span)
  | [] => rfl
  | node :: nodes => by
    rw [withSpanOf, preorderOf, preorderOf, preorder_withSpan span node,
      preorderOf_withSpanOf span nodes, List.map_append]

end

/-- Runs that differ in their numbers only are walked alike. -/
theorem map_erase_preorderOf {left right : List Node}
    (herase : left.map erase = right.map erase) :
    (preorderOf left).map erase = (preorderOf right).map erase := by
  have hall : withSpanOf detached left = withSpanOf detached right := by
    rw [withSpanOf_eq_map, withSpanOf_eq_map]
    exact herase
  have hwalk := congrArg preorderOf hall
  rwa [preorderOf_withSpanOf, preorderOf_withSpanOf] at hwalk

/-- The distance of neighbours is the share of one node in the range, rounded down. -/
theorem eq_numberAll_of_numberWithin {nodes numbered : List Node} {low high : Int}
    (hnumber : numberWithin nodes low high = some numbered) :
    numbered = numberAll low ((high - low).fdiv (sizeOf nodes)) nodes := by
  by_cases hnodes : nodes = []
  · subst hnodes
    exact (Option.some.inj hnumber).symm
  · rw [numberWithin_of_ne_nil hnodes] at hnumber
    split_ifs at hnumber
    rw [Int.fdiv_eq_ediv_of_nonneg _ (Int.natCast_nonneg _)]
    exact (Option.some.inj hnumber).symm

/-- A tree in an ordered run lies between its own number and that of the next tree. -/
theorem InOrder.checkSpans_eq_none {low high : Int} {front behind : List Node} {node : Node}
    (horder : InOrder low high (front ++ node :: behind)) :
    node.checkSpans node.span (nextSpan high behind) = none := by
  obtain ⟨-, hbehind, -⟩ := inOrder_append_iff.1 horder
  obtain ⟨⟨-, hnext⟩, hchildren, -⟩ := inOrder_cons_iff.1 hbehind
  rw [checkSpans_eq_none_iff, inOrder_cons_iff]
  exact ⟨⟨Int.le_refl _, hnext⟩, hchildren, inOrder_nil _ _⟩

/-- The run after it was to be numbered within `[low, high)`: as it was if that is refused. -/
def renumbered (nodes : List Node) (low high : Int) : List Node :=
  (numberWithin nodes low high).getD nodes

/-- A run of siblings is refused exactly if it has a node and the range has fewer numbers than the
run has nodes, and then it stays as it is.  Otherwise the walk over it comes upon the numbers from
the low end of the range on, as far apart as the share of a node in the range and at least by one.
All of them lie in the range, so that each tree keeps between its own number and that of the next
one, and nothing else has changed. -/
theorem renumbered_spreads (nodes : List Node) (low high : Int) :
    (numberWithin nodes low high = none ↔ nodes ≠ [] ∧ high - low < sizeOf nodes) ∧
    (numberWithin nodes low high = none → renumbered nodes low high = nodes) ∧
    (numberWithin nodes low high ≠ none →
      (nodes ≠ [] → 1 ≤ (high - low).fdiv (sizeOf nodes)) ∧
      (walk (renumbered nodes low high).reverse).map span =
        (List.range (sizeOf nodes)).map (fun index : Nat =>
          low + (high - low).fdiv (sizeOf nodes) * index) ∧
      (∀ node ∈ walk (renumbered nodes low high).reverse, low ≤ node.span ∧ node.span < high) ∧
      (∀ front node behind, renumbered nodes low high = front ++ node :: behind →
        node.checkSpans node.span (nextSpan high behind) = none) ∧
      (walk (renumbered nodes low high).reverse).map erase = (walk nodes.reverse).map erase ∧
      (renumbered nodes low high).map erase = nodes.map erase) := by
  refine ⟨numberWithin_eq_none_iff, ?_, ?_⟩
  · intro hnone
    rw [renumbered, hnone, Option.getD_none]
  · intro hsome
    obtain ⟨numbered, hnumbered⟩ := Option.ne_none_iff_exists'.1 hsome
    have herase := map_erase_numberWithin hnumbered
    have horder := inOrder_numberWithin hnumbered
    rw [renumbered, hnumbered, Option.getD_some, walk_reverse, walk_reverse]
    refine ⟨?_, ?_, ?_, ?_, map_erase_preorderOf herase, herase⟩
    · intro hnodes
      rw [Ne, numberWithin_eq_none_iff, not_and, Int.not_lt] at hsome
      have hpos := sizeOf_pos hnodes
      rw [Int.fdiv_eq_ediv_of_nonneg _ (Int.natCast_nonneg _), Int.le_ediv_iff_mul_le (by omega)]
      simpa using hsome hnodes
    · rw [eq_numberAll_of_numberWithin hnumbered]
      exact spansOf_numberAll low _ nodes
    · intro node hnode
      exact horder.within node.span (List.mem_map_of_mem hnode)
    · rintro front node behind rfl
      exact horder.checkSpans_eq_none

example : (preorderOf (renumbered [inner .strong [leaf .star ['*'], leaf .text ['a']],
    leaf .text ['b']] 10 19)).map span = [10, 12, 14, 16] := by decide

end Galley.Syntax.Node
