import Galley.Proofs.Span.Numbering
import Galley.Syntax.SpanOrder

/-!
# Spans in order

A run of siblings is in order if its numbers ascend in pre-order within a
range.  This is what the checker decides, what numbering establishes, and what
stays true when some siblings give way to others that are numbered between
their neighbours.
-/

namespace Galley.Syntax.Node

variable {low high : Int}

/-- The numbers of a run ascend in pre-order and lie in `[low, high)`. -/
structure InOrder (low high : Int) (nodes : List Node) : Prop where
  ascending : (spansOf nodes).Pairwise (· < ·)
  within : ∀ span ∈ spansOf nodes, low ≤ span ∧ span < high

theorem inOrder_nil (low high : Int) : InOrder low high [] :=
  ⟨List.Pairwise.nil, by simp⟩

theorem inOrder_append_iff {left right : List Node} : InOrder low high (left ++ right) ↔
    InOrder low high left ∧ InOrder low high right ∧
      ∀ earlier ∈ spansOf left, ∀ later ∈ spansOf right, earlier < later := by
  constructor
  · rintro ⟨hascending, hwithin⟩
    rw [spansOf_append] at hascending hwithin
    obtain ⟨hleft, hright, hbetween⟩ := List.pairwise_append.1 hascending
    exact ⟨⟨hleft, fun span hspan => hwithin span (List.mem_append_left _ hspan)⟩,
      ⟨hright, fun span hspan => hwithin span (List.mem_append_right _ hspan)⟩, hbetween⟩
  · rintro ⟨hleft, hright, hbetween⟩
    refine ⟨?_, ?_⟩
    · rw [spansOf_append]
      exact List.pairwise_append.2 ⟨hleft.ascending, hright.ascending, hbetween⟩
    · intro span hspan
      rw [spansOf_append] at hspan
      obtain hspan | hspan := List.mem_append.1 hspan
      · exact hleft.within span hspan
      · exact hright.within span hspan

namespace InOrder

variable {nodes : List Node}

theorem mono {low' high' : Int} (horder : InOrder low high nodes) (hlow : low' ≤ low)
    (hhigh : high ≤ high') : InOrder low' high' nodes := by
  refine ⟨horder.ascending, ?_⟩
  intro span hspan
  have hwithin := horder.within span hspan
  omega

theorem span_mem {node : Node} : node.span ∈ spansOf (node :: nodes) := by
  rw [spansOf_cons]
  exact List.mem_cons_self

/-- No number of a run is less than that of its first node. -/
theorem nextSpan_le (horder : InOrder low high nodes) :
    ∀ span ∈ spansOf nodes, nextSpan high nodes ≤ span := by
  intro span hspan
  cases nodes with
  | nil => cases hspan
  | cons node nodes =>
    have hascending := horder.ascending
    rw [spansOf_cons] at hascending hspan
    obtain rfl | hspan := List.mem_cons.1 hspan
    · exact Int.le_refl _
    · exact Int.le_of_lt ((List.pairwise_cons.1 hascending).1 span hspan)

/-- The range may start at the first node. -/
theorem from_first (horder : InOrder low high nodes) : InOrder (nextSpan high nodes) high nodes :=
  ⟨horder.ascending, fun span hspan =>
    ⟨horder.nextSpan_le span hspan, (horder.within span hspan).2⟩⟩

theorem nextSpan_le_high (horder : InOrder low high nodes) : nextSpan high nodes ≤ high := by
  cases nodes with
  | nil => exact Int.le_refl _
  | cons node nodes => exact Int.le_of_lt (horder.within node.span span_mem).2

theorem lt_nextSpan (front : List Node) (horder : InOrder low high (front ++ nodes)) :
    ∀ span ∈ spansOf front, span < nextSpan high nodes := by
  obtain ⟨hfront, -, hbetween⟩ := inOrder_append_iff.1 horder
  intro span hspan
  cases nodes with
  | nil => exact (hfront.within span hspan).2
  | cons node nodes => exact hbetween span hspan node.span span_mem

end InOrder

/-- Order is what the checker asks for: a node lies in its range, its children
between it and its next sibling, and the siblings behind it from that one on. -/
theorem inOrder_cons_iff {node : Node} {nodes : List Node} :
    InOrder low high (node :: nodes) ↔
      (low ≤ node.span ∧ node.span < nextSpan high nodes) ∧
        InOrder (node.span + 1) (nextSpan high nodes) node.children ∧
        InOrder (nextSpan high nodes) high nodes := by
  constructor
  · intro horder
    have hbefore := InOrder.lt_nextSpan [node] horder
    obtain ⟨hnode, hnodes, -⟩ := inOrder_append_iff.1
      (show InOrder low high ([node] ++ nodes) from horder)
    obtain ⟨hascending, hwithin⟩ := hnode
    rw [spansOf_cons, spansOf_nil, List.append_nil] at hascending hwithin hbefore
    obtain ⟨hchildren, hsorted⟩ := List.pairwise_cons.1 hascending
    refine ⟨⟨(hwithin _ List.mem_cons_self).1, hbefore _ List.mem_cons_self⟩, ⟨hsorted, ?_⟩,
      hnodes.from_first⟩
    intro span hspan
    exact ⟨hchildren span hspan, hbefore span (List.mem_cons_of_mem _ hspan)⟩
  · rintro ⟨⟨hlow, hnext⟩, hchildren, hnodes⟩
    have hhigh := hnodes.nextSpan_le_high
    refine ⟨?_, ?_⟩
    · rw [spansOf_cons, List.pairwise_cons, List.pairwise_append]
      refine ⟨?_, hchildren.ascending, hnodes.ascending, ?_⟩
      · intro span hspan
        obtain hspan | hspan := List.mem_append.1 hspan
        · exact (hchildren.within span hspan).1
        · exact Int.lt_of_lt_of_le hnext (hnodes.within span hspan).1
      · intro earlier hearlier later hlater
        exact Int.lt_of_lt_of_le (hchildren.within earlier hearlier).2
          (hnodes.within later hlater).1
    · intro span hspan
      rw [spansOf_cons, List.mem_cons, List.mem_append] at hspan
      obtain rfl | hspan | hspan := hspan
      · omega
      · have hwithin := hchildren.within span hspan
        omega
      · have hwithin := hnodes.within span hspan
        omega

mutual

/-- The checker finds nothing exactly if a tree is in order. -/
theorem checkSpans_eq_none_iff (low high : Int) : ∀ node : Node,
    node.checkSpans low high = none ↔ InOrder low high [node]
  | ⟨kind, text, children, span, message⟩ => by
    have hchildren := checkSpansOf_eq_none_iff (span + 1) high children
    rw [inOrder_cons_iff, checkSpans, nextSpan, ← hchildren]
    by_cases hwithin : low ≤ span ∧ span < high
    · simp [hwithin, inOrder_nil]
    · simp [hwithin]

theorem checkSpansOf_eq_none_iff (low high : Int) : ∀ nodes : List Node,
    checkSpansOf low high nodes = none ↔ InOrder low high nodes
  | [] => ⟨fun _ => inOrder_nil low high, fun _ => rfl⟩
  | node :: nodes => by
    have hnode := checkSpans_eq_none_iff low (nextSpan high nodes) node
    have hnodes := checkSpansOf_eq_none_iff (nextSpan high nodes) high nodes
    rw [inOrder_cons_iff, nextSpan] at hnode
    rw [inOrder_cons_iff, checkSpansOf, ← hnodes]
    cases hcheck : node.checkSpans low (nextSpan high nodes) with
    | none =>
      obtain ⟨hwithin, hchildren, -⟩ := hnode.1 hcheck
      simp [hwithin, hchildren]
    | some violation =>
      constructor
      · intro hsome
        cases hsome
      · rintro ⟨hwithin, hchildren, -⟩
        have hnone := hnode.2 ⟨hwithin, hchildren, inOrder_nil _ _⟩
        rw [hcheck] at hnone
        cases hnone

end

/-! ## Numbering puts in order -/

theorem pairwise_progression {stride : Int} (hstride : 1 ≤ stride) (next : Int) (count : Nat) :
    (progression next stride count).Pairwise (· < ·) := by
  rw [progression, List.pairwise_map]
  apply List.pairwise_lt_range.imp
  intro earlier later hlater
  have hscaled := Int.mul_lt_mul_of_pos_left (Int.ofNat_lt.2 hlater) (show 0 < stride by omega)
  omega

theorem mem_progression {next stride span : Int} {count : Nat} (hstride : 1 ≤ stride)
    (hspan : span ∈ progression next stride count) :
    next ≤ span ∧ span < next + stride * count := by
  rw [progression] at hspan
  obtain ⟨index, hindex, rfl⟩ := List.mem_map.1 hspan
  have hpos := Int.mul_nonneg (show 0 ≤ stride by omega) (Int.natCast_nonneg index)
  have hscaled := Int.mul_lt_mul_of_pos_left (Int.ofNat_lt.2 (List.mem_range.1 hindex))
    (show 0 < stride by omega)
  omega

/-- A numbered run lies in order within its range. -/
theorem inOrder_numberWithin {nodes numbered : List Node}
    (hnumber : numberWithin nodes low high = some numbered) : InOrder low high numbered := by
  obtain ⟨-, rfl⟩ | ⟨stride, hstride, hfits, rfl⟩ := numberWithin_eq_some hnumber
  · exact inOrder_nil low high
  · refine ⟨?_, ?_⟩
    · rw [spansOf_numberAll]
      exact pairwise_progression hstride low _
    · intro span hspan
      rw [spansOf_numberAll] at hspan
      have hwithin := mem_progression hstride hspan
      omega

/-- A tree that is not too large is numbered from the first number on. -/
theorem inOrder_numberRoot {root : Node} (hfits : (root.size : Int) ≤ upperSpan - firstSpan) :
    root.numberRoot.span = firstSpan ∧ InOrder firstSpan upperSpan [root.numberRoot] := by
  cases hnumber : numberWithin [root] firstSpan upperSpan with
  | none =>
    have hlarge := (numberWithin_eq_none_iff.1 hnumber).2
    rw [sizeOf, sizeOf] at hlarge
    omega
  | some numbered =>
    have horder := inOrder_numberWithin hnumber
    obtain ⟨hnil, -⟩ | ⟨stride, -, -, rfl⟩ := numberWithin_eq_some hnumber
    · cases hnil
    · have hroot : root.numberRoot = root.number firstSpan stride := by
        rw [numberRoot, hnumber]
        rfl
      rw [hroot]
      exact ⟨(spansOf_children_number firstSpan stride root).1, horder⟩

/-- Siblings may give way to others in the gap between their neighbours. -/
theorem InOrder.replace {front dropped kept numbered : List Node} {node : Node}
    (horder : InOrder low high (front ++ (node :: dropped ++ kept)))
    (hnumbered : InOrder node.span (nextSpan high kept) numbered) :
    InOrder low high (front ++ numbered ++ kept) := by
  obtain ⟨hfront, hbehind, hbetween⟩ := inOrder_append_iff.1 horder
  obtain ⟨hdropped, hkept, -⟩ := inOrder_append_iff.1 hbehind
  have hgap := InOrder.lt_nextSpan front horder
  have hlow := (hdropped.within node.span InOrder.span_mem).1
  have hhigh := hkept.nextSpan_le_high
  rw [List.append_assoc, inOrder_append_iff, inOrder_append_iff]
  refine ⟨hfront, ⟨hnumbered.mono hlow hhigh, hkept, ?_⟩, ?_⟩
  · intro earlier hearlier later hlater
    exact Int.lt_of_lt_of_le (hnumbered.within earlier hearlier).2 (hkept.nextSpan_le later hlater)
  · intro earlier hearlier later hlater
    rw [spansOf_append, List.mem_append] at hlater
    obtain hlater | hlater := hlater
    · have hstart : earlier < node.span := hgap earlier hearlier
      exact Int.lt_of_lt_of_le hstart (hnumbered.within later hlater).1
    · exact hbetween earlier hearlier later (by
        rw [spansOf_append]
        exact List.mem_append_right _ hlater)

end Galley.Syntax.Node
