import Galley.Proofs.Coverage.Tree
import Galley.Syntax.Numbering
import Mathlib.Data.List.Basic
import Mathlib.Data.List.Range
import Mathlib.Tactic.Common
import Mathlib.Tactic.Ring

/-!
# Numbering a run of siblings

Numbering changes nothing but the numbers: the trees are the same once these
are erased.  Read in pre-order, the numbers of a run form an arithmetic
sequence from the low end of the range on, as long as the run.
-/

namespace Galley.Syntax.Node

/-! ## What numbering leaves alone -/

mutual

theorem withSpan_number (span next stride : Int) : ∀ node : Node,
    (node.number next stride).withSpan span = node.withSpan span
  | ⟨_, _, children, _, _⟩ => by
    rw [number, withSpan, withSpan, withSpanOf_numberAll span (next + stride) stride children]

theorem withSpanOf_numberAll (span next stride : Int) : ∀ nodes : List Node,
    withSpanOf span (numberAll next stride nodes) = withSpanOf span nodes
  | [] => rfl
  | node :: nodes => by
    rw [numberAll, withSpanOf, withSpanOf, withSpan_number span next stride node,
      withSpanOf_numberAll span _ stride nodes]

end

theorem size_pos (node : Node) : 0 < node.size := by
  rcases node with ⟨kind, text, children, span, message⟩
  rw [size]
  omega

theorem sizeOf_pos {nodes : List Node} (hnodes : nodes ≠ []) : 0 < sizeOf nodes := by
  cases nodes with
  | nil => exact absurd rfl hnodes
  | cons node nodes =>
    have hpos := node.size_pos
    rw [sizeOf]
    omega

@[simp]
theorem sizeOf_append (left right : List Node) :
    sizeOf (left ++ right) = sizeOf left + sizeOf right := by
  induction left with
  | nil => simp [sizeOf]
  | cons node left ih => simp [sizeOf, ih, Nat.add_assoc]

@[simp]
theorem numberWithin_nil (low high : Int) : numberWithin [] low high = some [] := rfl

/-- The distance of neighbours is the share of one node in the range. -/
theorem numberWithin_of_ne_nil {nodes : List Node} (hnodes : nodes ≠ []) (low high : Int) :
    numberWithin nodes low high =
      if (high - low) / sizeOf nodes < 1 then none
      else some (numberAll low ((high - low) / sizeOf nodes) nodes) := by
  have hpos := sizeOf_pos hnodes
  have hcount : (sizeOf nodes : Int) ≠ 0 := by omega
  rw [numberWithin, if_neg hcount]
  simp only [Int.fdiv_eq_ediv_of_nonneg (high - low) (Int.natCast_nonneg (sizeOf nodes))]

/-- There is a numbering exactly if there are as many numbers as nodes. -/
theorem numberWithin_eq_none_iff {nodes : List Node} {low high : Int} :
    numberWithin nodes low high = none ↔ nodes ≠ [] ∧ high - low < sizeOf nodes := by
  by_cases hnodes : nodes = []
  · simp [hnodes]
  · have hpos : (0 : Int) < sizeOf nodes := by
      exact_mod_cast sizeOf_pos hnodes
    have hstride : (high - low) / sizeOf nodes < 1 ↔ high - low < sizeOf nodes := by
      rw [Int.ediv_lt_iff_lt_mul hpos, Int.one_mul]
    rw [numberWithin_of_ne_nil hnodes]
    simp [hnodes, hstride]

/-- A numbered run is empty or numbered evenly within the range. -/
theorem numberWithin_eq_some {nodes numbered : List Node} {low high : Int}
    (hnumber : numberWithin nodes low high = some numbered) :
    (nodes = [] ∧ numbered = []) ∨
      ∃ stride, 1 ≤ stride ∧ stride * sizeOf nodes ≤ high - low ∧
        numbered = numberAll low stride nodes := by
  by_cases hnodes : nodes = []
  · subst hnodes
    exact .inl ⟨rfl, (Option.some.inj hnumber).symm⟩
  · right
    have hpos : (0 : Int) < sizeOf nodes := by
      exact_mod_cast sizeOf_pos hnodes
    rw [numberWithin_of_ne_nil hnodes] at hnumber
    split_ifs at hnumber with hstride
    exact ⟨(high - low) / sizeOf nodes, by omega, Int.ediv_mul_le _ (by omega),
      (Option.some.inj hnumber).symm⟩

theorem map_erase_numberWithin {nodes numbered : List Node} {low high : Int}
    (hnumber : numberWithin nodes low high = some numbered) :
    numbered.map erase = nodes.map erase := by
  obtain ⟨rfl, rfl⟩ | ⟨stride, -, -, rfl⟩ := numberWithin_eq_some hnumber
  · rfl
  · have hall := withSpanOf_numberAll detached low stride nodes
    rwa [withSpanOf_eq_map, withSpanOf_eq_map] at hall

@[simp]
theorem erase_numberRoot (root : Node) : root.numberRoot.erase = root.erase := by
  rw [numberRoot]
  split
  · rename_i numbered hnumber
    simpa using map_erase_numberWithin hnumber
  · rfl

theorem children_withSpan (span : Int) (node : Node) :
    (node.withSpan span).children = node.children.map (withSpan span) := by
  rcases node with ⟨kind, text, children, own, message⟩
  exact withSpanOf_eq_map span children

theorem children_erase (node : Node) : node.erase.children = node.children.map erase :=
  children_withSpan detached node

/-! ## The numbers in pre-order -/

/-- The spans of a run of siblings in pre-order. -/
def spansOf (nodes : List Node) : List Int :=
  (preorderOf nodes).map span

@[simp]
theorem spansOf_nil : spansOf [] = [] := rfl

theorem spansOf_singleton (node : Node) : spansOf [node] = node.preorder.map span := by
  rw [spansOf, preorderOf, preorderOf, List.append_nil]

theorem spansOf_cons (node : Node) (nodes : List Node) :
    spansOf (node :: nodes) = node.span :: (spansOf node.children ++ spansOf nodes) := by
  rcases node with ⟨kind, text, children, span, message⟩
  simp [spansOf, preorderOf, preorder]

@[simp]
theorem spansOf_append (left right : List Node) :
    spansOf (left ++ right) = spansOf left ++ spansOf right := by
  induction left with
  | nil => rfl
  | cons node left ih => simp [spansOf_cons, ih]

theorem size_eq (node : Node) : node.size = 1 + sizeOf node.children := by
  rcases node with ⟨kind, text, children, span, message⟩
  rw [size]

/-- The first numbers of an arithmetic sequence. -/
def progression (next stride : Int) (count : Nat) : List Int :=
  (List.range count).map fun index : Nat => next + stride * index

theorem progression_succ (next stride : Int) (count : Nat) :
    progression next stride (count + 1) =
      next :: progression (next + stride) stride count := by
  rw [progression, List.range_succ_eq_map, List.map_cons, List.map_map, progression]
  congr 1
  · simp
  · apply List.map_congr_left
    intro index _
    simp only [Function.comp_apply, Nat.succ_eq_add_one, Nat.cast_add, Nat.cast_one]
    ring

theorem progression_add (next stride : Int) (left right : Nat) :
    progression next stride (left + right) =
      progression next stride left ++ progression (next + stride * left) stride right := by
  rw [progression, List.range_add, List.map_append, List.map_map, progression, progression]
  congr 1
  apply List.map_congr_left
  intro index _
  simp only [Function.comp_apply, Nat.cast_add]
  ring

mutual

theorem spansOf_children_number (next stride : Int) : ∀ node : Node,
    (node.number next stride).span = next ∧
      spansOf (node.number next stride).children =
        progression (next + stride) stride (sizeOf node.children)
  | ⟨_, _, children, _, _⟩ => ⟨rfl, spansOf_numberAll (next + stride) stride children⟩

/-- The numbers of a run are those of an arithmetic sequence. -/
theorem spansOf_numberAll (next stride : Int) : ∀ nodes : List Node,
    spansOf (numberAll next stride nodes) = progression next stride (sizeOf nodes)
  | [] => rfl
  | node :: nodes => by
    obtain ⟨hown, hchildren⟩ := spansOf_children_number next stride node
    rw [numberAll, spansOf_cons, hown, hchildren,
      spansOf_numberAll (next + stride * node.size) stride nodes, sizeOf, progression_add,
      ← List.cons_append, ← progression_succ, size_eq, Nat.add_comm 1]

end

end Galley.Syntax.Node
