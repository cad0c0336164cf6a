import Galley.Syntax.Node

/-!
# What a tree covers

The views of a tree agree with each other: its characters are those of its
leaves, and both lengths are lengths of these characters.  None of them depends
on span numbers, so they may be compared across different numberings.
-/

namespace Galley.Syntax.Node

open Galley.Text

@[simp]
theorem charsOf_nil : charsOf [] = [] := rfl

@[simp]
theorem charsOf_cons (node : Node) (nodes : List Node) :
    charsOf (node :: nodes) = node.chars ++ charsOf nodes := rfl

@[simp]
theorem charsOf_append (left right : List Node) :
    charsOf (left ++ right) = charsOf left ++ charsOf right := by
  induction left with
  | nil => rfl
  | cons node left ih => simp [ih, List.append_assoc]

/-- A node with children covers what they cover. -/
theorem chars_of_children {node : Node} (hchildren : node.children ≠ []) :
    node.chars = charsOf node.children := by
  rcases node with ⟨kind, text, children, span, message⟩
  cases children with
  | nil => exact absurd rfl hchildren
  | cons child children => rfl

@[simp]
theorem chars_leaf (kind : Kind) (chars : List Char) :
    (leaf kind chars).chars = chars := by
  simp [leaf, Node.chars]

@[simp]
theorem chars_error (chars : List Char) (message : String) :
    (error chars message).chars = chars := by
  simp [error, Node.chars]

@[simp]
theorem chars_inner (kind : Kind) (children : List Node) :
    (inner kind children).chars = charsOf children := by
  cases children with
  | nil => simp [Node.inner, Node.chars]
  | cons child children => rfl

mutual

/-- The characters of a tree are those of its leaves from left to right. -/
theorem chars_eq_flatMap_leaves : ∀ node : Node,
    node.chars = node.leaves.flatMap fun leaf => leaf.text.toList
  | ⟨_, text, [], _, _⟩ => by simp [chars, leaves]
  | ⟨_, _, child :: children, _, _⟩ => by
    rw [chars, leaves, List.flatMap_append, chars_eq_flatMap_leaves child,
      charsOf_eq_flatMap_leavesOf children]

theorem charsOf_eq_flatMap_leavesOf : ∀ nodes : List Node,
    charsOf nodes = (leavesOf nodes).flatMap fun leaf => leaf.text.toList
  | [] => rfl
  | node :: nodes => by
    rw [charsOf_cons, leavesOf, List.flatMap_append, chars_eq_flatMap_leaves node,
      charsOf_eq_flatMap_leavesOf nodes]

end

mutual

theorem byteLen_eq : ∀ node : Node, node.byteLen = byteLength node.chars
  | ⟨_, _, [], _, _⟩ => rfl
  | ⟨_, _, child :: children, _, _⟩ => by
    rw [byteLen, chars, byteLength_append, byteLen_eq child, byteLenOf_eq children]

theorem byteLenOf_eq : ∀ nodes : List Node, byteLenOf nodes = byteLength (charsOf nodes)
  | [] => rfl
  | node :: nodes => by
    rw [byteLenOf, charsOf_cons, byteLength_append, byteLen_eq node, byteLenOf_eq nodes]

end

mutual

theorem charLen_eq : ∀ node : Node, node.charLen = node.chars.length
  | ⟨_, _, [], _, _⟩ => rfl
  | ⟨_, _, child :: children, _, _⟩ => by
    rw [charLen, chars, List.length_append, charLen_eq child, charLenOf_eq children]

theorem charLenOf_eq : ∀ nodes : List Node, charLenOf nodes = (charsOf nodes).length
  | [] => rfl
  | node :: nodes => by
    rw [charLenOf, charsOf_cons, List.length_append, charLen_eq node, charLenOf_eq nodes]

end

/-! ## Trees without their numbers -/

@[simp]
theorem kind_withSpan (span : Int) (node : Node) : (node.withSpan span).kind = node.kind := by
  rcases node with ⟨kind, text, children, own, message⟩
  rfl

theorem withSpanOf_eq_map (span : Int) (nodes : List Node) :
    withSpanOf span nodes = nodes.map (withSpan span) := by
  induction nodes with
  | nil => rfl
  | cons node nodes ih => rw [withSpanOf, List.map_cons, ih]

mutual

theorem chars_withSpan (span : Int) : ∀ node : Node, (node.withSpan span).chars = node.chars
  | ⟨_, _, [], _, _⟩ => rfl
  | ⟨_, _, child :: children, _, _⟩ => by
    rw [withSpan, withSpanOf, chars, chars, chars_withSpan span child,
      charsOf_withSpanOf span children]

theorem charsOf_withSpanOf (span : Int) : ∀ nodes : List Node,
    charsOf (withSpanOf span nodes) = charsOf nodes
  | [] => rfl
  | node :: nodes => by
    rw [withSpanOf, charsOf_cons, charsOf_cons, chars_withSpan span node,
      charsOf_withSpanOf span nodes]

end

/-- Trees that differ in their numbers only cover the same characters. -/
theorem chars_eq_of_erase_eq {left right : Node} (herase : left.erase = right.erase) :
    left.chars = right.chars := by
  rw [← chars_withSpan detached left, ← chars_withSpan detached right]
  exact congrArg chars herase

/-- So do runs of siblings. -/
theorem charsOf_eq_of_map_erase_eq {left right : List Node}
    (herase : left.map erase = right.map erase) : charsOf left = charsOf right := by
  rw [← charsOf_withSpanOf detached left, ← charsOf_withSpanOf detached right,
    withSpanOf_eq_map, withSpanOf_eq_map]
  exact congrArg charsOf herase

mutual

theorem size_withSpan (span : Int) : ∀ node : Node, (node.withSpan span).size = node.size
  | ⟨_, _, children, _, _⟩ => by rw [withSpan, size, size, sizeOf_withSpanOf span children]

theorem sizeOf_withSpanOf (span : Int) : ∀ nodes : List Node,
    sizeOf (withSpanOf span nodes) = sizeOf nodes
  | [] => rfl
  | node :: nodes => by
    rw [withSpanOf, sizeOf, sizeOf, size_withSpan span node, sizeOf_withSpanOf span nodes]

end

/-- They are also of the same size. -/
theorem size_eq_of_erase_eq {left right : Node} (herase : left.erase = right.erase) :
    left.size = right.size := by
  rw [← size_withSpan detached left, ← size_withSpan detached right]
  exact congrArg size herase

end Galley.Syntax.Node
