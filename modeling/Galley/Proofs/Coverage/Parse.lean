import Galley.Proofs.Coverage.Grammar
import Galley.Proofs.Span.Numbering
import Mathlib.Data.String.Basic

/-!
# Parsing loses nothing

The grammar never runs out of fuel on a whole text, so the tree of a text holds
each of its characters in exactly one leaf.  Every top-level node is at least
one character long, which is what bounds the nodes in front of an edit.
-/

namespace Galley.Syntax

open Galley.Text Node

theorem utf8Len_eq_byteLength (chars : List Char) : String.utf8Len chars = byteLength chars := by
  induction chars with
  | nil => rfl
  | cons c chars ih => rw [String.utf8Len_cons, byteLength_cons, ih, Nat.add_comm]

theorem byteLength_toList (text : String) : byteLength text.toList = text.utf8ByteSize := by
  rw [← utf8Len_eq_byteLength, ← String.utf8ByteSize_ofList, String.ofList_toList]

namespace Grammar

/-- The budget is enough for a whole text, and only its end stops the markup. -/
theorem markup_budget (chars : List Char) :
    markup (budget chars) [] chars = some (topLevel chars, []) ∧
      CoversRun [] chars (topLevel chars) [] := by
  obtain ⟨nodes, rest, hanswer, hcovers⟩ :=
    (covering (budget chars)).markup [] chars (by rw [budget]; omega)
  have hrest : rest = [] := by
    cases rest with
    | nil => rfl
    | cons c after => simpa using hcovers.stopped c after rfl
  subst hrest
  have htop : topLevel chars = nodes := by rw [topLevel, hanswer]
  rw [htop]
  exact ⟨hanswer, hcovers⟩

@[simp]
theorem charsOf_topLevel (chars : List Char) : charsOf (topLevel chars) = chars := by
  simpa using (markup_budget chars).2.append

theorem chars_ne_nil_of_mem_topLevel {chars : List Char} {node : Node}
    (hnode : node ∈ topLevel chars) : node.chars ≠ [] :=
  (markup_budget chars).2.full node hnode

end Grammar

theorem erase_parse (text : String) :
    (parse text).erase = (inner .markup (Grammar.topLevel text.toList)).erase :=
  erase_numberRoot _

theorem map_erase_children_parse (text : String) :
    (parse text).children.map erase = (Grammar.topLevel text.toList).map erase := by
  rw [← children_erase, erase_parse, children_erase]
  rfl

@[simp]
theorem chars_parse (text : String) : (parse text).chars = text.toList := by
  rw [chars_eq_of_erase_eq (erase_parse text), chars_inner, Grammar.charsOf_topLevel]

/-- Every top-level node of a parsed text covers a character. -/
theorem chars_ne_nil_of_mem_children_parse {text : String} {node : Node}
    (hnode : node ∈ (parse text).children) : node.chars ≠ [] := by
  have hmem : node.erase ∈ (Grammar.topLevel text.toList).map erase := by
    rw [← map_erase_children_parse]
    exact List.mem_map_of_mem hnode
  obtain ⟨top, htop, herase⟩ := List.mem_map.1 hmem
  rw [chars_eq_of_erase_eq herase.symm]
  exact Grammar.chars_ne_nil_of_mem_topLevel htop

/-- Parsing is total and lossless: the grammar answers on every text and leaves
nothing behind, the leaves of the tree are the text from left to right, all
lengths are those of the text, and no top-level node is empty. -/
theorem parse_lossless (text : String) :
    (∃ nodes, Grammar.markup (Grammar.budget text.toList) [] text.toList = some (nodes, []) ∧
      parse text = (inner .markup nodes).numberRoot) ∧
    ((parse text).leaves.flatMap fun leaf => leaf.text.toList) = text.toList ∧
    (parse text).fullText = text ∧
    (parse text).byteLen = text.utf8ByteSize ∧
    (parse text).charLen = text.length ∧
    ∀ node ∈ (parse text).children, 1 ≤ node.charLen := by
  refine ⟨⟨_, (Grammar.markup_budget text.toList).1, rfl⟩, ?_, ?_, ?_, ?_, ?_⟩
  · rw [← chars_eq_flatMap_leaves, chars_parse]
  · rw [fullText, chars_parse, String.ofList_toList]
  · rw [byteLen_eq, chars_parse, byteLength_toList]
  · rw [charLen_eq, chars_parse, String.length_toList]
  · intro node hnode
    rw [charLen_eq]
    exact List.length_pos_iff.2 (chars_ne_nil_of_mem_children_parse hnode)

end Galley.Syntax
