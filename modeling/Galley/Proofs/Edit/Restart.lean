import Galley.Proofs.Edit.Reparse
import Galley.Proofs.Locality.Lookahead

/-!
# Parsing starts again at every top-level node

A step of the grammar is given the characters from its place on and nothing in front of them, and
one top-level node leaves to the next one the characters behind itself.  So the text from a
top-level node on is read as the nodes from there on, and nothing in front of a node has a part in
it.  An update relies on this where it starts to parse.
-/

namespace Galley.Syntax

open Node

/-- The text from a place on. -/
def textFrom (text : String) (place : Nat) : String :=
  String.ofList (text.toList.drop place)

/-- Where a top-level node of a text starts, or the place behind the last one. -/
def startOf (text : String) (index : Nat) : Nat :=
  charLenOf ((parse text).children.take index)

theorem toList_textFrom (text : String) (place : Nat) :
    (textFrom text place).toList = text.toList.drop place :=
  String.toList_ofList

/-- Behind some top-level nodes the text is that of the others. -/
theorem drop_startOf (text : String) (index : Nat) :
    text.toList.drop (startOf text index) =
      charsOf ((Grammar.topLevel text.toList).drop index) := by
  have hchars := Grammar.charsOf_topLevel text.toList
  rw [← List.take_append_drop index (Grammar.topLevel text.toList), charsOf_append] at hchars
  rw [startOf, charLenOf_take_children_parse]
  nth_rewrite 2 [← hchars]
  exact List.drop_left

/-- And it is read as these others. -/
theorem topLevel_drop_startOf (text : String) (index : Nat) :
    Grammar.topLevel (text.toList.drop (startOf text index)) =
      (Grammar.topLevel text.toList).drop index := by
  rw [drop_startOf]
  exact Grammar.topLevel_charsOf_of_append (List.take_append_drop index _).symm

theorem map_erase_children_textFrom (text : String) (index : Nat) :
    (parse (textFrom text (startOf text index))).children.map erase =
      ((parse text).children.drop index).map erase := by
  rw [map_erase_children_parse, toList_textFrom, topLevel_drop_startOf, List.map_drop,
    List.map_drop, map_erase_children_parse]

/-- Behind some top-level nodes the others start where they do in the text that is left. -/
theorem startOf_add (text : String) (index count : Nat) : startOf text (index + count) =
    startOf text index + startOf (textFrom text (startOf text index)) count := by
  have hnodes := congrArg (List.take count) (map_erase_children_textFrom text index)
  rw [← List.map_take, ← List.map_take] at hnodes
  have hbehind : startOf (textFrom text (startOf text index)) count =
      (charsOf (((parse text).children.drop index).take count)).length := by
    rw [startOf, charLenOf_eq, charsOf_eq_of_map_erase_eq hnodes]
  rw [hbehind, startOf, startOf, List.take_add, charLenOf_eq, charLenOf_eq, charsOf_append,
    List.length_append]

/-- The incremental parser reads them from their place on if there is nothing to keep. -/
theorem resume_nil (text : String) (index : Nat) {fuel : Nat} (hfuel : text.length < fuel) :
    ∃ nodes, Reparse.resume [] fuel (startOf text index)
        (text.toList.drop (startOf text index)) = (nodes, []) ∧
      nodes.map erase = ((parse text).children.drop index).map erase := by
  have hlength : (text.toList.drop (startOf text index)).length < fuel := by
    rw [List.length_drop, String.length_toList]
    omega
  have hnodes := @Reparse.map_erase_resume text.toList []
    (fun _ hanchor => absurd hanchor List.not_mem_nil) fuel _ _ hlength rfl
  -- Only at an anchor anything is kept.
  have hkept := Reparse.resume_kept [] fuel (startOf text index)
    (text.toList.drop (startOf text index))
  rcases hresume : Reparse.resume [] fuel (startOf text index)
    (text.toList.drop (startOf text index)) with ⟨parsed, kept⟩
  rw [hresume] at hnodes hkept
  obtain rfl : kept = [] := hkept.resolve_right fun ⟨_, hanchor, _⟩ =>
    absurd hanchor List.not_mem_nil
  refine ⟨parsed, rfl, ?_⟩
  rw [List.append_nil, topLevel_drop_startOf] at hnodes
  rw [hnodes, List.map_drop, List.map_drop, map_erase_children_parse]

/-- Where the text from a place on is read as the last top-level nodes, one of them starts. -/
theorem exists_startOf_eq {text : String} {place : Nat} {front : List Node}
    (hplace : place ≤ text.length)
    (hnodes : (parse text).children.map erase =
      front ++ (parse (textFrom text place)).children.map erase) :
    ∃ index, startOf text index = place := by
  obtain ⟨before, behind, hchildren, -, hbehind⟩ := List.map_eq_append_iff.1 hnodes
  have hchars : charsOf (parse text).children = text.toList := by
    rw [charsOf_eq_of_map_erase_eq (map_erase_children_parse text), Grammar.charsOf_topLevel]
  have hrest : charsOf behind = text.toList.drop place := by
    rw [charsOf_eq_of_map_erase_eq hbehind,
      charsOf_eq_of_map_erase_eq (map_erase_children_parse _), Grammar.charsOf_topLevel,
      toList_textFrom]
  have hlength := congrArg List.length hchars
  rw [hchildren, charsOf_append, hrest, List.length_append, List.length_drop,
    String.length_toList] at hlength
  refine ⟨before.length, ?_⟩
  rw [startOf, hchildren, List.take_left, charLenOf_eq]
  omega

/-- Parsing starts again at a top-level node, up to the numbers of the nodes. -/
structure Restarts (text : String) (index : Nat) : Prop where
  /-- The text from there on is read as the nodes from there on. -/
  nodes : (parse (textFrom text (startOf text index))).children.map erase =
    ((parse text).children.drop index).map erase
  /-- Each of them starts as far behind the first one. -/
  starts : ∀ count, startOf text (index + count) =
    startOf text index + startOf (textFrom text (startOf text index)) count
  /-- The incremental parser finds them in place if nothing is kept. -/
  resumed : ∀ fuel, text.length < fuel → ∃ nodes,
    Reparse.resume [] fuel (startOf text index) (text.toList.drop (startOf text index)) =
      (nodes, []) ∧
    nodes.map erase = ((parse text).children.drop index).map erase
  /-- They are those of every text that goes on like this behind a top-level node. -/
  alike : ∀ text' index',
    textFrom text' (startOf text' index') = textFrom text (startOf text index) →
    ((parse text').children.drop index').map erase = ((parse text).children.drop index).map erase

/-- Parsing starts again at every top-level node as if nothing stood in front of it, and it does so
at no other place. -/
theorem parse_restarts (text : String) :
    (∀ index, Restarts text index) ∧
    ∀ place ≤ text.length,
      (∃ front, (parse text).children.map erase =
        front ++ (parse (textFrom text place)).children.map erase) ↔
      ∃ index, startOf text index = place := by
  constructor
  · intro index
    exact {
      nodes := map_erase_children_textFrom text index
      starts := startOf_add text index
      resumed := fun _ => resume_nil text index
      alike := fun text' index' hsame => by
        rw [← map_erase_children_textFrom, ← map_erase_children_textFrom, hsame] }
  · intro place hplace
    constructor
    · rintro ⟨front, hnodes⟩
      exact exists_startOf_eq hplace hnodes
    · rintro ⟨index, rfl⟩
      refine ⟨((parse text).children.take index).map erase, ?_⟩
      rw [map_erase_children_textFrom, ← List.map_append, List.take_append_drop]

end Galley.Syntax
