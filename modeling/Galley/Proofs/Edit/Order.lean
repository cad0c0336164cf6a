import Galley.Proofs.Edit.History
import Galley.Proofs.Span.Order

/-!
# Spans stay in order

Every accepted change leaves the tree in order: an update numbers its new nodes
between their neighbours, and when the gap is too small for them, or the text
is parsed from scratch, the whole tree is numbered anew.
-/

namespace Galley.Syntax

open Node

/-- A whole tree in order. -/
structure WellNumbered (root : Node) : Prop where
  first : root.span = firstSpan
  order : InOrder firstSpan upperSpan [root]

/-- There are enough numbers for the nodes of a tree. -/
def Fits (root : Node) : Prop :=
  (root.size : Int) ≤ upperSpan - firstSpan

instance : DecidablePred Fits :=
  fun root => inferInstanceAs (Decidable ((root.size : Int) ≤ upperSpan - firstSpan))

namespace WellNumbered

theorem numberRoot {root : Node} (hfits : Fits root.numberRoot) :
    WellNumbered root.numberRoot := by
  have hsize := size_eq_of_erase_eq (erase_numberRoot root)
  rw [Fits, hsize] at hfits
  obtain ⟨hfirst, horder⟩ := inOrder_numberRoot hfits
  exact ⟨hfirst, horder⟩

theorem reparse {root updated : Node} {chars : List Char} {start oldEnd newEnd : Nat}
    (hroot : WellNumbered root) (hfits : Fits updated)
    (hreparse : Syntax.reparse root chars start oldEnd newEnd = some updated) :
    WellNumbered updated := by
  rcases hfound : Reparse.found root.children chars start oldEnd newEnd with ⟨parsed, kept⟩
  obtain ⟨numbered, rfl, hnumber⟩ | rfl := reparse_eq_some hfound hreparse
  · have hchildren : root.children ≠ [] := by
      intro hnil
      rw [Syntax.reparse, hnil] at hreparse
      cases hreparse
    obtain ⟨node, dropped, hdrop⟩ := Reparse.drop_firstIndex_of_found hchildren hfound
    obtain ⟨hbounds, horder, -⟩ := inOrder_cons_iff.1 hroot.order
    rw [← List.take_append_drop (Reparse.firstIndex root.children start) root.children,
      hdrop] at horder
    have hnumbered := inOrder_numberWithin hnumber
    rw [hdrop] at hnumbered
    refine ⟨hroot.first, inOrder_cons_iff.2 ⟨hbounds, ?_, inOrder_nil _ _⟩⟩
    exact horder.replace hnumbered
  · exact numberRoot hfits

theorem spliced {source : Source} {before middle replacement after : List Char}
    (hroot : WellNumbered source.root)
    (hfits : Fits (source.spliced before middle replacement after).root) :
    WellNumbered (source.spliced before middle replacement after).root := by
  cases hreparse : Syntax.reparse source.root (before ++ replacement ++ after) before.length
    (before ++ middle).length (before.length + replacement.length) with
  | none =>
    rw [Source.spliced, hreparse, Option.getD_none] at hfits ⊢
    exact numberRoot hfits
  | some updated =>
    rw [Source.spliced, hreparse, Option.getD_some] at hfits ⊢
    exact hroot.reparse hfits hreparse

theorem apply {source next : Source} {change : Change} (hroot : WellNumbered source.root)
    (hfits : Fits next.root) (hnext : change.apply source = .ok next) :
    WellNumbered next.root := by
  cases change with
  | edit start stop replacement =>
    obtain ⟨before, middle, after, -, -, -, rfl⟩ := Source.edit_eq_ok_iff.1 hnext
    exact hroot.spliced hfits
  | replace text =>
    obtain rfl := Except.ok.inj hnext
    exact numberRoot hfits

end WellNumbered

theorem wellNumbered_throughout {id : Nat} {path : File.Path} {text : String}
    {changes : List Change}
    (hfits : Throughout (fun source => Fits source.root) (Source.new id path text) changes) :
    Throughout (fun source => WellNumbered source.root) (Source.new id path text) changes :=
  hfits.of_step (.numberRoot hfits.here) fun hroot hnext happly => hroot.apply hnext happly

/-- Span order survives every history of accepted changes whose trees do not run
out of numbers. -/
theorem spans_in_order_throughout (id : Nat) (path : File.Path) (text : String)
    (changes : List Change)
    (hfits : Throughout (fun source => (source.root.size : Int) ≤ upperSpan - firstSpan)
      (Source.new id path text) changes) :
    Throughout
      (fun source =>
        source.root.span = firstSpan ∧
        (source.root.preorder.map span).Pairwise (· < ·) ∧
        (∀ node ∈ source.root.preorder, firstSpan ≤ node.span ∧ node.span < upperSpan) ∧
        source.root.spanViolation = none)
      (Source.new id path text) changes := by
  apply (wellNumbered_throughout hfits).imp
  rintro source ⟨hfirst, horder⟩
  have hascending := horder.ascending
  have hwithin := horder.within
  rw [spansOf_singleton] at hascending hwithin
  refine ⟨hfirst, hascending, fun node hnode => hwithin _ (List.mem_map_of_mem hnode), ?_⟩
  rw [spanViolation, checkSpans_eq_none_iff]
  exact horder.mono (by decide) (by decide)

/-- Nodes replaced in the middle and at both ends, and a tree that becomes empty
and is filled again. -/
theorem spans_in_order_throughout_gap :
    Throughout (fun source => (source.root.size : Int) ≤ upperSpan - firstSpan)
      (Source.new 0 { names := ["m"] } "a b\n*c* é _d_")
      [.edit 5 6 "x y", .edit 0 0 "#f(1", .edit 3 4 ")", .replace "", .edit 0 0 "_"] ∧
    Throughout
      (fun source =>
        source.root.span = firstSpan ∧
        (source.root.preorder.map span).Pairwise (· < ·) ∧
        (∀ node ∈ source.root.preorder, firstSpan ≤ node.span ∧ node.span < upperSpan) ∧
        source.root.spanViolation = none)
      (Source.new 0 { names := ["m"] } "a b\n*c* é _d_")
      [.edit 5 6 "x y", .edit 0 0 "#f(1", .edit 3 4 ")", .replace "", .edit 0 0 "_"] :=
  have hfits : Throughout (fun source => (source.root.size : Int) ≤ upperSpan - firstSpan)
      (Source.new 0 { names := ["m"] } "a b\n*c* é _d_")
      [.edit 5 6 "x y", .edit 0 0 "#f(1", .edit 3 4 ")", .replace "", .edit 0 0 "_"] := by
    decide +kernel
  ⟨hfits, spans_in_order_throughout 0 { names := ["m"] } "a b\n*c* é _d_" _ hfits⟩

end Galley.Syntax
