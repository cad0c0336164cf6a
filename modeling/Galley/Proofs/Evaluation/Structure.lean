import Galley.Proofs.World.Reached

/-!
# The grammar and evaluation agree

A text without syntax errors has a tree in which every node is as evaluation
expects it: no child is missing or stands elsewhere, no leaf has a text that
cannot be read, and no node of a kind without a value is ever visited.
-/

namespace Galley.Compile

open Syntax Document

/-- What shows that evaluation has met a node that it is not made for. -/
def Stop.IsStructural : Stop → Prop
  | .report _ (.cannotEvaluate _) => True
  | .report _ _ => False
  | .failure cause => Structural cause

theorem not_isStructural_of_allows {source : Nat} {sources : List Source} {α : Type}
    {returns : α → Prop} {stop : Stop}
    (hallows : (growing source sources).Allows returns (.error stop)) : ¬ stop.IsStructural := by
  obtain ⟨span, error⟩ | cause := stop
  · cases error <;> first | exact hallows.2.elim | exact id
  · exact hallows

/-- A source evaluates without meeting a node that evaluation is not made for. -/
structure EvaluatesSoundly (files : File.Tree) (world : World) (source : Source) : Prop where
  /-- Every node has the children and the text of its kind. -/
  shaped : ∀ node ∈ source.root.preorder, Shaped node
  /-- Every node that stands in markup or for a value has a value, whatever is
  known, printed and reported when it is visited. -/
  visited : ∀ node ∈ source.root.preorder, node.kind.isMarkup = true ∨ node.kind.isValue = true →
    ∀ (depth : Nat) (chain : List Nat) (machine : Machine) (stop : Stop), machine.world = world →
      ((evalNode ⟨source.id, loadDocument files chain (evaluate files depth chain)⟩ node).value
        machine).1 = .error stop → ¬ stop.IsStructural
  /-- Nor does the evaluation of the source fail for such a node, be it its own or
  one of a source that it asks for. -/
  evaluated : ∀ (depth : Nat) (route : List Nat) (outside : Surroundings) (failure : Failure),
    outside.world = world →
      (evaluate files depth route source outside).1 = .error failure → ¬ Structural failure

/-- The grammar and evaluation agree on every production: the tree of a text
without syntax errors, however it is numbered, evaluates in every reachable world
without failing for its structure. -/
theorem clean_text_evaluates_soundly (files : File.Tree) {world : World}
    (hworld : world.Reached fun _ => True) (text : String) (hclean : (parse text).errors = [])
    (source : Source) (hroot : source.root.erase = (parse text).erase) :
    EvaluatesSoundly files world source := by
  have hrootClean : source.root.errors = [] := by
    rwa [← Node.errors_withSpan_eq_nil_iff detached,
      show source.root.withSpan detached = _ from hroot, Node.erase,
      Node.errors_withSpan_eq_nil_iff]
  obtain ⟨-, hshape⟩ := shaped_of_erase_eq hroot hrootClean
  refine ⟨hshape, ?_, ?_⟩
  · intro node hnode hkind depth chain machine stop hmachine hstop
    have hload := loadsAlike_growing files chain source.id hworld.faithful
      fun _ _ hsources htext => evaluate_admits_growing files depth chain hsources htext
    have hinner := evaluates hload node (hshape.of_mem hnode) fun _ _ => trivial
    obtain ⟨-, -, hallows⟩ := (hinner.value hkind).run machine (hmachine ▸ .refl)
    rw [hstop] at hallows
    exact not_isStructural_of_allows hallows
  · intro depth route outside failure houtside hfailure
    have hadmits : (growing source.id outside.world.sources).Admits
        (evaluate files depth route source outside) :=
      evaluate_admits_growing files depth route (houtside ▸ hworld.faithful) hroot
    exact hadmits.fails_of_eq_error hfailure

theorem root_detached (text : String) : (Source.detached text).root = parse text := rfl

/-- Markup, an escape, a binding, an equation, arguments of all kinds and a block. -/
theorem clean_text_evaluates_soundly_mixed :
    (parse "*a*\\u\x7b41\x7d #let n = 2\n$m$ #f(x: 1.5pt, (1, -2), \"s\" + n)[b _c_]").errors = [] ∧
    EvaluatesSoundly ⟨[]⟩ { root := { names := ["assets"] } }
      (Source.detached
        "*a*\\u\x7b41\x7d #let n = 2\n$m$ #f(x: 1.5pt, (1, -2), \"s\" + n)[b _c_]") :=
  have hclean : (parse
      "*a*\\u\x7b41\x7d #let n = 2\n$m$ #f(x: 1.5pt, (1, -2), \"s\" + n)[b _c_]").errors = [] := by
    decide +kernel
  ⟨hclean, clean_text_evaluates_soundly ⟨[]⟩ (.new _) _ hclean _
    (congrArg Node.erase (root_detached _))⟩

end Galley.Compile
