import Galley.Proofs.Leaf.Grammar
import Galley.Proofs.Shape.Grammar
import Galley.Proofs.Text.Line

/-!
# Names in a tree

Every identifier of a tree without errors is a word, wherever it stands: as a value, in front of an
argument, or as what a set rule is for.
-/

namespace Galley.Syntax

open Compile (isMeaningful)
open Galley.Text Node

namespace Node

variable {holds : Node → List Char → Prop}

mutual

/-- Every node has its place. -/
theorem EveryPlace.everywhere : ∀ (node : Node) (behind : List Char),
    node.EveryPlace holds behind → node.Everywhere fun inner => ∃ behind, holds inner behind
  | ⟨_, _, children, _, _⟩, behind, hnode => everywhere_iff.2
    ⟨⟨behind, hnode.1⟩, EveryPlaceOf.everywhere children behind hnode.2⟩

theorem EveryPlaceOf.everywhere : ∀ (nodes : List Node) (behind : List Char),
    EveryPlaceOf holds nodes behind → ∀ node ∈ nodes,
      node.Everywhere fun inner => ∃ behind, holds inner behind
  | [], _, _ => List.forall_mem_nil _
  | node :: nodes, behind, hnodes => List.forall_mem_cons.2
    ⟨EveryPlace.everywhere node _ hnodes.1, EveryPlaceOf.everywhere nodes behind hnodes.2⟩

end

end Node

/-- What has the form of an identifier is a word. -/
theorem word_of_form {chars : List Char} (hform : Kind.Form .ident chars) : Word chars := by
  obtain ⟨first, rest, hfirst, hrest, rfl⟩ := hform
  refine ⟨List.cons_ne_nil _ _, List.forall_mem_cons.2 ⟨?_, fun c hc => ?_⟩⟩
  · refine isSpace_of_continuesName (Token.continuesName_of_startsName ?_)
    simpa [startsName] using hfirst
  · refine isSpace_of_continuesName ?_
    simpa [continuesName] using hrest c hc

/-- A name in a tree is a word. -/
def NamesWord (node : Node) : Prop :=
  node.kind = .ident → Word node.text.toList

/-- A node with its shape, in which names are words. -/
structure Worded (node : Node) : Prop where
  shaped : Shaped node
  own : NamesWord node
  children : ∀ child ∈ node.children, NamesWord child

namespace Worded

variable {node : Node}

/-- What stands in front of an argument is a word. -/
theorem argument (hnode : Worded node) (hkind : node.kind = .named) {name expression : Node}
    (hchildren : node.children.filter isMeaningful = [name, expression]) :
    Word name.text.toList := by
  have hname : name ∈ node.children :=
    List.mem_of_mem_filter (hchildren ▸ List.mem_cons_self : name ∈ _)
  have hshape := hnode.shaped
  simp only [Shaped, hkind, Kind.Shape, meaning, hchildren] at hshape
  obtain ⟨value, hmeaning, -⟩ := hshape
  exact hnode.children name hname (List.cons.inj hmeaning).1

/-- What a set rule is for is a word. -/
theorem target (hnode : Worded node) (hkind : node.kind = .setRule)
    {word target arguments : Node}
    (hchildren : node.children.filter isMeaningful = [word, target, arguments]) :
    Word target.text.toList := by
  have htarget : target ∈ node.children := by
    refine List.mem_of_mem_filter (p := isMeaningful) ?_
    rw [hchildren]
    exact List.mem_cons_of_mem _ List.mem_cons_self
  have hshape := hnode.shaped
  simp only [Shaped, hkind, Kind.Shape, meaning, hchildren] at hshape
  exact hnode.children target htarget (List.cons.inj (List.cons.inj hshape).2).1

end Worded

/-- In the tree of a text every leaf has the form of its kind. -/
theorem formed_of_erase_eq {root : Node} {text : String}
    (hroot : root.erase = (parse text).erase) :
    root.Everywhere fun node => node.children = [] → node.kind.Form node.text.toList := by
  have hplaced : root.EveryPlace WellPlaced [] := by
    rw [← everyPlace_withSpan_iff detached (wellPlaced_withSpan_iff detached),
      show root.withSpan detached = (parse text).withSpan detached from hroot,
      everyPlace_withSpan_iff detached (wellPlaced_withSpan_iff detached)]
    exact wellPlaced_parse text
  intro inner hinner
  obtain ⟨behind, hinside⟩ := EveryPlace.everywhere root [] hplaced inner hinner
  exact hinside.form

/-- In the tree of a text without errors every name is a word. -/
theorem worded_of_erase_eq {root : Node} {text : String}
    (hroot : root.erase = (parse text).erase) (hclean : root.errors = []) :
    root.Everywhere Worded := by
  have hshaped := (shaped_of_erase_eq hroot hclean).2
  have hnames : root.Everywhere NamesWord := by
    intro inner hinner hkind
    have hshape := hshaped inner hinner
    rw [Shaped, hkind] at hshape
    have hform := formed_of_erase_eq hroot inner hinner (List.map_eq_nil_iff.1 hshape.1)
    rw [hkind] at hform
    exact word_of_form hform
  intro inner hinner
  refine ⟨hshaped inner hinner, hnames inner hinner, fun child hchild => ?_⟩
  exact ((everywhere_iff.1 (hnames.of_mem hinner)).2 child hchild) child
    (preorder_eq child ▸ List.mem_cons_self)

end Galley.Syntax
