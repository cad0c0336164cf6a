import Galley.Proofs.Span.Lookup
import Galley.Proofs.World.Reached

/-!
# Every diagnostic can be located

An evaluation reports at spans of its own tree only, and it adds what documents
report that it asks for, which are sources of the same world.  Trees are in
order, so the span of a diagnostic is found again.
-/

namespace Galley.Compile

open Syntax Document

/-- A diagnostic names one of the sources and the span of a node of its tree. -/
def Diagnostic.Within (sources : List Source) (diagnostic : Diagnostic) : Prop :=
  ∃ (id : Nat) (source : Source), diagnostic.source = id ∧ sources[id]? = some source ∧
    ∃ node ∈ source.root.preorder, node.span = diagnostic.span

namespace Grown

variable {before after : List Source}

theorem getElem? (hgrown : Grown before after) {id : Nat} {source : Source}
    (hsource : before[id]? = some source) : after[id]? = some source := by
  obtain ⟨loaded, rfl⟩ := hgrown.isPrefix
  rw [List.getElem?_append_left (List.getElem?_eq_some_iff.1 hsource).1, hsource]

theorem within (hgrown : Grown before after) {diagnostic : Diagnostic}
    (hwithin : diagnostic.Within before) : diagnostic.Within after := by
  obtain ⟨id, source, hid, hsource, hnode⟩ := hwithin
  exact ⟨id, source, hid, hgrown.getElem? hsource, hnode⟩

end Grown

mutual

theorem mem_preorder_of_mem_errors {inner : Node} : ∀ node : Node, inner ∈ node.errors →
    inner ∈ node.preorder
  | ⟨kind, text, children, span, message⟩, hinner => by
    rw [Node.errors] at hinner
    rw [Node.preorder]
    split at hinner
    · rw [List.mem_singleton.1 hinner]
      exact List.mem_cons_self
    · exact List.mem_cons_of_mem _ (mem_preorderOf_of_mem_errorsOf children hinner)

theorem mem_preorderOf_of_mem_errorsOf {inner : Node} : ∀ nodes : List Node,
    inner ∈ Node.errorsOf nodes → inner ∈ Node.preorderOf nodes
  | node :: nodes, hinner => by
    rw [Node.errorsOf] at hinner
    rw [Node.preorderOf]
    exact (List.mem_append.1 hinner).elim
      (fun hfirst => List.mem_append_left _ (mem_preorder_of_mem_errors node hfirst))
      fun hrest => List.mem_append_right _ (mem_preorderOf_of_mem_errorsOf nodes hrest)

end

theorem within_syntaxDiagnostics {sources : List Source} {source : Source}
    (hsource : sources[source.id]? = some source) :
    ∀ diagnostic ∈ syntaxDiagnostics source, diagnostic.Within sources := by
  refine List.forall_mem_map.2 fun node hnode => ?_
  exact ⟨source.id, source, rfl, hsource, node, mem_preorder_of_mem_errors _ hnode, rfl⟩

/-- Files are loaded, and all that is reported lies within the sources. -/
def locating (source : Source) {sources : List Source}
    (hsource : sources[source.id]? = some source) : Promise source.id where
  keeps world diagnostics := Grown sources world.sources ∧
    ∀ diagnostic ∈ diagnostics, diagnostic.Within world.sources
  spans span := ∃ node ∈ source.root.preorder, node.span = span
  fails _ := True
  keeps_report := by
    rintro world diagnostics span error ⟨hgrown, hwithin⟩ hspan -
    refine ⟨hgrown, List.forall_mem_append.2 ⟨hwithin, List.forall_mem_singleton.2 ?_⟩⟩
    exact ⟨source.id, source, rfl, hgrown.getElem? hsource, hspan⟩
  fails_of_document _ := trivial

theorem evaluate_admits_locating (files : File.Tree) (depth : Nat) (route : List Nat)
    {source : Source} {outside : Surroundings} (hfaithful : Faithful outside.world.sources)
    (hnumbered : Numbered outside.world.sources)
    (hsource : outside.world.sources[source.id]? = some source) :
    (locating source hsource).Admits (evaluate files depth route source outside) := by
  induction depth generalizing route source outside with
  | zero => exact ⟨trivial, [], .refl, List.forall_mem_nil _⟩
  | succ depth ih =>
    rw [evaluate]
    have htext := hfaithful source (List.mem_of_getElem? hsource)
    have hspans : source.root.Everywhere fun node =>
        ∃ other ∈ source.root.preorder, other.span = node.span :=
      fun node hnode => ⟨node, hnode, rfl⟩
    have hload : LoadsAlike (locating source hsource)
        (loadDocument files (route ++ [source.id]) (evaluate files depth (route ++ [source.id])))
        (loadDocument files (route ++ [source.id])
          (evaluate files depth (route ++ [source.id]))) := by
      intro span path hspan
      apply runs_loadDocument hspan
      · rintro world diagnostics path ⟨hgrown, hwithin⟩
        have hresolve := world.grown_resolve files path
        exact ⟨hgrown.trans hresolve, fun diagnostic hdiagnostic =>
          hresolve.within (hwithin diagnostic hdiagnostic)⟩
      · rintro world diagnostics id asked printed computations ⟨hgrown, hwithin⟩ - hasked
        have hfound := World.source_eq_ok_iff.1 hasked
        have hregistered : world.sources[asked.id]? = some asked := by
          rwa [hgrown.numbered hnumbered id asked hfound]
        have hadmits : (locating asked hregistered).Admits
            (evaluate files depth (route ++ [source.id]) asked ⟨world, printed, computations⟩) :=
          ih _ (hgrown.faithful hfaithful) (hgrown.numbered hnumbered) hregistered
        refine ⟨rfl, hadmits.absorbs ?_ fun _ _ => trivial⟩
        rintro after reported ⟨hafter, hreported⟩
        have hstill : ∀ diagnostic ∈ diagnostics, diagnostic.Within after.sources :=
          fun diagnostic hdiagnostic => hafter.within (hwithin diagnostic hdiagnostic)
        exact ⟨⟨hgrown.trans hafter, hstill⟩,
          hgrown.trans hafter, List.forall_mem_append.2 ⟨hstill, hreported⟩⟩
    exact (evaluateOn_alike htext hload hspans ⟨.refl, List.forall_mem_nil _⟩
      ⟨.refl, within_syntaxDiagnostics hsource⟩).2

/-- A diagnostic is found in a world: it names a source that is registered there
under its id, and a node of its tree, whose bytes are the range of the
diagnostic. -/
def Diagnostic.FoundIn (world : World) (diagnostic : Diagnostic) : Prop :=
  ∃ source node, world.source diagnostic.source = .ok source ∧
    (source.id : Int) = diagnostic.source ∧ node ∈ source.root.preorder ∧
      node.span = diagnostic.span ∧
        ∃ start, diagnostic.range world = .ok (some (start, start + node.byteLen))

theorem Diagnostic.Within.foundIn {world : World} {diagnostic : Diagnostic}
    (hwithin : diagnostic.Within world.sources) (hnumbered : Numbered world.sources)
    (horder : ∀ source ∈ world.sources, WellNumbered source.root) : diagnostic.FoundIn world := by
  obtain ⟨id, source, hid, hsource, node, hnode, hspan⟩ := hwithin
  have hfound : world.source diagnostic.source = .ok source := by
    rw [hid]
    exact World.source_eq_ok_iff.2 hsource
  obtain ⟨before, after, -, hrange⟩ := Node.foundAt_rangeFrom _ _ source.root
    (horder source (List.mem_of_getElem? hsource)).order hnode
  refine ⟨source, node, hfound, ?_, hnode, hspan, Node.leafBytes before, ?_⟩
  · rw [hid, hnumbered id source hsource]
  · rw [Diagnostic.range, hfound, ← hspan]
    show Except.ok (source.root.rangeFrom node.span 0) = _
    rw [show source.root.rangeFrom node.span 0 = _ from hrange 0, Nat.zero_add]

theorem found_of_evaluate {files : File.Tree} {outside after : Surroundings}
    (hworld : outside.world.Reached fun source => Fits source.root) {source : Source}
    (hsource : source ∈ outside.world.sources) {depth : Nat} {route : List Nat} {module : Module}
    (hevaluate : evaluate files depth route source outside = (.ok module, after))
    (hfits : ∀ loaded ∈ after.world.sources, Fits loaded.root) :
    ∀ diagnostic ∈ module.diagnostics, diagnostic.FoundIn after.world := by
  obtain ⟨id, hid⟩ := List.mem_iff_getElem?.1 hsource
  have hregistered : outside.world.sources[source.id]? = some source := by
    rwa [hworld.numbered id source hid]
  have hadmits := evaluate_admits_locating files depth route hworld.faithful hworld.numbered
    hregistered
  rw [hevaluate] at hadmits
  obtain ⟨hgrown, hwithin⟩ := hadmits
  have horder : ∀ loaded ∈ after.world.sources, WellNumbered loaded.root :=
    hgrown.forall_mem hworld.wellNumbered fun _ _ _ hmem => .numberRoot (hfits _ hmem)
  exact fun diagnostic hdiagnostic =>
    (hwithin diagnostic hdiagnostic).foundIn (hgrown.numbered hworld.numbered) horder

theorem main_mem_sources {world : World} {source : Source} (hmain : world.main = .ok source) :
    source ∈ world.sources := by
  obtain ⟨id, -, -, hplace⟩ := World.main_eq_ok_iff.1 hmain
  exact List.mem_of_getElem? hplace

/-- What compiling reports is what evaluating the main source reports. -/
theorem main_of_compile {files : File.Tree} {outside after : Surroundings}
    {compiled : Compiled} (hcompile : compile files outside = (.ok compiled, after)) :
    ∃ source, outside.world.main = .ok source ∧
      evaluateSource files source outside = (.ok compiled.module, after) := by
  rw [compile] at hcompile
  split at hcompile
  · cases hcompile
  · rename_i source hmain
    refine ⟨source, hmain, ?_⟩
    generalize evaluateSource files source outside = outcome at hcompile ⊢
    obtain ⟨failure | module, reached⟩ := outcome
    · cases hcompile
    · cases hcompile
      rfl

theorem evaluateSource_of_compile {files : File.Tree} {outside after : Surroundings}
    {compiled : Compiled} (hcompile : compile files outside = (.ok compiled, after)) :
    ∃ source ∈ outside.world.sources,
      evaluateSource files source outside = (.ok compiled.module, after) := by
  obtain ⟨source, hmain, hevaluate⟩ := main_of_compile hcompile
  exact ⟨source, main_mem_sources hmain, hevaluate⟩

/-- Every diagnostic can be located, as long as no tree runs out of numbers: in a
reachable world, whatever evaluating one of its sources or compiling the main
source reports names a registered source and a node of its tree, also if it comes
from a document that was asked for on the way. -/
theorem diagnostics_found (files : File.Tree) (outside : Surroundings)
    (hworld : outside.world.Reached fun source => Fits source.root) :
    (∀ source ∈ outside.world.sources, ∀ depth route module after,
      evaluate files depth route source outside = (.ok module, after) →
        (∀ loaded ∈ after.world.sources, Fits loaded.root) →
          ∀ diagnostic ∈ module.diagnostics, diagnostic.FoundIn after.world) ∧
    ∀ compiled after, compile files outside = (.ok compiled, after) →
      (∀ loaded ∈ after.world.sources, Fits loaded.root) →
        ∀ diagnostic ∈ compiled.module.diagnostics, diagnostic.FoundIn after.world := by
  constructor
  · intro source hsource depth route module after hevaluate hfits
    exact found_of_evaluate hworld hsource hevaluate hfits
  · intro compiled after hcompile hfits
    obtain ⟨source, hsource, hevaluate⟩ := evaluateSource_of_compile hcompile
    exact found_of_evaluate hworld hsource hevaluate hfits

/-- A main source that asks for a document inside a strong node.  Both use a name
that nobody knows. -/
def unknownNames : File.Tree × Surroundings :=
  (⟨[(["a"], .file (.bytes "#y".toUTF8))]⟩,
    { world := (World.set { root := .current } { names := ["m"] } "#x *#include(\"a\")*").2 })

/-- The second diagnostic comes from the document that is asked for. -/
theorem diagnostics_found_unknownNames :
    unknownNames.2.world.Reached (fun source => Fits source.root) ∧
    ∃ compiled after, compile unknownNames.1 unknownNames.2 = (.ok compiled, after) ∧
      compiled.module.diagnostics.map Diagnostic.source = [0, 1] ∧
      ∀ diagnostic ∈ compiled.module.diagnostics, diagnostic.FoundIn after.world := by
  have hworld : unknownNames.2.world.Reached fun source => Fits source.root :=
    .step (.new _) (.set _ _ _) (by decide +kernel)
  have hrun : (match compile unknownNames.1 unknownNames.2 with
      | (.ok compiled, after) =>
        decide (compiled.module.diagnostics.map Diagnostic.source = [0, 1] ∧
          ∀ loaded ∈ after.world.sources, Fits loaded.root)
      | _ => false) = true := by
    decide +kernel
  cases hcompile : compile unknownNames.1 unknownNames.2 with
  | mk result after =>
    rw [hcompile] at hrun
    cases result with
    | error failure => cases hrun
    | ok compiled =>
      obtain ⟨hsources, hfits⟩ := of_decide_eq_true hrun
      exact ⟨hworld, compiled, after, rfl, hsources,
        (diagnostics_found unknownNames.1 unknownNames.2 hworld).2 compiled after hcompile hfits⟩

end Galley.Compile
