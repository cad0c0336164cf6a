import Galley.Proofs.Edit.History
import Galley.Proofs.Evaluation.Source

/-!
# Evaluation only loads files

Whatever an evaluation does, the world behind it is the one in front of it with
the sources of some files added.  Since the trees of all sources are those of
their texts, no failure on the way is one of a tree.
-/

namespace Galley.Compile

open Syntax Document

/-- The tree of each source is that of its text. -/
def Faithful (sources : List Source) : Prop :=
  ∀ source ∈ sources, source.root.erase = (parse source.text).erase

theorem Grown.faithful {before after : List Source} (hgrown : Grown before after)
    (hbefore : Faithful before) : Faithful after :=
  hgrown.forall_mem hbefore fun _ _ _ _ => rfl

/-- A failure that shows that a tree is not as evaluation expects it. -/
def Structural : Failure → Prop
  | .malformed _ | .invalidInteger _ => True
  | _ => False

/-- Nothing but loaded files is added to the sources, and no failure is one of a
tree. -/
def growing (source : Nat) (sources : List Source) : Promise source where
  keeps world _ := Grown sources world.sources
  spans _ := True
  fails failure := ¬ Structural failure
  keeps_report hkeeps _ _ := hkeeps
  fails_of_document := by
    intro failure hfailure
    cases failure <;> first | exact hfailure.elim | exact id

/-- What is loaded for a document that is asked for, and whatever is loaded while
it is evaluated, is added as well. -/
theorem loadsAlike_growing (files : File.Tree) (chain : List Nat)
    {enter : Source → Surroundings → Except Failure Module × Surroundings} {sources : List Source}
    (id : Nat) (hsources : Faithful sources)
    (henter : ∀ asked outside, Faithful outside.world.sources →
      asked.root.erase = (parse asked.text).erase →
        (growing asked.id outside.world.sources).Admits (enter asked outside)) :
    LoadsAlike (growing id sources) (loadDocument files chain enter)
      (loadDocument files chain enter) := by
  intro span path hspan
  apply runs_loadDocument hspan
  · intro world diagnostics path hgrown
    exact hgrown.trans (world.grown_resolve files path)
  · intro world diagnostics id asked printed computations hgrown _ hasked
    have hworld := hgrown.faithful hsources
    have hmem := List.mem_of_getElem? (World.source_eq_ok_iff.1 hasked)
    have hadmits := henter asked ⟨world, printed, computations⟩ hworld (hworld asked hmem)
    refine ⟨rfl, hadmits.absorbs (fun after _ hafter => ?_) fun _ hfails => hfails⟩
    exact ⟨hgrown.trans hafter, hgrown.trans hafter⟩

/-- However deep documents ask for others, evaluation only loads files, and no
failure is one of a tree. -/
theorem evaluate_admits_growing (files : File.Tree) (depth : Nat) (route : List Nat)
    {source : Source} {outside : Surroundings} {text : String}
    (hsources : Faithful outside.world.sources)
    (htext : source.root.erase = (parse text).erase) :
    (growing source.id outside.world.sources).Admits
      (evaluate files depth route source outside) := by
  induction depth generalizing route source outside text with
  | zero => exact ⟨id, [], .refl⟩
  | succ depth ih =>
    rw [evaluate]
    have hload := loadsAlike_growing files (route ++ [source.id]) source.id hsources
      fun _ _ => ih (route ++ [source.id])
    exact (evaluateOn_alike htext hload (fun _ _ => trivial) .refl .refl).2

theorem grown_evaluate (files : File.Tree) (depth : Nat) (route : List Nat) {source : Source}
    {outside : Surroundings} (hsources : Faithful outside.world.sources)
    {text : String} (htext : source.root.erase = (parse text).erase) :
    Grown outside.world.sources (evaluate files depth route source outside).2.world.sources := by
  obtain ⟨_, hgrown⟩ := (evaluate_admits_growing files depth route hsources htext).exists_keeps
  exact hgrown

end Galley.Compile
