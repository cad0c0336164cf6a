import Galley.Proofs.Evaluation.Tree
import Galley.Proofs.Shape.Grammar
import Galley.Proofs.World.Growth

/-!
# Evaluating a whole source

What holds of the evaluation of a tree holds of the evaluation of its source:
the machine starts with the world outside and leaves its own behind.  A document
that is asked for is resolved first and then evaluated by the surroundings.
-/

namespace Galley.Compile

open Syntax Document Eval

/-- An outcome of evaluating a source is as promised. -/
def Promise.Admits {source : Nat} (promise : Promise source) :
    Except Failure Module × Surroundings → Prop
  | (.ok module, after) => promise.keeps after.world module.diagnostics
  | (.error failure, after) =>
    promise.fails failure ∧ ∃ diagnostics, promise.keeps after.world diagnostics

namespace Promise.Admits

variable {source : Nat} {promise : Promise source}
  {outcome : Except Failure Module × Surroundings}

theorem exists_keeps (hadmits : promise.Admits outcome) :
    ∃ diagnostics, promise.keeps outcome.2.world diagnostics := by
  obtain ⟨failure | module, after⟩ := outcome
  · exact hadmits.2
  · exact ⟨_, hadmits⟩

theorem fails_of_eq_error (hadmits : promise.Admits outcome) {failure : Failure}
    (hfailure : outcome.1 = .error failure) : promise.fails failure := by
  obtain ⟨result, after⟩ := outcome
  obtain rfl : result = .error failure := hfailure
  exact hadmits.1

end Promise.Admits

section Tree

variable {source : Source} {promise : Promise source.id} {load load' : Int → String → Eval Content}
  {outside : Surroundings}

theorem evaluateTree_alike (hload : LoadsAlike promise load load')
    (hkind : source.root.kind = .markup) (hshape : source.root.Everywhere Shaped)
    (hspans : source.root.Everywhere fun node => promise.spans node.span)
    (hstart : promise.keeps outside.world []) :
    evaluateTree ⟨source.id, load'⟩ source outside = evaluateTree ⟨source.id, load⟩ source outside ∧
      promise.Admits (evaluateTree ⟨source.id, load⟩ source outside) := by
  obtain ⟨hsame, hkeeps, hallows⟩ :=
    ((evaluates hload source.root hshape hspans).content hkind).run
      { world := outside.world, printed := outside.printed, computations := outside.computations }
      hstart
  rw [evaluateTree, evaluateTree]
  simp only [ExceptT.run, StateT.run]
  rw [hsame]
  refine ⟨rfl, ?_⟩
  generalize (evalNode ⟨source.id, load⟩ source.root).content _ = answer at hkeeps hallows ⊢
  obtain ⟨(⟨span, error⟩ | failure) | content, machine⟩ := answer
  · exact promise.keeps_report hkeeps hallows.1 hallows.2
  · exact ⟨hallows, _, hkeeps⟩
  · exact hkeeps

variable {files : File.Tree} {chain : List Nat}
  {enter enter' : Source → Surroundings → Except Failure Module × Surroundings}

/-- A source whose tree is that of a text either reports its syntax errors or is
evaluated node by node. -/
theorem evaluateOn_alike {text : String} (htext : source.root.erase = (parse text).erase)
    (hload : LoadsAlike promise (loadDocument files chain enter) (loadDocument files chain enter'))
    (hspans : source.root.Everywhere fun node => promise.spans node.span)
    (hstart : promise.keeps outside.world [])
    (hreported : promise.keeps outside.world (syntaxDiagnostics source)) :
    evaluateOn files chain enter' source outside = evaluateOn files chain enter source outside ∧
      promise.Admits (evaluateOn files chain enter source outside) := by
  rw [evaluateOn, evaluateOn]
  split
  · rename_i hclean
    obtain ⟨hkind, hshape⟩ := shaped_of_erase_eq htext (List.isEmpty_iff.1 hclean)
    exact evaluateTree_alike hload hkind hshape hspans hstart
  · exact ⟨rfl, hreported⟩

end Tree

section Document

variable {source : Nat} {promise : Promise source} {files : File.Tree} {chain : List Nat}
  {enter enter' : Source → Surroundings → Except Failure Module × Surroundings}
  {span : Int}

theorem keeps_resolveAt (hspan : promise.spans span) (path : String)
    (hresolve : ∀ world diagnostics path, promise.keeps world diagnostics →
      promise.keeps (world.resolve files path).2 diagnostics) :
    Keeps promise (resolveAt files span path) fun _ => True := by
  constructor
  intro machine hholds
  have hkeeps := hresolve machine.world machine.diagnostics (.ofString path) hholds
  have hfailure : ∀ failure, (machine.world.resolve files (.ofString path)).1 = .error failure →
      OfDocument failure := fun _ => World.ofDocument_resolve
  refine ⟨rfl, ?_⟩
  rw [resolveAt]
  generalize machine.world.resolve files (.ofString path) = answer at hkeeps hfailure ⊢
  obtain ⟨result, world⟩ := answer
  dsimp only
  split
  · exact ⟨hkeeps, trivial⟩
  · exact ⟨hkeeps, hspan, trivial⟩
  · exact ⟨hkeeps, promise.fails_of_document (hfailure _ rfl)⟩

theorem keeps_lift_source (world : World) (id : Int) :
    Keeps promise (lift (world.source id)) fun asked => world.source id = .ok asked := by
  refine .lift (fun _ hasked => hasked) fun failure hfailure => promise.fails_of_document ?_
  rw [World.source] at hfailure
  split at hfailure <;> cases hfailure
  trivial

/-- What the surroundings promise of a document that is asked for: the world is
as it should be afterwards, also with what the document reported. -/
def Absorbs (promise : Promise source) (diagnostics : List Diagnostic) :
    Except Failure Module × Surroundings → Prop
  | (.ok module, after) => promise.keeps after.world (diagnostics ++ module.diagnostics)
  | (.error failure, after) => promise.keeps after.world diagnostics ∧ promise.fails failure

/-- What a document keeps is kept by the source that asks for it. -/
theorem Promise.Admits.absorbs {asked : Nat} {inner : Promise asked}
    {diagnostics : List Diagnostic} {outcome : Except Failure Module × Surroundings}
    (hadmits : inner.Admits outcome)
    (hkeeps : ∀ world reported, inner.keeps world reported →
      promise.keeps world diagnostics ∧ promise.keeps world (diagnostics ++ reported))
    (hfails : ∀ failure, inner.fails failure → promise.fails failure) :
    Absorbs promise diagnostics outcome := by
  obtain ⟨failure | module, after⟩ := outcome
  · obtain ⟨hfailure, _, hafter⟩ := hadmits
    exact ⟨(hkeeps _ _ hafter).1, hfails _ hfailure⟩
  · exact (hkeeps _ _ hadmits).2

theorem runs_loadDocument (hspan : promise.spans span) (path : String)
    (hresolve : ∀ world diagnostics path, promise.keeps world diagnostics →
      promise.keeps (world.resolve files path).2 diagnostics)
    (henter : ∀ world diagnostics id asked printed computations, promise.keeps world diagnostics →
      id ∉ chain → world.source id = .ok asked →
        enter' asked ⟨world, printed, computations⟩ = enter asked ⟨world, printed, computations⟩ ∧
          Absorbs promise diagnostics (enter asked ⟨world, printed, computations⟩)) :
    Runs promise (loadDocument files chain enter span path)
      (loadDocument files chain enter' span path) fun _ => True := by
  rw [loadDocument, loadDocument]
  refine (keeps_resolveAt hspan path hresolve).bind fun id _ => ?_
  split
  · exact .report hspan trivial
  · rename_i hid
    refine .bind .get fun machine hholds => ?_
    refine (keeps_lift_source machine.world id).bind fun asked hasked => ?_
    obtain ⟨hsame, habsorbs⟩ := henter machine.world machine.diagnostics id asked machine.printed
      machine.computations hholds (by simpa using hid) hasked
    rw [hsame]
    generalize enter asked _ = outcome at habsorbs ⊢
    -- The machine is put together anew, so what it was does not matter.
    obtain ⟨failure | module, after⟩ := outcome
    · exact ⟨fun _ _ => ⟨rfl, habsorbs⟩⟩
    · exact ⟨fun _ _ => ⟨rfl, habsorbs, trivial⟩⟩

end Document

end Galley.Compile
