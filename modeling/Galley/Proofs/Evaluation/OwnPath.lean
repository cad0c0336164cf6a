import Galley.Proofs.Evaluation.Heeded
import Galley.Proofs.Evaluation.Parallel

/-!
# Documents that ask for themselves

A main source has a slot under its path.  It is refused to itself wherever it asks for a path with
that slot, and nowhere else: a path with another slot leads to another source, even if there is one
and the same file behind both.
-/

namespace Galley.Compile

open Syntax Document Eval World

variable {files : File.Tree} {world after : World} {path : File.Path} {text : String}

/-! ## The slot of the main source -/

namespace World

/-- A request leads to the main source exactly if its path has the same slot. -/
theorem Tidy.resolve_eq_own_iff (htidy : world.Tidy)
    (hextends : Extends (world.set path text).2 after) (hafter : after.Tidy) (asked : File.Path) :
    (after.resolve files asked).1 = .ok (world.set path text).1 ↔
      world.normalize asked = world.normalize path := by
  have hset := htidy.hasSet path text
  have hown := hextends.kept.slot hset.slot
  have hkey := normalize_eq_of_root (hextends.root.trans hset.root) asked
  constructor
  · intro hanswer
    have hresolved := hafter.resolved files asked
    have htold := hresolved.told
    rw [hanswer, hkey] at htold
    split at htold
    · obtain ⟨id, hid, hslot, -⟩ := htold
      rw [← Except.ok.inj hid] at hslot
      exact hresolved.tidy.distinct hslot (hresolved.kept.slot hown)
    · exact nomatch htold.1
    · exact nomatch htold.1
  · intro hsame
    rw [World.resolve]
    dsimp only
    rw [hkey, hsame, hown]
    rfl

end World

/-! ## How documents are loaded -/

theorem holds_loadDocument {holds : World → Prop}
    (hfaithful : ∀ world, holds world → Faithful world.sources)
    (hresolve : ∀ world path, holds world → holds (world.resolve files path).2)
    (chain : List Nat) (depth : Nat) (route : List Nat) (span : Int) (path : String)
    {machine : Machine} (hholds : holds machine.world) :
    holds (loadDocument files chain (evaluate files depth route) span path machine).2.world := by
  rw [loadDocument_apply]
  have hopened := hresolve machine.world (.ofString path) hholds
  generalize machine.world.resolve files (.ofString path) = answer at hopened ⊢
  obtain ⟨failure | id, world⟩ := answer
  · cases failure <;> exact hopened
  · rw [enterAnswer]
    split
    · exact hopened
    · split
      · exact hopened
      · rename_i asked hasked
        have hentered : holds (evaluate files depth route asked
            ⟨world, machine.printed, machine.computations⟩).2.world :=
          holds_evaluate hfaithful hresolve depth route
            (hfaithful world hopened asked (mem_of_source hasked)) hopened
        generalize evaluate files depth route asked _ = outcome at hentered ⊢
        obtain ⟨failure | module, entered⟩ := outcome <;> exact hentered

/-- What has been reported stays so. -/
theorem diagnostics_loadDocument (files : File.Tree) (chain : List Nat)
    (enter : Source → Surroundings → Except Failure Module × Surroundings) (span : Int)
    (path : String) (machine : Machine) :
    machine.diagnostics <+: (loadDocument files chain enter span path machine).2.diagnostics := by
  rw [loadDocument_apply]
  generalize machine.world.resolve files (.ofString path) = answer
  obtain ⟨failure | id, world⟩ := answer
  · cases failure <;> exact List.prefix_rfl
  · rw [enterAnswer]
    split
    · exact List.prefix_rfl
    · split
      · exact List.prefix_rfl
      · generalize enter _ _ = outcome
        obtain ⟨failure | module, entered⟩ := outcome
        · exact List.prefix_rfl
        · exact List.prefix_append _ _

/-- The evaluation of a source with another way to load documents. -/
def evaluateWith (load : Int → String → Eval Content) (source : Source) (outside : Surroundings) :
    Except Failure Module × Surroundings :=
  if source.root.errors.isEmpty then evaluateTree ⟨source.id, load⟩ source outside
  else (.ok { name := source.path.stem, diagnostics := syntaxDiagnostics source }, outside)

/-- How a main source loads documents. -/
def loadFor (files : File.Tree) (source : Source) (outside : Surroundings) :
    Int → String → Eval Content :=
  loadDocument files [source.id] (evaluate files (chainBound files outside.world) [source.id])

theorem evaluateSource_eq_with (files : File.Tree) (source : Source) (outside : Surroundings) :
    evaluateSource files source outside =
      evaluateWith (loadFor files source outside) source outside :=
  rfl

/-! ## The main source -/

section Main

variable {source : Source} {outside : Surroundings} {span place : Int} {asked : String}

/-- Where a main source asks for a path that has its slot, either that makes no difference, whatever
there would be to load, or the main source has the diagnostic. -/
theorem evaluateSource_heard (htidy : world.Tidy) (hid : source.id = (world.set path text).1)
    (hextends : Extends (world.set path text).2 outside.world) (houtside : outside.world.Tidy)
    {load : Int → String → Eval Content}
    (hload : ∀ place asked,
      ¬(place = span ∧ world.normalize (.ofString asked) = world.normalize path) →
        load place asked = loadFor files source outside place asked) :
    evaluateWith load source outside = evaluateSource files source outside ∨
      ∀ module, (evaluateSource files source outside).1 = .ok module →
        ⟨source.id, span, EvalError.cyclicInclude.message⟩ ∈ module.diagnostics := by
  let holds (after : World) : Prop := Extends (world.set path text).2 after ∧ after.Tidy
  have hfaithful : ∀ after, holds after → Faithful after.sources := fun _ hafter =>
    hafter.2.faithful
  have hresolve : ∀ after path, holds after → holds (after.resolve files path).2 :=
    fun after path ⟨hextends, htidy⟩ =>
      ⟨hextends.trans (.resolve after files path), (htidy.resolved files path).tidy⟩
  have hheeds : (heeding holds source.id span .cyclicInclude).Loads load
      (loadFor files source outside) := by
    intro place asked
    refine ⟨fun machine hholds => ?_, fun machine hheard => ?_, fun machine hholds => ?_⟩
    · exact holds_loadDocument hfaithful hresolve _ _ _ _ _ hholds
    · exact (diagnostics_loadDocument ..).subset hheard
    · by_cases hown : place = span ∧ world.normalize (.ofString asked) = world.normalize path
      · obtain ⟨rfl, hown⟩ := hown
        refine .inr (.inl ?_)
        have hanswer : (machine.world.resolve files (.ofString asked)).1 = .ok _ :=
          (htidy.resolve_eq_own_iff hholds.1 hholds.2 _).2 hown
        rw [loadFor, loadDocument_apply]
        generalize machine.world.resolve files (.ofString asked) = answer at hanswer ⊢
        obtain ⟨result, opened⟩ := answer
        obtain rfl : result = .ok _ := hanswer
        rw [enterAnswer, if_pos (by simp [hid])]
      · exact .inl (congrFun (hload place asked hown) machine)
  rw [evaluateSource_eq_with, evaluateWith, evaluateWith]
  split
  · exact evaluateTree_heeded hheeds ⟨hextends, houtside⟩
  · exact .inl rfl

/-- A path with another slot is never refused to the main source. -/
theorem loadFor_ne_cyclicInclude (htidy : world.Tidy) (hid : source.id = (world.set path text).1)
    (hother : world.normalize (.ofString asked) ≠ world.normalize path) {machine : Machine}
    (hextends : Extends (world.set path text).2 machine.world) (hmachine : machine.world.Tidy) :
    (loadFor files source outside span asked machine).1 ≠
      .error (.report place .cyclicInclude) := by
  intro hreport
  obtain ⟨-, id, hmem, hanswer⟩ := mem_of_loadDocument hreport
  obtain rfl := List.mem_singleton.1 hmem
  rw [hid] at hanswer
  exact hother ((htidy.resolve_eq_own_iff hextends hmachine _).1 hanswer)

end Main

end Galley.Compile
