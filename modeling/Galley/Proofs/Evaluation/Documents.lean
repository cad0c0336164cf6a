import Galley.Proofs.Evaluation.Disciplined
import Galley.Proofs.Evaluation.Parallel

/-!
# Documents under a discipline

Each source is evaluated on a machine of its own, which begins with certain styles and with plain
text, no names and no diagnostics.  If that machine is as a discipline wants it, the one that the
source ends with is so too, and it is the one that the module is made of.
-/

namespace Galley.Compile

open Syntax Document Eval

/-! ## Sources that begin with other styles -/

/-- Evaluates a source without syntax errors from the styles that it begins with, given what its
tree comes to. -/
def evaluateTreeFrom (styles : Styles) (tree : Operand) (source : Source)
    (outside : Surroundings) : Except Failure Module × Surroundings :=
  let (result, machine) :=
    tree.content.run.run
      { world := outside.world, printed := outside.printed, styles,
        computations := outside.computations }
  let outside : Surroundings := ⟨machine.world, machine.printed, machine.computations⟩
  match result with
  | .ok content =>
    (.ok { name := source.path.stem, content, styles := machine.styles,
           diagnostics := machine.diagnostics }, outside)
  | .error (.failure failure) => (.error failure, outside)
  | .error (.report span error) =>
    (.ok { name := source.path.stem, styles := machine.styles,
           diagnostics := machine.diagnostics ++ [⟨source.id, span, error.message⟩] }, outside)

/-- Evaluates a source and the documents that it asks for from the styles that each of them begins
with, given how trees are evaluated. -/
def evaluateFrom (styles : Styles) (eval : Context → Node → Operand) (files : File.Tree) :
    Nat → List Nat → Source → Surroundings → Except Failure Module × Surroundings
  | 0, _, _, outside => (.error .endlessChain, outside)
  | depth + 1, route, source, outside =>
    let chain := route ++ [source.id]
    let load := loadDocument files chain (evaluateFrom styles eval files depth chain)
    if source.root.errors.isEmpty then
      evaluateTreeFrom styles (eval ⟨source.id, load⟩ source.root) source outside
    else (.ok { name := source.path.stem, diagnostics := syntaxDiagnostics source }, outside)

/-- Sources begin with the default styles. -/
theorem evaluate_eq_from (files : File.Tree) (depth : Nat) :
    evaluate files depth = evaluateFrom {} evalNode files depth := by
  induction depth with
  | zero => rfl
  | succ depth ih =>
    funext route source outside
    rw [evaluate, evaluateOn, ih]
    rfl

/-! ## What a document leaves alone -/

/-- Whatever happens in a document that is asked for, the styles, names and flags of the source
that asks for it stay. -/
theorem loadDocument_keeps (files : File.Tree) (chain : List Nat)
    (enter : Source → Surroundings → Except Failure Module × Surroundings) (span : Int)
    (path : String) (machine : Machine) :
    let after := (loadDocument files chain enter span path machine).2
    after.styles = machine.styles ∧ after.scope = machine.scope ∧
      after.strong = machine.strong ∧ after.emph = machine.emph := by
  rw [loadDocument_apply]
  generalize machine.world.resolve files (.ofString path) = answer
  obtain ⟨failure | id, world⟩ := answer
  · cases failure <;> exact ⟨rfl, rfl, rfl, rfl⟩
  · rw [enterAnswer]
    split
    · exact ⟨rfl, rfl, rfl, rfl⟩
    · split
      · exact ⟨rfl, rfl, rfl, rfl⟩
      · generalize enter _ _ = outcome
        obtain ⟨failure | module, entered⟩ := outcome <;> exact ⟨rfl, rfl, rfl, rfl⟩

/-! ## Whole sources -/

/-- The machine that a source begins with. -/
def Surroundings.machine (outside : Surroundings) (styles : Styles) : Machine :=
  { world := outside.world, printed := outside.printed, styles,
    computations := outside.computations }

/-- A module is made of a machine that is as the discipline wants it. -/
structure Conforms {watch : Watch} (discipline : Discipline watch) (place : watch.Place)
    (module : Module) (after : Surroundings) (machine : Machine) : Prop where
  holds : discipline.holds place machine
  world : after.world = machine.world
  content : discipline.Sets place module.content
  styles : module.styles = machine.styles
  diagnostics : module.diagnostics = machine.diagnostics

/-- The outcome of a source that is evaluated under a discipline. -/
def Discipline.Yields {watch : Watch} (discipline : Discipline watch) (place : watch.Place) :
    Except Failure Module × Surroundings → Prop
  | (.ok module, after) => ∃ machine, Conforms discipline place module after machine
  | (.error _, after) => ∃ machine, discipline.holds place machine ∧ after.world = machine.world

variable {watch : Watch} {discipline : Discipline watch}

theorem evaluateTreeFrom_obeys {source : Source} {load load' : Int → String → Eval Content}
    (hload : discipline.Loads load load') (hadmits : source.root.Everywhere discipline.admits)
    (astray : Stop) (place : watch.Place) {styles : Styles} {outside : Surroundings}
    (hstart : discipline.holds place (outside.machine styles)) :
    evaluateTreeFrom styles (watch.evalNode astray ⟨source.id, load'⟩ place source.root) source
        outside =
      evaluateTreeFrom styles (evalNode ⟨source.id, load⟩ source.root) source outside ∧
    discipline.Yields place
      (evaluateTreeFrom styles (evalNode ⟨source.id, load⟩ source.root) source outside) := by
  have hobeys := Obeys.of_loads hload astray source.id place source.root hadmits
  obtain ⟨hsame, hholds, hallows⟩ := hobeys.content.run _ hstart
  rw [Surroundings.machine] at hsame hholds hallows
  rw [evaluateTreeFrom, evaluateTreeFrom]
  simp only [ExceptT.run, StateT.run]
  rw [hsame]
  refine ⟨rfl, ?_⟩
  generalize (evalNode ⟨source.id, load⟩ source.root).content _ = answer at hholds hallows ⊢
  obtain ⟨(⟨span, error⟩ | failure) | content, machine⟩ := answer
  · exact ⟨_, discipline.report source.id span hholds hallows, rfl, List.forall_mem_nil _, rfl, rfl⟩
  · exact ⟨machine, hholds, rfl⟩
  · exact ⟨machine, hholds, rfl, hallows, rfl, rfl⟩

/-- A module is made of the machine that its source ends with. -/
theorem exists_conforms_of_evaluateTreeFrom {source : Source} {load : Int → String → Eval Content}
    (hload : discipline.Loads load load) (hadmits : source.root.Everywhere discipline.admits)
    (place : watch.Place) {styles : Styles} {outside : Surroundings}
    (hstart : discipline.holds place (outside.machine styles)) {module : Module}
    (hmodule : (evaluateTreeFrom styles (evalNode ⟨source.id, load⟩ source.root) source outside).1 =
      .ok module) :
    ∃ after machine, Conforms discipline place module after machine := by
  have hyields :=
    (evaluateTreeFrom_obeys hload hadmits (.failure .endlessChain) place hstart).2
  generalize evaluateTreeFrom styles _ source outside = outcome at hmodule hyields
  obtain ⟨result, after⟩ := outcome
  obtain rfl : result = .ok module := hmodule
  exact ⟨after, hyields⟩

/-- What holds of a machine to begin with, and is not changed by documents, holds at every node of
every document. -/
theorem evaluateFrom_watched {files : File.Tree} (hadmits : ∀ node, discipline.admits node)
    (hloads : ∀ chain enter,
      discipline.Loads (loadDocument files chain enter) (loadDocument files chain enter))
    (astray : Stop) (place : watch.Place) {styles : Styles}
    (hstart : ∀ outside : Surroundings, discipline.holds place (outside.machine styles))
    (depth : Nat) :
    evaluateFrom styles (fun context => watch.evalNode astray context place) files depth =
      evaluateFrom styles evalNode files depth := by
  induction depth with
  | zero => rfl
  | succ depth ih =>
    funext route source outside
    rw [evaluateFrom, evaluateFrom, ih,
      (evaluateTreeFrom_obeys (hloads _ _) (fun node _ => hadmits node) astray place
        (hstart outside)).1]

/-! ## Documents that are asked for -/

/-- A discipline that goes from one document into the next, as long as something holds of the
world. -/
structure Discipline.Carries (discipline : Discipline idleWatch) (files : File.Tree)
    (keeps : World → Prop) : Prop where
  start : ∀ {outside : Surroundings}, keeps outside.world →
    discipline.holds () (outside.machine {})
  world : ∀ {machine : Machine}, discipline.holds () machine → keeps machine.world
  resolve : ∀ {world : World} (path : File.Path), keeps world →
    keeps (world.resolve files path).2
  /-- A document may leave its world behind, and what it has reported. -/
  absorb : ∀ {machine ended : Machine} {reported : List Diagnostic} (printed : String)
    (computations : Nat), discipline.holds () machine → discipline.holds () ended →
      reported ⊆ ended.diagnostics → discipline.holds () { machine with
        world := ended.world, printed, computations,
        diagnostics := machine.diagnostics ++ reported }
  cyclic : discipline.reports .cyclicInclude
  missing : ∀ {world : World} {path : String} {error : LoadError}, keeps world →
    (world.resolve files (.ofString path)).1 = .error (.load error) →
      discipline.reports (.load error)
  clean : ∀ {world : World} {source : Source}, keeps world → source ∈ world.sources →
    source.root.errors = [] → source.root.Everywhere discipline.admits
  faulty : ∀ {outside : Surroundings} {source : Source}, keeps outside.world →
    source ∈ outside.world.sources → discipline.holds ()
      { outside.machine {} with diagnostics := syntaxDiagnostics source }

namespace Discipline.Carries

variable {discipline : Discipline idleWatch} {files : File.Tree} {keeps : World → Prop}

/-- A machine may go on in another world. -/
theorem move (hcarries : discipline.Carries files keeps) {machine : Machine} {world : World}
    (hmachine : discipline.holds () machine) (hworld : keeps world) :
    discipline.holds () { machine with world } := by
  have hended : discipline.holds ()
      (Surroundings.machine ⟨world, machine.printed, machine.computations⟩ {}) :=
    hcarries.start hworld
  have hmoved := hcarries.absorb machine.printed machine.computations hmachine hended
    (List.nil_subset _)
  rwa [List.append_nil] at hmoved

/-- A document that is asked for abides by the discipline if it does so by itself. -/
theorem loads (hcarries : discipline.Carries files keeps) {chain : List Nat}
    {enter : Source → Surroundings → Except Failure Module × Surroundings}
    (henter : ∀ (asked : Source) (outside : Surroundings), keeps outside.world →
      asked ∈ outside.world.sources → discipline.Yields () (enter asked outside)) :
    discipline.Loads (loadDocument files chain enter) (loadDocument files chain enter) := by
  intro _ place span path
  refine ⟨fun machine hmachine => ⟨rfl, ?_⟩⟩
  have hworld := hcarries.world hmachine
  have hopened := hcarries.resolve (.ofString path) hworld
  have hmissing : ∀ error, (machine.world.resolve files (.ofString path)).1 =
      .error (.load error) → discipline.reports (.load error) :=
    fun error herror => hcarries.missing hworld herror
  rw [loadDocument_apply]
  generalize machine.world.resolve files (.ofString path) = answer at hopened hmissing ⊢
  obtain ⟨failure | id, opened⟩ := answer
  · cases failure with
    | load error => exact ⟨hcarries.move hmachine hopened, hmissing error rfl⟩
    | _ => exact ⟨hcarries.move hmachine hopened, trivial⟩
  · rw [enterAnswer]
    split
    · exact ⟨hcarries.move hmachine hopened, hcarries.cyclic⟩
    · split
      · exact ⟨hcarries.move hmachine hopened, trivial⟩
      · rename_i asked hasked
        have hyields := henter asked ⟨opened, machine.printed, machine.computations⟩ hopened
          (World.mem_of_source hasked)
        generalize enter asked _ = outcome at hyields ⊢
        obtain ⟨failure | module, after⟩ := outcome
        · obtain ⟨ended, hended, hafter⟩ := hyields
          have habsorbed := hcarries.absorb after.printed after.computations hmachine hended
            (List.nil_subset _)
          rw [List.append_nil, ← hafter] at habsorbed
          exact ⟨habsorbed, trivial⟩
        · obtain ⟨ended, hconforms⟩ := hyields
          have habsorbed := hcarries.absorb after.printed after.computations hmachine
            hconforms.holds (List.Subset.refl _)
          rw [← hconforms.diagnostics, ← hconforms.world] at habsorbed
          exact ⟨habsorbed, hconforms.content⟩

/-- Every source abides by the discipline, however deep the documents go that it asks for. -/
theorem yields (hcarries : discipline.Carries files keeps) (depth : Nat) (route : List Nat)
    {source : Source} {outside : Surroundings} (hworld : keeps outside.world)
    (hsource : source ∈ outside.world.sources) :
    discipline.Yields () (evaluate files depth route source outside) := by
  induction depth generalizing route source outside with
  | zero => exact ⟨_, hcarries.start hworld, rfl⟩
  | succ depth ih =>
    rw [evaluate, evaluateOn]
    split
    · rename_i hclean
      have hload : discipline.Loads
          (loadDocument files (route ++ [source.id]) (evaluate files depth (route ++ [source.id])))
          (loadDocument files (route ++ [source.id])
            (evaluate files depth (route ++ [source.id]))) :=
        hcarries.loads fun _ _ hworld hasked => ih _ hworld hasked
      exact (evaluateTreeFrom_obeys hload
        (hcarries.clean hworld hsource (List.isEmpty_iff.1 hclean)) (.failure .endlessChain) ()
        (hcarries.start hworld)).2
    · exact ⟨_, hcarries.faulty hworld hsource, rfl, List.forall_mem_nil _, rfl, rfl⟩

end Discipline.Carries

end Galley.Compile
