import Galley.Proofs.Evaluation.Includes
import Galley.Proofs.Evaluation.Twins
import Galley.Proofs.World.Aged
import Galley.Proofs.World.Parallel

/-!
# Evaluation in parallel worlds

A source evaluates alike in two parallel worlds, and compiles alike, whatever ids
its documents have there, as long as nobody asks for a hidden path.
-/

namespace Galley.Compile

open Syntax Document Eval World

/-! ## Outcomes in parallel worlds -/

variable {hidden : File.Path → Bool} {files files' : File.Tree}

/-- The same diagnostic of two sources that belong to one path. -/
structure Mirrored (hidden : File.Path → Bool) (world world' : World)
    (diagnostic diagnostic' : Diagnostic) : Prop where
  span : diagnostic'.span = diagnostic.span
  message : diagnostic'.message = diagnostic.message
  source : ∃ id id' : Nat, diagnostic.source = id ∧ diagnostic'.source = id' ∧
    Linked hidden world world' id id'

theorem Mirrored.kept {world world' after after' : World} {diagnostic diagnostic' : Diagnostic}
    (hmirrored : Mirrored hidden world world' diagnostic diagnostic') (hkept : Kept world after)
    (hkept' : Kept world' after') : Mirrored hidden after after' diagnostic diagnostic' := by
  obtain ⟨id, id', hid, hid', hlinked⟩ := hmirrored.source
  exact ⟨hmirrored.span, hmirrored.message, id, id', hid, hid', hlinked.kept hkept hkept'⟩

/-- A diagnostic becomes the same note in either world. -/
theorem Mirrored.toNote_eq {world world' : World} {diagnostic diagnostic' : Diagnostic}
    (hmirrored : Mirrored hidden world world' diagnostic diagnostic')
    (hparallel : Parallel hidden files files' world world') :
    diagnostic'.toNote world' = diagnostic.toNote world := by
  obtain ⟨id, id', hid, hid', hlinked⟩ := hmirrored.source
  obtain ⟨source, source', hsource, hsource', -, -, -, hroot⟩ := hparallel.exists_sources hlinked
  have hrange : diagnostic'.range world' = diagnostic.range world := by
    rw [Diagnostic.range, Diagnostic.range, hid, hid', hsource, hsource', hmirrored.span]
    show Except.ok (source'.range diagnostic.span) = Except.ok (source.range diagnostic.span)
    rw [Source.range, Source.range, hroot]
  rw [Diagnostic.toNote, Diagnostic.toNote, hrange, hmirrored.message]

/-- The diagnostics of one source become the same notes in either world. -/
theorem notesFor_mirrored {world world' : World} {diagnostics diagnostics' : List Diagnostic}
    {id id' : Nat} (hparallel : Parallel hidden files files' world world')
    (hlinked : Linked hidden world world' id id')
    (hsame : List.Forall₂ (Mirrored hidden world world') diagnostics diagnostics') :
    Diagnostic.notesFor world' id' diagnostics' = Diagnostic.notesFor world id diagnostics := by
  induction hsame with
  | nil => rfl
  | @cons diagnostic diagnostic' diagnostics diagnostics' hfirst _ ih =>
    obtain ⟨other, other', hother, hother', hmirrored⟩ := hfirst.source
    have hkept : (diagnostic'.source == (id' : Int)) = (diagnostic.source == (id : Int)) := by
      rw [hother, hother', Bool.eq_iff_iff, beq_iff_eq, beq_iff_eq, Int.natCast_inj,
        Int.natCast_inj]
      exact (hmirrored.eq_iff hparallel.tidy hparallel.tidy' hlinked).symm
    rw [Diagnostic.notesFor, Diagnostic.notesFor, List.filter_cons, List.filter_cons, hkept]
    split
    · rw [List.mapM_cons, List.mapM_cons, hfirst.toNote_eq hparallel]
      exact congrArg _ (funext fun _ => congrArg (· >>= _) ih)
    · exact ih

/-- Modules with the same content, styles and diagnostics. -/
structure SameModule (hidden : File.Path → Bool) (world world' : World) (module module' : Module) :
    Prop where
  content : module'.content = module.content
  styles : module'.styles = module.styles
  diagnostics : List.Forall₂ (Mirrored hidden world world') module.diagnostics module'.diagnostics

/-- The same text has been added to two texts. -/
def Added (before before' after after' : String) : Prop :=
  ∃ text, after = before ++ text ∧ after' = before' ++ text

theorem Added.refl (before before' : String) : Added before before' before before' :=
  ⟨"", by simp, by simp⟩

theorem Added.append {before before' after after' : String}
    (hadded : Added before before' after after') (text : String) :
    Added before before' (after ++ text) (after' ++ text) := by
  obtain ⟨front, rfl, rfl⟩ := hadded
  exact ⟨front ++ text, String.append_assoc .., String.append_assoc ..⟩

theorem Added.trans {before before' between between' after after' : String}
    (hfirst : Added before before' between between')
    (hsecond : Added between between' after after') : Added before before' after after' := by
  obtain ⟨text, rfl, rfl⟩ := hsecond
  exact hfirst.append text

theorem Added.eq_of_same {before after after' : String}
    (hadded : Added before before after after') : after' = after := by
  obtain ⟨text, rfl, rfl⟩ := hadded
  rfl

/-- Two computations in parallel worlds that come to the same. -/
structure Alongside {α : Type} (hidden : File.Path → Bool) (files files' : File.Tree)
    (same : World → World → α → α → Prop) (outside outside' : Surroundings)
    (outcome outcome' : Except Failure α × Surroundings) : Prop where
  kept : Kept outside.world outcome.2.world
  kept' : Kept outside'.world outcome'.2.world
  /-- Unless the computation fails, every path that it asks for gets an outcome. -/
  settled : ∀ value, outcome.1 = .ok value → Settled outside.world outcome.2.world
  parallel : Parallel hidden files files' outcome.2.world outcome'.2.world
  printed : Added outside.printed outside'.printed outcome.2.printed outcome'.2.printed
  computations : outcome'.2.computations = outcome.2.computations
  matched : Matched (same outcome.2.world outcome'.2.world) outcome.1 outcome'.1

/-- What two evaluations in parallel worlds have in common, given their surroundings. -/
structure InStep (hidden : File.Path → Bool) (files files' : File.Tree)
    (outside outside' : Surroundings) (ledger ledger' : Ledger) : Prop where
  kept : Kept outside.world ledger.world
  kept' : Kept outside'.world ledger'.world
  parallel : Parallel hidden files files' ledger.world ledger'.world
  diagnostics : List.Forall₂ (Mirrored hidden ledger.world ledger'.world) ledger.diagnostics
    ledger'.diagnostics
  printed : Added outside.printed outside'.printed ledger.printed ledger'.printed

/-- What ties the evaluations of a source in two parallel worlds together. -/
def parallelBond (files files' : File.Tree) {outside outside' : Surroundings}
    {source source' : Nat} (hlinked : Linked hidden outside.world outside'.world source source') :
    Bond source source' where
  holds := InStep hidden files files' outside outside'
  settled := Settled outside.world
  lost := Lost hidden
  holds_report := by
    rintro ledger ledger' span message ⟨hkept, hkept', hparallel, hsame, hprinted⟩
    have hnew : Mirrored hidden ledger.world ledger'.world ⟨source, span, message⟩
        ⟨source', span, message⟩ :=
      ⟨rfl, rfl, _, _, rfl, rfl, hlinked.kept hkept hkept'⟩
    exact ⟨hkept, hkept', hparallel, List.rel_append hsame (.cons hnew .nil), hprinted⟩
  holds_print text hholds :=
    ⟨hholds.kept, hholds.kept', hholds.parallel, hholds.diagnostics, hholds.printed.append text⟩

section Tree

variable {source source' : Source} {outside outside' : Surroundings}
  {load load' : Int → String → Eval Content}

/-- A tree evaluates alike if the documents do that it asks for. -/
theorem evaluateTree_alongside
    (hlinked : Linked hidden outside.world outside'.world source.id source'.id)
    (hparallel : Parallel hidden files files' outside.world outside'.world)
    (hcomputations : outside'.computations = outside.computations)
    (hroot : source'.root = source.root)
    (hload : LoadTwins (parallelBond files files' hlinked) load load') :
    Lost hidden (evaluateTree ⟨source.id, load⟩ source outside).2.world ∨
      Alongside hidden files files' (SameModule hidden) outside outside'
        (evaluateTree ⟨source.id, load⟩ source outside)
        (evaluateTree ⟨source'.id, load'⟩ source' outside') := by
  have hrun := (twinNode hload source.root).content.run
    { world := outside.world, printed := outside.printed, computations := outside.computations }
    ⟨outside'.world, [], outside'.printed⟩
    ⟨.refl _, .refl _, hparallel, .nil, .refl _ _⟩ (.refl _)
  rw [evaluateTree, evaluateTree, hroot, hcomputations]
  simp only [ExceptT.run, StateT.run]
  generalize (evalNode ⟨source.id, load⟩ source.root).content _ = answer at hrun ⊢
  obtain ⟨result, machine⟩ := answer
  obtain hlost | ⟨hsettled, ledger, hafter, hright⟩ := hrun
  · refine .inl ?_
    obtain (⟨span, error⟩ | failure) | content := result <;> exact hlost
  · refine .inr ?_
    change (evalNode ⟨source'.id, load'⟩ source.root).content
      { world := outside'.world, printed := outside'.printed,
        computations := outside.computations } = _ at hright
    rw [hright]
    obtain (⟨span, error⟩ | failure) | content := result
    · have hreported := (parallelBond files files' hlinked).holds_report span error.message hafter
      exact ⟨hafter.kept, hafter.kept', fun _ _ => hsettled id, hafter.parallel, hafter.printed,
        rfl, .value ⟨rfl, rfl, hreported.diagnostics⟩⟩
    · exact ⟨hafter.kept, hafter.kept', fun _ hfailed => (by cases hfailed), hafter.parallel,
        hafter.printed, rfl, .failure _⟩
    · exact ⟨hafter.kept, hafter.kept', fun _ _ => hsettled id, hafter.parallel, hafter.printed,
        rfl, .value ⟨rfl, rfl, hafter.diagnostics⟩⟩

theorem mirrored_syntaxDiagnostics
    (hlinked : Linked hidden outside.world outside'.world source.id source'.id)
    (hroot : source'.root = source.root) :
    List.Forall₂ (Mirrored hidden outside.world outside'.world) (syntaxDiagnostics source)
      (syntaxDiagnostics source') := by
  rw [syntaxDiagnostics, syntaxDiagnostics, hroot, List.forall₂_map_left_iff,
    List.forall₂_map_right_iff, List.forall₂_same]
  exact fun node _ => ⟨rfl, rfl, _, _, rfl, rfl, hlinked⟩

variable {chain chain' : List Nat}
  {enter enter' : Source → Surroundings → Except Failure Module × Surroundings}

theorem evaluateOn_alongside
    (hlinked : Linked hidden outside.world outside'.world source.id source'.id)
    (hparallel : Parallel hidden files files' outside.world outside'.world)
    (hcomputations : outside'.computations = outside.computations)
    (hroot : source'.root = source.root)
    (hload : LoadTwins (parallelBond files files' hlinked) (loadDocument files chain enter)
      (loadDocument files' chain' enter')) :
    Lost hidden (evaluateOn files chain enter source outside).2.world ∨
      Alongside hidden files files' (SameModule hidden) outside outside'
        (evaluateOn files chain enter source outside)
        (evaluateOn files' chain' enter' source' outside') := by
  rw [evaluateOn, evaluateOn, hroot]
  split
  · exact evaluateTree_alongside hlinked hparallel hcomputations hroot hload
  · exact .inr ⟨.refl _, .refl _, fun _ _ => .refl _, hparallel, .refl _ _, hcomputations,
      .value ⟨rfl, rfl, mirrored_syntaxDiagnostics hlinked hroot⟩⟩

end Tree

section Document

variable {chain chain' : List Nat}
  {enter enter' : Source → Surroundings → Except Failure Module × Surroundings}

/-- What loading a document comes to, once its path has been resolved: a source on the
chain is refused, and any other one is entered. -/
def enterAnswer (chain : List Nat)
    (enter : Source → Surroundings → Except Failure Module × Surroundings) (span : Int)
    (machine : Machine) : Except Failure Nat × World → Except Stop Content × Machine
  | (.error (.load error), world) => (.error (.report span (.load error)), { machine with world })
  | (.error failure, world) => (.error (.failure failure), { machine with world })
  | (.ok id, world) =>
    if chain.contains id then (.error (.report span .cyclicInclude), { machine with world })
    else
      match world.source id with
      | .error failure => (.error (.failure failure), { machine with world })
      | .ok asked =>
        match enter asked ⟨world, machine.printed, machine.computations⟩ with
        | (.error failure, after) =>
          (.error (.failure failure), { machine with
            world := after.world, printed := after.printed, computations := after.computations })
        | (.ok module, after) =>
          (.ok module.content, { machine with
            world := after.world, printed := after.printed, computations := after.computations,
            diagnostics := machine.diagnostics ++ module.diagnostics })

theorem loadDocument_apply (files : File.Tree) (chain : List Nat)
    (enter : Source → Surroundings → Except Failure Module × Surroundings) (span : Int)
    (path : String) (machine : Machine) :
    loadDocument files chain enter span path machine =
      enterAnswer chain enter span machine (machine.world.resolve files (.ofString path)) := by
  rw [loadDocument, Eval.bind_apply, resolveAt]
  generalize machine.world.resolve files (.ofString path) = answer
  obtain ⟨failure | id, world⟩ := answer
  · cases failure <;> rfl
  · rw [enterAnswer]
    dsimp only
    split
    · rfl
    · change ((lift (world.source id) : Eval Source) >>= _) { machine with world } = _
      cases world.source id with
      | error failure => rfl
      | ok asked =>
        rw [show (lift (.ok asked) : Eval Source) = pure asked from rfl, pure_bind]
        dsimp only
        generalize enter asked ⟨world, machine.printed, machine.computations⟩ = outcome
        obtain ⟨failure | module, after⟩ := outcome <;> rfl

variable {span : Int} {machine : Machine}

/-- Whatever follows, a world that a request has lost stays so. -/
theorem lost_enterAnswer {answer : Except Failure Nat × World}
    (hstays : ∀ asked outside, asked ∈ outside.world.sources → Lost hidden outside.world →
      Lost hidden (enter asked outside).2.world)
    (hlost : Lost hidden answer.2) :
    Lost hidden (enterAnswer chain enter span machine answer).2.world := by
  obtain ⟨failure | id, world⟩ := answer
  · cases failure <;> exact hlost
  · rw [enterAnswer]
    split
    · exact hlost
    · split
      · exact hlost
      · rename_i asked hasked
        have hafter := hstays asked ⟨world, machine.printed, machine.computations⟩
          (mem_of_source hasked) hlost
        generalize enter asked ⟨world, machine.printed, machine.computations⟩ = outcome at hafter ⊢
        obtain ⟨failure | module, after⟩ := outcome <;> exact hafter

section Entering

variable {outside outside' : Surroundings} {source source' : Nat}
  (hlinked : Linked hidden outside.world outside'.world source source')
  (hchain : List.Forall₂ (Linked hidden outside.world outside'.world) chain chain')
  (henter : ∀ asked asked' within within', Kept outside.world within.world →
    Kept outside'.world within'.world → Parallel hidden files files' within.world within'.world →
    within'.computations = within.computations →
    Linked hidden within.world within'.world asked.id asked'.id → asked'.root = asked.root →
      Lost hidden (enter asked within).2.world ∨
        Alongside hidden files files' (SameModule hidden) within within' (enter asked within)
          (enter' asked' within'))

include hchain henter

/-- Two linked sources are both on their chains, or they are entered alike. -/
theorem ties_enterAnswer_ok {id id' : Nat} {world world' : World} {ledger : Ledger}
    (hopened : InStep hidden files files' outside outside'
      ⟨world, machine.diagnostics, machine.printed⟩ ⟨world', ledger.diagnostics, ledger.printed⟩)
    (hresolved : Settled outside.world world) (hid : Linked hidden world world' id id') :
    (parallelBond files files' hlinked).Ties (enterAnswer chain enter span machine (.ok id, world))
      (enterAnswer chain' enter' span (machine.moved ledger) (.ok id', world')) := by
  have ⟨hgrown, hgrown', hafter, hreported, hprinted⟩ := hopened
  dsimp only at hgrown hgrown' hafter hreported hprinted
  have hmem : id ∈ chain ↔ id' ∈ chain' :=
    hid.mem_iff hafter.tidy hafter.tidy'
      (hchain.imp fun _ _ hlinked => hlinked.kept hgrown hgrown')
  obtain ⟨asked, asked', hasked, hasked', rfl, rfl, -, hroot⟩ := hafter.exists_sources hid
  rw [enterAnswer, enterAnswer]
  by_cases hchained : asked.id ∈ chain
  · rw [if_pos (List.contains_iff_mem.2 hchained),
      if_pos (List.contains_iff_mem.2 (hmem.1 hchained))]
    exact .inr ⟨fun _ => hresolved, _, hopened, rfl⟩
  · rw [if_neg (mt List.contains_iff_mem.1 hchained),
      if_neg (mt List.contains_iff_mem.1 (mt hmem.2 hchained)), hasked, hasked']
    have hentered := henter asked asked' ⟨world, machine.printed, machine.computations⟩
      ⟨world', ledger.printed, machine.computations⟩ hgrown hgrown' hafter rfl hid hroot
    change Bond.Ties _ _ (match enter' asked' ⟨world', ledger.printed,
      machine.computations⟩ with | (.error _, after) => _ | (.ok _, after) => _)
    dsimp only
    generalize enter asked ⟨world, machine.printed, machine.computations⟩ = outcome at *
    generalize enter' asked' ⟨world', ledger.printed, machine.computations⟩ = outcome' at *
    obtain ⟨result, after⟩ := outcome
    obtain ⟨result', after'⟩ := outcome'
    obtain hlost | hsame := hentered
    · cases result <;> exact .inl hlost
    · -- The diagnostics reported so far are carried into the worlds that entering leaves.
      have hold := hreported.imp fun _ _ hmirrored => hmirrored.kept hsame.kept hsame.kept'
      have hkept := hgrown.trans hsame.kept
      have hkept' := hgrown'.trans hsame.kept'
      have hprinted := hprinted.trans hsame.printed
      obtain ⟨-, -, hentered, hparallel, -, hcomputations, hmodule⟩ := hsame
      dsimp only at hentered hparallel hcomputations hmodule hprinted ⊢
      cases hmodule with
      | failure failure =>
        refine .inr ⟨fun hstop => absurd trivial hstop, ⟨after'.world, ledger.diagnostics,
          after'.printed⟩, ⟨hkept, hkept', hparallel, hold, hprinted⟩, ?_⟩
        dsimp only
        rw [hcomputations]
        rfl
      | @value module module' hsame =>
        refine .inr ⟨fun _ => hresolved.trans (hentered _ rfl), ⟨after'.world,
          ledger.diagnostics ++ module'.diagnostics, after'.printed⟩, ⟨hkept, hkept',
          hparallel, List.rel_append hold hsame.diagnostics, hprinted⟩, ?_⟩
        dsimp only
        rw [hcomputations, hsame.content]
        rfl

/-- A document is loaded alike in parallel worlds if every source is entered alike that
is not on the chain. -/
theorem loadTwins_loadDocument
    (hstays : ∀ asked within, asked ∈ within.world.sources → Lost hidden within.world →
      Lost hidden (enter asked within).2.world) :
    LoadTwins (parallelBond files files' hlinked) (loadDocument files chain enter)
      (loadDocument files' chain' enter') := by
  intro span path
  constructor
  · intro machine hlost
    rw [loadDocument_apply]
    exact lost_enterAnswer hstays (hlost.resolve files _)
  · rintro machine ledger ⟨hkept, hkept', hparallel, hsame, hprinted⟩ hsettled
    rw [loadDocument_apply, loadDocument_apply]
    change Parallel hidden files files' machine.world ledger.world at hparallel
    change Bond.Ties _ _ (enterAnswer chain' enter' span (machine.moved ledger)
      (ledger.world.resolve files' (.ofString path)))
    have hgrown := (hparallel.tidy.resolved files (.ofString path)).kept
    have hgrown' := (hparallel.tidy'.resolved files' (.ofString path)).kept
    have hreported := hsame.imp fun _ _ hmirrored => hmirrored.kept hgrown hgrown'
    have hanswered := settled_resolve machine.world files (.ofString path)
    obtain hlost | ⟨hafter, hanswer⟩ := hparallel.resolve (.ofString path)
    · exact .inl (lost_enterAnswer hstays hlost)
    · generalize machine.world.resolve files (.ofString path) = answer at *
      generalize ledger.world.resolve files' (.ofString path) = answer' at *
      obtain ⟨result, world⟩ := answer
      obtain ⟨result', world'⟩ := answer'
      have hopened : InStep hidden files files' outside outside'
          ⟨world, machine.diagnostics, machine.printed⟩
          ⟨world', ledger.diagnostics, ledger.printed⟩ :=
        ⟨hkept.trans hgrown, hkept'.trans hgrown', hafter, hreported, hprinted⟩
      cases hanswer with
      | failure failure =>
        cases failure with
        | load error =>
          have hresolved := hanswered fun _ hload => ⟨error, (Except.error.inj hload).symm⟩
          exact .inr ⟨fun _ => hsettled.trans hresolved, _, hopened, rfl⟩
        | _ => exact .inr ⟨fun hstop => absurd trivial hstop, _, hopened, rfl⟩
      | value hid =>
        have hresolved := hsettled.trans (hanswered fun _ hload => nomatch hload)
        exact ties_enterAnswer_ok hlinked hchain henter hopened hresolved hid

end Entering

end Document

/-! ## Sources and compilations -/

section Source

variable {outside outside' : Surroundings} {source source' : Source}

/-- No evaluation brings back a lost world. -/
theorem lost_evaluate (files : File.Tree) (depth : Nat) (route : List Nat)
    (hsource : source ∈ outside.world.sources) (hlost : Lost hidden outside.world) :
    Lost hidden (evaluate files depth route source outside).2.world :=
  holds_evaluate (fun _ hlost => hlost.1.faithful) (fun _ path hlost => hlost.resolve files path)
    depth route (hlost.1.faithful source hsource) hlost

theorem evaluate_alongside (depth : Nat) (route route' : List Nat)
    (hroute : List.Forall₂ (Linked hidden outside.world outside'.world) route route')
    (hlinked : Linked hidden outside.world outside'.world source.id source'.id)
    (hparallel : Parallel hidden files files' outside.world outside'.world)
    (hcomputations : outside'.computations = outside.computations)
    (hroot : source'.root = source.root) :
    Lost hidden (evaluate files depth route source outside).2.world ∨
      Alongside hidden files files' (SameModule hidden) outside outside'
        (evaluate files depth route source outside)
        (evaluate files' depth route' source' outside') := by
  induction depth generalizing route route' source source' outside outside' with
  | zero =>
    exact .inr ⟨.refl _, .refl _, nofun, hparallel, .refl _ _, hcomputations, .failure _⟩
  | succ depth ih =>
    have hchain := List.rel_append hroute (.cons hlinked .nil)
    rw [evaluate, evaluate]
    refine evaluateOn_alongside hlinked hparallel hcomputations hroot
      (loadTwins_loadDocument hlinked hchain ?_ ?_)
    · intro asked asked' within within' hkept hkept' hwithin hcomputations hasked hsame
      have hlonger := hchain.imp fun _ _ hlinked => hlinked.kept hkept hkept'
      exact ih _ _ hlonger hasked hwithin hcomputations hsame
    · exact fun asked within hasked hlost => lost_evaluate files depth _ hasked hlost

/-- A source evaluates alike in parallel worlds. -/
theorem evaluateSource_alongside
    (hlinked : Linked hidden outside.world outside'.world source.id source'.id)
    (hsource : source ∈ outside.world.sources) (hsource' : source' ∈ outside'.world.sources)
    (hparallel : Parallel hidden files files' outside.world outside'.world)
    (hcomputations : outside'.computations = outside.computations)
    (hroot : source'.root = source.root) :
    Lost hidden (evaluateSource files source outside).2.world ∨
      Alongside hidden files files' (SameModule hidden) outside outside'
        (evaluateSource files source outside) (evaluateSource files' source' outside') := by
  -- The bounds differ, but a greater one does the same, so there is one for both.
  obtain ⟨depth, hdepth, hdepth'⟩ : ∃ depth,
      outside.world.sources.length + files.paths.length ≤ depth ∧
        outside'.world.sources.length + files'.paths.length ≤ depth :=
    ⟨max _ _, Nat.le_max_left .., Nat.le_max_right ..⟩
  rw [evaluateSource_eq_of_numbered hparallel.tidy.faithful hparallel.tidy.numbered
      (fun _ => Loadable.mem_paths) hsource hdepth,
    evaluateSource_eq_of_numbered hparallel.tidy'.faithful hparallel.tidy'.numbered
      (fun _ => Loadable.mem_paths) hsource' hdepth']
  exact evaluate_alongside depth [] [] .nil hlinked hparallel hcomputations hroot

/-- Results with the same module and the same pages. -/
structure SameCompiled (hidden : File.Path → Bool) (world world' : World)
    (compiled compiled' : Compiled) : Prop where
  module : SameModule hidden world world' compiled.module compiled'.module
  pages : compiled'.pages = compiled.pages

/-- There is a main source that belongs to one path in both worlds. -/
structure SameMain (hidden : File.Path → Bool) (world world' : World) (id id' : Nat) : Prop where
  main : world.mainId = some id
  main' : world'.mainId = some id'
  linked : Linked hidden world world' id id'
  attached : id ≠ Source.detachedId
  attached' : id' ≠ Source.detachedId

theorem main_of_mainId {world : World} {id : Nat} (hmain : world.mainId = some id)
    (hattached : id ≠ Source.detachedId) : world.main = world.source id := by
  rw [World.main, hmain]
  exact if_neg hattached

/-- The main source compiles alike in parallel worlds. -/
theorem compile_alongside {id id' : Nat}
    (hmain : SameMain hidden outside.world outside'.world id id')
    (hparallel : Parallel hidden files files' outside.world outside'.world)
    (hcomputations : outside'.computations = outside.computations) :
    Lost hidden (compile files outside).2.world ∨
      Alongside hidden files files' (SameCompiled hidden) outside outside'
        (compile files outside) (compile files' outside') := by
  obtain ⟨source, source', hsource, hsource', rfl, rfl, -, hroot⟩ :=
    hparallel.exists_sources hmain.linked
  have hsame := evaluateSource_alongside hmain.linked (mem_of_source hsource)
    (mem_of_source hsource') hparallel hcomputations hroot
  rw [compile, compile, main_of_mainId hmain.main hmain.attached,
    main_of_mainId hmain.main' hmain.attached', hsource, hsource']
  dsimp only
  generalize evaluateSource files source outside = outcome at hsame ⊢
  generalize evaluateSource files' source' outside' = outcome' at hsame ⊢
  obtain ⟨result, after⟩ := outcome
  obtain ⟨result', after'⟩ := outcome'
  obtain hlost | ⟨hkept, hkept', hsettled, hafter, hprinted, hcomputations, hmatched⟩ := hsame
  · exact .inl (by cases result <;> exact hlost)
  · refine .inr ?_
    cases hmatched with
    | failure failure =>
      exact ⟨hkept, hkept', fun _ hfailed => (by cases hfailed), hafter, hprinted, hcomputations,
        .failure failure⟩
    | @value module module' hmodule =>
      have hclean : module'.diagnostics.isEmpty = module.diagnostics.isEmpty := by
        rw [Bool.eq_iff_iff, List.isEmpty_iff_length_eq_zero, List.isEmpty_iff_length_eq_zero,
          hmodule.diagnostics.length_eq]
      refine ⟨hkept, hkept', fun _ _ => hsettled _ rfl, hafter, hprinted, hcomputations,
        .value ⟨hmodule, ?_⟩⟩
      dsimp only
      rw [hmodule.content, hmodule.styles, hclean]

end Source

end Galley.Compile
