import Galley.Proofs.Evaluation.Parallel
import Galley.Proofs.Evaluation.Spending
import Galley.Proofs.Layout.Marks
import Galley.Proofs.World.Aged
import Galley.Proofs.World.Outcome

/-!
# What escapes from compilation

Compilation makes pages or diagnostics of whatever a document and its files say.  What escapes as a
failure is a number with more digits than can be read, written or be a float, for which some source
needs that many, or a path that cannot be one.
-/

namespace Galley.Compile

open Syntax Document Eval World

/-- The failures of compilation, and what brings them about. -/
inductive Escapes (origin : World) (files : File.Tree) (after : World) : Failure → Prop
  | detached (hmain : origin.mainId = some Source.detachedId) :
      Escapes origin files after .noMainSource
  | unreadable {source : Source} {count : Nat} (hsource : source ∈ after.sources)
      (hlong : Number.digitLimit < count) (hcount : count ≤ source.root.digits) :
      Escapes origin files after (.unreadableInteger count)
  | unwritable {source : Source} (hsource : source ∈ after.sources)
      (hlong : Number.digitLimit < source.root.digits) :
      Escapes origin files after .unwritableInteger
  | tooLarge {source : Source} (hsource : source ∈ after.sources)
      (hlarge : 308 < source.root.digits) : Escapes origin files after .integerTooLarge
  | stuck {path : File.Path} {failure : Failure} (hstuck : Stuck origin files path failure)
      (hslot : after.slot? path = some .pending) : Escapes origin files after failure

variable {origin world : World} {files : File.Tree}

/-! ## Worlds on the way -/

/-- A world that compilation comes by before anything has failed. -/
structure Continues (origin world : World) : Prop where
  grown : Extends origin world
  settled : Settled origin world
  tidy : world.Tidy

namespace Continues

theorem refl (htidy : origin.Tidy) : Continues origin origin :=
  ⟨.refl origin, .refl origin, htidy⟩

/-- What is impossible for a path has been so from the start. -/
theorem stuck (hworld : Continues origin world) {path : File.Path} {failure : Failure}
    (hstuck : Stuck world files path failure) : Stuck origin files path failure := by
  have hnone : world.slot? path = none → origin.slot? path = none := fun hslot => by
    cases horigin : origin.slot? path with
    | none => rfl
    | some slot => exact nomatch hslot.symm.trans (hworld.grown.kept.slot horigin)
  cases hstuck with
  | again hslot => exact .again (hworld.settled path hslot)
  | nullCharacter hslot hnull => exact .nullCharacter (hnone hslot) hnull
  | tooLong hslot hnull hread => exact .tooLong (hnone hslot) hnull hread

/-- A request either fails for good or has an outcome. -/
theorem resolve (hworld : Continues origin world) (files : File.Tree) (path : File.Path) :
    (∃ failure, (world.resolve files path).1 = .error failure ∧ (∀ error, failure ≠ .load error) ∧
      Escapes origin files (world.resolve files path).2 failure) ∨
    Continues origin (world.resolve files path).2 ∧
      HasOutcome (world.normalize path) (world.resolve files path).1
        (world.resolve files path).2 := by
  by_cases hstuck : ∃ failure, Stuck world files (world.normalize path) failure
  · obtain ⟨failure, hstuck⟩ := hstuck
    obtain ⟨hanswer, hslot⟩ := hstuck.resolve_eq
    exact .inl ⟨failure, hanswer, hstuck.ne_load, .stuck (hworld.stuck hstuck) hslot⟩
  · have houtcome := hworld.tidy.hasOutcome (not_exists.1 hstuck)
    have hsettled := settled_resolve world files path fun failure hfailure => by
      cases houtcome with
      | source hanswer => exact nomatch hanswer.symm.trans hfailure
      | error hanswer => exact ⟨_, Except.error.inj (hfailure.symm.trans hanswer)⟩
    exact .inr ⟨⟨hworld.grown.trans (.resolve world files path), hworld.settled.trans hsettled,
      (hworld.tidy.resolved files path).tidy⟩, houtcome⟩

end Continues

/-! ## Sources -/

/-- A failure that is shown to be impossible elsewhere, or one that escapes. -/
def Excuses (origin : World) (files : File.Tree) (after : World) (failure : Failure) : Prop :=
  Structural failure ∨ failure = .endlessChain ∨ Escapes origin files after failure

/-- What a source may come to. -/
def escaping (origin : World) (files : File.Tree) (source : Source) : Allowance where
  holds world := Continues origin world ∧ source ∈ world.sources
  limit := source.root.digits
  fails := Excuses origin files
  structural hstructural := .inl hstructural
  unreadable hworld hlong hcount := .inr (.inr (.unreadable hworld.2 hlong hcount))
  unwritable hworld hlong := .inr (.inr (.unwritable hworld.2 hlong))
  tooLarge hworld hlarge := .inr (.inr (.tooLarge hworld.2 hlarge))

/-- How the evaluation of a source ends. -/
def Ends (origin : World) (files : File.Tree) : Except Failure Module × Surroundings → Prop
  | (.ok _, after) => Continues origin after.world
  | (.error failure, after) => Excuses origin files after.world failure

variable {source : Source} {outside : Surroundings}

/-- A document that is asked for escapes with what escapes from its own evaluation. -/
theorem loads_escaping {chain : List Nat}
    {enter : Source → Surroundings → Except Failure Module × Surroundings}
    (henter : ∀ (asked : Source) (outside : Surroundings), Continues origin outside.world →
      asked ∈ outside.world.sources → Ends origin files (enter asked outside) ∧
        Extends outside.world (enter asked outside).2.world) :
    (escaping origin files source).Loads (loadDocument files chain enter) := by
  intro spent span path
  constructor
  rintro machine ⟨⟨hworld, hsource⟩, hscope⟩
  rw [loadDocument_apply]
  have hgrown := Extends.resolve machine.world files (.ofString path)
  have hresolve := hworld.resolve files (.ofString path)
  generalize machine.world.resolve files (.ofString path) = answer at hgrown hresolve ⊢
  obtain ⟨result, opened⟩ := answer
  have hsource := hgrown.sources.subset hsource
  obtain ⟨failure, hanswer, hload, hescapes⟩ | ⟨hopened, houtcome⟩ := hresolve
  · obtain rfl : result = .error failure := hanswer
    cases failure with
    | load error => exact absurd rfl (hload error)
    | _ => exact .inr (.inr hescapes)
  · cases houtcome with
    | error hanswer =>
      obtain rfl : result = .error _ := hanswer
      exact ⟨⟨hopened, hsource⟩, hscope⟩
    | @source id asked hanswer hasked =>
      obtain rfl : result = .ok id := hanswer
      rw [enterAnswer]
      split
      · exact ⟨⟨hopened, hsource⟩, hscope⟩
      · obtain ⟨hends, hafter⟩ := henter asked ⟨opened, machine.printed, machine.computations⟩
          hopened (mem_of_source hasked)
        dsimp only at hasked
        rw [hasked]
        dsimp only
        generalize enter asked _ = outcome at hends hafter ⊢
        obtain ⟨failure | module, reached⟩ := outcome
        · exact hends
        · exact ⟨⟨⟨hends, hafter.sources.subset hsource⟩, hscope⟩, trivial⟩

/-- The tree of a source spends nothing but its own digits. -/
theorem evaluateTree_ends {load : Int → String → Eval Content}
    (hload : (escaping origin files source).Loads load) (hworld : Continues origin outside.world)
    (hsource : source ∈ outside.world.sources) :
    Ends origin files (evaluateTree ⟨source.id, load⟩ source outside) := by
  have htree : Spends (escaping origin files source) 0 source.root.digits
      (evalNode ⟨source.id, load⟩ source.root).content fun _ => True :=
    (Affords.of_loads hload source.root).content (Nat.zero_add _).le (Nat.le_refl _)
  have hmeets := htree.run
    { world := outside.world, printed := outside.printed, computations := outside.computations }
    ⟨⟨hworld, hsource⟩, List.forall_mem_nil _⟩
  rw [evaluateTree]
  simp only [ExceptT.run, StateT.run]
  generalize (evalNode ⟨source.id, load⟩ source.root).content _ = answer at hmeets ⊢
  obtain ⟨(⟨span, error⟩ | failure) | content, reached⟩ := answer
  · exact hmeets.world.1
  · exact hmeets
  · exact hmeets.1.world.1

theorem evaluate_ends (depth : Nat) (route : List Nat) (hworld : Continues origin outside.world)
    (hsource : source ∈ outside.world.sources) :
    Ends origin files (evaluate files depth route source outside) := by
  induction depth generalizing route source outside with
  | zero => exact .inr (.inl rfl)
  | succ depth ih =>
    rw [evaluate, evaluateOn]
    split
    · refine evaluateTree_ends (loads_escaping fun asked outside hworld hasked => ?_) hworld hsource
      exact ⟨ih _ hworld hasked, (hworld.tidy.evaluated _ hasked files depth _).1⟩
    · exact hworld

/-! ## Compilation -/

/-- What compiling comes to: pages or diagnostics, or a failure that escapes. -/
inductive Reports (origin : World) (files : File.Tree) :
    Except Failure Compiled × Surroundings → Prop
  | result {compiled : Compiled} {after : Surroundings}
      (hone : compiled.pages = [] ↔ compiled.module.diagnostics ≠ []) :
      Reports origin files (.ok compiled, after)
  | escape {failure : Failure} {after : Surroundings}
      (hescapes : Escapes origin files after.world failure) :
      Reports origin files (.error failure, after)

/-- Whatever the main text and the files say, compiling comes to pages or to diagnostics and never
to both, unless a source needs more digits than numbers have or a path cannot be one. -/
theorem compile_reports (files : File.Tree) (world : World) (path : File.Path) (text printed : String)
    (computations : Nat) (hworld : world.Reached fun _ => True) :
    Reports (world.set path text).2 files
      (compile files ⟨(world.set path text).2, printed, computations⟩) := by
  have hafter : (world.set path text).2.Reached fun _ => True :=
    .step hworld (.set world path text) fun _ _ => trivial
  have hmainId := (hworld.tidy.hasSet path text).mainId
  obtain ⟨source, hsource, -⟩ := exists_source_set hworld.numbered path text
  have hmem := mem_of_source hsource
  have hendless : (compile files ⟨(world.set path text).2, printed, computations⟩).1 ≠
      .error .endlessChain :=
    compile_ne_endlessChain hafter
  generalize (world.set path text).1 = id at hmainId hsource
  generalize (world.set path text).2 = start at hafter hmainId hsource hmem hendless ⊢
  by_cases hdetached : id = Source.detachedId
  · have hmain : start.main = .error .noMainSource := by
      rw [World.main, hmainId]
      exact if_pos hdetached
    rw [compile, hmain]
    exact .escape (.detached (hdetached ▸ hmainId))
  · have hends : Ends start files (evaluateSource files source ⟨start, printed, computations⟩) :=
      evaluate_ends _ _ (.refl hafter.tidy) hmem
    have hadmits : (growing source.id start.sources).Admits
        (evaluateSource files source ⟨start, printed, computations⟩) :=
      evaluate_admits_growing files _ _ hafter.faithful (hafter.faithful source hmem)
    rw [compile, main_of_mainId hmainId hdetached, hsource] at hendless ⊢
    dsimp only at hendless ⊢
    generalize evaluateSource files source _ = outcome at hends hadmits hendless ⊢
    obtain ⟨failure | module, reached⟩ := outcome
    · obtain hstructural | rfl | hescapes := hends
      · exact absurd hstructural hadmits.1
      · exact absurd rfl hendless
      · exact .escape hescapes
    · refine .result ?_
      dsimp only
      split
      · rename_i hclean
        exact iff_of_false (layout_ne_nil _ _) (not_not_intro (List.isEmpty_iff.1 hclean))
      · rename_i hreported
        exact iff_of_true rfl fun hclean => hreported (List.isEmpty_iff.2 hclean)

/-- A document with a name that nobody knows has diagnostics and no pages. -/
theorem compile_reports_unknownName :
    let start := (World.set { root := .current } { names := ["m"] } "#x").2
    World.Reached (fun _ => True) { root := .current } ∧
    Reports start ⟨[]⟩ (compile ⟨[]⟩ ⟨start, "", 0⟩) ∧
    (compile ⟨[]⟩ ⟨start, "", 0⟩).1.toOption.map (fun compiled =>
      (compiled.pages.length, compiled.module.diagnostics.map Diagnostic.message)) =
        some (0, ["unknown variable: x"]) := by
  have hworld : World.Reached (fun _ => True) { root := .current } := .new _
  exact ⟨hworld, compile_reports ⟨[]⟩ { root := .current } { names := ["m"] } "#x" "" 0 hworld,
    by decide +kernel⟩

/-- One that asks for a path with a null character has neither, and no result at all. -/
theorem compile_escapes_nullCharacter :
    (parse "#include(\"\\u\x7b0\x7d\")").errors = [] ∧
    (compile ⟨[]⟩ ⟨(World.set { root := .current } { names := ["m"] }
      "#include(\"\\u\x7b0\x7d\")").2, "", 0⟩).1.toOption.isNone = true :=
  ⟨by decide +kernel, by decide +kernel⟩

end Galley.Compile
