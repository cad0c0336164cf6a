import Galley.Compile.Evaluation

/-!
# What evaluations promise

An evaluation of a source keeps something true of the world and the
diagnostics, reports at certain spans only, and passes on certain failures
only.  Two evaluations run alike under a promise if they cannot be told apart
as long as it holds; with one evaluation in both places this says that it keeps
the promise.
-/

namespace Galley.Compile

open Syntax Document Eval

/-- An error in what a document says. That a kind of node cannot be evaluated is
none. -/
def EvalError.OfDocument : EvalError → Prop
  | .cannotEvaluate _ => False
  | _ => True

/-- A failure that a document and its files can bring about by what they say. A
tree that is not as evaluation expects it is none, nor is a text that spells no
number where the tree says that it does. -/
def OfDocument : Failure → Prop
  | .malformed _ | .invalidInteger _ | .endlessChain => False
  | _ => True

/-- What the evaluations of a source keep, where they report, and which failures
they pass on. -/
structure Promise (source : Nat) where
  keeps : World → List Diagnostic → Prop
  spans : Int → Prop
  fails : Failure → Prop
  keeps_report : ∀ {world : World} {diagnostics : List Diagnostic} {span : Int}
    {error : EvalError}, keeps world diagnostics → spans span → error.OfDocument →
      keeps world (diagnostics ++ [⟨source, span, error.message⟩])
  fails_of_document : ∀ {failure : Failure}, OfDocument failure → fails failure

variable {source : Nat} {α β : Type}

namespace Promise

/-- The promise holds of what a machine carries. -/
def Holds (promise : Promise source) (machine : Machine) : Prop :=
  promise.keeps machine.world machine.diagnostics

/-- A result is one that the promise allows. -/
def Allows (promise : Promise source) (returns : α → Prop) : Except Stop α → Prop
  | .ok value => returns value
  | .error (.report span error) => promise.spans span ∧ error.OfDocument
  | .error (.failure failure) => promise.fails failure

end Promise

/-- As long as the promise holds, the second evaluation does what the first one
does, which keeps the promise and returns only what the predicate says. -/
structure Runs (promise : Promise source) (left right : Eval α) (returns : α → Prop) : Prop where
  run : ∀ machine, promise.Holds machine → right machine = left machine ∧
    promise.Holds (left machine).2 ∧ promise.Allows returns (left machine).1

/-- An evaluation keeps the promise and returns only what the predicate says. -/
abbrev Keeps (promise : Promise source) (action : Eval α) (returns : α → Prop) : Prop :=
  Runs promise action action returns

theorem Eval.bind_apply (action : Eval α) (next : α → Eval β) (machine : Machine) :
    (action >>= next) machine =
      match action machine with
      | (.ok value, after) => next value after
      | (.error stop, after) => (.error stop, after) := by
  show ExceptT.bindCont next (action machine).1 (action machine).2 = _
  rcases action machine with ⟨value | stop, after⟩ <;> rfl

namespace Runs

variable {promise : Promise source} {left right : Eval α} {returns : α → Prop}

theorem pure {value : α} (hvalue : returns value) : Keeps promise (pure value) returns :=
  ⟨fun _ hholds => ⟨rfl, hholds, hvalue⟩⟩

theorem done {value : α} : Keeps promise (Pure.pure value) fun _ => True :=
  pure trivial

theorem report {span : Int} {error : EvalError} (hspan : promise.spans span)
    (herror : error.OfDocument) : Keeps promise (report span error) returns :=
  ⟨fun _ hholds => ⟨rfl, hholds, hspan, herror⟩⟩

theorem lift {result : Except Failure α} (hvalue : ∀ value, result = .ok value → returns value)
    (hfailure : ∀ failure, result = .error failure → promise.fails failure) :
    Keeps promise (lift result) returns := by
  cases result with
  | ok value => exact pure (hvalue value rfl)
  | error failure => exact ⟨fun _ hholds => ⟨rfl, hholds, hfailure failure rfl⟩⟩

theorem lift_of_document {result : Except Failure α}
    (hfailure : ∀ failure, result = .error failure → OfDocument failure) :
    Keeps promise (Eval.lift result) fun _ => True :=
  lift (fun _ _ => trivial) fun failure herror =>
    promise.fails_of_document (hfailure failure herror)

theorem bind {next next' : α → Eval β} {returns' : β → Prop}
    (haction : Runs promise left right returns)
    (hnext : ∀ value, returns value → Runs promise (next value) (next' value) returns') :
    Runs promise (left >>= next) (right >>= next') returns' := by
  constructor
  intro machine hholds
  obtain ⟨hsame, hkeeps, hallows⟩ := haction.run machine hholds
  rw [Eval.bind_apply, Eval.bind_apply, hsame]
  generalize left machine = answer at hkeeps hallows ⊢
  obtain ⟨(⟨span, error⟩ | failure) | value, after⟩ := answer
  · exact ⟨rfl, hkeeps, hallows⟩
  · exact ⟨rfl, hkeeps, hallows⟩
  · exact (hnext value hallows).run after hkeeps

/-- The machine may be looked at. -/
theorem get : Keeps promise get promise.Holds :=
  ⟨fun _ hholds => ⟨rfl, hholds, hholds⟩⟩

theorem set {machine : Machine} (hholds : promise.Holds machine) :
    Keeps promise (set machine) fun _ => True :=
  ⟨fun _ _ => ⟨rfl, hholds, trivial⟩⟩

theorem modify {change : Machine → Machine}
    (hchange : ∀ machine, promise.Holds machine → promise.Holds (change machine)) :
    Keeps promise (modify change) fun _ => True :=
  ⟨fun machine hholds => ⟨rfl, hchange machine hholds, trivial⟩⟩

/-- What is reported becomes a diagnostic. -/
theorem attempt {left right : Eval Content} (haction : Runs promise left right fun _ => True) :
    Runs promise (attempt source left) (attempt source right) fun _ => True := by
  constructor
  intro machine hholds
  obtain ⟨hsame, hkeeps, hallows⟩ := haction.run machine hholds
  rw [Eval.attempt, Eval.attempt, hsame]
  generalize left machine = answer at hkeeps hallows ⊢
  obtain ⟨(⟨span, error⟩ | failure) | value, after⟩ := answer
  · exact ⟨rfl, promise.keeps_report hkeeps hallows.1 hallows.2, trivial⟩
  · exact ⟨rfl, hkeeps, hallows⟩
  · exact ⟨rfl, hkeeps, trivial⟩

theorem withStrong (haction : Runs promise left right returns) :
    Runs promise (withStrong left) (withStrong right) returns := by
  constructor
  intro machine hholds
  obtain ⟨hsame, hkeeps, hallows⟩ := haction.run { machine with strong := true } hholds
  rw [Eval.withStrong, Eval.withStrong, hsame]
  exact ⟨rfl, hkeeps, hallows⟩

theorem withEmph (haction : Runs promise left right returns) :
    Runs promise (withEmph left) (withEmph right) returns := by
  constructor
  intro machine hholds
  obtain ⟨hsame, hkeeps, hallows⟩ := haction.run { machine with emph := true } hholds
  rw [Eval.withEmph, Eval.withEmph, hsame]
  exact ⟨rfl, hkeeps, hallows⟩

theorem withinBlock (haction : Runs promise left right returns) :
    Runs promise (withinBlock left) (withinBlock right) returns := by
  constructor
  intro machine hholds
  obtain ⟨hsame, hkeeps, hallows⟩ := haction.run machine hholds
  rw [Eval.withinBlock, Eval.withinBlock, hsame]
  exact ⟨rfl, hkeeps, hallows⟩

end Runs

end Galley.Compile
