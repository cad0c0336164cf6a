import Galley.Proofs.Run.Ledger
import Galley.Proofs.Run.Selection

/-!
# What a verdict stands for

A file is ok if no failure ends its check, everything that is executed succeeds, and the pages
pass where a subtest has asked for a comparison.
-/

namespace Galley.Run

open Compile File Check Image

variable {setup : Setup} {path : Path} {bench : Bench} {selected : Option Nat}
  {frames : List Document.Frame} {progress after : Progress}

/-! ## Pages -/

/-- The verdict on the pages of a file. -/
def verdictOn (setup : Setup) (path : Path) (frames : List Document.Frame) : Disk Verdict := do
  let outputs ← MonadExcept.ofExcept (outputPaths setup path)
  outputs.pdf.forM fun pdf => exportDocument frames pdf
  let picture ← MonadExcept.ofExcept (renderPages frames)
  checkReference picture outputs.png outputs.ref setup.options.update (!frames.isEmpty)

/-- The pages of a file are accepted, or they have become the reference. -/
def Accepts (setup : Setup) (path : Path) (frames : List Document.Frame) (files : Tree) : Prop :=
  ∃ verdict shown, verdictOn setup path frames files = (.ok verdict, shown) ∧ verdict.ok = true

/-- What the report of a file stands for. -/
structure Accounted (setup : Setup) (path : Path) (bench : Bench) : Prop where
  /-- A file is ok exactly if no failure ends its check, all that is executed succeeds, and the
  pages are accepted in case that a subtest has asked for a comparison. -/
  ok_iff : (runFile setup path bench).1.ok = true ↔
    Completes setup path bench ∧
      (∀ execution ∈ executions (course setup path bench),
        Succeeds setup path execution.subtest execution.before execution.after) ∧
      ∀ outcomes, (executions (course setup path bench)).mapM Execution.result = .ok outcomes →
        outcomes.any Outcome.compareRef = true →
          Accepts setup path (outcomes.flatMap Outcome.frames) bench.files
  /-- A file that is not ok has at least one line about what is wrong. -/
  explained : (runFile setup path bench).1.ok = false →
    ∃ entry ∈ (runFile setup path bench).1.entries, entry.isFault = true ∧
      ∃ line ∈ entry.lines, line ∈ (runFile setup path bench).1.output
  /-- What is executed is the part with the index that it is executed under. -/
  executed : ∀ fixture selected, planAt setup bench.files path = .ok (fixture, selected) →
    ∀ index execution, (index, Turn.executed execution) ∈ course setup path bench →
      fixture.slots[index]? = some (some execution.subtest) ∧
      checkSubtest setup path execution.subtest execution.before =
        (execution.result, execution.after)
  /-- No part is executed or listed twice, and if no failure ends the check, every part but the
  header is executed or listed. -/
  counted : ∀ fixture selected, planAt setup bench.files path = .ok (fixture, selected) →
    ∀ index < fixture.parts.length,
      timesExecuted (course setup path bench) index +
          (runFile setup path bench).1.timesListed index ≤ 1 ∧
        (Completes setup path bench →
          timesExecuted (course setup path bench) index +
              (runFile setup path bench).1.timesListed index = 1 ∨
          index = 0 ∧ fixture.hasHeader = true ∧
            timesExecuted (course setup path bench) index = 0 ∧
            (runFile setup path bench).1.timesListed index = 0)

theorem length_slots_of_planAt {fixture : Fixture}
    (hplan : planAt setup bench.files path = .ok (fixture, selected)) :
    fixture.slots.length = fixture.parts.length := by
  rw [planAt] at hplan
  cases hfixture : fixtureAt bench.files path with
  | error failure =>
    rw [hfixture] at hplan
    cases hplan
  | ok found =>
    rw [hfixture] at hplan
    obtain ⟨text, rfl⟩ := exists_read_of_fixtureAt hfixture
    cases hpart : setup.options.subtest.part? (Fixture.read path text).parts.length with
    | error failure =>
      simp only [hpart] at hplan
      cases hplan
    | ok part =>
      simp only [hpart] at hplan
      cases hplan
      exact length_slots_read path text

end Galley.Run
