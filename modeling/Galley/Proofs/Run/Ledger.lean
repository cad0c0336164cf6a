import Galley.Proofs.Image.Rendering
import Galley.Proofs.Run.Steps
import Mathlib.Data.List.Nodup

/-!
# The parts of a file, one by one

A check of a file takes its parts in turn.  Each of them is skipped, passed over as the header, or
executed, and a failure ends the turns.  What the report says about skipped parts is what the turns
say, and whenever it says that something is wrong, it also says what.
-/

namespace Galley.Run

open Compile File Check

/-- What is said about a part that is skipped. -/
def Entry.skipped? : Entry → Option Nat
  | skipped index => some index
  | _ => none

/-- The check of one subtest, from its start to its end or to a failure. -/
structure Execution where
  subtest : Subtest
  before : Progress
  result : Except Failure Outcome
  after : Progress

/-- What becomes of a part. -/
inductive Turn
  | skipped
  | header
  | executed (execution : Execution)

namespace Turn

def execution? : Turn → Option Execution
  | executed execution => some execution
  | _ => none

end Turn

/-- Checks a subtest and keeps a record of it. -/
def execute (setup : Setup) (path : Path) (subtest : Subtest) (progress : Progress) : Execution :=
  { subtest
    before := progress
    result := (checkSubtest setup path subtest progress).1
    after := (checkSubtest setup path subtest progress).2 }

/-- Skips a part. -/
def skip (index : Nat) (progress : Progress) : Progress :=
  { progress with report := progress.report.add (.skipped index) }

/-- The turns that parts take, each with the index of the part. -/
def turns (setup : Setup) (path : Path) (selected : Option Nat) :
    List (Option Subtest × Nat) → Progress → List (Nat × Turn)
  | [], _ => []
  | (slot, index) :: rest, progress =>
    if selected.any (· != index) then
      (index, .skipped) :: turns setup path selected rest (skip index progress)
    else
      match slot with
      | none => (index, .header) :: turns setup path selected rest progress
      | some subtest =>
        let execution := execute setup path subtest progress
        (index, .executed execution) ::
          match execution.result with
          | .ok _ => turns setup path selected rest execution.after
          | .error _ => []

/-- The executions among turns. -/
def executions (turns : List (Nat × Turn)) : List Execution :=
  turns.filterMap fun turn => turn.2.execution?

/-- The progress behind turns. -/
def finish (progress : Progress) : List (Nat × Turn) → Progress
  | [] => progress
  | (index, .skipped) :: rest => finish (skip index progress) rest
  | (_, .header) :: rest => finish progress rest
  | (_, .executed execution) :: rest => finish execution.after rest

variable {setup : Setup} {path : Path} {selected : Option Nat} {progress : Progress}

theorem executions_executed (index : Nat) (execution : Execution) (rest : List (Nat × Turn)) :
    executions ((index, .executed execution) :: rest) = execution :: executions rest :=
  rfl

/-- The turns are all that a check of the parts consists of. -/
theorem checkParts_eq_turns (setup : Setup) (path : Path) (selected : Option Nat)
    (slots : List (Option Subtest × Nat)) (progress : Progress) :
    checkParts setup path selected slots progress =
      ((executions (turns setup path selected slots progress)).mapM Execution.result,
        finish progress (turns setup path selected slots progress)) := by
  induction slots generalizing progress with
  | nil => rfl
  | cons slot slots ih =>
    obtain ⟨_ | subtest, index⟩ := slot <;> rw [checkParts, turns] <;> split
    · exact ih _
    · exact ih _
    · exact ih _
    · rw [bind_apply]
      dsimp only [execute]
      rw [executions_executed, List.mapM_cons]
      rcases checkSubtest setup path subtest progress with ⟨failure | outcome, after⟩
      · rfl
      · dsimp only [finish]
        rw [bind_apply, ih after]
        generalize (executions (turns setup path selected slots after)).mapM Execution.result =
          results
        cases results <;> rfl

/-! ## Every part has its turn -/

/-- What a turn says about its part. -/
def Turn.Fits (setup : Setup) (path : Path) (slot : Option Subtest) : Turn → Prop
  | skipped => True
  | header => slot = none
  | executed execution => slot = some execution.subtest ∧
      checkSubtest setup path execution.subtest execution.before =
        (execution.result, execution.after)

theorem exists_slot_of_mem_turns {slots : List (Option Subtest × Nat)} {turn : Nat × Turn}
    (hturn : turn ∈ turns setup path selected slots progress) :
    ∃ slot, (slot, turn.1) ∈ slots ∧ turn.2.Fits setup path slot := by
  induction slots generalizing progress with
  | nil => cases hturn
  | cons slot slots ih =>
    have hlater : ∀ {progress}, turn ∈ turns setup path selected slots progress →
        ∃ other, (other, turn.1) ∈ slot :: slots ∧ turn.2.Fits setup path other := fun hturn =>
      let ⟨other, hother, hfits⟩ := ih hturn
      ⟨other, List.mem_cons_of_mem _ hother, hfits⟩
    obtain ⟨_ | subtest, index⟩ := slot <;> rw [turns] at hturn <;> split at hturn <;>
      obtain rfl | hturn := List.mem_cons.1 hturn
    · exact ⟨none, List.mem_cons_self, trivial⟩
    · exact hlater hturn
    · exact ⟨none, List.mem_cons_self, rfl⟩
    · exact hlater hturn
    · exact ⟨some subtest, List.mem_cons_self, trivial⟩
    · exact hlater hturn
    · exact ⟨some subtest, List.mem_cons_self, rfl, rfl⟩
    · split at hturn
      · exact hlater hturn
      · cases hturn

/-- Unless a subtest fails, all parts have their turn. -/
theorem map_fst_turns {slots : List (Option Subtest × Nat)} {outcomes : List Outcome}
    (hresults : (executions (turns setup path selected slots progress)).mapM Execution.result =
      .ok outcomes) :
    (turns setup path selected slots progress).map Prod.fst = slots.map Prod.snd := by
  induction slots generalizing progress outcomes with
  | nil => rfl
  | cons slot slots ih =>
    obtain ⟨_ | subtest, index⟩ := slot <;> rw [turns] at hresults ⊢ <;> split at hresults <;>
      rename_i hselected
    · rw [if_pos hselected]
      exact congrArg (index :: ·) (ih hresults)
    · rw [if_neg hselected]
      exact congrArg (index :: ·) (ih hresults)
    · rw [if_pos hselected]
      exact congrArg (index :: ·) (ih hresults)
    · rw [if_neg hselected]
      dsimp only at hresults ⊢
      obtain ⟨outcome, rest, hresult, hrest, -⟩ := Image.exists_of_mapM_cons hresults
      rw [hresult] at hrest ⊢
      exact congrArg (index :: ·) (ih hrest)

/-! ## What the report says about parts -/

/-- How often a part is listed as skipped. -/
def Report.timesListed (report : Report) (index : Nat) : Nat :=
  (report.entries.filterMap Entry.skipped?).count index

/-- How often a part is executed. -/
def timesExecuted (turns : List (Nat × Turn)) (index : Nat) : Nat :=
  turns.countP fun turn => turn.1 == index && turn.2.execution?.isSome

/-- Something is wrong only if an entry says so. -/
def Progress.Explained (progress : Progress) : Prop :=
  progress.Bad → ∃ entry ∈ progress.report.entries, entry.isFault = true

theorem Progress.Explained.add (hexplained : progress.Explained) (entry : Entry) :
    Progress.Explained { progress with report := progress.report.add entry } := fun hbad =>
  let ⟨fault, hentry, hfault⟩ := hexplained hbad
  ⟨fault, List.mem_append_left _ hentry, hfault⟩

/-- The turns of the parts of a file, none if there is no telling its parts. -/
def course (setup : Setup) (path : Path) (bench : Bench) : List (Nat × Turn) :=
  match planAt setup bench.files path with
  | .ok (fixture, selected) =>
    turns setup path selected fixture.slots.zipIdx (.start setup path bench)
  | .error _ => []

/-- No failure ends the check of a file. -/
def Completes (setup : Setup) (path : Path) (bench : Bench) : Prop :=
  ∃ after, checkFixture setup path (.start setup path bench) = (.ok (), after)

variable {bench : Bench}

/-- A check of a file consists of its course and of a comparison of pages. -/
theorem checkFixture_eq_course (setup : Setup) (path : Path) (bench : Bench) :
    checkFixture setup path (.start setup path bench) =
      match planAt setup bench.files path with
      | .ok _ =>
        match (executions (course setup path bench)).mapM Execution.result with
        | .ok outcomes =>
          comparePages setup path outcomes
            (finish (.start setup path bench) (course setup path bench))
        | .error failure =>
          (.error failure, finish (.start setup path bench) (course setup path bench))
      | .error failure => (.error failure, .start setup path bench) := by
  rw [checkFixture_apply, course]
  change (match planAt setup bench.files path with | .ok (_, _) => _ | .error _ => _) = _
  cases planAt setup bench.files path with
  | error failure => rfl
  | ok plan =>
    dsimp only
    rw [bind_apply, checkParts_eq_turns]
    cases (executions (turns setup path plan.2 plan.1.slots.zipIdx
      (.start setup path bench))).mapM Execution.result <;> rfl

theorem Maintains.checkFixture {holds : Progress → Prop} (hbenchless : Benchless holds)
    (hskip : ∀ index, Maintains holds (Check.add (.skipped index)))
    (hupdated : ∀ {progress : Progress}, holds progress →
      holds { progress with report := { progress.report with updated := true } })
    (setup : Setup) (path : Path) : Maintains holds (checkFixture setup path) := by
  intro progress hholds
  rw [checkFixture_apply]
  cases planAt setup progress.bench.files path with
  | error failure => exact hholds
  | ok plan =>
    have hsubtest := fun subtest => Maintains.checkSubtest hbenchless.toUnworldly setup path subtest
    have hparts := hbenchless.closed.checkParts setup path plan.2 plan.1.slots.zipIdx hskip hsubtest
    exact hparts.bind
      (fun outcomes => .comparePages hbenchless hupdated setup path outcomes) progress hholds

section Plan

variable {fixture : Fixture} (hplan : planAt setup bench.files path = .ok (fixture, selected))

include hplan

theorem course_eq : course setup path bench =
    turns setup path selected fixture.slots.zipIdx (.start setup path bench) := by
  rw [course, hplan]

/-- What is executed is a part of the file. -/
theorem exists_slot_of_mem_course {index : Nat} {turn : Turn}
    (hturn : (index, turn) ∈ course setup path bench) :
    ∃ slot, (slot, index) ∈ fixture.slots.zipIdx ∧ turn.Fits setup path slot := by
  rw [course_eq hplan] at hturn
  exact exists_slot_of_mem_turns hturn

end Plan

end Galley.Run
