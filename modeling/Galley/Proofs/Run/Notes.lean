import Galley.Proofs.Note.Malformed
import Galley.Proofs.Run.Ledger

/-!
# Notes in the check of a file

A note line that is reported takes nothing away from the check but what the notes of its subtest
expect.  The other checks of the subtest follow, and so do the other parts of the file.  Only
digits that are found and not read end the check of the file.
-/

namespace Galley.Run

open Compile File Check

variable {setup : Setup} {path : Path} {bench : Bench} {selected : Option Nat}
  {subtest : Subtest} {source : Syntax.Source} {progress opened : Progress}

/-! ## One subtest -/

/-- What is checked of a subtest behind its notes. -/
def checkNoted (setup : Setup) (subtest : Subtest) (source : Syntax.Source) (metadata : Metadata) :
    Check Outcome := do
  checkTree source
  fuzz setup subtest source.text
  showModel setup source
  let compiled ← compiling compile
  judgeCompiled subtest source metadata compiled

/-- The progress behind the tree of a subtest. -/
def Progress.shown (progress : Progress) (setup : Setup) (source : Syntax.Source) : Progress :=
  (showTree setup source progress).2

/-- The progress behind an entry about something that is wrong. -/
def Progress.blamed (progress : Progress) (entry : Entry) : Progress :=
  { progress with report := { progress.report.add entry with ok := false } }

/-- What the notes of a subtest lead to: what they say, or an entry about the line that is reported
and nothing that is expected. -/
inductive Notes (subtest : Subtest) (source : Syntax.Source) (progress : Progress) :
    Metadata → Progress → Prop
  | read {metadata : Metadata} (hread : Metadata.read source = .ok metadata) :
      Notes subtest source progress metadata progress
  | reported {failure : Failure} (hread : Metadata.read source = .error failure)
      (hreported : Metadata.Reported source failure) :
      Notes subtest source progress { compareRef := none, notes := [] }
        (progress.blamed (.unreadableNotes subtest.index failure))

theorem checkOpened_apply (setup : Setup) (subtest : Subtest) (source : Syntax.Source)
    (progress : Progress) :
    checkOpened setup subtest source progress =
      (readNotes subtest source >>= checkNoted setup subtest source)
        (progress.shown setup source) := by
  have hshown : showTree setup source progress = (.ok (), progress.shown setup source) := by
    rw [Progress.shown, showTree]
    split <;> rfl
  rw [checkOpened, bind_apply, hshown]
  rfl

/-- Notes that are read or reported leave the check going. -/
theorem exists_notes (hreadable : ∀ failure, ¬Metadata.Unreadable source failure)
    (subtest : Subtest) (progress : Progress) :
    ∃ metadata noted, Notes subtest source progress metadata noted ∧
      readNotes subtest source progress = (.ok metadata, noted) := by
  cases hread : Metadata.read source with
  | ok metadata =>
    refine ⟨metadata, progress, .read hread, ?_⟩
    rw [readNotes, hread]
    rfl
  | error failure =>
    have hreported := (Metadata.reported_or_unreadable hread).resolve_right (hreadable failure)
    refine ⟨_, _, .reported hread hreported, ?_⟩
    obtain ⟨line, reason, rfl, -⟩ := hreported
    rw [readNotes, hread]
    rfl

/-- Digits that are found and not read end the check of a subtest with their failure. -/
theorem readNotes_unreadable {failure : Failure}
    (hunreadable : Metadata.Unreadable source failure) (subtest : Subtest) (progress : Progress) :
    readNotes subtest source progress = (.error failure, progress) := by
  have hthrow : readNotes subtest source = throw failure := by
    unfold readNotes
    rw [hunreadable.read_eq_error]
    split
    · rename_i hread
      cases hread
    · rename_i index text reason hread
      exact absurd (Except.error.inj hread) (hunreadable.ne_malformedNote index text reason)
    · rename_i hread
      rw [Except.error.inj hread]
  rw [hthrow]
  rfl

/-! ## The parts behind it -/

/-- A failure is the end of the turns. -/
theorem turns_of_error {slots : List (Option Subtest × Nat)} {index : Nat} {execution : Execution}
    {failure : Failure}
    (hturn : (index, .executed execution) ∈ turns setup path selected slots progress)
    (hresult : execution.result = .error failure) :
    (turns setup path selected slots progress).getLast? = some (index, .executed execution) ∧
      (executions (turns setup path selected slots progress)).mapM Execution.result =
        .error failure ∧
      finish progress (turns setup path selected slots progress) = execution.after := by
  induction slots generalizing progress with
  | nil => cases hturn
  | cons slot slots ih =>
    obtain ⟨_ | subtest, number⟩ := slot <;> rw [turns] at hturn ⊢ <;> split at hturn <;>
      rename_i hselected
    case cons.none.isTrue | cons.none.isFalse | cons.some.isTrue =>
      obtain hfirst | hturn := List.mem_cons.1 hturn
      · cases hfirst
      · obtain ⟨hlast, hresults, hfinish⟩ := ih hturn
        simp only [hselected, reduceIte, Bool.false_eq_true]
        exact ⟨by rw [List.getLast?_cons, hlast]; rfl, hresults, hfinish⟩
    · rw [if_neg hselected]
      dsimp only at hturn ⊢
      rw [List.getLast?_cons, executions_executed, List.mapM_cons, finish]
      obtain hfirst | hturn := List.mem_cons.1 hturn
      · obtain ⟨rfl, ⟨⟩⟩ := Prod.mk.inj hfirst
        rw [hresult]
        exact ⟨rfl, rfl, rfl⟩
      · cases hfirst : (execute setup path subtest progress).result with
        | error other =>
          rw [hfirst] at hturn
          cases hturn
        | ok outcome =>
          rw [hfirst] at hturn
          dsimp only at hturn ⊢
          obtain ⟨hlast, hresults, hfinish⟩ := ih hturn
          rw [hlast, hresults]
          exact ⟨rfl, rfl, hfinish⟩

/-- All parts have their turn unless a failure ends the turns. -/
theorem all_turns_or_error (slots : List (Option Subtest × Nat)) :
    (turns setup path selected slots progress).map Prod.fst = slots.map Prod.snd ∨
      ∃ index execution failure,
        (index, .executed execution) ∈ turns setup path selected slots progress ∧
          execution.result = .error failure := by
  cases hresults :
      (executions (turns setup path selected slots progress)).mapM Execution.result with
  | ok outcomes => exact .inl (map_fst_turns hresults)
  | error failure =>
    obtain ⟨earlier, execution, later, hitems, -, hresult⟩ :=
      Metadata.mapM_eq_error_iff.1 hresults
    have hmem : execution ∈ executions (turns setup path selected slots progress) :=
      hitems ▸ List.mem_append_right _ List.mem_cons_self
    obtain ⟨⟨index, turn⟩, hturn, hexecution⟩ := List.mem_filterMap.1 hmem
    cases turn with
    | skipped | header => cases hexecution
    | executed other =>
      cases hexecution
      exact .inr ⟨index, execution, failure, hturn, hresult⟩

/-! ## Files -/

/-- What has been executed is the check of a subtest. -/
theorem checkSubtest_of_mem_course {index : Nat} {execution : Execution}
    (hturn : (index, .executed execution) ∈ course setup path bench) :
    checkSubtest setup path execution.subtest execution.before =
      (execution.result, execution.after) := by
  cases hplan : planAt setup bench.files path with
  | error failure =>
    rw [course, hplan] at hturn
    cases hturn
  | ok plan =>
    obtain ⟨-, -, -, hrun⟩ := exists_slot_of_mem_course hplan hturn
    exact hrun

/-- A subtest goes on behind its tree with its notes. -/
theorem checkSubtest_of_setMain
    (hset : setMain path subtest.text progress = (.ok source, opened)) :
    checkSubtest setup path subtest progress =
      (readNotes subtest source >>= checkNoted setup subtest source)
        (opened.shown setup source) := by
  rw [checkSubtest_eq, bind_apply, hset]
  exact checkOpened_apply setup subtest source opened

theorem runFile_of_error {failure : Failure} {after : Progress}
    (hrun : checkFixture setup path (.start setup path bench) = (.error failure, after)) :
    runFile setup path bench =
      ({ after.report.add (.panic (displayName setup.settings path) failure) with
          ok := false, panicked := true }, after.bench) := by
  rw [runFile, ← Progress.start, hrun]

/-- What notes do to the check of a file. -/
structure NotesHandled (setup : Setup) (path : Path) (bench : Bench) : Prop where
  /-- Notes that are not read have a line that is reported or digits that are not read, and not
  both. -/
  settled : ∀ source failure, Metadata.Unreadable source failure ↔
    Metadata.read source = .error failure ∧ ¬Metadata.Reported source failure
  /-- All other checks follow notes that are read and notes that are reported. -/
  followed : ∀ index execution, (index, .executed execution) ∈ course setup path bench →
    ∀ source opened,
      setMain path execution.subtest.text execution.before = (.ok source, opened) →
      (∀ failure, ¬Metadata.Unreadable source failure) →
      ∃ metadata noted,
        Notes execution.subtest source (opened.shown setup source) metadata noted ∧
        checkNoted setup execution.subtest source metadata noted =
          (execution.result, execution.after)
  /-- Digits that are not read end the check of the subtest and of the file. -/
  ended : ∀ index execution, (index, .executed execution) ∈ course setup path bench →
    ∀ source opened failure,
      setMain path execution.subtest.text execution.before = (.ok source, opened) →
      Metadata.Unreadable source failure →
      execution.result = .error failure ∧ execution.after = opened.shown setup source ∧
        (course setup path bench).getLast? = some (index, .executed execution) ∧
        runFile setup path bench =
          ({ execution.after.report.add (.panic (displayName setup.settings path) failure) with
              ok := false, panicked := true }, execution.after.bench)
  /-- Parts have their turn unless the check of one in front of them fails. -/
  turned : ∀ fixture selected, planAt setup bench.files path = .ok (fixture, selected) →
    (course setup path bench).map Prod.fst = List.range fixture.slots.length ∨
      ∃ index execution failure, (index, .executed execution) ∈ course setup path bench ∧
        execution.result = .error failure

theorem notes_handled (setup : Setup) (path : Path) (bench : Bench) :
    NotesHandled setup path bench where
  settled source failure := Metadata.unreadable_iff
  followed index execution hturn source opened hset hreadable := by
    obtain ⟨metadata, noted, hnotes, hread⟩ :=
      exists_notes hreadable execution.subtest (opened.shown setup source)
    refine ⟨metadata, noted, hnotes, ?_⟩
    rw [← checkSubtest_of_mem_course hturn, checkSubtest_of_setMain hset, bind_apply, hread]
  ended index execution hturn source opened failure hset hunreadable := by
    have hrun := checkSubtest_of_mem_course hturn
    rw [checkSubtest_of_setMain hset, bind_apply, readNotes_unreadable hunreadable] at hrun
    obtain ⟨hresult, hafter⟩ := Prod.mk.inj hrun
    cases hplan : planAt setup bench.files path with
    | error failure =>
      rw [course, hplan] at hturn
      cases hturn
    | ok plan =>
      rw [course_eq hplan] at hturn
      obtain ⟨hlast, hresults, hfinish⟩ := turns_of_error hturn hresult.symm
      rw [← course_eq hplan] at hlast hresults hfinish
      have hfails : checkFixture setup path (.start setup path bench) =
          (.error failure, execution.after) := by
        rw [checkFixture_eq_course, hplan]
        dsimp only
        rw [hresults, hfinish]
      exact ⟨hresult.symm, hafter.symm, hlast, runFile_of_error hfails⟩
  turned fixture selected hplan := by
    have hindices : fixture.slots.zipIdx.map Prod.snd = List.range fixture.slots.length := by
      rw [List.zipIdx_map_snd, List.range_eq_range']
    rw [course_eq hplan, ← hindices]
    exact all_turns_or_error _

end Galley.Run
