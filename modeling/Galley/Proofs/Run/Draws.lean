import Galley.Proofs.Fuzz.Account
import Galley.Proofs.Run.Notes
import Galley.Proofs.Run.Selection
import Galley.Proofs.Run.Verdict
import Mathlib.Dynamics.PeriodicPts.Lemmas

/-!
# The draws of a subtest

The sessions of a file draw from one generator, and a part that is skipped draws nothing.  So the
mutations of a subtest depend on how many steps the subtests in front of it have taken, which a
run of this subtest alone leaves out: there it draws from the first state on.
-/

namespace Galley.Fuzz

open Syntax

variable {reparser : Reparser} {text : String} {generator next : Generator} {report : Report}

/-- The mutations that are tried.  Nothing is tried behind a trial that fails. -/
def attempts (reparser : Reparser) (text : String) : List Mutation → List Mutation
  | [] => []
  | mutation :: mutations =>
    match runTrial reparser text mutation with
    | .ok _ => mutation :: attempts reparser text mutations
    | .error _ => [mutation]

/-- The mutations that a session applies to a text. -/
def applied (reparser : Reparser) (text : String) (generator : Generator) : List Mutation :=
  attempts reparser text (Plan.draw text generator).1.mutations

theorem attempts_eq_self {mutations : List Mutation} {found : List (List TrialFailure)}
    (htrials : List.Forall₂ (fun mutation failures =>
      runTrial reparser text mutation = .ok failures) mutations found) :
    attempts reparser text mutations = mutations := by
  induction htrials with
  | nil => rfl
  | cons htrial _ ih => rw [attempts, htrial, ih]

/-- A session that comes to its end reports what it has applied. -/
theorem applied_eq_mutations (hrun : runSession reparser text generator = .ok (report, next)) :
    applied reparser text generator = report.mutations := by
  obtain ⟨found, htrials, rfl, -⟩ := runSession_eq_ok_iff.1 hrun
  exact attempts_eq_self htrials

/-- The steps that a session on a text takes. -/
def stepsOn (text : String) : Nat :=
  3 * (text.utf8ByteSize ⌈/⌉ 400) + 2

end Galley.Fuzz

namespace Galley.Run

open Compile File Check Function

variable {setup : Setup} {path : Path} {bench : Bench} {subtest : Subtest}
  {progress after ready : Progress} {execution : Execution}

/-! ## Around a session -/

/-- What is done with a subtest in front of its session. -/
def prepare (setup : Setup) (path : Path) (subtest : Subtest) :
    Check (Syntax.Source × Metadata) := do
  let source ← setMain path subtest.text
  showTree setup source
  let metadata ← readNotes subtest source
  checkTree source
  return (source, metadata)

/-- What is done with a subtest behind its session. -/
def proceed (setup : Setup) (subtest : Subtest) (source : Syntax.Source) (metadata : Metadata) :
    Check Outcome := do
  showModel setup source
  let compiled ← compiling compile
  judgeCompiled subtest source metadata compiled

theorem checkSubtest_eq_prepare (setup : Setup) (path : Path) (subtest : Subtest) :
    checkSubtest setup path subtest = (do
      let (source, metadata) ← prepare setup path subtest
      fuzz setup subtest source.text
      proceed setup subtest source metadata) := by
  rw [checkSubtest_eq, prepare]
  simp only [bind_assoc, pure_bind]
  rfl

theorem exists_setMain (hnumbered : Numbered progress.bench.world.sources) (path : Path)
    (text : String) :
    ∃ source opened, setMain path text progress = (.ok source, opened) ∧
      source.text = text ∧ opened.generator = progress.generator := by
  obtain ⟨source, hsource, -, htext, -⟩ := World.exists_source_set hnumbered path text
  have hset := setMain_apply path text progress
  rw [hsource] at hset
  exact ⟨source, _, hset, htext, rfl⟩

theorem exists_showTree (setup : Setup) (source : Syntax.Source) (progress : Progress) :
    ∃ shown, showTree setup source progress = (.ok (), shown) := by
  unfold showTree
  split
  · exact ⟨_, rfl⟩
  · exact ⟨_, rfl⟩

theorem exists_checkTree (source : Syntax.Source) (progress : Progress) :
    ∃ checked, checkTree source progress = (.ok (), checked) := by
  unfold checkTree
  cases source.root.spanViolation with
  | some violation => exact ⟨_, rfl⟩
  | none => exact ⟨_, rfl⟩

/-- Whether a subtest with a text gets to its session: its notes are read, or one of them is
reported. -/
def reachesSession (text : String) : Bool :=
  match Metadata.read (.detached text) with
  | .ok _ | .error (.malformedNote ..) => true
  | .error _ => false

theorem exists_readNotes {source : Syntax.Source} (htext : source.text = subtest.text)
    (progress : Progress) :
    ∃ result noted, readNotes subtest source progress = (result, noted) ∧
      result.isOk = reachesSession subtest.text := by
  have hread : Metadata.read (.detached subtest.text) = Metadata.read source := read_eq htext.symm
  unfold readNotes reachesSession
  rw [hread]
  cases Metadata.read source with
  | ok metadata => exact ⟨_, _, rfl, rfl⟩
  | error failure => cases failure <;> exact ⟨_, _, rfl, rfl⟩

/-- What is done in front of a session keeps the text and draws nothing, and the text decides
whether the session is reached. -/
theorem exists_prepare (setup : Setup) (path : Path) (subtest : Subtest)
    (hnumbered : Numbered progress.bench.world.sources) :
    ∃ result ready, prepare setup path subtest progress = (result, ready) ∧
      result.isOk = reachesSession subtest.text ∧
      ∀ source metadata, result = .ok (source, metadata) →
        source.text = subtest.text ∧ ready.generator = progress.generator := by
  obtain ⟨source, opened, hset, htext, hopened⟩ := exists_setMain hnumbered path subtest.text
  obtain ⟨shown, hshown⟩ := exists_showTree setup source opened
  obtain ⟨failure | metadata, noted, hnoted, hok⟩ := exists_readNotes htext shown
  · refine ⟨.error failure, noted, ?_, hok, nofun⟩
    rw [prepare, bind_apply, hset]
    dsimp only
    rw [bind_apply, hshown]
    dsimp only
    rw [bind_apply, hnoted]
  · obtain ⟨checked, hchecked⟩ := exists_checkTree source noted
    refine ⟨.ok (source, metadata), checked, ?_, hok, ?_⟩
    · rw [prepare, bind_apply, hset]
      dsimp only
      rw [bind_apply, hshown]
      dsimp only
      rw [bind_apply, hnoted]
      dsimp only
      rw [bind_apply, hchecked]
      rfl
    · rintro _ _ ⟨⟩
      refine ⟨htext, ?_⟩
      calc
        checked.generator = noted.generator := (Judges.checkTree hchecked).generator
        _ = shown.generator := (Judges.readNotes hnoted).1.generator
        _ = opened.generator := (Judges.showTree hshown).generator
        _ = progress.generator := hopened

theorem generator_proceed {source : Syntax.Source} {metadata : Metadata} {outcome : Outcome}
    (hrun : proceed setup subtest source metadata progress = (.ok outcome, after)) :
    after.generator = progress.generator := by
  rw [proceed] at hrun
  obtain ⟨_, modelled, hmodelled, hrun⟩ := eq_ok_of_bind hrun
  obtain ⟨compiled, ended, hcompiled, hjudged⟩ := eq_ok_of_bind hrun
  obtain ⟨_, _, hnotes⟩ := Judges.judgeCompiled hjudged
  rw [hnotes.generator]
  rw [compiling_apply] at hcompiled
  obtain ⟨-, rfl⟩ := Prod.mk.inj hcompiled
  change modelled.generator = _
  unfold showModel at hmodelled
  split at hmodelled
  · obtain ⟨_, evaluated, hevaluated, hshown⟩ := eq_ok_of_bind hmodelled
    rw [compiling_apply] at hevaluated
    obtain ⟨-, rfl⟩ := Prod.mk.inj hevaluated
    obtain ⟨-, rfl⟩ := Prod.mk.inj hshown
    rfl
  · obtain ⟨-, rfl⟩ := Prod.mk.inj hmodelled
    rfl

/-! ## The mutations of a subtest -/

/-- The mutations that the check of a subtest applies to its text. -/
def Execution.mutations (setup : Setup) (path : Path) (execution : Execution) :
    List Fuzz.Mutation :=
  match prepare setup path execution.subtest execution.before with
  | (.ok (source, _), ready) => Fuzz.applied setup.reparser source.text ready.generator
  | (.error _, _) => []

/-- The mutations that are applied to a text if its session starts from a state. -/
def mutationsFrom (reparser : Syntax.Reparser) (text : String) (generator : Fuzz.Generator) :
    List Fuzz.Mutation :=
  if reachesSession text then Fuzz.applied reparser text generator else []

/-- Besides the text, nothing but the state in front of a subtest decides on its mutations. -/
theorem mutations_eq_mutationsFrom (setup : Setup) (path : Path)
    (hnumbered : Numbered execution.before.bench.world.sources) :
    execution.mutations setup path =
      mutationsFrom setup.reparser execution.subtest.text execution.before.generator := by
  obtain ⟨result, ready, hprepare, hreaches, hsame⟩ :=
    exists_prepare setup path execution.subtest hnumbered
  rw [Execution.mutations, mutationsFrom, ← hreaches, hprepare]
  cases result with
  | error failure => exact (if_neg Bool.false_ne_true).symm
  | ok prepared =>
    obtain ⟨htext, hgenerator⟩ := hsame prepared.1 prepared.2 rfl
    rw [← htext, ← hgenerator]
    exact (if_pos rfl).symm

/-- A subtest that comes to its end has been through a session from the state in front of it,
which reports its mutations. -/
theorem exists_session {outcome : Outcome} (hnumbered : Numbered progress.bench.world.sources)
    (hrun : checkSubtest setup path subtest progress = (.ok outcome, after)) :
    ∃ report,
      Fuzz.runSession setup.reparser subtest.text progress.generator =
          .ok (report, after.generator) ∧
        report.mutations = mutationsFrom setup.reparser subtest.text progress.generator := by
  rw [checkSubtest_eq_prepare] at hrun
  obtain ⟨⟨source, metadata⟩, ready, hprepare, hrun⟩ := eq_ok_of_bind hrun
  obtain ⟨_, fuzzed, hfuzz, hproceed⟩ := eq_ok_of_bind hrun
  obtain ⟨report, generator, hsession, hjudges⟩ := Judges.fuzz hfuzz
  obtain ⟨result, ready', hprepare', hreaches, hsame⟩ := exists_prepare setup path subtest hnumbered
  obtain ⟨rfl, rfl⟩ := Prod.mk.inj (hprepare'.symm.trans hprepare)
  obtain ⟨htext, hready⟩ := hsame source metadata rfl
  have hafter : after.generator = generator :=
    (generator_proceed hproceed).trans hjudges.generator
  rw [htext, hready] at hsession
  refine ⟨report, hafter ▸ hsession, ?_⟩
  rw [mutationsFrom, ← hreaches]
  exact (Fuzz.applied_eq_mutations hsession).symm

/-! ## Runs of a file -/

variable {selected : Option Nat} {index : Nat}

/-- The steps that executions take. -/
def stepsOf (executions : List Execution) : Nat :=
  (executions.map fun execution => Fuzz.stepsOn execution.subtest.text).sum

theorem executions_skipped (number : Nat) (rest : List (Nat × Turn)) :
    executions ((number, .skipped) :: rest) = executions rest :=
  rfl

theorem executions_header (number : Nat) (rest : List (Nat × Turn)) :
    executions ((number, .header) :: rest) = executions rest :=
  rfl

theorem Progress.Keeps.skip {files : Tree} {good : World → Prop} (hkeeps : progress.Keeps files good)
    (number : Nat) : (Run.skip number progress).Keeps files good :=
  hkeeps

/-- Skipping a part draws nothing, and every subtest that is executed goes on from where those in
front of it have led the generator. -/
theorem exists_earlier {slots : List (Option Subtest × Nat)} {files : Tree}
    (hkeeps : progress.Keeps files (World.Reached fun _ => True))
    (hturn : (index, .executed execution) ∈ turns setup path selected slots progress) :
    ∃ earlier later,
      executions (turns setup path selected slots progress) = earlier ++ execution :: later ∧
        execution.before.Keeps files (World.Reached fun _ => True) ∧
        execution.before.generator = Fuzz.Generator.step^[stepsOf earlier] progress.generator := by
  induction slots generalizing progress with
  | nil => cases hturn
  | cons slot slots ih =>
    obtain ⟨_ | subtest, number⟩ := slot <;> rw [turns] at hturn ⊢ <;> split at hturn <;>
      rename_i hselected
    · rw [if_pos hselected, executions_skipped]
      exact ih (hkeeps.skip number) (by simpa using hturn)
    · rw [if_neg hselected, executions_header]
      exact ih hkeeps (by simpa using hturn)
    · rw [if_pos hselected, executions_skipped]
      exact ih (hkeeps.skip number) (by simpa using hturn)
    · rw [if_neg hselected]
      dsimp only at hturn ⊢
      rw [executions_executed]
      obtain hfirst | hturn := List.mem_cons.1 hturn
      · obtain ⟨rfl, ⟨⟩⟩ := Prod.mk.inj hfirst
        exact ⟨[], _, rfl, hkeeps, rfl⟩
      · cases hresult : (execute setup path subtest progress).result with
        | error failure =>
          rw [hresult] at hturn
          cases hturn
        | ok outcome =>
          rw [hresult] at hturn
          have hafter := (lasting_reached files path).checkSubtest setup subtest progress hkeeps
          have hrun : checkSubtest setup path subtest progress =
              (.ok outcome, (execute setup path subtest progress).after) :=
            Prod.ext hresult rfl
          obtain ⟨report, hsession, -⟩ := exists_session hkeeps.2.numbered hrun
          obtain ⟨earlier, later, hexecutions, hbefore, hgenerator⟩ := ih hafter hturn
          refine ⟨execute setup path subtest progress :: earlier, later, ?_, hbefore, ?_⟩
          · exact congrArg (execute setup path subtest progress :: ·) hexecutions
          · have hsteps := (Fuzz.Accounted.of_runSession hsession).steps
            rw [hgenerator, stepsOf, stepsOf, List.map_cons, List.sum_cons, Nat.add_comm,
              iterate_add_apply]
            exact congrArg _ hsteps

/-- Nothing is executed where all parts are skipped. -/
theorem executions_turns_others {slots : List (Option Subtest × Nat)}
    (hindex : index ∉ slots.map Prod.snd) :
    executions (turns setup path (some index) slots progress) = [] := by
  induction slots generalizing progress with
  | nil => rfl
  | cons slot slots ih =>
    rw [List.map_cons, List.mem_cons, not_or] at hindex
    have hskipped : (some index).any (· != slot.2) = true := bne_iff_ne.2 hindex.1
    obtain ⟨_ | subtest, number⟩ := slot <;> rw [turns, if_pos hskipped, executions_skipped] <;>
      exact ih hindex.2

/-- Where all parts but one are skipped, this one starts from where the file does. -/
theorem executions_turns_only {slots : List (Option Subtest × Nat)} (progress : Progress)
    (hnodup : (slots.map Prod.snd).Nodup) (hslot : (some subtest, index) ∈ slots) :
    ∃ before, executions (turns setup path (some index) slots progress) =
        [execute setup path subtest before] ∧
      before.bench = progress.bench ∧ before.generator = progress.generator := by
  induction slots generalizing progress with
  | nil => cases hslot
  | cons slot slots ih =>
    obtain ⟨hfresh, hothers⟩ := List.nodup_cons.1 hnodup
    obtain rfl | hlater := List.mem_cons.1 hslot
    · refine ⟨progress, ?_, rfl, rfl⟩
      rw [turns, if_neg (by simp)]
      dsimp only
      rw [executions_executed]
      apply congrArg
      cases (execute setup path subtest progress).result with
      | error failure => rfl
      | ok outcome => exact executions_turns_others hfresh
    · have hne : index ≠ slot.2 := fun heq => hfresh (heq ▸ List.mem_map_of_mem hlater)
      have hskipped : (some index).any (· != slot.2) = true := bne_iff_ne.2 hne
      obtain ⟨_ | other, number⟩ := slot <;>
        rw [turns, if_pos hskipped, executions_skipped] <;>
        exact ih (skip number progress) hothers hlater

/-! ## One part and all parts -/

/-- The mutations of a subtest are drawn from a state, and if the subtest comes to its end, its
session has reported them. -/
structure Execution.DrawsFrom (setup : Setup) (path : Path) (execution : Execution)
    (generator : Fuzz.Generator) : Prop where
  before : execution.before.generator = generator
  mutations : execution.mutations setup path =
    mutationsFrom setup.reparser execution.subtest.text generator
  reported : ∀ outcome, execution.result = .ok outcome → ∃ report,
    Fuzz.runSession setup.reparser execution.subtest.text generator =
        .ok (report, execution.after.generator) ∧
      report.mutations = execution.mutations setup path

/-- Every subtest draws from the state in front of it. -/
theorem drawsFrom (setup : Setup) (hnumbered : Numbered execution.before.bench.world.sources)
    (hrun : checkSubtest setup path execution.subtest execution.before =
      (execution.result, execution.after)) :
    execution.DrawsFrom setup path execution.before.generator where
  before := rfl
  mutations := mutations_eq_mutationsFrom setup path hnumbered
  reported outcome hresult := by
    rw [hresult] at hrun
    rw [mutations_eq_mutationsFrom setup path hnumbered]
    exact exists_session hnumbered hrun

/-- Two executions of a subtest, among all parts of a file, behind the `earlier` executions, and
alone, differ in the state that they draw from. -/
structure Replayed (setup : Setup) (path : Path) (earlier : List Execution)
    (execution alone : Execution) : Prop where
  subtest : alone.subtest = execution.subtest
  among : execution.DrawsFrom setup path (Fuzz.Generator.step^[stepsOf earlier] .new)
  alone : alone.DrawsFrom setup path .new
  /-- The states are the same if the steps in front of the subtest are whole rounds. -/
  states : Fuzz.Generator.step^[stepsOf earlier] .new = .new ↔
    minimalPeriod Fuzz.Generator.step .new ∣ stepsOf earlier

theorem Replayed.mutations_eq {earlier : List Execution} {alone : Execution}
    (hreplayed : Replayed setup path earlier execution alone)
    (hwhole : minimalPeriod Fuzz.Generator.step .new ∣ stepsOf earlier) :
    execution.mutations setup path = alone.mutations setup path := by
  rw [hreplayed.among.mutations, hreplayed.alone.mutations, hreplayed.states.2 hwhole,
    hreplayed.subtest]

/-- The plan for one part takes the parts from the plan for all of them. -/
theorem planAt_only {update : Bool} {fixture : Fixture}
    (hfixture : fixtureAt bench.files path = .ok fixture) (hindex : index < fixture.parts.length) :
    planAt (setup.choosing (.only index) update) bench.files path = .ok (fixture, some index) := by
  have hpart : ((index : Int).fmod fixture.parts.length).toNat = index := by
    rw [← Int.ofNat_fmod, Int.toNat_natCast, Nat.mod_eq_of_lt hindex]
  rw [planAt, hfixture]
  exact congrArg (fun part => Except.ok (fixture, some part)) hpart

/-- A subtest is executed once if it is the only one to run, and it draws what it draws among all
parts from another state: the first one, in place of the state behind the subtests in front of
it, each of which takes a number of steps that its length decides on. -/
theorem draws_follow_earlier_steps {update : Bool} (update' : Bool) (other : Bench)
    (hreached : bench.world.Reached fun _ => True) (hother : other.world.Reached fun _ => True)
    (hsame : fixtureAt other.files path = fixtureAt bench.files path)
    (hturn : (index, .executed execution) ∈ course (setup.choosing .all update) path bench) :
    ∃ earlier later alone,
      executions (course (setup.choosing .all update) path bench) =
          earlier ++ execution :: later ∧
        executions (course (setup.choosing (.only index) update') path other) = [alone] ∧
        Replayed setup path earlier execution alone ∧
        (minimalPeriod Fuzz.Generator.step .new ∣ stepsOf earlier →
          execution.mutations setup path = alone.mutations setup path) := by
  have hrun := checkSubtest_of_mem_course hturn
  cases hfixture : fixtureAt bench.files path with
  | error failure =>
    rw [course, planAt, hfixture] at hturn
    cases hturn
  | ok fixture =>
    have hplan : planAt (setup.choosing .all update) bench.files path = .ok (fixture, none) := by
      rw [planAt, hfixture]
      rfl
    obtain ⟨_, hslot, rfl, -⟩ := exists_slot_of_mem_course hplan hturn
    have hindex : index < fixture.parts.length := by
      rw [← length_slots_of_planAt hplan]
      exact List.snd_lt_of_mem_zipIdx hslot
    have hnodup : (fixture.slots.zipIdx.map Prod.snd).Nodup := by
      rw [List.zipIdx_map_snd, ← List.range_eq_range']
      exact List.nodup_range
    rw [course_eq hplan] at hturn ⊢
    rw [course_eq (planAt_only (hsame.trans hfixture) hindex)]
    have hkeeps : (Progress.start (setup.choosing .all update) path bench).Keeps bench.files
        (World.Reached fun _ => True) := ⟨rfl, hreached⟩
    obtain ⟨earlier, later, hexecutions, hbefore, hgenerator⟩ := exists_earlier hkeeps hturn
    obtain ⟨before, halone, hbench, hfirst⟩ := executions_turns_only
      (.start (setup.choosing (.only index) update') path other) hnodup hslot
    have hnumbered : Numbered before.bench.world.sources := by
      rw [hbench]
      exact hother.numbered
    have hfirst : before.generator = .new := hfirst
    have hreplayed : Replayed setup path earlier execution
        (execute (setup.choosing (.only index) update') path execution.subtest before) :=
      { subtest := rfl
        among := hgenerator ▸ drawsFrom setup hbefore.2.numbered hrun
        alone := hfirst ▸ drawsFrom setup hnumbered rfl
        states := isPeriodicPt_iff_minimalPeriod_dvd }
    exact ⟨earlier, later, _, hexecutions, halone, hreplayed, hreplayed.mutations_eq⟩

/-- A file with two parts of one letter each. -/
def twoLetters : Bench where
  files := ⟨[(["typ"], .directory), (["typ", "a"], .file (.bytes "a\n---\nb".toUTF8))]⟩
  world := { root := .ofString "assets" }

theorem exists_of_timesExecuted {turns : List (Nat × Turn)}
    (hexecuted : 0 < timesExecuted turns index) :
    ∃ execution, (index, .executed execution) ∈ turns := by
  obtain ⟨⟨number, turn⟩, hturn, hsome⟩ := List.countP_pos_iff.1 hexecuted
  rw [Bool.and_eq_true, beq_iff_eq] at hsome
  obtain ⟨rfl, hsome⟩ := hsome
  cases turn with
  | skipped | header => cases hsome
  | executed execution => exact ⟨execution, hturn⟩

theorem draws_follow_earlier_steps_twoLetters :
    ∃ execution earlier later alone,
      executions (course (ownDirectories.choosing .all false) (.ofString "typ/a") twoLetters) =
          earlier ++ execution :: later ∧
        executions (course (ownDirectories.choosing (.only 1) false) (.ofString "typ/a")
          twoLetters) = [alone] ∧
        Replayed ownDirectories (.ofString "typ/a") earlier execution alone := by
  have hexecuted : 0 < timesExecuted
      (course (ownDirectories.choosing .all false) (.ofString "typ/a") twoLetters) 1 := by
    decide +kernel
  obtain ⟨execution, hturn⟩ := exists_of_timesExecuted hexecuted
  obtain ⟨earlier, later, alone, hall, honly, hreplayed, -⟩ :=
    draws_follow_earlier_steps false twoLetters (.new _) (.new _) rfl hturn
  exact ⟨execution, earlier, later, alone, hall, honly, hreplayed⟩

/-- If the first part of the file is skipped, the second one draws its mutations in place of it. -/
theorem mutations_among_others_ne_mutations_alone :
    (executions (course (ownDirectories.choosing .all false) (.ofString "typ/a") twoLetters)).map
        (fun execution => (execution.subtest.index,
          execution.mutations ownDirectories (.ofString "typ/a"))) =
      [(0, [⟨0, 0, "2."⟩, ⟨0, 0, "10.0"⟩]), (1, [⟨0, 0, "/*"⟩, ⟨0, 0, "a word"⟩])] ∧
    (executions (course (ownDirectories.choosing (.only 1) false) (.ofString "typ/a")
        twoLetters)).map
        (fun execution => (execution.subtest.index,
          execution.mutations ownDirectories (.ofString "typ/a"))) =
      [(1, [⟨0, 1, "2."⟩, ⟨1, 1, "10.0"⟩])] := by
  decide +kernel

end Galley.Run
