import Galley.Proofs.Run.Steps

/-!
# What the check of a subtest finds

Every check of a subtest either finds a fault, and then the file is not ok any more, or it leaves
the verdict as it is.  So a subtest that comes to its end has kept the file ok exactly if its notes
can be read, its spans are in order, its trials succeed, and its errors are the announced ones.
-/

namespace Galley.Run

open Compile File Check

variable {α β : Type} {setup : Setup} {path : Path} {subtest : Subtest} {source : Syntax.Source}
  {progress middle after : Progress}

theorem eq_ok_of_lift {result : Except Failure α} {value : α}
    (hrun : lift result progress = (.ok value, after)) : result = .ok value ∧ after = progress := by
  cases result with
  | error failure => cases hrun
  | ok found =>
    obtain ⟨hvalue, rfl⟩ := Prod.mk.inj hrun
    exact ⟨hvalue, rfl⟩

/-! ## Faults -/

/-- A step has changed the report only, and it has left the file ok if it found no fault. -/
structure Judges (progress after : Progress) (clean : Bool) : Prop where
  ok : after.report.ok = (progress.report.ok && clean)
  bench : after.bench = progress.bench
  generator : after.generator = progress.generator

namespace Judges

theorem refl (progress : Progress) : Judges progress progress true :=
  ⟨(Bool.and_true _).symm, rfl, rfl⟩

theorem trans {clean clean' : Bool} (hfirst : Judges progress middle clean)
    (hsecond : Judges middle after clean') : Judges progress after (clean && clean') where
  ok := by rw [hsecond.ok, hfirst.ok, Bool.and_assoc]
  bench := hsecond.bench.trans hfirst.bench
  generator := hsecond.generator.trans hfirst.generator

theorem blame {entry : Entry} {value : Unit}
    (hrun : blame entry progress = (.ok value, after)) : Judges progress after false := by
  obtain ⟨-, rfl⟩ := Prod.mk.inj hrun
  exact ⟨(Bool.and_false _).symm, rfl, rfl⟩

theorem forM_blame {items : List α} {entry : α → Entry} {value : PUnit}
    (hrun : (items.forM fun item => Check.blame (entry item)) progress = (.ok value, after)) :
    Judges progress after items.isEmpty := by
  induction items generalizing progress with
  | nil =>
    obtain ⟨-, rfl⟩ := Prod.mk.inj hrun
    exact refl progress
  | cons item items ih =>
    obtain ⟨_, middle, hfirst, hrest⟩ := eq_ok_of_bind hrun
    exact (blame hfirst).trans (ih hrest)

theorem showTree (hrun : showTree setup source progress = (.ok (), after)) :
    Judges progress after true := by
  rw [Run.showTree] at hrun
  split at hrun <;> obtain ⟨-, rfl⟩ := Prod.mk.inj hrun
  · exact ⟨(Bool.and_true _).symm, rfl, rfl⟩
  · exact refl progress

/-- Notes are read, or nothing is expected. -/
theorem readNotes {metadata : Metadata}
    (hrun : readNotes subtest source progress = (.ok metadata, after)) :
    Judges progress after (Metadata.read source).isOk ∧
      ∀ found, Metadata.read source = .ok found → metadata = found := by
  rw [Run.readNotes] at hrun
  cases hread : Metadata.read source with
  | ok found =>
    rw [hread] at hrun
    obtain ⟨hfound, rfl⟩ := Prod.mk.inj hrun
    exact ⟨refl progress, fun other hother =>
      (Except.ok.inj hfound).symm.trans (Except.ok.inj hother)⟩
  | error failure =>
    rw [hread] at hrun
    cases failure with
    | malformedNote line text reason =>
      obtain ⟨_, middle, hblame, hrest⟩ := eq_ok_of_bind hrun
      obtain ⟨-, rfl⟩ := Prod.mk.inj hrest
      exact ⟨blame hblame, fun _ hfound => by cases hfound⟩
    | _ => cases hrun

theorem checkTree (hrun : checkTree source progress = (.ok (), after)) :
    Judges progress after source.root.spanViolation.isNone := by
  rw [Run.checkTree] at hrun
  cases hviolation : source.root.spanViolation with
  | some violation =>
    rw [hviolation] at hrun
    exact blame hrun
  | none =>
    rw [hviolation] at hrun
    obtain ⟨-, rfl⟩ := Prod.mk.inj hrun
    exact refl progress

/-- A subtest is fuzzed from where the generator stands. -/
theorem fuzz {text : String} (hrun : fuzz setup subtest text progress = (.ok (), after)) :
    ∃ report generator,
      Fuzz.runSession setup.reparser text progress.generator = .ok (report, generator) ∧
        Judges { progress with generator } after report.ok := by
  rw [fuzz_apply] at hrun
  split at hrun
  · rename_i report generator hsession
    exact ⟨report, generator, hsession, forM_blame hrun⟩
  · cases hrun

theorem checkNotes {expected emitted : List Note}
    (hrun : checkNotes subtest source expected emitted progress = (.ok (), after)) :
    Judges progress after (Note.compare expected emitted).ok := by
  rw [Run.checkNotes] at hrun
  split at hrun
  · rename_i hok
    obtain ⟨-, rfl⟩ := Prod.mk.inj hrun
    rw [hok]
    exact refl progress
  · rename_i hdiffers
    obtain ⟨_, blamed, hblame, hrun⟩ := eq_ok_of_bind hrun
    obtain ⟨_, told, hunexpected, hmissing⟩ := eq_ok_of_bind hrun
    have hjudges := (blame hblame).trans ((forM_blame hunexpected).trans (forM_blame hmissing))
    rwa [Bool.false_and, ← Bool.eq_false_iff.2 hdiffers] at hjudges

theorem judgeCompiled {metadata : Metadata} {compiled : Compiled} {outcome : Outcome}
    (hrun : judgeCompiled subtest source metadata compiled progress = (.ok outcome, after)) :
    ∃ emitted,
      Diagnostic.notesFor progress.bench.world source.id compiled.module.diagnostics =
          .ok emitted ∧
        Judges progress after (Note.compare metadata.notes emitted).ok := by
  obtain ⟨_, _, hget, hopened⟩ := eq_ok_of_bind hrun
  obtain ⟨hvalue, rfl⟩ := Prod.mk.inj hget
  obtain rfl := Except.ok.inj hvalue
  obtain ⟨emitted, _, hlift, hemitted⟩ := eq_ok_of_bind hopened
  obtain ⟨hnotes, rfl⟩ := eq_ok_of_lift hlift
  obtain ⟨_, judged, hjudged, hreturn⟩ := eq_ok_of_bind hemitted
  obtain ⟨-, rfl⟩ := Prod.mk.inj hreturn
  exact ⟨emitted, hnotes, checkNotes hjudged⟩

end Judges

/-! ## What a subtest has compiled to -/

/-- What the compilation of a source on a bench starts with.  The source is
evaluated once in front of it if its model is asked for. -/
def startOf (setup : Setup) (source : Syntax.Source) (bench : Bench) : Surroundings :=
  if setup.options.dumps.model then
    let shown := (evaluateSource bench.files source bench.surroundings).2
    { world := shown.world, printed := shown.printed }
  else bench.surroundings

/-- What the compilation of a subtest on a bench comes to, with the source that its
text has become. -/
def compileSubtest (setup : Setup) (path : Path) (subtest : Subtest) (bench : Bench) :
    Except Failure (Syntax.Source × Compiled) := do
  let (id, world) := bench.world.set path subtest.text
  let source ← world.source id
  let compiled ← (compile bench.files (startOf setup source { bench with world })).1
  return (source, compiled)

theorem bench_showModel (setup : Setup) (source : Syntax.Source) (progress : Progress) :
    (showModel setup source progress).2.bench.files = progress.bench.files ∧
      (showModel setup source progress).2.bench.surroundings =
        startOf setup source progress.bench := by
  rw [showModel, startOf]
  split
  · rw [bind_apply, compiling_apply]
    generalize evaluateSource progress.bench.files source progress.bench.surroundings = answer
    obtain ⟨failure | module, shown⟩ := answer <;> exact ⟨rfl, rfl⟩
  · exact ⟨rfl, rfl⟩

theorem ok_showModel (setup : Setup) (source : Syntax.Source) (progress : Progress) :
    (showModel setup source progress).2.report.ok = progress.report.ok := by
  rw [showModel]
  split
  · rw [bind_apply, compiling_apply]
    generalize evaluateSource progress.bench.files source progress.bench.surroundings = answer
    obtain ⟨failure | module, shown⟩ := answer <;> rfl
  · rfl

/-- What the check of a subtest that comes to its end has found. -/
structure Found (setup : Setup) (path : Path) (subtest : Subtest) (progress after : Progress)
    (source : Syntax.Source) (compiled : Compiled) (trials : Fuzz.Report) (emitted : List Note) :
    Prop where
  compiles : compileSubtest setup path subtest progress.bench = .ok (source, compiled)
  session : ∃ generator,
    Fuzz.runSession setup.reparser source.text progress.generator = .ok (trials, generator)
  notes : Diagnostic.notesFor after.bench.world source.id compiled.module.diagnostics =
    .ok emitted

/-- A subtest that comes to its end leaves the file ok if all of its checks succeed.  If its notes
cannot be read, it does not matter what they are compared with. -/
theorem exists_found {outcome : Outcome}
    (hrun : checkSubtest setup path subtest progress = (.ok outcome, after)) :
    ∃ source compiled trials emitted,
      Found setup path subtest progress after source compiled trials emitted ∧
      after.report.ok = (progress.report.ok && (source.root.spanViolation.isNone && trials.ok &&
        match Metadata.read source with
        | .ok metadata => (Note.compare metadata.notes emitted).ok
        | .error _ => false)) := by
  rw [checkSubtest_eq] at hrun
  obtain ⟨source, opened, hset, hopened⟩ := eq_ok_of_bind hrun
  obtain ⟨_, shown, hshown, hopened⟩ := eq_ok_of_bind hopened
  obtain ⟨metadata, noted, hnoted, hopened⟩ := eq_ok_of_bind hopened
  obtain ⟨_, checked, hchecked, hopened⟩ := eq_ok_of_bind hopened
  obtain ⟨_, fuzzed, hfuzzed, hopened⟩ := eq_ok_of_bind hopened
  obtain ⟨_, modelled, hmodelled, hopened⟩ := eq_ok_of_bind hopened
  obtain ⟨compiled, ended, hcompiled, hjudged⟩ := eq_ok_of_bind hopened
  obtain ⟨hread, hmetadata⟩ := Judges.readNotes hnoted
  have hfront := ((Judges.showTree hshown).trans hread).trans (Judges.checkTree hchecked)
  obtain ⟨trials, generator, hsession, htrials⟩ := Judges.fuzz hfuzzed
  obtain ⟨emitted, hemitted, hnotes⟩ := Judges.judgeCompiled hjudged
  rw [setMain_apply] at hset
  obtain ⟨hsource, rfl⟩ := Prod.mk.inj hset
  refine ⟨source, compiled, trials, emitted, ⟨?_, ⟨generator, ?_⟩, ?_⟩, ?_⟩
  · obtain ⟨hfiles, hstart⟩ := bench_showModel setup source fuzzed
    rw [hmodelled, htrials.bench.trans hfront.bench] at hfiles hstart
    rw [compiling_apply] at hcompiled
    obtain ⟨hcompiled, -⟩ := Prod.mk.inj hcompiled
    rw [hfiles, hstart] at hcompiled
    rw [compileSubtest]
    dsimp only
    rw [hsource]
    exact congrArg (· >>= fun compiled => pure (source, compiled)) hcompiled
  · rw [hfront.generator] at hsession
    exact hsession
  · rw [hnotes.bench]
    exact hemitted
  · have hended : ended.report.ok = modelled.report.ok := by
      rw [compiling_apply] at hcompiled
      obtain ⟨-, rfl⟩ := Prod.mk.inj hcompiled
      rfl
    have hmodelled : modelled.report.ok = fuzzed.report.ok := by
      rw [← ok_showModel setup source fuzzed, hmodelled]
    rw [hnotes.ok, hended, hmodelled, htrials.ok]
    change (checked.report.ok && trials.ok && _) = _
    rw [hfront.ok]
    cases hfound : Metadata.read source with
    | error failure => simp [Except.isOk, Except.toBool]
    | ok found =>
      rw [hmetadata found hfound]
      simp [Except.isOk, Except.toBool, Bool.and_assoc]

/-- A subtest that comes to its end succeeds in all of its checks: its notes can be read, its spans
are in order, its trials succeed, and its errors are those that the notes announce. -/
def Succeeds (setup : Setup) (path : Path) (subtest : Subtest) (progress after : Progress) : Prop :=
  ∃ source compiled trials emitted metadata,
    Found setup path subtest progress after source compiled trials emitted ∧
    Metadata.read source = .ok metadata ∧ source.root.spanViolation = none ∧ trials.ok = true ∧
    (Note.compare metadata.notes emitted).ok = true

/-- There is one thing that a check finds. -/
theorem Found.unique {source' : Syntax.Source} {compiled compiled' : Compiled}
    {trials trials' : Fuzz.Report} {emitted emitted' : List Note}
    (hfound : Found setup path subtest progress after source compiled trials emitted)
    (hfound' : Found setup path subtest progress after source' compiled' trials' emitted') :
    source' = source ∧ trials' = trials ∧ emitted' = emitted := by
  obtain ⟨rfl, rfl⟩ := Prod.mk.inj (Except.ok.inj (hfound'.compiles.symm.trans hfound.compiles))
  obtain ⟨generator, hsession⟩ := hfound.session
  obtain ⟨generator', hsession'⟩ := hfound'.session
  exact ⟨rfl, (Prod.mk.inj (Except.ok.inj (hsession'.symm.trans hsession))).1,
    Except.ok.inj (hfound'.notes.symm.trans hfound.notes)⟩

/-- A subtest that comes to its end leaves the file ok exactly if it succeeds. -/
theorem ok_checkSubtest_iff {outcome : Outcome}
    (hrun : checkSubtest setup path subtest progress = (.ok outcome, after)) :
    after.report.ok = true ↔
      progress.report.ok = true ∧ Succeeds setup path subtest progress after := by
  obtain ⟨source, compiled, trials, emitted, hfound, hok⟩ := exists_found hrun
  rw [hok, Bool.and_eq_true, Bool.and_eq_true, Bool.and_eq_true, Option.isNone_iff_eq_none]
  refine and_congr_right fun _ => ⟨?_, ?_⟩
  · rintro ⟨⟨hspans, htrials⟩, hnotes⟩
    cases hread : Metadata.read source with
    | error failure =>
      rw [hread] at hnotes
      cases hnotes
    | ok metadata =>
      rw [hread] at hnotes
      exact ⟨source, compiled, trials, emitted, metadata, hfound, hread, hspans, htrials, hnotes⟩
  · rintro ⟨source', compiled', trials', emitted', metadata, hfound', hread, hspans, htrials, hnotes⟩
    obtain ⟨rfl, rfl, rfl⟩ := hfound.unique hfound'
    rw [hread]
    exact ⟨⟨hspans, htrials⟩, hnotes⟩

end Galley.Run
