import Galley.Proofs.Evaluation.Located
import Galley.Proofs.World.Told
import Galley.Run.Check

/-!
# The steps of a check

A check is a chain of steps on its progress.  What is closed under putting steps
together holds of each part of a check by one walk through it (`Closed`).  A step
maintains a property of the progress if it holds behind the step whenever it held
in front of it, whether the step fails or not.  What a report says of a file is never taken back, and
what neither main sources nor requests change about a world is true of it to the
end of the check.
-/

namespace Galley.Run

open Compile File Check

variable {α β : Type}

theorem Check.bind_apply (action : Check α) (next : α → Check β) (progress : Progress) :
    (action >>= next) progress =
      match action progress with
      | (.ok value, after) => next value after
      | (.error failure, after) => (.error failure, after) := by
  show ExceptT.bindCont next (action progress).1 (action progress).2 = _
  rcases action progress with ⟨failure | value, after⟩ <;> rfl

theorem Check.eq_ok_of_bind {action : Check α} {next : α → Check β} {value : β}
    {progress after : Progress} (hrun : (action >>= next) progress = (.ok value, after)) :
    ∃ first middle, action progress = (.ok first, middle) ∧
      next first middle = (.ok value, after) := by
  rw [bind_apply] at hrun
  cases haction : action progress with
  | mk result middle =>
    rw [haction] at hrun
    cases result with
    | error failure => cases hrun
    | ok first => exact ⟨first, middle, rfl, hrun⟩

/-! ## The parts of a check -/

/-- What a compilation on a bench starts with. -/
def Bench.surroundings (bench : Bench) : Surroundings :=
  { world := bench.world, printed := bench.printed }

/-- Shows the tree of a subtest if that is asked for. -/
def showTree (setup : Setup) (source : Syntax.Source) : Check Unit :=
  if setup.options.dumps.syntaxTree then add (.syntaxTree source.root) else return ()

/-- Shows the model of a subtest if that is asked for. -/
def showModel (setup : Setup) (source : Syntax.Source) : Check Unit :=
  if setup.options.dumps.model then do
    let module ← compiling fun files => evaluateSource files source
    add (.model module.content)
  else return ()

/-- Compares the errors of a compiled subtest with its notes. -/
def judgeCompiled (subtest : Subtest) (source : Syntax.Source) (metadata : Metadata)
    (compiled : Compiled) : Check Outcome := do
  let world := (← get).bench.world
  let emitted ← lift (Diagnostic.notesFor world source.id compiled.module.diagnostics)
  checkNotes subtest source metadata.notes emitted
  let compareRef := metadata.compareRef.getD subtest.compareRef
  return { compareRef, frames := if compareRef then compiled.pages else [] }

/-- Judges what has been compiled, given the notes for it. -/
def judgeNotes (subtest : Subtest) (source : Syntax.Source) (metadata : Metadata)
    (pages : List Document.Frame) (emitted : Except Failure (List Note)) : Check Outcome := do
  checkNotes subtest source metadata.notes (← lift emitted)
  let compareRef := metadata.compareRef.getD subtest.compareRef
  return { compareRef, frames := if compareRef then pages else [] }

theorem judgeCompiled_apply (subtest : Subtest) (source : Syntax.Source) (metadata : Metadata)
    (compiled : Compiled) (progress : Progress) :
    judgeCompiled subtest source metadata compiled progress =
      judgeNotes subtest source metadata compiled.pages
        (Diagnostic.notesFor progress.bench.world source.id compiled.module.diagnostics)
        progress :=
  rfl

/-- What is done with a subtest once its text is the main source. -/
def checkOpened (setup : Setup) (subtest : Subtest) (source : Syntax.Source) : Check Outcome := do
  showTree setup source
  let metadata ← readNotes subtest source
  checkTree source
  fuzz setup subtest source.text
  showModel setup source
  let compiled ← compiling compile
  judgeCompiled subtest source metadata compiled

theorem checkSubtest_eq (setup : Setup) (path : Path) (subtest : Subtest) :
    checkSubtest setup path subtest =
      setMain path subtest.text >>= checkOpened setup subtest := by
  rw [checkSubtest]
  refine congrArg (setMain path subtest.text >>= ·) (funext fun source => ?_)
  rw [checkOpened, showTree, showModel]
  cases setup.options.dumps.syntaxTree <;> cases setup.options.dumps.model <;>
    simp only [judgeCompiled, bind_assoc, pure_bind, if_true, if_false, Bool.false_eq_true]

/-- Shows the pages of a file if that is asked for. -/
def showFrames (setup : Setup) (frames : List Document.Frame) : Check Unit :=
  if setup.options.dumps.frames then frames.forM fun frame => add (.frame frame) else return ()

/-- Puts the outcome of judging a picture into the report. -/
def settle (verdict : Image.Verdict) : Check Unit := do
  if verdict.isUpdate then
    modify fun progress => { progress with report := { progress.report with updated := true } }
  verdict.complaint?.forM fun complaint => blame (.complaint complaint)

theorem checkPages_eq (setup : Setup) (path : Path) (frames : List Document.Frame) :
    checkPages setup path frames = (do
      let outputs ← lift (outputPaths setup path)
      outputs.pdf.forM fun pdf => onDisk (exportDocument frames pdf)
      showFrames setup frames
      let picture ← lift (Image.renderPages frames)
      let verdict ← onDisk
        (checkReference picture outputs.png outputs.ref setup.options.update (!frames.isEmpty))
      settle verdict) := by
  rw [checkPages, showFrames]
  cases setup.options.dumps.frames <;>
    simp only [pure_bind, if_true, if_false, Bool.false_eq_true, settle]

/-- The fixture in a file. -/
def fixtureAt (files : Tree) (path : Path) : Except Failure Fixture :=
  if path.hasNull then throw .nullCharacter
  else
    match files.read path with
    | .error obstacle => throw (.fixture path.toString obstacle.message)
    | .ok (.bytes bytes) =>
      match String.fromUTF8? bytes with
      | some text => return Fixture.read path text
      | none => throw (.fixture path.toString "file is not valid utf-8")
    | .ok _ => throw (.fixture path.toString "file is not valid utf-8")

theorem loadFixture_apply (path : Path) (progress : Progress) :
    loadFixture path progress = (fixtureAt progress.bench.files path, progress) := by
  rw [loadFixture, fixtureAt]
  split
  · rfl
  · change (match progress.bench.files.read path with
      | .error obstacle => throw (.fixture path.toString obstacle.message)
      | .ok (.bytes bytes) =>
        match String.fromUTF8? bytes with
        | some text => return Fixture.read path text
        | none => throw (.fixture path.toString "file is not valid utf-8")
      | .ok _ => throw (.fixture path.toString "file is not valid utf-8") : Check Fixture)
        progress = _
    obtain obstacle | (bytes | _ | _) := progress.bench.files.read path
    · rfl
    · dsimp only
      cases String.fromUTF8? bytes <;> rfl
    · rfl
    · rfl

/-- The fixture in a file and the index of the only part to run. -/
def planAt (setup : Setup) (files : Tree) (path : Path) :
    Except Failure (Fixture × Option Nat) :=
  match fixtureAt files path with
  | .ok fixture => (setup.options.subtest.part? fixture.parts.length).map (fixture, ·)
  | .error failure => .error failure

/-- Compares the pages of a file if a subtest asks for that. -/
def comparePages (setup : Setup) (path : Path) (outcomes : List Outcome) : Check Unit :=
  if outcomes.any Outcome.compareRef then
    checkPages setup path (outcomes.flatMap Outcome.frames)
  else return ()

theorem checkFixture_apply (setup : Setup) (path : Path) (progress : Progress) :
    checkFixture setup path progress =
      match planAt setup progress.bench.files path with
      | .ok (fixture, selected) =>
        (checkParts setup path selected fixture.slots.zipIdx >>= comparePages setup path) progress
      | .error failure => (.error failure, progress) := by
  rw [checkFixture, bind_apply, loadFixture_apply, planAt]
  cases fixtureAt progress.bench.files path with
  | error failure => rfl
  | ok fixture =>
    dsimp only
    rw [bind_apply]
    cases setup.options.subtest.part? fixture.parts.length <;> rfl

/-- The progress with which the check of a file starts. -/
def Progress.start (setup : Setup) (path : Path) (bench : Bench) : Progress :=
  { bench, report := { name := displayName setup.settings path } }

theorem fuzz_apply (setup : Setup) (subtest : Subtest) (text : String) (progress : Progress) :
    fuzz setup subtest text progress =
      match Fuzz.runSession setup.reparser text progress.generator with
      | .ok (report, generator) =>
        (report.failures.forM fun failure => blame (.trial subtest.index failure))
          { progress with generator }
      | .error failure => (.error failure, progress) := by
  rw [fuzz]
  change (lift (Fuzz.runSession setup.reparser text progress.generator) >>= _) progress = _
  rw [bind_apply]
  cases Fuzz.runSession setup.reparser text progress.generator <;> rfl

/-- A text that is made the main source is looked up in the world that holds it. -/
theorem setMain_apply (path : Path) (text : String) (progress : Progress) :
    setMain path text progress =
      ((progress.bench.world.set path text).2.source (progress.bench.world.set path text).1,
        { progress with
          bench := { progress.bench with world := (progress.bench.world.set path text).2 } }) := by
  show lift ((progress.bench.world.set path text).2.source (progress.bench.world.set path text).1)
    { progress with
      bench := { progress.bench with world := (progress.bench.world.set path text).2 } } = _
  generalize (progress.bench.world.set path text).2.source _ = source
  cases source <;> rfl

theorem compiling_apply (step : Tree → Surroundings → Except Failure α × Surroundings)
    (progress : Progress) :
    compiling step progress =
      ((step progress.bench.files progress.bench.surroundings).1,
        { progress with
          bench := { progress.bench with
            world := (step progress.bench.files progress.bench.surroundings).2.world
            printed := (step progress.bench.files progress.bench.surroundings).2.printed } }) :=
  rfl

/-! ## What steps are made of -/

/-- Whether an entry shows something that was asked for. -/
def Entry.isDump : Entry → Bool
  | syntaxTree _ | model _ | frame _ => true
  | _ => false

/-- A property of steps that holds of those that fail, show something or blame someone, and of
whatever is made of steps with it. -/
structure Closed (Good : {α : Type} → Check α → Prop) : Prop where
  pure : ∀ {α : Type} (value : α), Good (Pure.pure value)
  throw : ∀ {α : Type} (failure : Failure), Good (MonadExcept.throw failure : Check α)
  bind : ∀ {α β : Type} {action : Check α} {next : α → Check β}, Good action →
    (∀ value, Good (next value)) → Good (action >>= next)
  dump : ∀ {entry : Entry}, entry.isDump = true → Good (add entry)
  blame : ∀ {entry : Entry}, entry.isFault = true → Good (Check.blame entry)

namespace Closed

variable {Good : {α : Type} → Check α → Prop} (hclosed : Closed Good)

include hclosed

theorem lift (result : Except Failure α) : Good (lift result) := by
  cases result with
  | ok value => exact hclosed.pure value
  | error failure => exact hclosed.throw failure

theorem forM {items : List α} {action : α → Check PUnit} (haction : ∀ item, Good (action item)) :
    Good (items.forM action) := by
  induction items with
  | nil => exact hclosed.pure _
  | cons item items ih => exact hclosed.bind (haction item) fun _ => ih

theorem optionForM {item : Option α} {action : α → Check PUnit}
    (haction : ∀ item, Good (action item)) : Good (item.forM action) := by
  cases item with
  | none => exact hclosed.pure _
  | some item => exact haction item

theorem showTree (setup : Setup) (source : Syntax.Source) : Good (showTree setup source) := by
  rw [Run.showTree]
  split
  · exact hclosed.dump rfl
  · exact hclosed.pure _

theorem readNotes (subtest : Subtest) (source : Syntax.Source) :
    Good (readNotes subtest source) := by
  rw [Run.readNotes]
  split
  · exact hclosed.pure _
  · exact hclosed.bind (hclosed.blame rfl) fun _ => hclosed.pure _
  · exact hclosed.throw _

theorem checkTree (source : Syntax.Source) : Good (checkTree source) := by
  rw [Run.checkTree]
  split
  · exact hclosed.blame rfl
  · exact hclosed.pure _

theorem checkNotes (subtest : Subtest) (source : Syntax.Source) (expected emitted : List Note) :
    Good (checkNotes subtest source expected emitted) := by
  rw [Run.checkNotes]
  split
  · exact hclosed.pure _
  · exact hclosed.bind (hclosed.blame rfl) fun _ =>
      hclosed.bind (hclosed.forM fun _ => hclosed.blame rfl) fun _ =>
        hclosed.forM fun _ => hclosed.blame rfl

theorem judgeNotes (subtest : Subtest) (source : Syntax.Source) (metadata : Metadata)
    (pages : List Document.Frame) (emitted : Except Failure (List Note)) :
    Good (judgeNotes subtest source metadata pages emitted) :=
  hclosed.bind (hclosed.lift _) fun _ =>
    hclosed.bind (hclosed.checkNotes _ _ _ _) fun _ => hclosed.pure _

theorem checkParts (setup : Setup) (path : Path) (selected : Option Nat)
    (slots : List (Option Subtest × Nat)) (hskip : ∀ index, Good (add (.skipped index)))
    (hsubtest : ∀ subtest, Good (checkSubtest setup path subtest)) :
    Good (checkParts setup path selected slots) := by
  induction slots with
  | nil => exact hclosed.pure _
  | cons slot slots ih =>
    obtain ⟨_ | subtest, index⟩ := slot <;> rw [Run.checkParts] <;> split
    · exact hclosed.bind (hskip index) fun _ => ih
    · exact ih
    · exact hclosed.bind (hskip index) fun _ => ih
    · exact hclosed.bind (hsubtest subtest) fun _ => hclosed.bind ih fun _ => hclosed.pure _

section Pages

variable (hdisk : ∀ {α : Type} (step : Disk α), Good (onDisk step))
  (hupdated : Good (settle .updated))

include hdisk hupdated

theorem checkPages (setup : Setup) (path : Path) (frames : List Document.Frame) :
    Good (checkPages setup path frames) := by
  rw [checkPages_eq]
  refine hclosed.bind (hclosed.lift _) fun outputs =>
    hclosed.bind (hclosed.optionForM fun _ => hdisk _) fun _ => hclosed.bind ?_ fun _ =>
    hclosed.bind (hclosed.lift _) fun picture => hclosed.bind (hdisk _) fun verdict => ?_
  · rw [showFrames]
    split
    · exact hclosed.forM fun _ => hclosed.dump rfl
    · exact hclosed.pure _
  · cases verdict with
    | accepted => exact hclosed.pure _
    | updated => exact hupdated
    | rejected complaint => exact hclosed.blame rfl

theorem comparePages (setup : Setup) (path : Path) (outcomes : List Outcome) :
    Good (comparePages setup path outcomes) := by
  rw [Run.comparePages]
  split
  · exact hclosed.checkPages hdisk hupdated setup path _
  · exact hclosed.pure _

end Pages

end Closed

/-! ## What steps maintain -/

/-- A step maintains a property of the progress, also where it fails. -/
def Maintains (holds : Progress → Prop) (action : Check α) : Prop :=
  ∀ progress, holds progress → holds (action progress).2

/-- A property that dumps, faults and draws leave as it is. -/
structure Steady (holds : Progress → Prop) : Prop where
  dump : ∀ {progress : Progress} {entry : Entry}, entry.isDump = true → holds progress →
    holds { progress with report := progress.report.add entry }
  blame : ∀ {progress : Progress} {entry : Entry}, entry.isFault = true → holds progress →
    holds { progress with report := { progress.report.add entry with ok := false } }
  draw : ∀ {progress : Progress} (generator : Fuzz.Generator), holds progress →
    holds { progress with generator }

/-- These steps do not touch the bench. -/
theorem steady_bench (bench : Bench) : Steady fun progress => progress.bench = bench where
  dump _ hbench := hbench
  blame _ hbench := hbench
  draw _ hbench := hbench

namespace Maintains

variable {holds : Progress → Prop}

theorem pure (value : α) : Maintains holds (pure value) :=
  fun _ hholds => hholds

theorem throw (failure : Failure) : Maintains holds (throw failure : Check α) :=
  fun _ hholds => hholds

theorem bind {action : Check α} {next : α → Check β} (haction : Maintains holds action)
    (hnext : ∀ value, Maintains holds (next value)) : Maintains holds (action >>= next) := by
  intro progress hholds
  rw [bind_apply]
  have hafter := haction progress hholds
  generalize action progress = answer at hafter ⊢
  obtain ⟨failure | value, after⟩ := answer
  · exact hafter
  · exact hnext value after hafter

end Maintains

theorem Steady.closed {holds : Progress → Prop} (hsteady : Steady holds) :
    Closed (Maintains holds) where
  pure := .pure
  throw := .throw
  bind := .bind
  dump hdump _ hholds := hsteady.dump hdump hholds
  blame hfault _ hholds := hsteady.blame hfault hholds

namespace Maintains

variable {holds : Progress → Prop} (hsteady : Steady holds)

include hsteady

theorem fuzz (setup : Setup) (subtest : Subtest) (text : String) :
    Maintains holds (fuzz setup subtest text) := by
  intro progress hholds
  rw [fuzz_apply]
  split
  · exact hsteady.closed.forM (fun _ => hsteady.closed.blame rfl) _ (hsteady.draw _ hholds)
  · exact hholds

theorem judgeCompiled (subtest : Subtest) (source : Syntax.Source) (metadata : Metadata)
    (compiled : Compiled) : Maintains holds (judgeCompiled subtest source metadata compiled) := by
  intro progress hholds
  rw [judgeCompiled_apply]
  exact hsteady.closed.judgeNotes _ _ _ _ _ progress hholds

end Maintains

/-! ## What a report says is never taken back -/

/-- A property to which the world does not matter. -/
structure Unworldly (holds : Progress → Prop) : Prop extends Steady holds where
  travel : ∀ {progress : Progress} (world : World) (printed : String), holds progress →
    holds { progress with bench := { progress.bench with world, printed } }

/-- A property to which the bench does not matter. -/
structure Benchless (holds : Progress → Prop) : Prop extends Unworldly holds where
  store : ∀ {progress : Progress} (files : Tree), holds progress →
    holds { progress with bench := { progress.bench with files } }

namespace Maintains

variable {holds : Progress → Prop}

section Unworldly

variable (hunworldly : Unworldly holds)

include hunworldly

theorem setMain (path : Path) (text : String) : Maintains holds (setMain path text) := by
  intro progress hholds
  rw [setMain_apply]
  exact hunworldly.travel _ _ hholds

theorem compiling (step : Tree → Surroundings → Except Failure α × Surroundings) :
    Maintains holds (compiling step) :=
  fun _ hholds => hunworldly.travel _ _ hholds

theorem showModel (setup : Setup) (source : Syntax.Source) :
    Maintains holds (showModel setup source) := by
  rw [Run.showModel]
  split
  · exact .bind (compiling hunworldly _) fun _ => hunworldly.closed.dump rfl
  · exact .pure _

theorem checkSubtest (setup : Setup) (path : Path) (subtest : Subtest) :
    Maintains holds (checkSubtest setup path subtest) := by
  have hsteady := hunworldly.toSteady
  have hclosed := hsteady.closed
  rw [checkSubtest_eq]
  refine .bind (setMain hunworldly _ _) fun source => .bind (hclosed.showTree _ _) fun _ =>
    .bind (hclosed.readNotes _ _) fun metadata => .bind (hclosed.checkTree _) fun _ => ?_
  exact .bind (.fuzz hsteady _ _ _) fun _ => .bind (showModel hunworldly _ _) fun _ =>
    .bind (compiling hunworldly _) fun compiled => .judgeCompiled hsteady _ _ _ _

end Unworldly

theorem comparePages (hbenchless : Benchless holds)
    (hupdated : ∀ {progress : Progress}, holds progress →
      holds { progress with report := { progress.report with updated := true } })
    (setup : Setup) (path : Path) (outcomes : List Outcome) :
    Maintains holds (comparePages setup path outcomes) :=
  hbenchless.closed.comparePages (fun _ _ hholds => hbenchless.store _ hholds)
    (fun _ hholds => hupdated hholds) setup path outcomes

end Maintains

/-- Something is wrong with the file. -/
def Progress.Bad (progress : Progress) : Prop :=
  progress.report.ok = false

theorem benchless_bad : Benchless Progress.Bad where
  dump _ hbad := hbad
  blame _ _ := rfl
  draw _ hbad := hbad
  travel _ _ hbad := hbad
  store _ hbad := hbad

theorem steady_bad : Steady Progress.Bad :=
  benchless_bad.toSteady

/-- A step that something was wrong before cannot make good. -/
abbrev NeverMends (action : Check α) : Prop :=
  Maintains Progress.Bad action

theorem neverMends_checkParts (setup : Setup) (path : Path) (selected : Option Nat)
    (slots : List (Option Subtest × Nat)) :
    NeverMends (checkParts setup path selected slots) :=
  steady_bad.closed.checkParts setup path selected slots (fun _ _ hbad => hbad)
    (.checkSubtest benchless_bad.toUnworldly setup path)

theorem neverMends_comparePages (setup : Setup) (path : Path) (outcomes : List Outcome) :
    NeverMends (comparePages setup path outcomes) :=
  .comparePages benchless_bad (fun hbad => hbad) setup path outcomes

/-! ## What lasts in the world of a check -/

/-- What is true of a world however a path is set and whatever documents ask for. -/
structure Lasting (files : Tree) (path : Path) (good : World → Prop) : Prop where
  faithful : ∀ {world : World}, good world → Faithful world.sources
  set : ∀ {world : World} (text : String), good world → good (world.set path text).2
  resolve : ∀ {world : World} (asked : Path), good world → good (world.resolve files asked).2

/-- Nobody has touched the files of a check yet, and something is true of its world. -/
def Progress.Keeps (files : Tree) (good : World → Prop) (progress : Progress) : Prop :=
  progress.bench.files = files ∧ good progress.bench.world

/-- So it is, and a source is in that world. -/
def Progress.Holds (files : Tree) (good : World → Prop) (source : Syntax.Source)
    (progress : Progress) : Prop :=
  progress.Keeps files good ∧ source ∈ progress.bench.world.sources

section Lasting

variable {files : Tree} {path : Path} {good : World → Prop}

theorem steady_keeps : Steady (Progress.Keeps files good) where
  dump _ hkeeps := hkeeps
  blame _ hkeeps := hkeeps
  draw _ hkeeps := hkeeps

theorem steady_holds (source : Syntax.Source) : Steady (Progress.Holds files good source) where
  dump _ hholds := hholds
  blame _ hholds := hholds
  draw _ hholds := hholds

namespace Lasting

variable (hlasting : Lasting files path good)

include hlasting

/-- It stays true when a source is evaluated, and every source stays where it is. -/
theorem evaluateSource {source : Syntax.Source} {outside : Surroundings}
    (hworld : good outside.world) (hsource : source ∈ outside.world.sources) :
    good (evaluateSource files source outside).2.world ∧
      outside.world.sources ⊆ (Compile.evaluateSource files source outside).2.world.sources := by
  have htext := hlasting.faithful hworld source hsource
  exact ⟨World.holds_evaluate (fun _ => hlasting.faithful) (fun _ => hlasting.resolve) _ [] htext
    hworld, (grown_evaluate files _ [] (hlasting.faithful hworld) htext).isPrefix.subset⟩

theorem compile {outside : Surroundings} (hworld : good outside.world) :
    good (compile files outside).2.world ∧
      outside.world.sources ⊆ (Compile.compile files outside).2.world.sources := by
  rw [Compile.compile]
  split
  · exact ⟨hworld, List.Subset.refl _⟩
  · rename_i source hmain
    have hafter := hlasting.evaluateSource hworld (main_mem_sources hmain)
    dsimp only
    split <;> exact hafter

theorem holds_compile (source : Syntax.Source) :
    Maintains (Progress.Holds files good source) (compiling Compile.compile) := by
  rintro progress ⟨⟨rfl, hworld⟩, hsource⟩
  have houtside : good progress.bench.surroundings.world := hworld
  obtain ⟨hafter, hkept⟩ := hlasting.compile houtside
  exact ⟨⟨rfl, hafter⟩, hkept hsource⟩

theorem holds_showModel (setup : Setup) (source : Syntax.Source) :
    Maintains (Progress.Holds files good source) (showModel setup source) := by
  rw [showModel]
  split
  · refine .bind ?_ fun _ => (steady_holds source).closed.dump rfl
    rintro progress ⟨⟨rfl, hworld⟩, hsource⟩
    have houtside : good progress.bench.surroundings.world := hworld
    obtain ⟨hafter, hkept⟩ := hlasting.evaluateSource houtside hsource
    exact ⟨⟨rfl, hafter⟩, hkept hsource⟩
  · exact .pure _

omit hlasting in
theorem holds_judgeCompiled (subtest : Subtest) (source : Syntax.Source) (metadata : Metadata)
    (compiled : Compiled) :
    Maintains (Progress.Holds files good source) (judgeCompiled subtest source metadata compiled) :=
  .judgeCompiled (steady_holds source) _ _ _ _

/-- A text that has been made the main source is one of the sources. -/
theorem holds_setMain {text : String} {progress after : Progress} {source : Syntax.Source}
    (hkeeps : progress.Keeps files good)
    (hset : setMain path text progress = (.ok source, after)) :
    after.Holds files good source := by
  rw [setMain_apply] at hset
  obtain ⟨hsource, rfl⟩ := Prod.mk.inj hset
  exact ⟨⟨hkeeps.1, hlasting.set _ hkeeps.2⟩, World.mem_of_source hsource⟩

theorem checkSubtest (setup : Setup) (subtest : Subtest) :
    Maintains (Progress.Keeps files good) (checkSubtest setup path subtest) := by
  intro progress hkeeps
  rw [checkSubtest_eq, bind_apply]
  cases hset : setMain path subtest.text progress with
  | mk result after =>
    cases result with
    | error failure =>
      rw [setMain_apply] at hset
      obtain ⟨-, rfl⟩ := Prod.mk.inj hset
      exact ⟨hkeeps.1, hlasting.set _ hkeeps.2⟩
    | ok source =>
      have hsteady : Steady (Progress.Holds files good source) := steady_holds source
      have hclosed := hsteady.closed
      refine (Maintains.bind (hclosed.showTree _ _) (fun _ =>
        .bind (hclosed.readNotes _ _) fun metadata => .bind (hclosed.checkTree _) fun _ =>
        .bind (.fuzz hsteady _ _ _) fun _ => .bind (hlasting.holds_showModel _ _) fun _ =>
        .bind (hlasting.holds_compile _) fun compiled => holds_judgeCompiled _ _ _ _)
        after (hlasting.holds_setMain hkeeps hset)).1

theorem checkParts (setup : Setup) (selected : Option Nat)
    (slots : List (Option Subtest × Nat)) :
    Maintains (Progress.Keeps files good) (checkParts setup path selected slots) :=
  steady_keeps.closed.checkParts setup path selected slots (fun _ _ hkeeps => hkeeps)
    (hlasting.checkSubtest setup)

end Lasting

end Lasting

/-- A world stays reachable. -/
theorem lasting_reached (files : Tree) (path : Path) :
    Lasting files path (World.Reached fun _ => True) where
  faithful := World.Reached.faithful
  set _ hworld := .step hworld (.set _ _ _) fun _ _ => trivial
  resolve _ hworld := .step hworld (.resolve _ _ _) fun _ _ => trivial

end Galley.Run
