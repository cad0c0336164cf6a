import Galley.Compile.Evaluation
import Galley.Fixture
import Galley.Run.Options
import Galley.Run.Reference
import Galley.Run.Report
import Galley.Settings

/-!
# Checking a fixture file

Every subtest is parsed, fuzzed and compiled, its errors are compared with its
notes, and the pages of those that ask for it are compared with the reference
picture of the file. A failure ends the check of its file only, and the report
keeps what was found before.
-/

namespace Galley.Run

open Compile File

/-- What stays the same over a run. -/
structure Setup where
  settings : Settings
  options : Options := {}
  reparser : Syntax.Reparser := .incremental

/-- What a check works on. -/
structure Bench where
  files : Tree
  world : World
  printed : String := ""

/-- A check in progress. -/
structure Progress where
  bench : Bench
  report : Report
  generator : Fuzz.Generator := .new

/-- A step of a check. What was found before a failure is kept. -/
abbrev Check := ExceptT Failure (StateM Progress)

namespace Check

def add (entry : Entry) : Check Unit :=
  modify fun progress => { progress with report := progress.report.add entry }

/-- Notes that something is wrong. -/
def fail : Check Unit :=
  modify fun progress => { progress with report := { progress.report with ok := false } }

/-- Adds an entry about something that is wrong. -/
def blame (entry : Entry) : Check Unit := do
  add entry
  fail

/-- Passes a failure on. -/
def lift {α : Type} : Except Failure α → Check α
  | .ok value => pure value
  | .error failure => throw failure

/-- Runs a step on the files. -/
def onDisk {α : Type} (step : Disk α) : Check α := fun progress =>
  let (result, files) := step progress.bench.files
  (result, { progress with bench := { progress.bench with files } })

/-- Runs a step that compiles. -/
def compiling {α : Type} (step : Tree → Surroundings → Except Failure α × Surroundings) :
    Check α := fun progress =>
  let (result, outside) := step progress.bench.files
    { world := progress.bench.world, printed := progress.bench.printed }
  (result, { progress with
    bench := { progress.bench with world := outside.world, printed := outside.printed } })

/-- Makes a text the main source. -/
def setMain (path : Path) (text : String) : Check Syntax.Source := do
  let progress ← get
  let (id, world) := progress.bench.world.set path text
  set { progress with bench := { progress.bench with world } }
  lift (world.source id)

end Check

/-- The name under which a file is reported. -/
def displayName (settings : Settings) (path : Path) : String :=
  ((path.relativeTo? settings.fixtureDir).getD path).toString

/-- Where the output of a fixture goes. -/
structure Outputs where
  png : Path
  ref : Path
  pdf : Option Path

/-- The output paths of a fixture: its place below the fixture directory, or
its bare name, below each output directory. -/
def outputPaths (setup : Setup) (path : Path) : Except Failure Outputs := do
  let settings := setup.settings
  let inside := (path.relativeTo? settings.fixtureDir).getD (.ofString path.name)
  let picture ← inside.withSuffix ".png"
  let document ← inside.withSuffix ".pdf"
  return { png := settings.pngDir ++ picture
           ref := settings.refDir ++ picture
           pdf := if setup.options.pdf then some (settings.pdfDir ++ document) else none }

/-- What a subtest contributes to the comparison of pictures. -/
structure Outcome where
  compareRef : Bool
  frames : List Document.Frame

open Check

/-- What the notes of a subtest say. If one of them is malformed nothing is
expected. -/
def readNotes (subtest : Subtest) (source : Syntax.Source) : Check Metadata :=
  match Metadata.read source with
  | .ok metadata => return metadata
  | .error (.malformedNote line text reason) => do
    blame (.unreadableNotes subtest.index (.malformedNote line text reason))
    return { compareRef := none, notes := [] }
  | .error failure => throw failure

/-- Checks the tree of a subtest. -/
def checkTree (source : Syntax.Source) : Check Unit :=
  match source.root.spanViolation with
  | some violation => blame (.violation violation)
  | none => return ()

/-- Fuzzes a subtest. All subtests of a file draw from one generator. -/
def fuzz (setup : Setup) (subtest : Subtest) (text : String) : Check Unit := do
  let progress ← get
  let (report, generator) ← lift (Fuzz.runSession setup.reparser text progress.generator)
  set { progress with generator }
  report.failures.forM fun failure => blame (.trial subtest.index failure)

/-- Compares the errors of a subtest with its notes. -/
def checkNotes (subtest : Subtest) (source : Syntax.Source) (expected emitted : List Note) :
    Check Unit := do
  let comparison := Note.compare expected emitted
  unless comparison.ok do
    blame (.mismatch subtest.index)
    comparison.unexpected.forM fun note =>
      blame (.unexpected (Note.describe source subtest.line note))
    comparison.missing.forM fun note =>
      blame (.missing (Note.describe source subtest.line note))

/-- Checks a subtest. -/
def checkSubtest (setup : Setup) (path : Path) (subtest : Subtest) : Check Outcome := do
  let source ← setMain path subtest.text
  if setup.options.dumps.syntaxTree then add (.syntaxTree source.root)
  let metadata ← readNotes subtest source
  let compareRef := metadata.compareRef.getD subtest.compareRef
  checkTree source
  fuzz setup subtest source.text
  if setup.options.dumps.model then
    let module ← compiling fun files => evaluateSource files source
    add (.model module.content)
  let compiled ← compiling compile
  let world := (← get).bench.world
  let emitted ← lift (Diagnostic.notesFor world source.id compiled.module.diagnostics)
  checkNotes subtest source metadata.notes emitted
  return { compareRef, frames := if compareRef then compiled.pages else [] }

/-- Checks the parts of a file in order. Unless it is the selected one, a part
is skipped; the header is passed over. -/
def checkParts (setup : Setup) (path : Path) (selected : Option Nat) :
    List (Option Subtest × Nat) → Check (List Outcome)
  | [] => return []
  | (slot, index) :: rest => do
    if selected.any (· != index) then
      add (.skipped index)
      checkParts setup path selected rest
    else
      match slot with
      | none => checkParts setup path selected rest
      | some subtest =>
        let outcome ← checkSubtest setup path subtest
        return outcome :: (← checkParts setup path selected rest)

/-- Compares the pages of a file with its reference. -/
def checkPages (setup : Setup) (path : Path) (frames : List Document.Frame) : Check Unit := do
  let outputs ← lift (outputPaths setup path)
  outputs.pdf.forM fun pdf => onDisk (exportDocument frames pdf)
  if setup.options.dumps.frames then
    frames.forM fun frame => add (.frame frame)
  let picture ← lift (Image.renderPages frames)
  let verdict ← onDisk
    (checkReference picture outputs.png outputs.ref setup.options.update (!frames.isEmpty))
  if verdict.isUpdate then
    modify fun progress => { progress with report := { progress.report with updated := true } }
  verdict.complaint?.forM fun complaint => blame (.complaint complaint)

/-- Loads a fixture. -/
def loadFixture (path : Path) : Check Fixture := do
  if path.hasNull then throw .nullCharacter
  match (← get).bench.files.read path with
  | .error obstacle => throw (.fixture path.toString obstacle.message)
  | .ok (.bytes bytes) =>
    match String.fromUTF8? bytes with
    | some text => return Fixture.read path text
    | none => throw (.fixture path.toString "file is not valid utf-8")
  | .ok _ => throw (.fixture path.toString "file is not valid utf-8")

/-- The index of the only part to run, if there is such. -/
def Choice.part? (choice : Choice) (count : Nat) : Except Failure (Option Nat) :=
  match choice with
  | .all => return none
  | .only index => return some (index.fmod count).toNat
  | .unnamed => throw .noSubtestIndex

/-- Checks a file. -/
def checkFixture (setup : Setup) (path : Path) : Check Unit := do
  let fixture ← loadFixture path
  let selected ← lift (setup.options.subtest.part? fixture.parts.length)
  let outcomes ← checkParts setup path selected fixture.slots.zipIdx
  if outcomes.any Outcome.compareRef then
    checkPages setup path (outcomes.flatMap Outcome.frames)

/-- Runs a file. A failure becomes part of the report. -/
def runFile (setup : Setup) (path : Path) (bench : Bench) : Report × Bench :=
  let name := displayName setup.settings path
  let (result, progress) := checkFixture setup path { bench, report := { name } }
  match result with
  | .ok () => (progress.report, progress.bench)
  | .error failure =>
    ({ progress.report.add (.panic name failure) with ok := false, panicked := true },
      progress.bench)

end Galley.Run
