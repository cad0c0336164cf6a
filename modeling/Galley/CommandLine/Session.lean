import Galley.CommandLine.Arguments
import Galley.Run.All
import Galley.Settings.Sources
import Galley.Text.Case

/-!
# Sessions

One call of the program: settings are read, then arguments, and the selected
fixtures are run. The call succeeds if every fixture does.
-/

namespace Galley.CommandLine

open File Run

/-- The levels at which messages can be logged. -/
def logLevels : List String :=
  ["CRITICAL", "FATAL", "ERROR", "WARN", "WARNING", "INFO", "DEBUG", "NOTSET"]

/-- The name of a log level in upper case, if there is such a level. -/
def readLogLevel (text : String) : Except Failure String :=
  let name := String.ofList (Text.upper text.toList)
  if logLevels.contains name then return name else throw (.unknownLogLevel name)

def Arguments.options (arguments : Arguments) : Options :=
  { update := arguments.update
    pdf := arguments.pdf
    subtest := arguments.subtest
    dumps := ⟨arguments.syntaxTree, arguments.model, arguments.frames⟩ }

/-- The text of the environment file in the working directory, if there is
one. -/
def envFileText (files : Tree) : Except Failure (Option String) :=
  match files.read (.ofString ".env") with
  | .ok (.bytes bytes) =>
    match Text.decodingFault? bytes.toList with
    | none => return String.fromUTF8? bytes
    | some fault => throw (.undecodable fault)
  | _ => return none

/-- The settings for a call in a working directory. -/
def readSettings (environment : List (String × String)) (files : Tree) :
    Except Failure Settings := do
  Settings.read [] environment (← envFileText files)

/-- The end of a call. -/
structure Ending where
  /-- Zero if every fixture passed, one otherwise. -/
  exit : Nat
  output : String
  files : Tree

/-- What is printed for a finished file. -/
def finishedText (finished : Finished) : String :=
  finished.printed ++ finished.report.text ++ "\n"

/-- Runs the fixtures that the arguments select. -/
def runSelected (settings : Settings) (arguments : Arguments) (files : Tree) :
    Except Failure Ending := do
  let world ← openWorld settings files
  let paths ← discover files settings.fixtureDir settings.fixtureSuffix
    ⟨arguments.filters, arguments.exact⟩
  let setup : Setup := { settings, options := arguments.options }
  let (finished, files) ← runAll setup world files paths
  let reports := finished.map Finished.report
  let closing := (summarize reports).map (· ++ "\n")
  return { exit := if reports.all Report.ok then 0 else 1
           output := "Running tests...\n" ++ String.join (finished.map finishedText) ++
             String.join closing
           files }

/-- A call of the program. -/
def call (environment : List (String × String)) (words : List String) (files : Tree) :
    Except Failure Ending := do
  let settings ← readSettings environment files
  let _ ← readLogLevel settings.logLevel
  let arguments ← Arguments.read settings.updateExpect words
  runSelected settings arguments files

end Galley.CommandLine
