import Galley.Document.Dump
import Galley.Fuzz.Session
import Galley.Image.Golden
import Galley.Note.Metadata

/-!
# Reports

What running one fixture file brought to light, entry by entry. Entries are
facts; their written form is decided here, and so are the closing lines of a
run.
-/

namespace Galley.Run

open Syntax

/-- One fact about a run. -/
inductive Entry
  | skipped (index : Nat)
  | syntaxTree (root : Node)
  | model (content : Document.Content)
  | frame (frame : Document.Frame)
  /-- The notes of a subtest could not be read. -/
  | unreadableNotes (index : Nat) (failure : Failure)
  | violation (violation : Violation)
  | trial (index : Nat) (failure : Fuzz.TrialFailure)
  /-- The errors of a subtest are not the expected ones. -/
  | mismatch (index : Nat)
  /-- An error that no note announces, in its written form. -/
  | unexpected (note : String)
  /-- A note that no error answers, in its written form. -/
  | missing (note : String)
  | complaint (complaint : Image.Complaint)
  /-- The failure that ended the run of a file. -/
  | panic (name : String) (failure : Failure)

namespace Entry

/-- The lines of an entry. -/
def lines : Entry → List String
  | skipped index => [s!"  Skipped subtest {index}."]
  | syntaxTree root => [s!"Syntax Tree:\n{root.dump}\n"]
  | model content => [s!"Model:\n{Document.dumpContent content}\n"]
  | frame page => [s!"{page.dump}\n"]
  | unreadableNotes index failure =>
    [s!"  Subtest {index} has an invalid annotation: {failure.message}"]
  | violation found => found.describe
  | trial index failure => failure.describe index
  | mismatch index => [s!"  Subtest {index} does not match expected errors."]
  | unexpected note => [s!"    Not annotated | {note}"]
  | missing note => [s!"    Not emitted   | {note}"]
  | complaint found => [found.message]
  | panic name failure =>
    [s!"Panicked in {name}", s!"  {failure.label}: {failure.message}"]

/-- Whether an entry says that something is wrong. -/
def isFault : Entry → Bool
  | skipped _ | syntaxTree _ | model _ | frame _ => false
  | _ => true

end Entry

structure Report where
  name : String
  ok : Bool := true
  updated : Bool := false
  panicked : Bool := false
  entries : List Entry := []

namespace Report

/-- The lines below the title. -/
def output (report : Report) : List String :=
  report.entries.flatMap Entry.lines

/-- The written form: the name with the outcome, then everything else. -/
def text (report : Report) : String :=
  let mark := if report.ok then "✔" else "❌"
  let update := if report.updated then ["  Updated reference image."] else []
  "\n".intercalate (s!"{report.name} {mark}" :: update ++ report.output)

/-- Adds an entry. -/
def add (report : Report) (entry : Entry) : Report :=
  { report with entries := report.entries ++ [entry] }

end Report

/-- How references are updated. -/
def updateHint : String :=
  "Set the UPDATE_EXPECT environment variable or pass the --update flag to update the " ++
    "reference image(s)."

/-- The closing lines: the count of passes unless there is only one report, and
on failures how to update references. -/
def summarize (reports : List Report) : List String :=
  let passed := reports.countP Report.ok
  (if 1 < reports.length then [s!"{passed} / {reports.length} tests passed."] else []) ++
    (if passed < reports.length then [updateHint] else [])

end Galley.Run
