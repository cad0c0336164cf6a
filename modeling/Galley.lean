import Galley.CommandLine.Session
import Galley.Compile.Evaluation
import Galley.Fuzz.Fault
import Galley.Image.FontBook
import Galley.Main
import Galley.Text.Cursor
import Galley.Proofs.Coverage.Tree
import Galley.Proofs.Coverage.Grammar
import Galley.Proofs.Span.Numbering
import Galley.Proofs.Coverage.Parse
import Galley.Proofs.Locality.Alike
import Galley.Proofs.Locality.Token
import Galley.Proofs.Locality.Grammar
import Galley.Proofs.Locality.TopLevel
import Galley.Proofs.Edit.Reparse
import Galley.Proofs.Edit.History
import Galley.Proofs.Edit.Order
import Galley.Proofs.Span.Lookup
import Galley.Proofs.Fuzz.Trial
import Galley.Proofs.Shape.Basic
import Galley.Proofs.Shape.Token
import Galley.Proofs.Shape.Grammar
import Galley.Proofs.Evaluation.Call
import Galley.Proofs.Evaluation.Leaf
import Galley.Proofs.Evaluation.Tree
import Galley.Proofs.World.Growth
import Galley.Proofs.Evaluation.Growth
import Galley.Proofs.World.Reached
import Galley.Proofs.World.Aged
import Galley.Proofs.World.Requests
import Galley.Proofs.World.Bookkeeping
import Galley.Proofs.World.Outcome
import Galley.Proofs.Evaluation.Structure
import Galley.Proofs.Evaluation.Located
import Galley.Proofs.Evaluation.Includes
import Galley.Proofs.Fixture.Lines
import Galley.Proofs.Note.Comparison
import Galley.Proofs.Run.Steps
import Galley.Proofs.Run.Passing
import Galley.Proofs.World.Told
import Galley.Proofs.World.Parallel
import Galley.Proofs.Evaluation.Twins
import Galley.Proofs.Evaluation.Parallel
import Galley.Proofs.Evaluation.Snapshot
import Galley.Proofs.Run.Parallel
import Galley.Proofs.Run.Pool
import Galley.Proofs.Run.Schedule
import Galley.Proofs.Run.Selection
import Galley.Proofs.Number.Digits
import Galley.Proofs.Note.Position
import Galley.Proofs.Note.Announcement
import Galley.Proofs.File.Place
import Galley.Proofs.File.Saved
import Galley.Proofs.Image.Golden
import Galley.Proofs.Run.Reference
import Galley.Proofs.Run.Findings
import Galley.Proofs.Run.Ledger
import Galley.Proofs.Run.Verdict
import Galley.Proofs.CommandLine.Ending
import Galley.Proofs.World.Memory
import Galley.Proofs.World.Objects
import Galley.Proofs.Run.Tasks
import Galley.Proofs.Run.Isolation
import Galley.Proofs.Layout.Marks
import Galley.Proofs.Note.Malformed
import Galley.Proofs.Run.Notes
import Galley.Proofs.File.Joined
import Galley.Proofs.Evaluation.Heeded
import Galley.Proofs.Evaluation.OwnPath
import Galley.Proofs.Run.SelfInclusion
import Galley.Proofs.Evaluation.Digits
import Galley.Proofs.Evaluation.Budget
import Galley.Proofs.Evaluation.Spending
import Galley.Proofs.Evaluation.Escape
import Galley.Proofs.Text.Position
import Galley.Proofs.Layout.Overflow
import Galley.Proofs.Value.Equality
import Galley.Proofs.Evaluation.Operators
import Galley.Proofs.Evaluation.Equality
import Galley.Proofs.Text.Encoding
import Galley.Proofs.Edit.Splice
import Galley.Proofs.Edit.Reuse
import Galley.Proofs.Leaf.Form
import Galley.Proofs.Leaf.Place
import Galley.Proofs.Leaf.Grammar
import Galley.Proofs.Evaluation.Quoted
import Galley.Proofs.Run.Mismatch
import Galley.Proofs.Evaluation.Styles
import Galley.Proofs.Evaluation.Emphasis
import Galley.Proofs.Note.Emitted
import Galley.Proofs.Span.Checker
import Galley.Proofs.Fuzz.Difference
import Galley.Proofs.Fuzz.Account
import Galley.Proofs.Evaluation.Words
import Galley.Proofs.Fuzz.Period
import Galley.Proofs.Run.Draws
import Galley.Proofs.File.Suffix
import Galley.Proofs.Run.Outputs
import Galley.Proofs.Image.Stack
import Galley.Proofs.Span.Walk
import Galley.Proofs.Locality.Lookahead
import Galley.Proofs.Coverage.Progress
import Galley.Proofs.Edit.Restart
