/-!
# Options

What can be chosen for each run: which subtest to run, what to write besides
pictures, and what to show in reports.
-/

namespace Galley.Run

/-- What reports show about every subtest. -/
structure Dumps where
  syntaxTree : Bool := false
  model : Bool := false
  frames : Bool := false
  deriving DecidableEq, Repr

/-- Which subtests of a file to run. -/
inductive Choice
  | all
  /-- One of them. Negative numbers count from the end. -/
  | only (index : Int)
  /-- One of them that no index names, so that the file cannot be run. -/
  | unnamed
  deriving DecidableEq, Repr

structure Options where
  /-- Whether references that do not match are replaced. -/
  update : Bool := false
  /-- Whether a document for printing is written. -/
  pdf : Bool := false
  subtest : Choice := .all
  dumps : Dumps := {}
  deriving DecidableEq, Repr

end Galley.Run
