import Galley.Syntax.Source
import Galley.Syntax.SpanOrder
import Galley.Syntax.Difference

/-!
# Trials of the incremental parser

A trial applies one mutation to a parsed text and compares the tree that the
reparser leaves with a clean parse of the edited text. The trees have to agree
once their spans are erased, and the spans of both have to be in order.
-/

namespace Galley.Fuzz

open Syntax

/-- Replaces the bytes `[start, stop)` of a text. -/
structure Mutation where
  start : Int
  stop : Int
  replacement : String
  deriving DecidableEq, Repr

/-- What a trial can find. -/
inductive Finding
  /-- The tree does not cover as many bytes as the text has. -/
  | treeLength (treeLen textLen : Nat)
  /-- Spans are out of order. -/
  | spanOrder (violation : Violation)
  /-- The trees differ without their spans. -/
  | divergence (reference found : Node) (edited : String)

/-- A finding with the mutation that brought it out. -/
structure TrialFailure where
  mutation : Mutation
  finding : Finding

namespace Finding

/-- The name of a kind of finding. -/
def kindName : Finding → String
  | treeLength .. => "tree-length"
  | spanOrder _ => "span-order"
  | divergence .. => "reparse-divergence"

/-- What is wrong with the length of a source's tree. -/
def ofLength? (source : Source) : Option Finding :=
  if source.root.byteLen ≠ source.byteLen then
    some (treeLength source.root.byteLen source.byteLen)
  else none

/-- The first violation of span order in a list of trees. The node is reported
without spans, as the trees of a divergence are. -/
def firstViolation : List Node → List Finding
  | [] => []
  | root :: roots =>
    match root.spanViolation with
    | some violation => [spanOrder violation.erase]
    | none => firstViolation roots

/-- What is wrong with a tree, compared with the clean parse of its text. -/
def ofTrees (reference found : Node) (edited : String) : List Finding :=
  firstViolation [reference, found] ++
    if reference.erase = found.erase then []
    else [divergence reference.erase found.erase edited]

end Finding

namespace TrialFailure

/-- The differences behind a divergence. -/
def mismatches (failure : TrialFailure) : List Mismatch :=
  match failure.finding with
  | .divergence reference found _ => reference.differences found
  | _ => []

/-- The lines of a report on the subtest with an index. -/
def describe (index : Int) (failure : TrialFailure) : List String :=
  match failure.finding with
  | .treeLength treeLen textLen =>
    [s!"    Subtest {index} tree length {treeLen} does not match string length {textLen} ❌"]
  | .spanOrder violation => violation.describe
  | .divergence reference found edited =>
    let mutation := failure.mutation
    let differences := (reference.differences found).map Mismatch.describe
    [s!"    Subtest {index} reparse differs from clean parse when inserting " ++
      s!"'{mutation.replacement}' at {mutation.start}-{mutation.stop} ❌",
     "",
     "    Expected reference tree:",
     reference.dump,
     "",
     "    Found incremental tree:",
     found.dump] ++
    (if differences.isEmpty then []
      else "    Differences:" :: differences.map fun line => "      " ++ line) ++
    [s!"    Full source ({edited.utf8ByteSize}):", Text.quoted edited]

end TrialFailure

/-- Applies a mutation and compares. A tree of the wrong length is reported
alone, since nothing else about it can be trusted; this goes for the tree in
front of the mutation as well as for the one behind it. -/
def runTrial (reparser : Reparser) (text : String) (mutation : Mutation) :
    Except Failure (List TrialFailure) := do
  let source := Source.detached text
  match Finding.ofLength? source with
  | some finding => return [⟨mutation, finding⟩]
  | none =>
    let edited ← source.editWith reparser mutation.start mutation.stop mutation.replacement
    let findings :=
      match Finding.ofLength? edited with
      | some finding => [finding]
      | none => Finding.ofTrees (parse edited.text) edited.root edited.text
    return findings.map fun finding => ⟨mutation, finding⟩

end Galley.Fuzz
