import Galley.Fuzz.Generator
import Galley.Fuzz.Trial

/-!
# Fuzzing sessions

A session draws mutations for one text and runs a trial for each. What is drawn
depends on the generator and on the text alone, never on the outcome of a
trial; so the draws are planned first and the trials run afterwards.
-/

namespace Galley.Fuzz

open Syntax

/-- Fragments that open, close or break constructs. -/
def fragments : List String :=
  ["[", "]", "\x7b", "\x7d", "(", ")", "#rect()", "a word", ", a: 1", "10.0", ":",
   "if i == 0 \x7btrue\x7d", "for", "* hello *", "//", "/*", "\\u\x7b12e4\x7d", "\x60\x60\x60typst", " ",
   "trees", "\\", "$ a $", "2.", "-", "5"]

/-- One trial in bulk for every so many bytes of text. -/
def bytesPerTrial : Nat := 400

/-- Number of bulk trials for a text of the given length, rounded up. -/
def bulkCount (length : Nat) : Nat :=
  (length + (bytesPerTrial - 1)) / bytesPerTrial

/-- A draw, which takes steps of a generator. -/
abbrev Draw := StateM Generator

/-- Draws an integer from `start` to below `stop`. Places in a text are never
too large for a draw, so `start` is a value for any that fails. -/
def pick (start stop : Int) : Draw Int := fun generator =>
  match generator.pick start stop with
  | .ok drawn => drawn
  | .error _ => (start, generator.step)

/-- Draws a fragment. -/
def pickFragment : Draw String := do
  let index ← pick 0 fragments.length
  return fragments.getD index.toNat ""

/-- Draws a mutation in bulk. Nothing comes of a range that splits a
character, although its draws are used up. -/
def drawBulk (chars : List Char) : Draw (Option Mutation) := do
  let fragment ← pickFragment
  let length := Text.byteLength chars
  let start ← pick 0 length
  let stop ← pick start length
  if Text.isCut chars start.toNat && Text.isCut chars stop.toNat then
    return some ⟨start, stop, fragment⟩
  else return none

/-- Draws so many mutations in bulk, one after the other. -/
def drawBulks (chars : List Char) : Nat → Draw (List (Option Mutation))
  | 0 => return []
  | count + 1 => do
    let mutation ← drawBulk chars
    let mutations ← drawBulks chars count
    return mutation :: mutations

/-- Draws an insertion at the start of a leaf, where tokens are most likely to
move. -/
def drawInsertion (source : Source) : Draw Mutation := do
  let leaves := source.root.leaves
  let index ← pick 0 leaves.length
  let start := ((leaves[index.toNat]?.bind fun leaf => source.range leaf.span).map Prod.fst).getD 0
  let fragment ← pickFragment
  return ⟨start, start, fragment⟩

/-- The mutations drawn for a text. -/
structure Plan where
  bulk : List (Option Mutation)
  insertion : Mutation

namespace Plan

/-- Draws the mutations for a text. -/
def draw (text : String) : Draw Plan := do
  let source := Source.detached text
  let bulk ← drawBulks source.chars (bulkCount source.byteLen)
  let insertion ← drawInsertion source
  return ⟨bulk, insertion⟩

/-- The mutations to be tried, in order. -/
def mutations (plan : Plan) : List Mutation :=
  plan.bulk.filterMap id ++ [plan.insertion]

/-- Number of draws that came to nothing. -/
def skipped (plan : Plan) : Nat :=
  plan.bulk.countP Option.isNone

end Plan

/-- The outcome of a session. -/
structure Report where
  skipped : Nat
  mutations : List Mutation
  failures : List TrialFailure

namespace Report

def ok (report : Report) : Bool :=
  report.failures.isEmpty

def trials (report : Report) : Nat :=
  report.mutations.length

end Report

/-- Runs a session on a text. -/
def runSession (reparser : Reparser) (text : String) (generator : Generator) :
    Except Failure (Report × Generator) := do
  let (plan, generator) := (Plan.draw text).run generator
  let failures ← plan.mutations.mapM (runTrial reparser text)
  return (⟨plan.skipped, plan.mutations, failures.flatten⟩, generator)

end Galley.Fuzz
