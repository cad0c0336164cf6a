import Galley.Compile.Diagnostic
import Galley.Document.Value

/-!
# The evaluating machine

Evaluation works on a machine that holds the world, the styles, the bindings of
the source and what has been reported and printed so far. An expression without
a value stops its markup node and is reported there; a failure stops
everything. Either way the machine keeps what happened before.
-/

namespace Galley.Compile

open Syntax Document

/-- Why an expression has no value. -/
inductive EvalError
  | cannotEvaluate (kind : Kind)
  | invalidCodepoint (digits : String)
  | unknownVariable (name : String)
  | dictionary
  | notAFunction (found : String)
  | wrongType (expected found : String)
  | missingArgument (what : String)
  | unexpectedArgument (name : Option String)
  | pageTooSmall
  | textSizeNotPositive
  | cannotSet (target : String)
  | load (error : LoadError)
  | cyclicInclude
  | cannotAdd (left right : String)
  | cannotSubtract (subtrahend minuend : String)
  | assertionFailed (left right : String)
  deriving DecidableEq, Repr

def EvalError.message : EvalError → String
  | cannotEvaluate kind => s!"cannot evaluate {kind.name}"
  | invalidCodepoint digits => s!"invalid unicode codepoint: {digits}"
  | unknownVariable name => s!"unknown variable: {name}"
  | dictionary => "dictionaries are not supported"
  | notAFunction found => s!"expected function, found {found}"
  | wrongType expected found => s!"expected {expected}, found {found}"
  | missingArgument what => s!"missing argument: {what}"
  | unexpectedArgument none => "unexpected argument"
  | unexpectedArgument (some name) => s!"unexpected argument: {name}"
  | pageTooSmall => "page too small"
  | textSizeNotPositive => "text size must be positive"
  | cannotSet target => s!"cannot set {target}"
  | load error => error.message
  | cyclicInclude => "cyclic include"
  | cannotAdd left right => s!"cannot add {left} and {right}"
  | cannotSubtract subtrahend minuend => s!"cannot subtract {subtrahend} from {minuend}"
  | assertionFailed left right => s!"Assertion failed: {left} != {right}"

/-- What ends an evaluation early. -/
inductive Stop
  | report (span : Int) (error : EvalError)
  | failure (failure : Failure)

structure Machine where
  world : World
  /-- What documents printed. -/
  printed : String := ""
  styles : Styles := {}
  /-- The bindings, the latest first. -/
  scope : List (String × Value) := []
  diagnostics : List Diagnostic := []
  strong : Bool := false
  emph : Bool := false
  /-- The number of computations so far. -/
  computations : Nat := 0

/-- An evaluation. The machine outlives an early end. -/
abbrev Eval := ExceptT Stop (StateM Machine)

namespace Eval

def report {α : Type} (span : Int) (error : EvalError) : Eval α :=
  throw (.report span error)

/-- Passes a failure on. -/
def lift {α : Type} : Except Failure α → Eval α
  | .ok value => pure value
  | .error failure => throw (.failure failure)

/-- Stops at a node that cannot be evaluated. -/
def defect {α : Type} (defect : Defect) : Eval α :=
  throw (.failure (.malformed defect))

/-- The value of a literal whose text is as it should be. -/
def literal {α : Type} : Except Defect α → Eval α
  | .ok value => pure value
  | .error defect => Eval.defect defect

/-- Evaluates a markup node of a source. What is reported becomes a diagnostic,
and the node contributes nothing. -/
def attempt (source : Nat) (action : Eval Content) : Eval Content := fun machine =>
  match action machine with
  | (.error (.report span error), after) =>
    (.ok [], { after with
      diagnostics := after.diagnostics ++ [⟨source, span, error.message⟩] })
  | result => result

/-- Evaluates with strong text. -/
def withStrong {α : Type} (action : Eval α) : Eval α := fun machine =>
  let (result, after) := action { machine with strong := true }
  (result, { after with strong := machine.strong })

/-- Evaluates with emphasized text. -/
def withEmph {α : Type} (action : Eval α) : Eval α := fun machine =>
  let (result, after) := action { machine with emph := true }
  (result, { after with emph := machine.emph })

/-- Evaluates a block, to which text styles are confined. Page styles belong to
the whole document. -/
def withinBlock {α : Type} (action : Eval α) : Eval α := fun machine =>
  let (result, after) := action machine
  (result, { after with
    styles := { after.styles with textSize := machine.styles.textSize } })

/-- A word in the current style. -/
def textElem (text : String) : Eval Elem := do
  let machine ← get
  return .text text machine.styles.textSize machine.strong machine.emph

/-- The current text size. -/
def textSize : Eval Length := do
  return (← get).styles.textSize

/-- A number for a computation, which no other one has. -/
def newOrigin : Eval Nat := do
  let machine ← get
  set { machine with computations := machine.computations + 1 }
  return machine.computations

/-- The elements for the pieces of a text between spaces. -/
def pieceElems : List (List Char) → Eval Content
  | [] => return []
  | [last] => wordElems last
  | first :: rest => do
    let front ← wordElems first
    let size ← textSize
    let behind ← pieceElems rest
    return front ++ .space size :: behind
where
  /-- A piece that is empty contributes nothing. -/
  wordElems (piece : List Char) : Eval Content := do
    if piece.isEmpty then return [] else return [← textElem (String.ofList piece)]

/-- Turns a value into content the way markup shows it. -/
def display : Value → Eval Content
  | .none => return []
  | .content content => return content
  | .str text => pieceElems (Text.splitWhen (· == ' ') text.toList)
  | value => do
    let text ← lift value.repr
    pieceElems (Text.splitWhen (· == ' ') text.toList)

end Eval

end Galley.Compile
