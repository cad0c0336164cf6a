import Galley.Compile.Call
import Galley.Compile.Literal
import Galley.Document.Layout

/-!
# Evaluation

A tree is evaluated node by node. Every node gets an evaluation from those of
its children; what it does with them depends on its kind. Documents that are
asked for are evaluated by the surroundings, which know the chain of documents
that led here.
-/

namespace Galley.Compile

open Syntax Document Eval

/-- A node with what it comes to in each of the places where it may stand. -/
structure Operand where
  node : Node
  /-- Its value. -/
  value : Eval Value
  /-- The argument that it is in an argument list. -/
  argument : Eval Arg
  /-- Its children as the arguments of a call. -/
  arguments : Eval (List Arg)
  /-- Its children as markup. -/
  content : Eval Content

/-- Whether a node carries meaning between others. -/
def isMeaningful (node : Node) : Bool :=
  !node.kind.isTrivia && !node.kind.isPunctuation

namespace Operand

/-- The operands without trivia and punctuation. -/
def meaningful (operands : List Operand) : List Operand :=
  operands.filter fun operand => isMeaningful operand.node

/-- The value of a group: a single item without a comma, and otherwise an
array. -/
def group (node : Node) (items : List Arg) : Eval Value :=
  if items.any fun item => item.name.isSome then report node.span .dictionary
  else
    let commas := node.children.any fun child => child.kind == .comma
    match items with
    | [item] => if commas then return .array [item.value] else return item.value
    | _ => return .array (items.map Arg.value)

/-- The arguments that operands are, in order. -/
def list : List Operand → Eval (List Arg)
  | [] => return []
  | operand :: operands => do
    let first ← operand.argument
    let rest ← list operands
    return first :: rest

/-- The arguments that a part of a call adds: those of an argument list, or a
content block. -/
def callPart (operand : Operand) : Eval (List Arg) :=
  if operand.node.kind = .args then operand.arguments
  else do
    let value ← operand.value
    return [⟨none, value, operand.node.span⟩]

/-- The arguments of a call, part by part. -/
def callItems : List Operand → Eval (List Arg)
  | [] => return []
  | operand :: operands => do
    let first ← operand.callPart
    let rest ← callItems operands
    return first ++ rest

end Operand

/-- Evaluates the nodes of markup. -/
def markupContent (source : Nat) : List Operand → Eval Content
  | [] => return []
  | operand :: operands => do
    let first ← attempt source do
      let value ← operand.value
      display value
    let rest ← markupContent source operands
    return first ++ rest

/-- The value of a name. -/
def lookup (span : Int) (name : String) : Eval Value := do
  match (← get).scope.lookup name with
  | some value => return value
  | none =>
    match globals.lookup name with
    | some value => return value
    | none => report span (.unknownVariable name)

/-- Makes a value known under a name. -/
def bind (name : String) (value : Value) : Eval Value := do
  modify fun machine => { machine with scope := (name, value) :: machine.scope }
  return .none

def setStyles (styles : Styles) : Eval Value := do
  modify fun machine => { machine with styles }
  return .none

/-- Sets page styles. -/
def setPage (span : Int) (args : List Arg) : Eval Value := do
  let styles := (← get).styles
  let (width, args) := Arg.named "width" args
  let width ← castLength span "length" (width.getD (.length styles.pageWidth))
  let (height, args) := Arg.named "height" args
  let height ← match height with
    | none => pure styles.pageHeight
    | some .none => pure none
    | some value => do
      let length ← castLength span "length or none" value
      pure (some length)
  let (margin, args) := Arg.named "margin" args
  let margin ← castLength span "length" (margin.getD (.length styles.margin))
  Arg.finish args
  if Styles.tooSmall width height margin then report span .pageTooSmall
  else setStyles { styles with pageWidth := width, pageHeight := height, margin }

/-- Sets text styles. -/
def setText (span : Int) (args : List Arg) : Eval Value := do
  let styles := (← get).styles
  let (size, args) := Arg.named "size" args
  let size ← castLength span "length" (size.getD (.length styles.textSize))
  Arg.finish args
  if size.pt ≤ 0 then report span .textSizeNotPositive
  else setStyles { styles with textSize := size }

/-- The value of two values joined by an operator. -/
def applyOperator (span : Int) (operator : Kind) (left right : Value) : Eval Value :=
  match operator with
  | .eqEq => return .bool (left.equal right)
  | .exclEq => return .bool !(left.equal right)
  | .plus => do
    match left.add (← newOrigin) right with
    | some sum => lift sum
    | none => report span (.cannotAdd left.typeName right.typeName)
  | _ => do
    match left.sub (← newOrigin) right with
    | some difference => lift difference
    | none => report span (.cannotSubtract right.typeName left.typeName)

/-- A call of the first operand with the arguments of the others. -/
def evalCall (context : Context) (node : Node) (operands : List Operand) : Eval Value :=
  match Operand.meaningful operands with
  | callee :: rest => do
    match ← callee.value with
    | .func native => do
      let args ← Operand.callItems rest
      call context native node.span args
    | value => report callee.node.span (.notAFunction value.typeName)
  | [] => defect .nothingCalled

def evalBinary (node : Node) (operands : List Operand) : Eval Value :=
  match Operand.meaningful operands with
  | [left, operator, right] => do
    let leftValue ← left.value
    let rightValue ← right.value
    applyOperator node.span operator.node.kind leftValue rightValue
  | others => defect (.wrongCount 3 others.length)

/-- The value that a binding gives to its name, given the operands behind the
name: what follows the equals sign, and none if there is nothing. -/
def boundValue : List Operand → Eval Value
  | _ :: expression :: _ => expression.value
  | _ => return .none

def evalLet (operands : List Operand) : Eval Value :=
  match Operand.meaningful operands with
  | _ :: name :: rest => do
    let value ← boundValue rest
    bind name.node.text value
  | _ => defect .missingChild

def evalSet (node : Node) (operands : List Operand) : Eval Value :=
  match Operand.meaningful operands with
  | [_, target, arguments] => do
    let args ← arguments.arguments
    if target.node.text = "page" then setPage node.span args
    else if target.node.text = "text" then setText node.span args
    else report target.node.span (.cannotSet target.node.text)
  | others => defect (.wrongCount 3 others.length)

/-- The operands between the first one and the last one. -/
def between (operands : List Operand) : List Operand :=
  (operands.drop 1).dropLast

/-- The value of a leaf with the given text. -/
def evalLeaf (kind : Kind) (text : String) (span : Int) : Eval Value :=
  match kind with
  | .text => do return .content [← textElem text]
  | .space => do return .content [.space (← textSize)]
  | .parbreak => return .content [.parbreak]
  | .linebreak => do return .content [.linebreak (← textSize)]
  | .lineComment | .blockComment | .noneWord => return .none
  | .escape =>
    match Literal.escapedDigits? text.toList with
    | none => do return .content [← textElem (String.ofList (text.toList.drop 1))]
    | some digits =>
      if !Literal.isHexadecimal digits then defect (.noHexadecimal (String.ofList digits))
      else if Literal.isScalar (Text.hexNumber digits) then do
        return .content [← textElem (String.ofList [Char.ofNat (Text.hexNumber digits)])]
      else report span (.invalidCodepoint (String.ofList digits))
  | .raw => do
    let body := Literal.raw text.toList
    if body.isEmpty then return .content []
    else return .content [.raw (String.ofList body) (← textSize)]
  | .math => do
    let body := Literal.math text.toList
    if body.isEmpty then return .content []
    else return .content [.math (String.ofList body) (← textSize)]
  | .ident => lookup span text
  | .bool => return .bool (text == "true")
  | .int => do return .int (← lift (Number.readInteger text.toList))
  | .float => do return .float (← literal (Literal.float text.toList)) 0
  | .numeric => do return .length (← literal (Literal.length text.toList))
  | .str => return .str (String.ofList (Literal.string text.toList))
  | _ => report span (.cannotEvaluate kind)

/-- The value of an inner node, given its evaluated children. -/
def evalInner (context : Context) (node : Node) (operands : List Operand) : Eval Value :=
  match node.kind with
  | .markup => do return .content (← markupContent context.source operands)
  | .strong => do
    return .content (← withStrong (markupContent context.source (between operands)))
  | .emph => do
    return .content (← withEmph (markupContent context.source (between operands)))
  | .contentBlock =>
    match operands with
    | _ :: body :: _ => do return .content (← withinBlock body.content)
    | _ => defect .missingChild
  | .embedded =>
    match Operand.meaningful operands with
    | code :: _ => code.value
    | [] => defect .missingChild
  | .args => do
    Operand.group node (← Operand.list (Operand.meaningful operands))
  | .funcCall => evalCall context node operands
  | .binary => evalBinary node operands
  | .letBinding => evalLet operands
  | .setRule => evalSet node operands
  | _ => evalLeaf node.kind node.text node.span

/-- The argument that a node is in an argument list: a name with its expression,
or the value of the node. -/
def evalArgument (node : Node) (operands : List Operand) (value : Eval Value) : Eval Arg :=
  if node.kind = .named then
    match Operand.meaningful operands with
    | [name, expression] => do
      let value ← expression.value
      return ⟨some name.node.text, value, expression.node.span⟩
    | others => defect (.wrongCount 2 others.length)
  else do
    let value ← value
    return ⟨none, value, node.span⟩

/-- What a node comes to, given its evaluated children. -/
def Operand.ofChildren (context : Context) (node : Node) (operands : List Operand) : Operand :=
  { node
    value := evalInner context node operands
    argument := evalArgument node operands (evalInner context node operands)
    arguments := Operand.list (Operand.meaningful operands)
    content := markupContent context.source operands }

mutual

/-- A node with its evaluation. -/
def evalNode (context : Context) : Node → Operand
  | ⟨kind, text, children, span, message⟩ =>
    .ofChildren context ⟨kind, text, children, span, message⟩ (operandsOf context children)

/-- Siblings with their evaluations. -/
def operandsOf (context : Context) : List Node → List Operand
  | [] => []
  | node :: nodes => evalNode context node :: operandsOf context nodes

end

/-- An evaluated source. -/
structure Module where
  name : String
  content : Content := []
  styles : Styles := {}
  diagnostics : List Diagnostic := []

/-- What outlives the evaluation of a source. -/
structure Surroundings where
  world : World
  printed : String := ""
  /-- The number of computations so far. -/
  computations : Nat := 0

/-- The diagnostics for the syntax errors of a source. -/
def syntaxDiagnostics (source : Source) : List Diagnostic :=
  source.root.errors.map fun node => ⟨source.id, node.span, node.message.getD ""⟩

/-- Evaluates a source without syntax errors. -/
def evaluateTree (context : Context) (source : Source) (outside : Surroundings) :
    Except Failure Module × Surroundings :=
  let (result, machine) :=
    (evalNode context source.root).content.run.run
      { world := outside.world, printed := outside.printed, computations := outside.computations }
  let outside : Surroundings := ⟨machine.world, machine.printed, machine.computations⟩
  match result with
  | .ok content =>
    (.ok { name := source.path.stem, content, styles := machine.styles,
           diagnostics := machine.diagnostics }, outside)
  | .error (.failure failure) => (.error failure, outside)
  | .error (.report span error) =>
    (.ok { name := source.path.stem, styles := machine.styles,
           diagnostics := machine.diagnostics ++ [⟨source.id, span, error.message⟩] }, outside)

/-- The id of the source at a path. A load error is reported at the span. -/
def resolveAt (files : File.Tree) (span : Int) (path : String) : Eval Nat := fun machine =>
  let (result, world) := machine.world.resolve files (.ofString path)
  let machine := { machine with world }
  match result with
  | .ok id => (.ok id, machine)
  | .error (.load error) => (.error (.report span (.load error)), machine)
  | .error failure => (.error (.failure failure), machine)

/-- The content of the document at a path, given the chain of sources that asks
for it and how a source is evaluated. A source on the chain is not evaluated
again. -/
def loadDocument (files : File.Tree) (chain : List Nat)
    (enter : Source → Surroundings → Except Failure Module × Surroundings) (span : Int)
    (path : String) : Eval Content := do
  let id ← resolveAt files span path
  if chain.contains id then report span .cyclicInclude
  else
    let machine ← get
    let asked ← lift (machine.world.source id)
    let (result, after) :=
      enter asked ⟨machine.world, machine.printed, machine.computations⟩
    set { machine with
      world := after.world, printed := after.printed, computations := after.computations }
    let module ← lift result
    modify fun machine =>
      { machine with diagnostics := machine.diagnostics ++ module.diagnostics }
    return module.content

/-- Evaluates the last source of a chain, given how those are evaluated that it
asks for. Syntax errors come in place of evaluation. -/
def evaluateOn (files : File.Tree) (chain : List Nat)
    (enter : Source → Surroundings → Except Failure Module × Surroundings) (source : Source)
    (outside : Surroundings) : Except Failure Module × Surroundings :=
  if source.root.errors.isEmpty then
    evaluateTree ⟨source.id, loadDocument files chain enter⟩ source outside
  else (.ok { name := source.path.stem, diagnostics := syntaxDiagnostics source }, outside)

/-- Evaluates a source with the chain of sources that led to it. A document may
ask for others that are not on the chain; the first argument bounds how long
the chain can still grow. -/
def evaluate (files : File.Tree) :
    Nat → List Nat → Source → Surroundings → Except Failure Module × Surroundings
  | 0, _, _, outside => (.error .endlessChain, outside)
  | depth + 1, route, source, outside =>
    let chain := route ++ [source.id]
    evaluateOn files chain (evaluate files depth chain) source outside

/-- How long a chain of documents can grow: no source is on it twice, and every
source is there already or is loaded from a file. -/
def chainBound (files : File.Tree) (world : World) : Nat :=
  world.sources.length + files.entries.length

/-- The result of compiling the main source. -/
structure Compiled where
  module : Module
  pages : List Frame

namespace Compiled

def ok (compiled : Compiled) : Bool :=
  compiled.module.diagnostics.isEmpty

end Compiled

/-- Evaluates a source of a world. -/
def evaluateSource (files : File.Tree) (source : Source) (outside : Surroundings) :
    Except Failure Module × Surroundings :=
  evaluate files (chainBound files outside.world + 1) [] source outside

/-- Compiles the main source: pages if nothing was reported. -/
def compile (files : File.Tree) (outside : Surroundings) :
    Except Failure Compiled × Surroundings :=
  match outside.world.main with
  | .error failure => (.error failure, outside)
  | .ok source =>
    let (result, outside) := evaluateSource files source outside
    match result with
    | .error failure => (.error failure, outside)
    | .ok module =>
      let pages := if module.diagnostics.isEmpty then layout module.content module.styles else []
      (.ok ⟨module, pages⟩, outside)

end Galley.Compile
