import Galley.Compile.Machine

/-!
# Calls

Arguments are taken by the function that is called: positional ones in order,
named ones by name. What is left over in the end is an error.
-/

namespace Galley.Compile

open Syntax Document Eval

/-- An evaluated argument. -/
structure Arg where
  name : Option String
  value : Value
  span : Int

namespace Arg

/-- Takes the first argument that satisfies the predicate. -/
def take (wanted : Arg → Bool) : List Arg → Option Value × List Arg
  | [] => (none, [])
  | arg :: rest =>
    if wanted arg then (some arg.value, rest)
    else
      let (value, kept) := take wanted rest
      (value, arg :: kept)

/-- Takes the next positional argument, if there is one. -/
def next (args : List Arg) : Option Value × List Arg :=
  take (fun arg => arg.name.isNone) args

/-- Takes an argument by name. -/
def named (name : String) (args : List Arg) : Option Value × List Arg :=
  take (fun arg => arg.name == some name) args

/-- Takes the next positional argument, which has to be there. -/
def expect (span : Int) (what : String) (args : List Arg) : Eval (Value × List Arg) :=
  match next args with
  | (some value, rest) => return (value, rest)
  | (none, _) => report span (.missingArgument what)

/-- Refuses an argument that nobody took. -/
def finish : List Arg → Eval Unit
  | [] => return ()
  | arg :: _ => report arg.span (.unexpectedArgument arg.name)

end Arg

/-- The error for a value of the wrong type. -/
def wrongType {α : Type} (span : Int) (expected : String) (value : Value) : Eval α :=
  report span (.wrongType expected value.typeName)

def castLength (span : Int) (expected : String) : Value → Eval Length
  | .length length => return length
  | value => wrongType span expected value

def castColor (span : Int) : Value → Eval Color
  | .color color => return color
  | value => wrongType span "color" value

def castString (span : Int) : Value → Eval String
  | .str text => return text
  | value => wrongType span "string" value

def castContent (span : Int) : Value → Eval Content
  | .content content => return content
  | value => wrongType span "content" value

/-- What evaluation needs to know about its surroundings: the source it
evaluates, and how a document that is asked for is evaluated. -/
structure Context where
  source : Nat
  load : Int → String → Eval Content

namespace Native

/-- A filled rectangle. -/
def rect (span : Int) (args : List Arg) : Eval Value := do
  let (width, args) := Arg.named "width" args
  let width ← castLength span "length" (width.getD (.length (.points 20.0)))
  let (height, args) := Arg.named "height" args
  let height ← castLength span "length" (height.getD (.length (.points 10.0)))
  let (fill, args) := Arg.named "fill" args
  let fill ← castColor span (fill.getD (.color defaultFill))
  Arg.finish args
  return .content [.rect width height fill]

/-- A link. Without a body it shows its destination. -/
def link (span : Int) (args : List Arg) : Eval Value := do
  let (dest, args) ← Arg.expect span "destination" args
  let dest ← castString span dest
  let (body, args) := Arg.next args
  Arg.finish args
  let body ← match body.getD .none with
    | .none => do
      let size ← textSize
      pure [Elem.text dest size false false]
    | body => castContent span body
  return .content [.link dest body]

/-- Vertical space. -/
def vertical (span : Int) (args : List Arg) : Eval Value := do
  let (amount, args) ← Arg.expect span "amount" args
  let amount ← castLength span "length" amount
  Arg.finish args
  return .content [.vertical amount]

def pagebreak (args : List Arg) : Eval Value := do
  Arg.finish args
  return .content [.pagebreak]

/-- The content of another document. -/
def load (context : Context) (span : Int) (args : List Arg) : Eval Value := do
  let (path, args) ← Arg.expect span "path" args
  let path ← castString span path
  Arg.finish args
  return .content (← context.load span path)

/-- The written form of a value as a string. -/
def repr (span : Int) (args : List Arg) : Eval Value := do
  let (value, args) ← Arg.expect span "value" args
  Arg.finish args
  return .str (← lift value.repr)

/-- Asserts that two values are equal. -/
def test (span : Int) (args : List Arg) : Eval Value := do
  let (left, args) ← Arg.expect span "left-hand side" args
  let (right, args) ← Arg.expect span "right-hand side" args
  Arg.finish args
  if left.equal right then return .none
  else
    let leftText ← lift left.repr
    let rightText ← lift right.repr
    report span (.assertionFailed leftText rightText)

/-- Prints the written forms of all positional arguments. -/
def print (args : List Arg) : Eval Value := do
  let values := (args.filter fun arg => arg.name.isNone).map Arg.value
  Arg.finish (args.filter fun arg => arg.name.isSome)
  let texts ← lift (Value.reprAll values)
  modify fun machine =>
    { machine with printed := machine.printed ++ "> " ++ ", ".intercalate texts ++ "\n" }
  return .none

end Native

/-- Calls a function. -/
def call (context : Context) (native : Document.Native) (span : Int) (args : List Arg) :
    Eval Value :=
  match native with
  | .load => Native.load context span args
  | .link => Native.link span args
  | .pagebreak => Native.pagebreak args
  | .print => Native.print args
  | .rect => Native.rect span args
  | .repr => Native.repr span args
  | .test => Native.test span args
  | .vertical => Native.vertical span args

end Galley.Compile
