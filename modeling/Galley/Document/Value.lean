import Galley.Document.Content
import Galley.Number.Read

/-!
# Values

The values of embedded code. Numbers compare by value across integers and
floats, and a colour compares as the list of its channels.
-/

namespace Galley.Document

/-- The functions that every document can call. -/
inductive Native
  | load | link | pagebreak | print | rect | repr | test | vertical
  deriving DecidableEq, Repr

namespace Native

def name : Native → String
  | load => "include"
  | link => "link"
  | pagebreak => "pagebreak"
  | print => "print"
  | rect => "rect"
  | repr => "repr"
  | test => "test"
  | vertical => "v"

/-- All functions, sorted by name. -/
def all : List Native :=
  [load, link, pagebreak, print, rect, repr, test, vertical]

end Native

inductive Value
  | none
  | bool (value : Bool)
  | int (value : Int)
  /-- A float with the computation that it came from. -/
  | float (value : Float) (origin : Nat)
  | str (text : String)
  | length (length : Length)
  | color (color : Color)
  | content (content : Content)
  | func (native : Native)
  | array (items : List Value)
  deriving Repr, Inhabited

namespace Value

/-- The name of a value's type. -/
def typeName : Value → String
  | .none => "none"
  | .bool _ => "boolean"
  | int _ => "integer"
  | float .. => "float"
  | str _ => "string"
  | length _ => "length"
  | color _ => "color"
  | content _ => "content"
  | func _ => "function"
  | array _ => "array"

/-- A text between double quotes. -/
def quoteString (chars : List Char) : List Char :=
  '"' :: chars.flatMap (fun c => if c = '\\' || c = '"' then ['\\', c] else [c]) ++ ['"']

mutual

/-- The written form of a value. Integers that are too long have none. -/
def repr : Value → Except Failure String
  | .none => return "none"
  | .bool value => return if value then "true" else "false"
  | .int value => Galley.Number.integerText value
  | .float value _ => return Galley.Number.floatText value
  | .str text => return String.ofList (quoteString text.toList)
  | .length amount => return amount.text
  | .color channels => return channels.text
  | .content elems => return if elems.isEmpty then "[]" else "[..]"
  | .func native => return native.name
  | .array items => do
    let texts ← reprAll items
    return "(" ++ ", ".intercalate texts ++ ")"

def reprAll : List Value → Except Failure (List String)
  | [] => return []
  | item :: items => do
    let text ← item.repr
    let texts ← reprAll items
    return text :: texts

end

/-- The number that a value is or stands for: one for true and zero for false. -/
inductive Number
  | int (value : Int)
  | float (value : Float) (origin : Nat)

def number? : Value → Option Number
  | bool value => some (.int (if value then 1 else 0))
  | int value => some (.int value)
  | float value origin => some (.float value origin)
  | _ => Option.none

/-- Exact comparison of numbers. -/
def Number.same : Number → Number → Bool
  | .int left, .int right => left == right
  | .float left origin, .float right origin' => sameFloat left origin right origin'
  | .int left, .float right _ => Galley.Number.floatEqualsInt right left
  | .float left _, .int right => Galley.Number.floatEqualsInt left right

/-- Whether values are the given channels, one by one. -/
def sameChannels : List Nat → List Value → Bool
  | [], [] => true
  | channel :: channels, item :: items =>
    (match item.number? with
      | some number => (Number.int channel).same number
      | Option.none => false) && sameChannels channels items
  | _, _ => false

mutual

/-- Equality inside arrays, where a boolean is a number. -/
def looselyEqual : Value → Value → Bool
  | .none, .none => true
  | .str left, .str right => left == right
  | .length left, .length right => left == right
  | .content left, .content right => Elem.sameAll left right
  | .func left, .func right => left == right
  | .color left, .color right => left == right
  | .color left, .array items => sameChannels left.channels items
  | .array items, .color right => sameChannels right.channels items
  | .array items, .array items' => looselyEqualAll items items'
  | left, right =>
    match left.number?, right.number? with
    | some left, some right => left.same right
    | _, _ => false

def looselyEqualAll : List Value → List Value → Bool
  | [], [] => true
  | left :: lefts, right :: rights => looselyEqual left right && looselyEqualAll lefts rights
  | _, _ => false

end

def isBool : Value → Bool
  | bool _ => true
  | _ => false

/-- Equality as documents see it: a boolean never equals a number, and a float
that is no number equals nothing. -/
def equal (left right : Value) : Bool :=
  match left, right with
  | .float left _, .float right _ => left == right
  | _, _ => left.isBool == right.isBool && looselyEqual left right

/-- The items of a value that joins with arrays: an array or a colour. -/
def items? : Value → Option (List Value)
  | .array items => some items
  | .color shade => some (shade.channels.map fun channel => .int (channel : Nat))
  | _ => Option.none

/-- The number that a value is. Booleans are none here. -/
def arithmetic? : Value → Option Number
  | int value => some (.int value)
  | float value origin => some (.float value origin)
  | _ => Option.none

/-- An integer as a float, if it is not too large. -/
def toFloat (n : Int) : Except Failure Float :=
  match Galley.Number.floatOfInt? n with
  | some value => return value
  | Option.none => throw .integerTooLarge

/-- Combines numbers, as floats as soon as one of them is a float. -/
def combine (origin : Nat) (onInts : Int → Int → Int) (onFloats : Float → Float → Float) :
    Number → Number → Except Failure Value
  | .int left, .int right => return int (onInts left right)
  | .float left _, .float right _ => return float (onFloats left right) origin
  | .int left, .float right _ => return float (onFloats (← toFloat left) right) origin
  | .float left _, .int right => return float (onFloats left (← toFloat right)) origin

/-- The sum of two values, if their types can be added. The first argument tells
this computation from all others. -/
def add (origin : Nat) (left right : Value) : Option (Except Failure Value) :=
  match left.arithmetic?, right.arithmetic? with
  | some left, some right => some (combine origin (· + ·) (· + ·) left right)
  | _, _ =>
    match left, right with
    | .str left, .str right => some (return .str (left ++ right))
    | .length left, .length right => some (return .length ⟨left.pt + right.pt, origin⟩)
    | .content left, .content right => some (return .content (left ++ right))
    | left, right =>
      match left.items?, right.items? with
      | some left, some right => some (return .array (left ++ right))
      | _, _ => Option.none

/-- The difference of two values, if their types can be subtracted. The first
argument tells this computation from all others. -/
def sub (origin : Nat) (left right : Value) : Option (Except Failure Value) :=
  match left.arithmetic?, right.arithmetic? with
  | some left, some right => some (combine origin (· - ·) (· - ·) left right)
  | _, _ =>
    match left, right with
    | .length left, .length right => some (return .length ⟨left.pt - right.pt, origin⟩)
    | _, _ => Option.none

end Value

/-- The named colours. -/
def colors : List (String × Color) :=
  [("black", ⟨0x00, 0x00, 0x00, 255⟩), ("blue", ⟨0x00, 0x74, 0xd9, 255⟩),
   ("conifer", ⟨0x9f, 0xeb, 0x52, 255⟩), ("forest", ⟨0x43, 0xa1, 0x27, 255⟩),
   ("gray", ⟨0xaa, 0xaa, 0xaa, 255⟩), ("red", ⟨0xff, 0x41, 0x36, 255⟩),
   ("white", ⟨0xff, 0xff, 0xff, 255⟩)]

/-- The fill of a rectangle that names none. -/
def defaultFill : Color := ⟨0xaa, 0xaa, 0xaa, 255⟩

/-- The names that every document knows. -/
def globals : List (String × Value) :=
  Native.all.map (fun native => (native.name, .func native)) ++
    colors.map fun (name, color) => (name, .color color)

end Galley.Document
