import Galley.Number.Text

/-!
# Content

What evaluation produces and layout consumes: a sequence of elements, which
says nothing about the syntax it came from.
-/

namespace Galley.Document

/-- Whether two floats are the same one. Those that are no number are told apart
by the computations they came from. -/
def sameFloat (left : Float) (origin : Nat) (right : Float) (origin' : Nat) : Bool :=
  left == right || (left.isNaN && right.isNaN && origin == origin')

/-- An absolute length in points, with the computation that it came from. -/
structure Length where
  pt : Float
  origin : Nat := 0
  deriving Repr

instance : BEq Length :=
  ⟨fun left right => sameFloat left.pt left.origin right.pt right.origin⟩

namespace Length

/-- A length that is written down. -/
def points (pt : Float) : Length :=
  { pt }

def text (length : Length) : String :=
  Number.shortFloatText length.pt ++ "pt"

end Length

structure Color where
  red : Nat
  green : Nat
  blue : Nat
  alpha : Nat := 255
  deriving DecidableEq, Repr

namespace Color

def channels (color : Color) : List Nat :=
  [color.red, color.green, color.blue, color.alpha]

/-- The color with every channel in a byte. -/
def clip (color : Color) : Color :=
  ⟨min 255 color.red, min 255 color.green, min 255 color.blue, min 255 color.alpha⟩

def text (color : Color) : String :=
  s!"rgb({color.red}, {color.green}, {color.blue}, {color.alpha})"

end Color

/-- An element of content. -/
inductive Elem
  /-- A run of text without white space. -/
  | text (text : String) (size : Length) (strong emph : Bool)
  /-- Verbatim text, laid out word by word. -/
  | raw (text : String) (size : Length)
  | math (text : String) (size : Length)
  | space (size : Length)
  | parbreak
  | linebreak (size : Length)
  /-- A filled rectangle in a block of its own. -/
  | rect (width height : Length) (fill : Color)
  /-- Content that leads to a destination. -/
  | link (dest : String) (body : List Elem)
  /-- Vertical space. -/
  | vertical (amount : Length)
  | pagebreak
  deriving Repr, Inhabited

abbrev Content := List Elem

namespace Elem

mutual

/-- Whether two elements are equal. -/
def same : Elem → Elem → Bool
  | .text word size strong emph, .text word' size' strong' emph' =>
    word == word' && size == size' && strong == strong' && emph == emph'
  | .raw body size, .raw body' size' => body == body' && size == size'
  | .math body size, .math body' size' => body == body' && size == size'
  | .space size, .space size' => size == size'
  | .parbreak, .parbreak => true
  | .linebreak size, .linebreak size' => size == size'
  | .rect width height fill, .rect width' height' fill' =>
    width == width' && height == height' && fill == fill'
  | .link dest body, .link dest' body' => dest == dest' && sameAll body body'
  | .vertical amount, .vertical amount' => amount == amount'
  | .pagebreak, .pagebreak => true
  | _, _ => false

def sameAll : List Elem → List Elem → Bool
  | [], [] => true
  | elem :: elems, elem' :: elems' => elem.same elem' && sameAll elems elems'
  | _, _ => false

end

end Elem

/-- The lengths that documents start from and that set rules change. -/
structure Styles where
  pageWidth : Length := .points 120.0
  /-- No height means one page as long as its content. -/
  pageHeight : Option Length := none
  margin : Length := .points 10.0
  textSize : Length := .points 10.0
  deriving Repr

namespace Styles

/-- Whether a page leaves no room between its margins. -/
def tooSmall (width : Length) (height : Option Length) (margin : Length) : Bool :=
  width.pt - 2 * margin.pt ≤ 0 ||
    match height with
    | some height => height.pt - 2 * margin.pt ≤ 0
    | none => false

end Styles

end Galley.Document
