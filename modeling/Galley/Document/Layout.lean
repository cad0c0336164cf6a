import Galley.Document.Frame
import Galley.Text.Lines

/-!
# Layout

Content flows from top to bottom onto pages of a fixed width. Every character
advances by half the font size, lines are 1.2 times as high as it, and words
are broken greedily at the inner width. With a page height, what does not fit
starts a new page unless the page is still empty.
-/

namespace Galley.Document

/-- How far a character advances, as a part of the font size. -/
def advance : Float := 0.5

/-- How high a line is, as a part of the font size. -/
def leading : Float := 1.2

/-- The space in front of a paragraph. -/
def paragraphSpacing : Float := 6.0

/-- The space in front of a block. -/
def blockSpacing : Float := 4.0

/-- The greater of two numbers, the first one unless the second exceeds it. -/
def greater (left right : Float) : Float :=
  if left < right then right else left

/-- What layout works with: the finished pages, the items of the current one,
and the place that has been reached on it. -/
structure Flow where
  styles : Styles
  pages : List Frame := []
  items : List (Point × Item) := []
  x : Float := 0.0
  y : Float
  lineHeight : Float := 0.0

namespace Flow

def new (styles : Styles) : Flow :=
  { styles, y := styles.margin.pt }

/-- The width between the margins. -/
def innerWidth (flow : Flow) : Float :=
  flow.styles.pageWidth.pt - 2 * flow.styles.margin.pt

/-- Ends the current line, if anything stands on it. -/
def finishLine (flow : Flow) : Flow :=
  { flow with
    y := if flow.x > 0 || flow.lineHeight > 0 then flow.y + flow.lineHeight else flow.y
    x := 0.0
    lineHeight := 0.0 }

/-- The height of a page on which the given place has been reached. -/
def pageHeight (styles : Styles) (y : Float) : Float :=
  match styles.pageHeight with
  | some height => height.pt
  | none => greater (y + styles.margin.pt) (2 * styles.margin.pt)

/-- Ends the current page and starts an empty one. -/
def finishPage (flow : Flow) : Flow :=
  let flow := flow.finishLine
  let frame : Frame :=
    { width := flow.styles.pageWidth.pt
      height := pageHeight flow.styles flow.y
      items := flow.items }
  { new flow.styles with pages := flow.pages ++ [frame] }

/-- Whether something of the given height still fits. On an empty page and
without a page height everything does. -/
def fits (flow : Flow) (height : Float) : Bool :=
  match flow.styles.pageHeight with
  | none => true
  | some pageHeight =>
    flow.items.isEmpty || flow.y + height ≤ pageHeight.pt - flow.styles.margin.pt

def place (flow : Flow) (item : Point × Item) : Flow :=
  { flow with items := flow.items ++ [item] }

/-- A space, which vanishes at the start of a line. -/
def space (flow : Flow) (size : Float) : Flow :=
  if flow.x > 0 then { flow with x := flow.x + size * advance } else flow

/-- The width of a word. -/
def wordWidth (text : String) (size : Float) : Float :=
  Float.ofNat text.length * size * advance

/-- Places a word and, inside a link, the area that it covers. -/
def word (flow : Flow) (text : String) (size : Float) (strong emph raw : Bool)
    (link : Option String) : Flow :=
  let width := wordWidth text size
  let height := size * leading
  let flow := if flow.x > 0 && flow.x + width > flow.innerWidth then flow.finishLine else flow
  let flow := if flow.x == 0 && !flow.fits height then flow.finishPage else flow
  let point : Point := ⟨flow.styles.margin.pt + flow.x, flow.y⟩
  let flow := flow.place (point, .text text size strong emph raw)
  let flow := match link with
    | some dest => flow.place (point, .link width height dest)
    | none => flow
  { flow with x := flow.x + width, lineHeight := greater flow.lineHeight height }

/-- Places words with spaces between them. -/
def words (size : Float) (raw : Bool) (link : Option String) : Flow → List (List Char) → Flow
  | flow, [] => flow
  | flow, [last] => flow.word (String.ofList last) size false false raw link
  | flow, first :: rest =>
    words size raw link
      ((flow.word (String.ofList first) size false false raw link).space size) rest

def linebreak (flow : Flow) (size : Float) : Flow :=
  let flow := if flow.x == 0 then { flow with lineHeight := size * leading } else flow
  flow.finishLine

def parbreak (flow : Flow) : Flow :=
  let flow := flow.finishLine
  if flow.items.isEmpty then flow else { flow with y := flow.y + paragraphSpacing }

def rect (flow : Flow) (width height : Length) (fill : Color) : Flow :=
  let flow := flow.finishLine
  let flow := if flow.fits height.pt then flow else flow.finishPage
  let flow := if flow.items.isEmpty then flow else { flow with y := flow.y + blockSpacing }
  let flow := flow.place (⟨flow.styles.margin.pt, flow.y⟩, .shape width.pt height.pt fill)
  { flow with y := flow.y + height.pt }

def vertical (flow : Flow) (amount : Length) : Flow :=
  let flow := flow.finishLine
  { flow with y := flow.y + amount.pt }

mutual

/-- Lays out an element. The link is the innermost one around it. -/
def elem (link : Option String) (flow : Flow) : Elem → Flow
  | .text text size strong emph => flow.word text size.pt strong emph false link
  | .raw text size => words size.pt true link flow (Text.words text.toList)
  | .math text size => words size.pt false link flow (Text.words text.toList)
  | .space size => flow.space size.pt
  | .linebreak size => flow.linebreak size.pt
  | .parbreak => flow.parbreak
  | .link dest body => elems (some dest) flow body
  | .rect width height fill => flow.rect width height fill
  | .vertical amount => flow.vertical amount
  | .pagebreak => flow.finishPage

def elems (link : Option String) (flow : Flow) : List Elem → Flow
  | [] => flow
  | first :: rest => elems link (elem link flow first) rest

end

/-- Ends the last page. A page without items is dropped unless it is the only
one. -/
def finish (flow : Flow) : List Frame :=
  if flow.items.isEmpty && !flow.pages.isEmpty then flow.pages else flow.finishPage.pages

end Flow

/-- Lays content out into one or more pages. -/
def layout (content : Content) (styles : Styles) : List Frame :=
  (Flow.elems none (Flow.new styles) content).finish

end Galley.Document
