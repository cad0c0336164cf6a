import Galley.Document.Layout
import Galley.Image.Lettering
import Galley.Image.Picture

/-!
# Rendering

Draws laid-out pages with two pixels to a point. Shapes replace what is below
them, links are tinted on top of everything else, and of a text only the line
under emphasized words is drawn here, while its letters become lettering. The
pages are stacked on a black canvas with padding around each of them.
-/

namespace Galley.Image

open Document

/-- The resolution. -/
def pixelsPerPoint : Float := 2.0

/-- The padding around pages, in pixels. -/
def padding : Nat := 10

def white : Color := ⟨255, 255, 255, 255⟩

def transparent : Color := ⟨0, 0, 0, 0⟩

/-- The tint of links. -/
def linkTint : Color := ⟨40, 54, 99, 40⟩

/-- The color under a page. -/
def canvasColor : Color := ⟨0, 0, 0, 255⟩

/-- The largest size of a page in points, one metre. Anything larger comes
from a layout that runs away. -/
def sizeLimit : Float := 100.0 * 72.0 / 2.54

/-- The number of pixels that a length in points takes up, at least one. -/
def pixelCount (points : Float) : Except Failure Nat := do
  return max 1 (← Number.ceiling (points * pixelsPerPoint)).toNat

/-- The longest side that a picture can have. -/
def sideLimit : Nat := Number.twoPow 31 - 1

/-- The number of pixels in a row for which there is memory. -/
def widthLimit : Nat := Number.twoPow 29 - 2

/-- The sides of a page in pixels. -/
def pagePixels (frame : Frame) : Except Failure (Nat × Nat) := do
  let width ← pixelCount frame.width
  let height ← pixelCount frame.height
  if sideLimit < max width height then throw .pictureUnbounded
  else if widthLimit < width then throw .pictureTooWide
  else return (width, height)

/-- The largest size in pixels that a font has. -/
def fontSizeLimit : Int := 65535

/-- The size in pixels from which on a font file has no number for it. -/
def fontSizeBound : Int := (Number.twoPow 57 : Int) - Number.twoPow 32

/-- The size in pixels of a font, at least one. -/
def fontPixels (size : Float) : Except Failure Int := do
  let pixels := max 1 (← Number.nearest (size * pixelsPerPoint))
  if fontSizeBound ≤ pixels then throw .fontSizeUnbounded
  else if fontSizeLimit < pixels then throw .fontTooLarge
  else return pixels

/-- Letters need a place with a number of 64 bits. -/
def checkPlace (x y : Float) : Except Failure Unit := do
  let bound : Int := Number.twoPow 63
  let column ← Number.truncate x
  let row ← Number.truncate y
  unless -bound ≤ column ∧ column < bound ∧ -bound ≤ row ∧ row < bound do
    throw .placeOutOfRange

/-- The coordinates that can be drawn at have 32 bits. -/
def leastCoordinate : Int := -(Number.twoPow 31 : Int)

/-- The place of a coordinate. Whatever has no place among the coordinates
counts as the least one. -/
def coordinate (x : Float) : Int :=
  match Number.truncate x with
  | .ok place => if leastCoordinate ≤ place ∧ place < -leastCoordinate then place else leastCoordinate
  | .error _ => leastCoordinate

/-- The box between two corners, whose rows may come in any order. -/
def boxBetween (left top right bottom : Float) : Except Failure Box :=
  if right < left then throw (.invertedRectangle .x)
  else if bottom < top then throw (.invertedRectangle .y)
  else
    let first := coordinate top
    let last := coordinate bottom
    return ⟨coordinate left, min first last, coordinate right, max first last⟩

/-- The box of a horizontal line between two places. -/
def lineBox (left right y : Float) : Box :=
  let first := coordinate left
  let last := coordinate right
  ⟨min first last, coordinate y, max first last, coordinate y⟩

/-- A page that is being drawn. -/
structure Sheet where
  raster : Raster
  /-- The texts that can be seen. -/
  lettering : List Lettering := []
  /-- The shapes that have been drawn, the latest first. -/
  shapes : List (Box × Color) := []

namespace Sheet

/-- Fills a box. Texts below it are no longer seen. -/
def fill (sheet : Sheet) (box : Box) (color : Color) : Sheet :=
  { raster := sheet.raster.paint box color.clip
    lettering := sheet.lettering.filter fun lettering => !box.covers lettering.box
    shapes := (box, color.clip) :: sheet.shapes }

/-- Whether all places of a box have a color, as far as the shapes tell. -/
def hasGround (sheet : Sheet) (box : Box) (color : Color) : Bool :=
  match sheet.shapes.find? fun shape => shape.1.meets box with
  | some (shape, ground) => shape.covers box && ground == color
  | none => false

/-- Sets a text. It is not seen outside the page or on a ground of its color. -/
def set (sheet : Sheet) (lettering : Lettering) : Sheet :=
  let box := lettering.box.clip sheet.raster.width sheet.raster.height
  if box.isEmpty || sheet.hasGround box lettering.ink then sheet
  else { sheet with lettering := sheet.lettering ++ [{ lettering with box }] }

end Sheet

/-- Draws an item that is no link. -/
def drawItem (page : Nat) (sheet : Sheet) (point : Point) : Item → Except Failure Sheet
  | .shape width height fill => do
    let x := point.x * pixelsPerPoint
    let y := point.y * pixelsPerPoint
    let w := width * pixelsPerPoint
    let h := height * pixelsPerPoint
    if w ≥ 1 && h ≥ 1 then return sheet.fill (← boxBetween x y (x + w - 1) (y + h - 1)) fill
    else return sheet
  | .text text size strong emph raw => do
    let x := point.x * pixelsPerPoint
    let y := point.y * pixelsPerPoint
    let setting : Setting := ⟨← fontPixels size, strong, raw⟩
    checkPlace x y
    let sheet := ((← Lettering.ofText page x y setting text).map sheet.set).getD sheet
    if emph then
      let width := Float.ofNat text.length * size * advance * pixelsPerPoint
      let line := lineBox x (x + width) (y + size * pixelsPerPoint)
      return { sheet with raster := sheet.raster.paint line setting.ink }
    else return sheet
  | .link .. => return sheet

/-- Draws the area of a link. -/
def drawLink (raster : Raster) (point : Point) : Item → Except Failure Raster
  | .link width height _ => do
    let left := point.x * pixelsPerPoint
    let top := point.y * pixelsPerPoint
    let right := left + width * pixelsPerPoint
    let bottom := top + height * pixelsPerPoint
    if right - left ≥ 1 && bottom - top ≥ 1 then
      return raster.paint (← boxBetween left top (right - 1) (bottom - 1)) linkTint
    else return raster
  | _ => return raster

/-- Draws a page without its links. The number tells pages apart. -/
def renderPlain (number : Nat) (frame : Frame) : Except Failure Picture := do
  let (width, height) ← pagePixels frame
  let sheet ← frame.items.foldlM (fun sheet (point, item) => drawItem number sheet point item)
    ({ raster := .filled width height white } : Sheet)
  return ⟨sheet.raster, sheet.lettering.map Lettering.line⟩

/-- Draws a page. -/
def renderPage (number : Nat) (frame : Frame) : Except Failure Picture := do
  if frame.width > sizeLimit || frame.height > sizeLimit then
    throw (.overlargeFrame frame.width frame.height)
  let page ← renderPlain number frame
  let overlay ← frame.items.foldlM (fun raster (point, item) => drawLink raster point item)
    (Raster.filled page.raster.width page.raster.height transparent)
  return { page with raster := overlay.laidOver page.raster }

/-- Draws pages one below the other. -/
def renderPages (frames : List Frame) : Except Failure Picture := do
  let pages ← frames.zipIdx.mapM fun (frame, number) => renderPage number frame
  return { raster := Raster.stack padding canvasColor (pages.map Picture.raster)
           lettering := pages.flatMap Picture.lettering }

end Galley.Image
