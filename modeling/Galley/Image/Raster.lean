import Galley.Document.Content

/-!
# Rasters

A raster is a block of pixels, given by the color at each place. Painting does
not touch the pixels that are there: it says which places have another color
from now on, so what a raster shows after any number of steps can be read off
place by place. The upper left corner is the origin.
-/

namespace Galley.Image

open Document

/-- A quotient by 255 of a scaled value, rounded as in eight-bit blending. -/
def scaleDown (value : Nat) : Nat :=
  (value >>> 8 + value) >>> 8

/-- A color laid over another one, in seven more bits than a channel has. -/
def blend (source ground : Color) : Color :=
  if source.alpha = 0 then ground
  else
    let weight := source.alpha * 255 + ground.alpha * (255 - source.alpha)
    let front := source.alpha * 255 * 255 * 128 / weight
    let back := 255 * 128 - front
    let channel (above below : Nat) : Nat :=
      scaleDown (above * front + below * back + 128 * 128) >>> 7
    { red := channel source.red ground.red
      green := channel source.green ground.green
      blue := channel source.blue ground.blue
      alpha := scaleDown (weight + 128) }

/-- The places between two corners, both of them included. -/
structure Box where
  left : Int
  top : Int
  right : Int
  bottom : Int
  deriving DecidableEq, Repr

namespace Box

/-- Whether a place lies in a box. -/
def contains (box : Box) (x y : Nat) : Bool :=
  decide (box.left ≤ x ∧ x ≤ box.right ∧ box.top ≤ y ∧ y ≤ box.bottom)

/-- The part of a box that lies on a block of pixels. -/
def clip (box : Box) (width height : Nat) : Box :=
  { left := max 0 box.left
    top := max 0 box.top
    right := min ((width : Int) - 1) box.right
    bottom := min ((height : Int) - 1) box.bottom }

def isEmpty (box : Box) : Bool :=
  box.right < box.left || box.bottom < box.top

/-- Whether a box covers another one. -/
def covers (box other : Box) : Bool :=
  box.left ≤ other.left && other.right ≤ box.right && box.top ≤ other.top &&
    other.bottom ≤ box.bottom

/-- Whether boxes have places in common. -/
def meets (box other : Box) : Bool :=
  box.left ≤ other.right && other.left ≤ box.right && box.top ≤ other.bottom &&
    other.top ≤ box.bottom

end Box

structure Raster where
  width : Nat
  height : Nat
  pixel : Nat → Nat → Color

namespace Raster

/-- A raster of one color. -/
def filled (width height : Nat) (color : Color) : Raster :=
  { width, height, pixel := fun _ _ => color }

/-- Paints a box. What lies outside the raster is not seen. -/
def paint (raster : Raster) (box : Box) (color : Color) : Raster :=
  { raster with pixel := fun x y => if box.contains x y then color else raster.pixel x y }

/-- Lays a raster over another one of the same size. -/
def laidOver (source ground : Raster) : Raster :=
  { ground with pixel := fun x y => blend (source.pixel x y) (ground.pixel x y) }

/-- The colors of a row from left to right. -/
def row (raster : Raster) (y : Nat) : List Color :=
  (List.range raster.width).map fun x => raster.pixel x y

/-- Whether two colors differ by at most the tolerance in every channel. -/
def closeColors (tolerance : Int) (left right : Color) : Bool :=
  (left.channels.zip right.channels).all fun (a, b) => ((a : Int) - b).natAbs ≤ tolerance

/-- Whether two rasters have the same size and close colors in all places. -/
def close (tolerance : Int) (left right : Raster) : Bool :=
  left.width == right.width && left.height == right.height &&
    (List.range left.height).all fun y => (List.range left.width).all fun x =>
      closeColors tolerance (left.pixel x y) (right.pixel x y)

/-- The width of the widest raster. -/
def maxWidth (rasters : List Raster) : Nat :=
  rasters.foldl (fun width raster => max width raster.width) 0

/-- The color at a place in a stack of rasters, counted from where the padding
above the first of them starts. -/
def stackedPixel (padding : Nat) (ground : Color) : List Raster → Nat → Nat → Color
  | [], _, _ => ground
  | first :: rest, x, y =>
    if padding + first.height ≤ y then
      stackedPixel padding ground rest x (y - (padding + first.height))
    else if padding ≤ y ∧ padding ≤ x ∧ x < padding + first.width then
      first.pixel (x - padding) (y - padding)
    else ground

/-- The height of stacked rasters with the padding below each of them. -/
def stackedHeight (padding : Nat) : List Raster → Nat
  | [] => 0
  | first :: rest => first.height + padding + stackedHeight padding rest

/-- Stacks rasters with padding around and between them. -/
def stack (padding : Nat) (ground : Color) (rasters : List Raster) : Raster :=
  { width := 2 * padding + maxWidth rasters
    height := padding + stackedHeight padding rasters
    pixel := stackedPixel padding ground rasters }

end Raster

end Galley.Image
