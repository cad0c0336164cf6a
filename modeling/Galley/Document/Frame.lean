import Galley.Document.Content

/-!
# Frames

A frame is one laid-out page: its size and the items on it, each at a position
in points from the upper left corner.
-/

namespace Galley.Document

structure Point where
  x : Float
  y : Float
  deriving Repr

/-- What can stand on a page. -/
inductive Item
  | text (text : String) (size : Float) (strong emph raw : Bool)
  | shape (width height : Float) (fill : Color)
  /-- An area that leads to a destination. The text it covers is an item of its
  own. -/
  | link (width height : Float) (dest : String)
  deriving Repr

structure Frame where
  width : Float
  height : Float
  items : List (Point × Item) := []
  deriving Repr

end Galley.Document
