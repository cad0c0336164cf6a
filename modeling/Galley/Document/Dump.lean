import Galley.Document.Frame
import Galley.Text.Quoted

/-!
# Dumps of content and frames

The form in which reports print evaluated content and laid-out pages. Records
are written with the names of their fields, a list of one element with a comma
behind it.
-/

namespace Galley.Document

def boolText (value : Bool) : String :=
  if value then "True" else "False"

/-- A record with named fields. -/
def recordText (name : String) (fields : List (String × String)) : String :=
  name ++ "(" ++ ", ".intercalate (fields.map fun (field, value) => field ++ "=" ++ value) ++ ")"

/-- A list between parentheses. -/
def listText (items : List String) : String :=
  match items with
  | [single] => "(" ++ single ++ ",)"
  | _ => "(" ++ ", ".intercalate items ++ ")"

def Length.dump (length : Length) : String :=
  recordText "Length" [("pt", Number.floatText length.pt)]

def Color.dump (color : Color) : String :=
  recordText "Color" [("r", toString color.red), ("g", toString color.green),
    ("b", toString color.blue), ("a", toString color.alpha)]

namespace Elem

/-- Content as a record, given its dumped elements. -/
def contentText (elems : List String) : String :=
  recordText "Content" [("children", listText elems)]

mutual

def dump : Elem → String
  | .text word size strong emph =>
    recordText "TextElem" [("text", Text.quoted word), ("size", Number.floatText size.pt),
      ("strong", boolText strong), ("emph", boolText emph)]
  | .raw body size =>
    recordText "RawElem" [("text", Text.quoted body), ("size", Number.floatText size.pt)]
  | .math body size =>
    recordText "MathElem" [("text", Text.quoted body), ("size", Number.floatText size.pt)]
  | .space size => recordText "SpaceElem" [("size", Number.floatText size.pt)]
  | .parbreak => recordText "ParbreakElem" []
  | .linebreak size => recordText "LinebreakElem" [("size", Number.floatText size.pt)]
  | .rect width height fill =>
    recordText "RectElem" [("width", width.dump), ("height", height.dump), ("fill", fill.dump)]
  | .link dest body =>
    recordText "LinkElem" [("dest", Text.quoted dest), ("body", contentText (dumpAll body))]
  | .vertical amount => recordText "VElem" [("amount", amount.dump)]
  | .pagebreak => recordText "PagebreakElem" []

def dumpAll : List Elem → List String
  | [] => []
  | elem :: elems => elem.dump :: dumpAll elems

end

end Elem

/-- The dump of content. -/
def dumpContent (content : Content) : String :=
  Elem.contentText (Elem.dumpAll content)

def Item.dump : Item → String
  | .text word size strong emph raw =>
    recordText "TextItem" [("text", Text.quoted word), ("size", Number.floatText size),
      ("strong", boolText strong), ("emph", boolText emph), ("raw", boolText raw)]
  | .shape width height fill =>
    recordText "ShapeItem" [("width", Number.floatText width), ("height", Number.floatText height),
      ("fill", fill.dump)]
  | .link width height dest =>
    recordText "LinkItem" [("width", Number.floatText width), ("height", Number.floatText height),
      ("dest", Text.quoted dest)]

/-- The dump of a page: its size, then an item a line. -/
def Frame.dump (frame : Frame) : String :=
  let short := Number.shortFloatText
  let head := s!"Frame {short frame.width}pt x {short frame.height}pt"
  let lines := frame.items.map fun (point, item) =>
    s!"  ({short point.x}, {short point.y}) {item.dump}"
  "\n".intercalate (head :: lines)

end Galley.Document
