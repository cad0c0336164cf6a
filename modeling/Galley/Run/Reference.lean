import Galley.File.Disk
import Galley.Image.Golden
import Galley.Image.Rendering

/-!
# References on disk

Saves the fresh picture of a fixture, reads the reference, and replaces the
reference by the picture if it has to be updated.
-/

namespace Galley.Run

open File Image

/-- The picture in a file, none if the file is missing or holds something else. -/
def pictureOf : Option Content → Option Picture
  | some (.picture picture) => some picture
  | _ => none

/-- Opens a picture. One with too many pixels is refused. -/
def openPicture (picture : Picture) : Disk Picture := do
  let pixels := picture.raster.width * picture.raster.height
  if pixelLimit < pixels then throw (.pictureTooLarge pixels) else return picture

/-- The picture in a file, if it is one. -/
def readPicture (path : Path) : Disk (Option Picture) := do
  match pictureOf (← Disk.read? path) with
  | some picture => return some (← openPicture picture)
  | none => return none

/-- Saves a picture. Nothing is left of one without pixels. -/
def savePicture (picture : Picture) (path : Path) : Disk Unit := do
  Disk.makeRoom path
  let before ← get
  Disk.save path (.picture picture)
  if picture.raster.width * picture.raster.height = 0 then
    set (before.remove path)
    throw .pictureEmpty

/-- Saves a picture and judges it against a reference. -/
def checkReference (picture : Picture) (png ref : Path) (update hasPages : Bool) :
    Disk Verdict := do
  savePicture picture png
  let reference ← readPicture ref
  let verdict := judge picture reference update hasPages
  if verdict.isUpdate then
    Disk.makeRoom ref
    Disk.save ref (.picture (← openPicture picture))
  return verdict

/-- The page of a document that has no other one. -/
def blankPage : Picture :=
  { raster := .filled 1 1 white }

/-- The longest side of a page that can be printed, in pixels. -/
def printLimit : Nat := 65500

/-- Saves a document for printing, one page for every frame. Nothing is left of
a document with a page that is too long. -/
def exportDocument (frames : List Document.Frame) (path : Path) : Disk Unit := do
  Disk.makeRoom path
  let before ← get
  match frames.mapM (renderPlain 0) with
  | .error failure => throw failure
  | .ok pages =>
    Disk.save path (.document (if pages.isEmpty then [blankPage] else pages))
    if pages.any fun page => printLimit < max page.raster.width page.raster.height then
      set before
      throw .pageUnprintable

end Galley.Run
