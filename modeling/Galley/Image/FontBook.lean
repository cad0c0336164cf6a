import Galley.File.Tree

/-!
# Font books

The font files below a directory. Without any the built-in font is used.
-/

namespace Galley.Image

open File

structure FontBook where
  paths : List Path := []

namespace FontBook

/-- How the names of font files end, in lower case. -/
def suffixes : List (List Char) := [".ttf".toList, ".otf".toList]

/-- Looks for fonts below a directory, if there is one. -/
def search (files : Tree) (directory : Option Path) : Except Failure FontBook := do
  match directory with
  | none => return {}
  | some directory =>
    if ← files.isDirectory directory then
      return { paths := (files.below directory).filterMap fun (path, _) =>
        if suffixes.contains (Text.lowerAscii path.suffix.toList) then some path else none }
    else return {}

end FontBook

end Galley.Image
