import Galley.Image.Runs
import Galley.Image.Picture
import Galley.Number.Text
import Galley.Text.Lines
import Galley.Text.Quoted

/-!
# Stored pictures

The text in which pictures are kept between runs: a line with the size and the
count of lettering lines, the lettering, and then runs of rows. A row is its
count followed by its runs, each of them a count, a colon and eight hexadecimal
digits.
-/

namespace Galley.Image

open Document (Color)

namespace Stored

/-- The word that stored pictures start with. -/
def mark : String := "picture"

def colorText (color : Color) : String :=
  String.ofList (color.channels.flatMap (Text.hexPadded 2))

def runText (run : Nat × Color) : String :=
  s!"{run.1}:{colorText run.2}"

def rowText (row : Nat × List (Nat × Color)) : String :=
  " ".intercalate (toString row.1 :: row.2.map runText)

/-- The text of a picture. -/
def encode (picture : Picture) : String :=
  let head := s!"{mark} {picture.raster.width} {picture.raster.height} {picture.lettering.length}"
  String.join ((head :: picture.lettering ++ picture.raster.runs.map rowText).map (· ++ "\n"))

/-- Reads a count. -/
def readCount (chars : List Char) : Option Nat :=
  if chars.isEmpty || !chars.all Text.isAsciiDigit then none else some (Number.naturalOf chars)

/-- Reads a color of eight hexadecimal digits. -/
def readColor : List Char → Option Color
  | [r, r', g, g', b, b', a, a'] =>
    if [r, r', g, g', b, b', a, a'].all Text.isHexDigit then
      some ⟨Text.hexNumber [r, r'], Text.hexNumber [g, g'], Text.hexNumber [b, b'],
        Text.hexNumber [a, a']⟩
    else none
  | _ => none

/-- Reads a run of colors. -/
def readRun (chars : List Char) : Option (Nat × Color) := do
  let (count, color) ← Text.breakOn [':'] chars
  return (← readCount count, ← readColor color)

/-- Reads a run of rows. -/
def readRow (line : List Char) : Option (Nat × List (Nat × Color)) :=
  match Text.splitWhen (· == ' ') line with
  | count :: members => do return (← readCount count, ← members.mapM readRun)
  | [] => none

/-- The raster with the given rows. -/
def rasterOf (width height : Nat) (rows : List (Nat × List (Nat × Color))) : Raster :=
  let table := ((unrun rows).map fun row => (unrun row).toArray).toArray
  { width, height, pixel := fun x y => ((table[y]?).bind fun row => row[x]?).getD ⟨0, 0, 0, 255⟩ }

/-- Reads a picture, if the text is one. -/
def decode (text : String) : Option Picture :=
  match Text.splitWhen (· == '\n') text.toList with
  | head :: rest =>
    match Text.splitWhen (· == ' ') head with
    | [word, width, height, count] => do
      if word ≠ mark.toList then none
      let count ← readCount count
      let rows ← ((rest.drop count).filter (!·.isEmpty)).mapM readRow
      return { raster := rasterOf (← readCount width) (← readCount height) rows
               lettering := (rest.take count).map String.ofList }
    | _ => none
  | [] => none

end Stored

end Galley.Image
