import Galley.Image.Raster
import Galley.Number.Whole
import Galley.Text.Quoted

/-!
# Lettering

The shapes of letters depend on fonts, so a text on a page is kept as one line
of lettering: where it stands, how it is set, and its letters. A box around it
that no font exceeds tells whether anything of it can be seen. Letters that the
built-in font has no shape for look alike.
-/

namespace Galley.Image

open Document

/-- How a text is set. -/
structure Setting where
  /-- The font size in pixels. -/
  pixels : Int
  strong : Bool
  raw : Bool
  deriving DecidableEq, Repr

/-- The color of letters. -/
def ink : Color := ⟨0, 0, 0, 255⟩

/-- The color of verbatim letters. -/
def rawInk : Color := ⟨0x30, 0x30, 0x30, 255⟩

def Setting.ink (setting : Setting) : Color :=
  if setting.raw then rawInk else Image.ink

/-- A text on a page. -/
structure Lettering where
  line : String
  box : Box
  ink : Color
  deriving Repr

namespace Lettering

/-- The places that letters are set at are this fine a part of a pixel. -/
def fineness : Float := 64.0

/-- Scripts from outside the built-in font: those between Greek with its
neighbours and the further Latin letters, and those from East Asia on, without
ligatures and the characters that only change others. -/
def foreign : List (Nat × Nat) :=
  [(0x590, 0x180a), (0x1810, 0x1cff), (0x2e80, 0xfaff), (0x10000, 0xdffff)]

/-- A letter, or the one that stands for all without a shape of their own. -/
def shape (c : Char) : Char :=
  if foreign.any fun range => range.1 ≤ c.toNat && c.toNat ≤ range.2 then '\ufffd' else c

/-- A box that the letters of a text do not exceed, wherever they are set. Every
newline among them starts a new line of them. -/
def boxAround (column row pixels : Int) (chars : List Char) : Box :=
  { left := column - pixels
    top := row - pixels
    right := column + (2 * (chars.length : Int) + 1) * pixels
    bottom := row + 3 * ((chars.count '\n' : Int) + 1) * pixels }

/-- The lettering of a text at a place in pixels, none if it has only spaces. -/
def ofText (page : Nat) (x y : Float) (setting : Setting) (text : String) :
    Except Failure (Option Lettering) := do
  let chars := text.toList
  if chars.all Text.isSpace then return none
  else
    let letters := Text.quoted (String.ofList (chars.map shape))
    let place := s!"{← Number.nearest (x * fineness)} {← Number.nearest (y * fineness)}"
    let manner := s!"{setting.pixels} {setting.strong} {setting.raw}"
    let box := boxAround (← Number.truncate x) (← Number.truncate y) setting.pixels chars
    return some ⟨s!"{page} {place} {manner} {letters}", box, setting.ink⟩

end Lettering

end Galley.Image
