import Galley.File.Path

/-!
# Settings

Where fixtures lie, where output goes, and how many workers run.
-/

namespace Galley

structure Settings where
  logLevel : String := "WARNING"
  updateExpect : Bool := false
  fixtureDir : File.Path := .ofString "tests/fixtures/typ"
  refDir : File.Path := .ofString "tests/fixtures/ref"
  pngDir : File.Path := .ofString "tests/fixtures/png"
  pdfDir : File.Path := .ofString "tests/fixtures/pdf"
  assetDir : File.Path := .ofString "tests/fixtures"
  fontDir : Option File.Path := none
  fixtureSuffix : String := ".pbt"
  /-- The number of workers, left to the system if there is none. -/
  workers : Option Int := none
  deriving DecidableEq, Repr

end Galley
