import Galley.Image.Raster

/-!
# Pictures

A picture is a raster together with the lettering on it. The shapes of letters
depend on fonts, so lettering is kept as one line for every text that is drawn:
two pictures look the same if their rasters do and the same lines stand on them.
-/

namespace Galley.Image

structure Picture where
  raster : Raster
  lettering : List String := []

namespace Picture

/-- How far the channels of a color may differ unnoticed. -/
def defaultTolerance : Int := 2

/-- Whether two pictures look the same. -/
def resembles (left right : Picture) (tolerance : Int := defaultTolerance) : Bool :=
  left.lettering == right.lettering && Raster.close tolerance left.raster right.raster

end Picture

end Galley.Image
