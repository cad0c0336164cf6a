import Galley.Proofs.File.Saved
import Galley.Proofs.Run.Pages

/-!
# References that settle

A check saves its picture and makes it the reference if that is allowed and none is there that
looks the same.  Where a check has ended well, there is nothing left for another one to do.
-/

namespace Galley.Run

open File Image

variable {picture : Picture} {reference : Option Picture} {png ref : Path}
  {files shown saved : Tree} {hasPages : Bool}

/-! ## Checks -/

end Galley.Run
