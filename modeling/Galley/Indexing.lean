/-!
# Signed indexes

An index into a list counts from its start, or from its end if it is negative.
-/

namespace Galley

/-- The item at an index, none outside of the list on either side. -/
def itemAt? {α : Type} (items : List α) (index : Int) : Option α :=
  let index := if index < 0 then index + items.length else index
  if index < 0 then none else items[index.toNat]?

end Galley
