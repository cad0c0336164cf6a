/-!
# Powers

The powers of the two bases in which numbers are held and written. They are
given by the primitive operation on natural numbers, whatever other powers are
in scope.
-/

namespace Galley.Number

def twoPow (exponent : Nat) : Nat :=
  Nat.pow 2 exponent

def tenPow (exponent : Nat) : Nat :=
  Nat.pow 10 exponent

end Galley.Number
