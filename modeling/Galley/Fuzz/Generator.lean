import Galley.Failure
import Galley.Number.Text

/-!
# Reproducible draws

A xorshift generator over 64-bit states. Two generators with one seed produce
the same draws, so every fuzzing run applies the same mutations. It serves test
input only.
-/

namespace Galley.Fuzz

/-- The state of a generator. -/
structure Generator where
  state : BitVec 64
  deriving DecidableEq, Repr

/-- One step of the state: five shifts, each mixed in by exclusive or. -/
def advance (state : BitVec 64) : BitVec 64 :=
  let state := state ^^^ (state >>> 3)
  let state := state ^^^ (state <<< 14)
  let state := state ^^^ (state >>> 28)
  let state := state ^^^ (state <<< 36)
  state ^^^ (state >>> 52)

namespace Generator

/-- The generator for a seed, of which the lowest 64 bits count. -/
def ofSeed (seed : Int) : Generator :=
  ⟨BitVec.ofInt 64 seed⟩

def defaultSeed : Int := 0xace5

def new : Generator := ofSeed defaultSeed

def step (generator : Generator) : Generator :=
  ⟨advance generator.state⟩

/-- The state as a fraction of the greatest state, rounded to a double. -/
def fraction (generator : Generator) : Number.Double :=
  Number.Double.ofRatio generator.state.toNat (Number.twoPow 64 - 1)

/-- The double nearest to an integer. Doubles are bounded. -/
def bounded (n : Int) : Except Failure Number.Double :=
  let value := Number.Double.ofInt n
  if value.isHuge then throw .integerTooLarge else return value

/-- The integer at a fraction of the way from `start` to `stop`, with every
operation rounded as doubles are. -/
def pointAt (fraction : Number.Double) (start stop : Int) : Except Failure Int := do
  let offset := fraction.mul (← bounded (stop - start))
  let point := (← bounded start).add offset
  if point.isHuge then throw .infiniteSize else return point.truncate

/-- Draws an integer of `[start, stop)`, or `start` if there is none. The last
rounding may reach `stop`, which is taken back. Every draw takes one step, even
one that fails. -/
def pick (generator : Generator) (start stop : Int) : Except Failure (Int × Generator) := do
  let next := generator.step
  let point ← pointAt next.fraction start stop
  return (if start < stop then min point (stop - 1) else start, next)

end Generator

end Galley.Fuzz
