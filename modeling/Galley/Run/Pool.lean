import Galley.Compile.World

/-!
# Pools of worlds

Every worker that asks a pool for a world gets a copy of the base world made on
its first request, and keeps it. Worlds are values, so what one worker does to
its world cannot be seen by another one.
-/

namespace Galley.Run

open Compile

/-- The worlds that have been handed out, by worker and in order. -/
structure Pool (Worker : Type) where
  base : World
  worlds : List (Worker × World) := []

namespace Pool

variable {Worker : Type} [DecidableEq Worker]

/-- The world of a worker, if it has asked for one. -/
def world? (pool : Pool Worker) (worker : Worker) : Option World :=
  pool.worlds.lookup worker

/-- Hands a worker its world. -/
def get (pool : Pool Worker) (worker : Worker) : World × Pool Worker :=
  match pool.world? worker with
  | some world => (world, pool)
  | none => (pool.base, { pool with worlds := pool.worlds ++ [(worker, pool.base)] })

/-- Puts a worker's world back after use. -/
def put (pool : Pool Worker) (worker : Worker) (world : World) : Pool Worker :=
  { pool with worlds := pool.worlds.map fun entry =>
      if entry.1 = worker then (worker, world) else entry }

/-- The number of worlds handed out. -/
def size (pool : Pool Worker) : Nat :=
  pool.worlds.length

/-- The number of a worker's world in the order in which worlds were handed
out, starting at zero. -/
def index (pool : Pool Worker) (worker : Worker) : Nat :=
  pool.worlds.findIdx fun entry => entry.1 = worker

end Pool

end Galley.Run
