import Galley.Image.FontBook
import Galley.Run.Check
import Galley.Run.Pool

/-!
# Running many files

Files are handed to workers, each of which runs its files one after the other
in a world of its own. Reports come in the order of the files, whichever worker
ran them.
-/

namespace Galley.Run

open Compile File

/-- What a run of many files works on. -/
structure Workshop where
  files : Tree
  pool : Pool Nat
  printed : String := ""

/-- Has a worker run a file in its world. -/
def runOn (setup : Setup) (worker : Nat) (path : Path) (shop : Workshop) : Report × Workshop :=
  let (world, pool) := shop.pool.get worker
  let (report, bench) := runFile setup path ⟨shop.files, world, shop.printed⟩
  (report, ⟨bench.files, pool.put worker bench.world, bench.printed⟩)

/-- A file that has been run. -/
structure Finished where
  report : Report
  /-- What its documents printed. -/
  printed : String

/-- Runs files in order, each on the worker it is assigned to. -/
def runAssigned (setup : Setup) : List (Path × Nat) → Workshop → List Finished × Workshop
  | [], shop => ([], shop)
  | (path, worker) :: rest, shop =>
    let (report, shop) := runOn setup worker path { shop with printed := "" }
    let (others, after) := runAssigned setup rest shop
    (⟨report, shop.printed⟩ :: others, after)

/-- The world in which fixtures are run. Fonts are looked for when it is made. -/
def openWorld (settings : Settings) (files : Tree) : Except Failure World := do
  let _ ← Image.FontBook.search files settings.fontDir
  return { root := settings.assetDir }

/-- The number of workers that a run may use. -/
def checkWorkers (settings : Settings) : Except Failure Unit :=
  match settings.workers with
  | some count => if count ≤ 0 then throw .noWorkers else return ()
  | none => return ()

/-- Runs all files on one worker, in a copy of the base world. -/
def runAll (setup : Setup) (base : World) (files : Tree) (paths : List Path) :
    Except Failure (List Finished × Tree) := do
  checkWorkers setup.settings
  let (finished, shop) :=
    runAssigned setup (paths.map fun path => (path, 0)) { files, pool := { base } }
  return (finished, shop.files)

end Galley.Run
