import Galley.File.Tree

/-!
# Disks

Steps that change a file tree one after the other. A step that fails leaves the
tree as the steps before it made it.
-/

namespace Galley.File

abbrev Disk := ExceptT Failure (StateM Tree)

namespace Disk

/-- Runs a step that changes the tree unless it fails. -/
def change (step : Tree → Except Failure Tree) : Disk Unit := do
  match step (← get) with
  | .ok files => set files
  | .error failure => throw failure

/-- Adds a directory to one that is there. A directory that is there already
is no obstacle. Whether another one is in the way is returned. -/
def tryMake (path : Path) : Disk (Option Obstacle) := do
  let files ← get
  if path.hasNull then throw .nullCharacter
  match files.addTo path with
  | .ok files =>
    set files
    return none
  | .error .notFound => return some .notFound
  | .error obstacle =>
    match files.isDirectory path with
    | .ok isThere => return if isThere then none else some obstacle
    | .error failure => throw failure

/-- Refuses an obstacle at a path. -/
def refuse (path : Path) : Option Obstacle → Disk Unit
  | none => return ()
  | some obstacle => throw (.blocked obstacle path.toString)

/-- Makes a directory, and first the one that it lies in if that is missing. The
first argument bounds the number of its names. -/
def makeDirectory : Nat → Path → Disk Unit
  | 0, path => do refuse path (← tryMake path)
  | depth + 1, path => do
    match ← tryMake path with
    | some .notFound =>
      makeDirectory depth path.parent
      refuse path (← tryMake path)
    | outcome => refuse path outcome

/-- Makes the directory of a path. -/
def makeRoom (path : Path) : Disk Unit :=
  makeDirectory path.names.length path.parent

/-- Makes the directory of a path and saves a file there. -/
def save (path : Path) (content : Content) : Disk Unit := do
  makeRoom path
  if path.hasNull then throw .nullCharacter
  change fun files => files.save path content

/-- What a path leads to, none if it cannot be read. -/
def read? (path : Path) : Disk (Option Content) := do
  if path.hasNull then throw .nullCharacter
  return ((← get).read path).toOption

end Disk

end Galley.File
