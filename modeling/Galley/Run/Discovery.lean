import Galley.File.Search

/-!
# Discovery

Finds the fixture files below a directory, in the order of their paths. The
directory for benchmarks is left out.
-/

namespace Galley.Run

open File

/-- The directory that holds benchmarks. -/
def benchmarks : String := "benches"

/-- Which of the found files to run: those with one of the given names, or
those whose path below the fixture directory contains one of the given texts. -/
structure Selection where
  filters : List String := []
  exact : Bool := false

namespace Selection

/-- Whether the path below the fixture directory is selected. -/
def admits (selection : Selection) (inside : Path) : Bool :=
  if selection.exact then selection.filters.contains inside.name
  else selection.filters.isEmpty ||
    selection.filters.any fun filter =>
      Text.occursIn filter.toList inside.toString.toList

end Selection

/-- The fixtures below a directory whose names end as given. -/
def discover (files : Tree) (directory : Path) (suffix : String) (selection : Selection) :
    Except Failure (List Path) := do
  let found ← files.search directory (← Segment.forSuffix suffix)
  found.filterM fun path => do
    match ← files.find? path, path.relativeTo? directory with
    | some (.file _), some inside =>
      return inside.names.head? != some benchmarks && selection.admits inside
    | _, _ => return false

end Galley.Run
