import Galley.File.Glob
import Galley.File.Tree

/-!
# Searches

A pattern for paths is a list of parts, each of which leads from a directory to
what is in it. Two stars lead to any directory below, a part without wildcards
leads to one name, even to the directory above, and every other part leads to
the names that it fits.
-/

namespace Galley.File

/-- One part of a path pattern. -/
inductive Segment
  | exactly (name : String)
  | fitting (pattern : NamePattern)
  /-- Any directories, or none. -/
  | anyDepth
  deriving DecidableEq, Repr

namespace Segment

/-- Reads one part of a path pattern. Two stars stand for any directories and
must not be a part of a name. -/
def read (piece : List Char) : Except Failure Segment :=
  if piece = ['*', '*'] then return .anyDepth
  else if Text.occursIn ['*', '*'] piece then throw .misplacedStars
  else if piece.any fun c => c == '*' || c == '?' || c == '[' then
    return .fitting (NamePattern.read piece)
  else return .exactly (String.ofList piece)

/-- The pattern for files, at any depth, whose names end as given. A slash in
the suffix starts a further name, and at its end admits directories only. -/
def forSuffix (suffix : String) : Except Failure (List Segment) := do
  let pieces := (Text.splitWhen (· == '/') ('*' :: suffix.toList)).filter fun piece =>
    !piece.isEmpty && piece != ['.']
  let segments ← pieces.mapM read
  let last := if suffix.toList.getLast? == some '/' then [.anyDepth] else []
  return .anyDepth :: segments ++ last

/-- What a part leads to from a directory, where only directories lead on. -/
def step (tree : Tree) (directory : Path) (leadsOn : Bool) : Segment → Except Failure (List Path)
  | .anyDepth => return tree.directories directory
  | .exactly name => do
    let path := directory ++ ({ names := [name] } : Path)
    match ← tree.find? path with
    | none => return []
    | some .directory => return [path]
    | some (.file _) => return if leadsOn then [] else [path]
  | .fitting pattern =>
    return (tree.children directory).filterMap fun (path, entry) =>
      let blocks :=
        match entry with
        | .directory => false
        | .file _ => leadsOn
      if !blocks && pattern.accepts path.name.toList then some path else none

/-- What the parts of a pattern lead to from a directory. -/
def select (tree : Tree) : List Segment → Path → Except Failure (List Path)
  | [], path => return [path]
  | segment :: segments, path => do
    let next ← segment.step tree path !segments.isEmpty
    return (← next.mapM (select tree segments)).flatten

end Segment

namespace Tree

/-- What is below a directory and fits a pattern, in order and without
repetition. Below anything else there is nothing. -/
def search (tree : Tree) (directory : Path) (pattern : List Segment) :
    Except Failure (List Path) := do
  if ← tree.isDirectory directory then
    let found ← Segment.select tree pattern directory
    return found.eraseDups.mergeSort Path.precedes
  else return []

end Tree

end Galley.File
