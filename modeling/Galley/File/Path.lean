import Galley.Failure
import Galley.Text.Lines

/-!
# Paths

A path is a list of names below a root. Empty names and single dots vanish when
a path is read; double dots stay until the path is normalized. Two leading
slashes are a root of their own.
-/

namespace Galley.File

/-- Where a path starts. -/
inductive Anchor
  | relative
  | root
  | doubleRoot
  deriving DecidableEq, Repr

structure Path where
  anchor : Anchor := .relative
  names : List String
  deriving DecidableEq, Repr

namespace Path

def current : Path := { names := [] }

/-- The root at which a written path starts. -/
def anchorOf : List Char → Anchor
  | '/' :: '/' :: '/' :: _ => .root
  | '/' :: '/' :: _ => .doubleRoot
  | '/' :: _ => .root
  | _ => .relative

/-- Reads a path. -/
def ofString (text : String) : Path :=
  let pieces := (Text.splitWhen (· == '/') text.toList).filter fun piece =>
    !piece.isEmpty && piece != ['.']
  { anchor := anchorOf text.toList, names := pieces.map String.ofList }

def isAbsolute (path : Path) : Bool :=
  path.anchor != .relative

/-- The written form, a dot for the current directory. -/
def toString (path : Path) : String :=
  let names := "/".intercalate path.names
  match path.anchor with
  | .relative => if path.names.isEmpty then "." else names
  | .root => "/" ++ names
  | .doubleRoot => "//" ++ names

/-- Joins two paths. An absolute second path stands alone. -/
def append (left right : Path) : Path :=
  if right.isAbsolute then right else { left with names := left.names ++ right.names }

instance : Append Path := ⟨append⟩

/-- Drops the names that a double dot takes back. The first argument holds the
names so far, the last one first. -/
def collapse (absolute : Bool) : List String → List String → List String
  | kept, [] => kept.reverse
  | [], name :: names =>
    if name == ".." && absolute then collapse absolute [] names
    else collapse absolute [name] names
  | last :: kept, name :: names =>
    if name == ".." && last != ".." then collapse absolute kept names
    else collapse absolute (name :: last :: kept) names

/-- The path without double dots, except for those that lead out of where a
relative path starts. -/
def normalize (path : Path) : Path :=
  { path with names := collapse path.isAbsolute [] path.names }

/-- The path below a base, if it lies there. -/
def relativeTo? (path base : Path) : Option Path :=
  if path.anchor = base.anchor && base.names.isPrefixOf path.names then
    some { names := path.names.drop base.names.length }
  else none

/-- The last name, empty if there is none. -/
def name (path : Path) : String :=
  path.names.getLast?.getD ""

/-- Whether a name holds a null character, which no file system knows. -/
def hasNull (path : Path) : Bool :=
  path.names.any fun name => name.toList.contains '\x00'

/-- The path without its last name. -/
def parent (path : Path) : Path :=
  { path with names := path.names.dropLast }

/-- Splits a name in front of its last dot. A dot at either end of the name
splits nothing. -/
def splitSuffix (name : List Char) : List Char × List Char :=
  let tail := (name.reverse.takeWhile (· != '.')).reverse
  let stem := name.take (name.length - tail.length - 1)
  if tail.length < name.length && !tail.isEmpty && !stem.isEmpty then (stem, '.' :: tail)
  else (name, [])

/-- The last name without its suffix. -/
def stem (path : Path) : String :=
  String.ofList (splitSuffix path.name.toList).1

/-- The suffix of the last name with its dot, empty if there is none. -/
def suffix (path : Path) : String :=
  String.ofList (splitSuffix path.name.toList).2

/-- The path with another suffix. A path without a name cannot take one. -/
def withSuffix (path : Path) (suffix : String) : Except Failure Path :=
  if path.name.isEmpty then throw (.emptyName path.toString)
  else return { path with names := path.names.dropLast ++ [path.stem ++ suffix] }

/-- The names that decide the order of paths: the root first, if there is one. -/
def sortKey (path : Path) : List String :=
  match path.anchor with
  | .relative => path.names
  | .root => "/" :: path.names
  | .doubleRoot => "//" :: path.names

/-- Order by names, the shorter path first. -/
def precedes (left right : Path) : Bool :=
  Text.inOrder (fun name other => Text.inOrder (fun c d => c.toNat ≤ d.toNat)
    name.toList other.toList) left.sortKey right.sortKey

end Path

end Galley.File
