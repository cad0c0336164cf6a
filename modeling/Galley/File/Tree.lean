import Galley.File.Path
import Galley.Image.Picture
import Galley.Text.Utf8

/-!
# File trees

A tree holds the files and directories below the working directory, each under
the list of its names. Looking up a path goes through its names one by one, as
a file system does, so the first obstacle on the way decides the outcome.
-/

namespace Galley.File

/-- What a file holds. -/
inductive Content
  | bytes (bytes : ByteArray)
  | picture (picture : Image.Picture)
  /-- A document for printing, one picture a page. -/
  | document (pages : List Image.Picture)

inductive Entry
  | file (content : Content)
  | directory

structure Tree where
  entries : List (List String × Entry) := []

/-- Names with more bytes than this are refused. -/
def nameLimit : Nat := 255

/-- Paths with as many bytes as this are refused. -/
def pathLimit : Nat := 4096

namespace Tree

/-- The names of the directory above another one. Above the working directory,
and above every directory that it lies in, there is one more. -/
def ascend (names : List String) : List String :=
  if names.all (· == "..") then names ++ [".."] else names.dropLast

/-- The entry under a list of names, in which double dots stand in front only.
The working directory and those it lies in are always there. -/
def entry? (tree : Tree) (names : List String) : Option Entry :=
  if names.all (· == "..") then some .directory
  else (tree.entries.find? fun entry => entry.1 == names).map Prod.snd

/-- Follows names from a directory. -/
def follow (tree : Tree) (directory : List String) : List String → Except Obstacle Entry
  | [] => return .directory
  | name :: names =>
    if nameLimit < name.utf8ByteSize then throw .nameTooLong
    else if name = ".." then follow tree (ascend directory) names
    else
      match tree.entry? (directory ++ [name]) with
      | none => throw .notFound
      | some .directory => follow tree (directory ++ [name]) names
      | some (.file content) =>
        if names.isEmpty then return .file content else throw .notADirectory

/-- The entry that a path leads to. Of the directories outside the tree only
the roots are known. -/
def lookup (tree : Tree) (path : Path) : Except Obstacle Entry :=
  if pathLimit ≤ path.toString.utf8ByteSize then throw .nameTooLong
  else if path.isAbsolute then
    if path.names.all (· == "..") then return .directory else throw .notFound
  else follow tree [] path.names

/-- The entry that a path leads to, if there is one. Only what is too long to be
a path is refused. -/
def find? (tree : Tree) (path : Path) : Except Failure (Option Entry) :=
  if path.hasNull then return none
  else
    match tree.lookup path with
    | .ok entry => return some entry
    | .error .nameTooLong => throw (.blocked .nameTooLong path.toString)
    | .error _ => return none

/-- Whether a path leads to a directory. -/
def isDirectory (tree : Tree) (path : Path) : Except Failure Bool := do
  match ← tree.find? path with
  | some .directory => return true
  | _ => return false

/-- What the file at a path holds. -/
def read (tree : Tree) (path : Path) : Except Obstacle Content := do
  match ← tree.lookup path with
  | .file content => return content
  | .directory => throw .isADirectory

/-- The directories on the way to a list of names. -/
def parents (names : List String) : List (List String) :=
  (List.range names.length).map (names.take ·) |>.filter (!·.isEmpty)

/-- Adds a directory unless something stands there. -/
def addDirectory (tree : Tree) (names : List String) : Tree :=
  if (tree.entry? names).isSome then tree
  else { entries := tree.entries ++ [(names, .directory)] }

/-- Adds a directory and those on the way to it. -/
def makeDirectory (tree : Tree) (path : Path) : Tree :=
  let names := path.normalize.names
  (parents names ++ [names]).foldl addDirectory tree

/-- Adds a directory to one that is there. -/
def addTo (tree : Tree) (path : Path) : Except Obstacle Tree := do
  let some name := path.names.getLast? | throw .alreadyExists
  match ← tree.lookup path.parent with
  | .file _ => throw .notADirectory
  | .directory =>
    if name = ".." then throw .alreadyExists
    match tree.lookup path with
    | .ok _ => throw .alreadyExists
    | .error .notFound => return tree.addDirectory path.normalize.names
    | .error obstacle => throw obstacle

/-- Puts a file at a path, whatever was there, and adds the directories on the
way to it. -/
def write (tree : Tree) (path : Path) (content : Content) : Tree :=
  let names := path.normalize.names
  let tree := (parents names).foldl addDirectory tree
  { entries := (tree.entries.filter fun entry => entry.1 != names) ++ [(names, .file content)] }

/-- Saves a file in a directory that is there. A directory at its path stays. -/
def save (tree : Tree) (path : Path) (content : Content) : Except Failure Tree :=
  match tree.lookup path with
  | .ok .directory => throw (.blocked .isADirectory path.toString)
  | .ok (.file _) | .error .notFound => return tree.write path content
  | .error obstacle => throw (.blocked obstacle path.toString)

/-- Removes what stands at a path and everything below it. -/
def remove (tree : Tree) (path : Path) : Tree :=
  let names := path.normalize.names
  { entries := tree.entries.filter fun entry => !names.isPrefixOf entry.1 }

/-- Everything below a directory as paths that start with its own path, in
order. -/
def below (tree : Tree) (directory : Path) : List (Path × Entry) :=
  if directory.isAbsolute then []
  else
    let base := directory.normalize.names
    let found := tree.entries.filterMap fun (names, entry) =>
      let inside := names.drop base.length
      if base.isPrefixOf names && !inside.isEmpty && inside.head? != some ".." then
        some (directory ++ ({ names := inside } : Path), entry)
      else none
    found.mergeSort fun left right => left.1.precedes right.1

/-- What stands in a directory, in order. -/
def children (tree : Tree) (directory : Path) : List (Path × Entry) :=
  (tree.below directory).filter fun entry => entry.1.names.length == directory.names.length + 1

/-- A directory and all those below it, in order. -/
def directories (tree : Tree) (directory : Path) : List Path :=
  directory :: (tree.below directory).filterMap fun (path, entry) =>
    match entry with
    | .directory => some path
    | .file _ => none

end Tree

end Galley.File
