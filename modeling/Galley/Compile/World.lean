import Galley.File.Tree
import Galley.Indexing
import Galley.Syntax.Source

/-!
# Worlds

A world holds the sources that a compilation may use. Each normalized path has
one slot, which keeps the outcome of the first attempt to load it. Paths are
resolved against the world's root.
-/

namespace Galley.Compile

open Syntax File

/-- The date that documents see. It is pinned, so that pages do not depend on
the day they are made. -/
def documentDate : String := "1970-01-01"

/-- The outcome of loading one path. -/
inductive Slot
  | pending
  | source (id : Nat)
  | failed (error : LoadError)
  deriving DecidableEq, Repr

structure World where
  root : Path
  sources : List Source := []
  slots : List (Path × Slot) := []
  /-- The id of the source that is compiled. -/
  mainId : Option Nat := none

namespace World

/-- The path under which a path has its slot. -/
def normalize (world : World) (path : Path) : Path :=
  (if path.isAbsolute then path else world.root ++ path).normalize

def slot? (world : World) (path : Path) : Option Slot :=
  (world.slots.find? fun slot => slot.1 == path).map Prod.snd

/-- Stores the outcome for a path. -/
def setSlot (world : World) (path : Path) (slot : Slot) : World :=
  if (world.slot? path).isSome then
    { world with slots := world.slots.map fun entry =>
        if entry.1 == path then (path, slot) else entry }
  else { world with slots := world.slots ++ [(path, slot)] }

/-- Adds a source and gives it the next id. -/
def insert (world : World) (path : Path) (text : String) : Nat × World :=
  let id := world.sources.length
  (id, { world with sources := world.sources ++ [Source.new id path text] })

/-- Puts another source in the place of one. -/
def putSource (world : World) (source : Source) : World :=
  { world with sources := world.sources.set source.id source }

/-- The source with an id. Negative ids count from the end. -/
def source (world : World) (id : Int) : Except Failure Source :=
  match itemAt? world.sources id with
  | some source => return source
  | none => throw .indexOutOfRange

/-- The source that is compiled. The id of detached sources stands for none,
so a source that happens to have it cannot be compiled. -/
def main (world : World) : Except Failure Source :=
  match world.mainId with
  | none => throw .noMainSource
  | some id => if id = Source.detachedId then throw .noMainSource else world.source id

/-- Makes a text the main source under a path. A path that has a source keeps
its id. -/
def set (world : World) (path : Path) (text : String) : Nat × World :=
  let key := world.normalize path
  let insertNew : Nat × World :=
    let (id, world) := world.insert path text
    (id, world.setSlot key (.source id))
  let (id, world) :=
    match world.slot? key with
    | some (.source id) =>
      match world.sources[id]? with
      | some source => (id, world.putSource (source.replace text))
      | none => insertNew
    | _ => insertNew
  (id, { world with mainId := some id })

/-- How a path is shown: below the root of the world as a rooted path, so that
it does not depend on where the root lies. -/
def display (world : World) (path : Path) : String :=
  match path.relativeTo? world.root.normalize with
  | some inside => ({ inside with anchor := .root } : Path).toString
  | none => path.toString

/-- Why the text of a normalized path could not be loaded. A failure leaves the
path without an outcome. -/
inductive Unloaded
  | error (error : LoadError)
  | failure (failure : Failure)

/-- Reads the text of a normalized path. -/
def load (world : World) (files : Tree) (path : Path) : Except Unloaded String :=
  if path.hasNull then throw (.failure .nullCharacter)
  else
    match files.read path with
    | .error .nameTooLong => throw (.failure (.blocked .nameTooLong path.toString))
    | .error .isADirectory => throw (.error .isDirectory)
    | .error .notFound => throw (.error (.notFound (world.display path)))
    | .error obstacle => throw (.error (.other (world.display path) obstacle.message))
    | .ok (.bytes bytes) =>
      match String.fromUTF8? bytes with
      | some text => return text
      | none => throw (.error .invalidUtf8)
    | .ok _ => throw (.error .invalidUtf8)

/-- What a slot says about its path. -/
def Slot.outcome : Slot → Except Failure Nat
  | .pending => throw .noOutcome
  | .source id => return id
  | .failed error => throw (.load error)

/-- The id of the source at a path, which is loaded on the first request. -/
def resolve (world : World) (files : Tree) (path : Path) : Except Failure Nat × World :=
  let key := world.normalize path
  match world.slot? key with
  | some slot => (Slot.outcome slot, world)
  | none =>
    match world.load files key with
    | .ok text =>
      let (id, world) := world.insert key text
      (.ok id, world.setSlot key (.source id))
    | .error (.error error) => (.error (.load error), world.setSlot key (.failed error))
    | .error (.failure failure) => (.error failure, world.setSlot key .pending)

/-- Edits the source with an id. -/
def edit (world : World) (id start stop : Int) (replacement : String) :
    Except Failure (Source × World) := do
  let source ← world.source id
  let edited ← source.edit start stop replacement
  return (edited, world.putSource edited)

end World

end Galley.Compile
