import Galley.Compile.World
import Galley.Note.Basic

/-!
# Diagnostics

An error in a document, attached to a span of one of its sources.
-/

namespace Galley.Compile

structure Diagnostic where
  source : Int
  span : Int
  message : String
  deriving DecidableEq, Repr

namespace Diagnostic

/-- The byte range of the span within its source. -/
def range (world : World) (diagnostic : Diagnostic) : Except Failure (Option (Nat × Nat)) := do
  let source ← world.source diagnostic.source
  return source.range diagnostic.span

/-- The note for a diagnostic. A span that cannot be found stands at the start,
and a backslash is shown as a slash. -/
def toNote (world : World) (diagnostic : Diagnostic) : Except Failure Note := do
  let range ← diagnostic.range world
  let (start, stop) := range.getD (0, 0)
  return ⟨start, stop, String.ofList (Text.replaceChar '\\' '/' diagnostic.message.toList)⟩

/-- The notes for the diagnostics of one source, in their order. -/
def notesFor (world : World) (id : Int) (diagnostics : List Diagnostic) :
    Except Failure (List Note) :=
  (diagnostics.filter fun diagnostic => diagnostic.source == id).mapM (toNote world)

end Diagnostic

end Galley.Compile
