import Galley.CommandLine.Session
import Galley.Proofs.Run.Verdict

/-!
# How a call ends

A call runs the files that its settings and its words select, and it succeeds if the reports of all
of them are ok.
-/

namespace Galley.CommandLine

open File Run

variable {environment : List (String × String)} {words : List String} {files after : Tree}
  {settings : Settings} {arguments : Arguments} {paths : List Path} {finished : List Finished}

/-- The pattern for the names of fixtures. -/
def fixturePattern : List Segment :=
  [.anyDepth, .fitting [.many, .literal '.', .literal 'p', .literal 'b', .literal 't']]

end Galley.CommandLine
