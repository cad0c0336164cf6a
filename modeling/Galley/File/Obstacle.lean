/-!
# Obstacles

Why a file system refuses what is asked of it. Every obstacle has a number and
a wording that are the same on all systems of one family, so reports that name
them can be compared.
-/

namespace Galley.File

inductive Obstacle
  | notFound
  | alreadyExists
  | notADirectory
  | isADirectory
  | nameTooLong
  deriving DecidableEq, Repr

namespace Obstacle

def number : Obstacle → Nat
  | notFound => 2
  | alreadyExists => 17
  | notADirectory => 20
  | isADirectory => 21
  | nameTooLong => 36

def message : Obstacle → String
  | notFound => "No such file or directory"
  | alreadyExists => "File exists"
  | notADirectory => "Not a directory"
  | isADirectory => "Is a directory"
  | nameTooLong => "File name too long"

/-- The name under which an obstacle is reported. -/
def label : Obstacle → String
  | notFound => "FileNotFoundError"
  | alreadyExists => "FileExistsError"
  | notADirectory => "NotADirectoryError"
  | isADirectory => "IsADirectoryError"
  | nameTooLong => "OSError"

end Obstacle

end Galley.File
