import Galley.File.Obstacle
import Galley.Text.Decoding
import Galley.Number.Text
import Galley.Text.Quoted

/-!
# Failures

A failure stops what is being done and is reported to the caller, unlike the
diagnostics of a document, which are collected. Each cause has one constructor;
`Failure.label` and `Failure.message` are its written form.
-/

namespace Galley

/-- Why a document asked for by another one could not be loaded. -/
inductive LoadError
  | notFound (path : String)
  | isDirectory
  | invalidUtf8
  | other (path reason : String)
  deriving Repr, DecidableEq

def LoadError.message : LoadError → String
  | .notFound path => s!"file not found (searched at {path})"
  | .isDirectory => "failed to load file (is a directory)"
  | .invalidUtf8 => "file is not valid utf-8"
  | .other path reason => s!"failed to load file {path} ({reason})"

/-- What is wrong with the value given for a setting. -/
inductive SettingFault
  | notText
  | notAPath
  | notAFlag
  /-- A number that is neither zero nor one. -/
  | noFlagNumber
  | notAnInteger
  /-- Text that spells no integer. -/
  | noIntegerText
  /-- An integer with too many digits. -/
  | integerTooLong
  /-- A number between two integers. -/
  | betweenIntegers
  /-- A number that is none or has no bound. -/
  | notFinite
  deriving Repr, DecidableEq

def SettingFault.name : SettingFault → String
  | notText => "string_type"
  | notAPath => "path_type"
  | notAFlag => "bool_type"
  | noFlagNumber => "bool_parsing"
  | notAnInteger => "int_type"
  | noIntegerText => "int_parsing"
  | integerTooLong => "int_parsing_size"
  | betweenIntegers => "int_from_float"
  | notFinite => "finite_number"

/-- The axes of a picture, across and down. -/
inductive Axis
  | x
  | y
  deriving Repr, DecidableEq

def Axis.name : Axis → String
  | x => "x"
  | y => "y"

/-- What keeps a node from being evaluated: its children or its text are not as
its kind demands. -/
inductive Defect
  /-- A child that is not there. -/
  | missingChild
  /-- A call without a function. -/
  | nothingCalled
  /-- Another number of children. -/
  | wrongCount (expected found : Nat)
  /-- Text that spells no decimal number. -/
  | noDecimal (text : String)
  /-- Text that is no run of hexadecimal digits. -/
  | noHexadecimal (text : String)
  /-- A unit that does not exist. -/
  | unknownUnit (unit : String)
  deriving Repr, DecidableEq

/-- The name under which a defect is reported. -/
def Defect.label : Defect → String
  | .missingChild => "IndexError"
  | .unknownUnit _ => "KeyError"
  | _ => "ValueError"

def Defect.message : Defect → String
  | .missingChild => "list index out of range"
  | .nothingCalled => "not enough values to unpack (expected at least 1, got 0)"
  | .wrongCount expected found =>
    if found < expected then s!"not enough values to unpack (expected {expected}, got {found})"
    else s!"too many values to unpack (expected {expected})"
  | .noDecimal text => "could not convert string to float: " ++ Text.quoted text
  | .noHexadecimal text => "invalid literal for int() with base 16: " ++ Text.quoted text
  | .unknownUnit unit => Text.quoted unit

/-- The causes that stop an operation. -/
inductive Failure
  /-- An integer with too many digits to be read. -/
  | unreadableInteger (digits : Nat)
  /-- An integer with too many digits to be written. -/
  | unwritableInteger
  /-- Digits that are no decimal digits. -/
  | invalidInteger (literal : String)
  /-- An integer beyond the range of floats. -/
  | integerTooLarge
  /-- A size that is no number. -/
  | sizeNotANumber
  /-- A size without bound. -/
  | infiniteSize
  /-- A path that holds a null character. -/
  | nullCharacter
  /-- A path with which the file system cannot do what it should. -/
  | blocked (obstacle : File.Obstacle) (path : String)
  /-- A path that was looked up before without any outcome. -/
  | noOutcome
  /-- A path whose last name cannot take a suffix. -/
  | emptyName (path : String)
  /-- An edit behind the end or before the start of a text. -/
  | editOutOfBounds (start stop : Int)
  /-- An edit that starts or ends inside a character. -/
  | editSplitsCharacter (start stop : Int)
  /-- An index that names no member of a list. -/
  | indexOutOfRange
  /-- An index that names no character of a text. -/
  | positionOutOfRange
  /-- A world in which no source has been set. -/
  | noMainSource
  | load (error : LoadError)
  /-- A node that cannot be evaluated. -/
  | malformed (defect : Defect)
  /-- A chain of documents without end, each of which asks for the next one. -/
  | endlessChain
  /-- A malformed note on the line with this index. -/
  | malformedNote (line : Nat) (text reason : String)
  /-- A fixture that could not be read. -/
  | fixture (path reason : String)
  /-- A rectangle whose far corner rounds to a place in front of its near one,
  across or down. -/
  | invertedRectangle (axis : Axis)
  /-- A font size beyond the largest one. -/
  | fontTooLarge
  /-- A font size that font files have no number for. -/
  | fontSizeUnbounded
  /-- A place for letters that is no machine integer. -/
  | placeOutOfRange
  /-- A picture with sides that are no machine integers. -/
  | pictureUnbounded
  /-- A picture too wide for memory. -/
  | pictureTooWide
  /-- A picture with more pixels than are read back. -/
  | pictureTooLarge (pixels : Nat)
  /-- A picture without pixels, which cannot be saved. -/
  | pictureEmpty
  /-- A page that is too large to be printed. -/
  | pageUnprintable
  /-- A page beyond the size limit. -/
  | overlargeFrame (width height : Float)
  /-- A run without workers. -/
  | noWorkers
  /-- A log level that does not exist. -/
  | unknownLogLevel (name : String)
  /-- Settings with values that cannot be used, each with its name. -/
  | invalidSettings (faults : List (String × SettingFault))
  /-- A pattern in which two stars are only a part of a name. -/
  | misplacedStars
  /-- An environment file that holds no text. -/
  | undecodable (fault : Text.DecodingFault)
  /-- A name that no variable of an environment can have. -/
  | illegalVariable
  /-- A variable of an environment without a name. -/
  | unnamedVariable
  /-- A subtest asked for by no index. -/
  | noSubtestIndex
  /-- Arguments that the command line does not take. -/
  | usage
  /-- Arguments that ask for help, after which nothing is run. -/
  | helpAsked

/-- Pictures with more pixels than this are not read back. -/
def pixelLimit : Nat := 178956970

namespace Failure

/-- The name under which a failure is reported. -/
def label : Failure → String
  | unreadableInteger _ | unwritableInteger | invalidInteger _ | sizeNotANumber | nullCharacter
  | emptyName _ | editOutOfBounds .. | editSplitsCharacter .. | noWorkers
  | invertedRectangle _ | misplacedStars | unknownLogLevel _ | illegalVariable => "ValueError"
  | integerTooLarge | infiniteSize | pictureUnbounded => "OverflowError"
  | fontTooLarge | fontSizeUnbounded | pageUnprintable | unnamedVariable => "OSError"
  | placeOutOfRange | pictureEmpty => "SystemError"
  | pictureTooWide => "MemoryError"
  | pictureTooLarge _ => "DecompressionBombError"
  | blocked obstacle _ => obstacle.label
  | noOutcome => "AssertionError"
  | indexOutOfRange | positionOutOfRange => "IndexError"
  | noMainSource => "LookupError"
  | load _ => "FileError"
  | malformed defect => defect.label
  | endlessChain => "RecursionError"
  | malformedNote .. => "AnnotationError"
  | fixture .. => "FixtureError"
  | overlargeFrame .. => "OverlargeFrameError"
  | invalidSettings _ => "ValidationError"
  | undecodable _ => "UnicodeDecodeError"
  | noSubtestIndex => "TypeError"
  | usage | helpAsked => "SystemExit"

/-- A faulty setting as a list of two strings. The names of settings and faults
hold letters and underscores only. -/
def settingFaultText (name : String) (fault : SettingFault) : String :=
  "[\"" ++ name ++ "\", \"" ++ fault.name ++ "\"]"

/-- The text of a failure. -/
def message : Failure → String
  | unreadableInteger digits =>
    s!"Exceeds the limit ({Number.digitLimit} digits) for integer string conversion: " ++
      s!"value has {digits} digits; use sys.set_int_max_str_digits() to increase the limit"
  | unwritableInteger =>
    s!"Exceeds the limit ({Number.digitLimit} digits) for integer string conversion; " ++
      "use sys.set_int_max_str_digits() to increase the limit"
  | invalidInteger literal =>
    "invalid literal for int() with base 10: " ++
      String.ofList ((Text.quoted literal).toList.take 200)
  | integerTooLarge => "int too large to convert to float"
  | sizeNotANumber => "cannot convert float NaN to integer"
  | infiniteSize => "cannot convert float infinity to integer"
  | nullCharacter => "embedded null byte"
  | blocked obstacle path => s!"[Errno {obstacle.number}] {obstacle.message}: {Text.quoted path}"
  | noOutcome | pictureTooWide => ""
  | emptyName path => "PosixPath(" ++ Text.quoted path ++ ") has an empty name"
  | editOutOfBounds start stop => s!"edit range {start}..{stop} out of bounds"
  | editSplitsCharacter start stop => s!"edit range {start}..{stop} splits a character"
  | indexOutOfRange => "list index out of range"
  | positionOutOfRange => "string index out of range"
  | noMainSource => "no main source set"
  | load error => error.message
  | malformed defect => defect.message
  | endlessChain => "maximum recursion depth exceeded"
  | malformedNote line text reason => s!"Invalid annotation on line {line + 1} ({reason}): {text}"
  | fixture path reason => s!"Failed to read {path}: {reason}"
  | invertedRectangle axis => s!"{axis.name}1 must be greater than or equal to {axis.name}0"
  | fontTooLarge => "invalid pixel size"
  | fontSizeUnbounded => "invalid argument"
  | placeOutOfRange =>
    "<method 'draw_bitmap' of 'ImagingDraw' objects> returned a result with an exception set"
  | pictureUnbounded => "signed integer is greater than maximum"
  | pictureTooLarge pixels =>
    s!"Image size ({pixels} pixels) exceeds limit of {pixelLimit} pixels, " ++
      "could be decompression bomb DOS attack."
  | pictureEmpty => "tile cannot extend outside image"
  | pageUnprintable => "broken data stream when writing image file"
  | overlargeFrame width height =>
    s!"overlarge frame: {Number.shortFloatText width}pt x {Number.shortFloatText height}pt"
  | noWorkers => "max_workers must be greater than 0"
  | unknownLogLevel name => "Unknown level: " ++ Text.quoted name
  | invalidSettings faults =>
    "[" ++ ", ".intercalate (faults.map fun (name, fault) => settingFaultText name fault) ++ "]"
  | misplacedStars => "Invalid pattern: '**' can only be an entire path component"
  | undecodable fault => fault.message
  | illegalVariable => "illegal environment variable name"
  | unnamedVariable => "[Errno 22] Invalid argument"
  | noSubtestIndex => "unsupported operand type(s) for %: 'list' and 'int'"
  | usage => "2"
  | helpAsked => "0"

end Failure

end Galley
