import Galley.Number.Read
import Galley.Run.Discovery
import Galley.Run.Options

/-!
# Arguments

The words of a command line are sorted into options and filters first, up to a
double hyphen, behind which every word is a filter. Long options may be
shortened as long as only one begins so. Filters have to stand side by side.
-/

namespace Galley.CommandLine

/-- What the command line asks for. -/
structure Arguments where
  /-- The filters, none before any have been read. -/
  filters : List String := []
  subtest : Run.Choice := .all
  exact : Bool := false
  update : Bool := false
  pdf : Bool := false
  syntaxTree : Bool := false
  model : Bool := false
  frames : Bool := false
  /-- Accepted without effect, as other test runners have it. -/
  nocapture : Bool := false
  deriving DecidableEq, Repr

/-- The options. -/
inductive Flag
  | help
  | subtest
  | exact
  | update
  | noUpdate
  | pdf
  | syntaxTree
  | model
  | frames
  | nocapture
  deriving DecidableEq, Repr

namespace Flag

/-- The spellings of options. -/
def spellings : List (String × Flag) :=
  [("-h", .help), ("--help", .help), ("-s", .subtest), ("--subtest", .subtest),
    ("--exact", .exact), ("--update", .update), ("--no-update", .noUpdate), ("--pdf", .pdf),
    ("--syntax", .syntaxTree), ("--model", .model), ("--frames", .frames),
    ("--nocapture", .nocapture)]

def ofSpelling? (spelling : String) : Option Flag :=
  spellings.lookup spelling

/-- The options whose spelling begins as given. -/
def withPrefix (beginning : String) : List Flag :=
  (spellings.filter fun entry => beginning.toList.isPrefixOf entry.1.toList).map Prod.snd

def takesValue : Flag → Bool
  | subtest => true
  | _ => false

end Flag

/-- A word of the command line. -/
inductive Word
  | plain (text : String)
  /-- The double hyphen behind which there are only filters. -/
  | separator
  /-- An option with the value that is written together with it. -/
  | option (flag : Flag) (long : Bool) (value : Option String)
  /-- Something like an option that is none. -/
  | unknown
  deriving DecidableEq, Repr

namespace Word

/-- Whether a word looks like a negative number. -/
def isNegativeNumber (chars : List Char) : Bool :=
  let isDecimal (c : Char) : Bool := (Text.decimalValue? c).isSome
  let chars := if chars.getLast? == some '\n' then chars.dropLast else chars
  match chars with
  | '-' :: body =>
    let whole := body.takeWhile isDecimal
    match body.drop whole.length with
    | [] => !whole.isEmpty
    | '.' :: fraction => !fraction.isEmpty && fraction.all isDecimal
    | _ => false
  | _ => false

/-- Splits a word at its first equals sign. -/
def splitValue (text : String) : String × Option String :=
  match Text.breakOn ['='] text.toList with
  | some (before, after) => (String.ofList before, some (String.ofList after))
  | none => (text, none)

/-- A word that begins with a hyphen and spells no option exactly. -/
def classifyAlike (text : String) : Word :=
  if isNegativeNumber text.toList || text.toList.contains ' ' then .plain text else .unknown

/-- Sorts a word. One that is short for several options has no meaning. -/
def classify (text : String) : Except Failure Word :=
  match text.toList with
  | [] => return .plain text
  | [_] => return .plain text
  | first :: second :: rest =>
    if first ≠ '-' then return .plain text
    else
      let (name, value) := splitValue text
      match Flag.ofSpelling? text, Flag.ofSpelling? name with
      | some flag, _ => return .option flag (second == '-') none
      | none, some flag => return .option flag (second == '-') value
      | none, none =>
        if second = '-' then
          match Flag.withPrefix name with
          | [flag] => return .option flag true value
          | [] => return classifyAlike text
          | _ => throw .usage
        else
          match Flag.ofSpelling? (String.ofList [first, second]) with
          | some flag => return .option flag false (some (String.ofList rest))
          | none => return classifyAlike text

/-- Sorts the words of a command line. -/
def classifyAll : List String → Except Failure (List Word)
  | [] => return []
  | text :: rest => do
    if text = "--" then return .separator :: rest.map .plain
    else return (← classify text) :: (← classifyAll rest)

end Word

/-- Where the reading of filters stands. -/
inductive FilterState
  | before
  | within
  | behind
  deriving DecidableEq, Repr

/-- The reading of a command line. -/
structure Reading where
  arguments : Arguments
  filterState : FilterState := .before
  /-- Whether something was met that does not belong on the command line. -/
  stray : Bool := false

namespace Reading

/-- Takes a filter, none for the separator. A second group of them is stray. -/
def takeFilter (reading : Reading) (text : Option String) : Reading :=
  match reading.filterState with
  | .behind => { reading with stray := true }
  | _ => { reading with
      filterState := .within
      arguments := { reading.arguments with
        filters := reading.arguments.filters ++ text.toList } }

/-- Ends a group of filters. -/
def endFilters (reading : Reading) : Reading :=
  match reading.filterState with
  | .within => { reading with filterState := .behind }
  | _ => reading

/-- The subtest that the value of an option names. A double hyphen names none. -/
def readChoice (text : String) : Except Failure Run.Choice :=
  if text = "--" then return .unnamed
  else
    match Number.readInteger text.toList with
    | .ok index => return .only index
    | .error _ => throw .usage

/-- Takes the value of an option. -/
def takeValue (reading : Reading) (text : String) : Except Failure Reading := do
  let subtest ← readChoice text
  return { reading with arguments := { reading.arguments with subtest } }

/-- Takes an option without a value. -/
def takeFlag (reading : Reading) (flag : Flag) : Except Failure Reading :=
  let change (arguments : Arguments) : Except Failure Reading := return { reading with arguments }
  let arguments := reading.arguments
  match flag with
  | .help => throw .helpAsked
  | .subtest => throw .usage
  | .exact => change { arguments with exact := true }
  | .update => change { arguments with update := true }
  | .noUpdate => change { arguments with update := false }
  | .pdf => change { arguments with pdf := true }
  | .syntaxTree => change { arguments with syntaxTree := true }
  | .model => change { arguments with model := true }
  | .frames => change { arguments with frames := true }
  | .nocapture => change { arguments with nocapture := true }

/-- Whether the letters behind the short option for help are options again. A
value for the last one may follow as the next word. -/
def letters (nextIsPlain : Bool) : List Char → Bool
  | [] => true
  | ['s'] => nextIsPlain
  | 's' :: _ => true
  | 'h' :: rest => letters nextIsPlain rest
  | _ => false

/-- Reads words. An option that takes a value takes it from its own word or
from a plain one behind it. -/
def readWords (reading : Reading) : List Word → Except Failure Reading
  | [] => return reading
  | .plain text :: rest => readWords (reading.takeFilter (some text)) rest
  | .separator :: rest => readWords (reading.takeFilter none) rest
  | .unknown :: rest => readWords { reading.endFilters with stray := true } rest
  | .option flag long value :: rest =>
    let reading := reading.endFilters
    match flag.takesValue, value with
    | true, some value => do readWords (← reading.takeValue value) rest
    | true, none =>
      match rest with
      | .plain value :: rest => do readWords (← reading.takeValue value) rest
      | _ => throw .usage
    | false, none => do readWords (← reading.takeFlag flag) rest
    | false, some value =>
      let nextIsPlain := match rest with
        | .plain _ :: _ => true
        | _ => false
      if !long && !value.isEmpty && letters nextIsPlain value.toList then throw .helpAsked
      else throw .usage

end Reading

/-- Reads a command line. -/
def Arguments.read (updateDefault : Bool) (words : List String) : Except Failure Arguments := do
  let words ← Word.classifyAll words
  let reading ← Reading.readWords { arguments := { update := updateDefault } } words
  if reading.stray then throw .usage
  return reading.arguments

end Galley.CommandLine
