import Galley.Text.Lines

/-!
# Environment files

A file of bindings, one a line: a key, an equals sign and a value with or
without quotes. Lines that are no binding are passed over. A value may refer to
variables, which are looked up among the earlier bindings of the file and then
in the environment.
-/

namespace Galley.Settings.EnvFile

open Text

/-- A key with its value, if it has one. -/
abbrev Binding := List Char × Option (List Char)

/-- White space that does not end a line. -/
def isBlank (c : Char) : Bool :=
  isSpace c && c != '\n' && c != '\r'

def dropBlanks (chars : List Char) : List Char :=
  chars.dropWhile isBlank

/-- Every kind of line ending becomes a newline. -/
def unifyNewlines : List Char → List Char
  | '\r' :: '\n' :: rest => '\n' :: unifyNewlines rest
  | '\r' :: rest => '\n' :: unifyNewlines rest
  | c :: rest => c :: unifyNewlines rest
  | [] => []

/-- What stands before a closing quote, and what follows it. A backslash and the
character behind it stand together, and the line must not end between them. -/
def splitQuoted (quote : Char) : List Char → Option (List Char × List Char)
  | [] => none
  | '\\' :: c :: rest =>
    if c = '\n' then none
    else (splitQuoted quote rest).map fun (inside, after) => ('\\' :: c :: inside, after)
  | c :: rest =>
    if c = quote then some ([], rest)
    else (splitQuoted quote rest).map fun (inside, after) => (c :: inside, after)

/-- The characters that escapes stand for between double quotes. -/
def escapes : List (Char × Char) :=
  [('\\', '\\'), ('\'', '\''), ('"', '"'), ('a', '\x07'), ('b', '\x08'), ('f', '\x0c'),
    ('n', '\n'), ('r', '\r'), ('t', '\t'), ('v', '\x0b')]

/-- The characters that escapes stand for between single quotes. -/
def plainEscapes : List (Char × Char) :=
  [('\\', '\\'), ('\'', '\'')]

/-- Replaces escapes by the characters they stand for. -/
def unescape (table : List (Char × Char)) : List Char → List Char
  | '\\' :: c :: rest =>
    match table.lookup c with
    | some meaning => meaning :: unescape table rest
    | none => '\\' :: unescape table (c :: rest)
  | c :: rest => c :: unescape table rest
  | [] => []

/-- A value without quotes, up to a comment with white space in front. -/
def unquoted : List Char → List Char
  | [] => []
  | c :: rest =>
    if isSpace c && (rest.dropWhile isSpace).head? == some '#' then []
    else c :: unquoted rest

/-- Reads a key in front of what follows it; a comment has none. -/
def readKey (chars : List Char) : Option (Option (List Char) × List Char) :=
  match chars with
  | '#' :: _ => some (none, chars)
  | '\'' :: rest =>
    let key := rest.takeWhile (· != '\'')
    let after := rest.drop key.length
    if key.isEmpty || after.isEmpty then none else some (some key, after.drop 1)
  | _ =>
    let key := chars.takeWhile fun c => c != '=' && c != '#' && !isSpace c
    if key.isEmpty then none else some (some key, chars.drop key.length)

/-- Reads a value in front of what follows it. A comment can stand in its place
with white space in front. -/
def readValue (chars : List Char) : Option (List Char × List Char) :=
  let value := dropBlanks chars
  match value with
  | '#' :: _ => if value.length < chars.length then some ([], value) else readBare value
  | '\'' :: rest => (splitQuoted '\'' rest).map fun (value, after) =>
      (unescape plainEscapes value, after)
  | '"' :: rest => (splitQuoted '"' rest).map fun (value, after) =>
      (unescape escapes value, after)
  | _ => readBare value
where
  /-- Reads a value without quotes. -/
  readBare (chars : List Char) : Option (List Char × List Char) :=
    let line := chars.takeWhile (· != '\n')
    some (dropWhileEnd isSpace (unquoted line), chars.drop line.length)

/-- Drops a comment and the end of the line, if nothing else is left of it. -/
def finishLine (chars : List Char) : Option (List Char) :=
  let rest := dropBlanks chars
  let rest := if rest.head? == some '#' then rest.dropWhile (· != '\n') else rest
  match rest with
  | [] => some []
  | '\n' :: after => some after
  | _ => none

/-- Drops the rest of a line. -/
def dropLine (chars : List Char) : List Char :=
  (chars.dropWhile (· != '\n')).drop 1

/-- Drops the word in front of a binding that exports it. -/
def dropExport (chars : List Char) : List Char :=
  let word := "export".toList
  let after := chars.drop word.length
  if word.isPrefixOf chars && after.head?.any isBlank then dropBlanks after else chars

/-- Reads one line behind the white space in front of it: its binding, if it
has one, and what follows the line. -/
def readLine (chars : List Char) : Option Binding × List Char :=
  let chars := dropExport chars
  match readKey chars with
  | none => (none, dropLine chars)
  | some (key, after) =>
    let after := dropBlanks after
    if after.head? == some '=' then
      match readValue (after.drop 1) with
      | none => (none, dropLine after)
      | some (value, rest) =>
        match finishLine rest with
        | some rest => (key.map fun key => (key, some value), rest)
        | none => (none, dropLine rest)
    else
      match finishLine after with
      | some rest => (key.map fun key => (key, none), rest)
      | none => (none, dropLine after)

/-- Reads the bindings of a file. The first argument bounds its length. -/
def readBindings : Nat → List Char → List Binding
  | 0, _ => []
  | fuel + 1, chars =>
    match chars.dropWhile isSpace with
    | [] => []
    | c :: rest =>
      let (binding, after) := readLine (c :: rest)
      binding.toList ++ readBindings fuel after

/-- The value of a variable, if it has one. -/
abbrev Scope := List Char → Option (List Char)

/-- A reference to a variable behind its opening brace: the name, the default
and what follows. -/
def readReference (chars : List Char) : Option (List Char × List Char × List Char) :=
  let name := chars.takeWhile fun c => c != '\x7d' && c != ':'
  match chars.drop name.length with
  | '\x7d' :: after => some (name, [], after)
  | ':' :: '-' :: rest =>
    let default := rest.takeWhile (· != '\x7d')
    match rest.drop default.length with
    | '\x7d' :: after => some (name, default, after)
    | _ => none
  | _ => none

/-- Replaces references by the values of variables. The first argument bounds
the length of the text. -/
def expand (scope : Scope) : Nat → List Char → List Char
  | 0, _ => []
  | _, [] => []
  | fuel + 1, '$' :: '\x7b' :: rest =>
    match readReference rest with
    | some (name, default, after) => (scope name).getD default ++ expand scope fuel after
    | none => '$' :: expand scope fuel ('\x7b' :: rest)
  | fuel + 1, c :: rest => c :: expand scope fuel rest

/-- Sets a key and keeps the place at which it stands. -/
def put (bindings : List Binding) (binding : Binding) : List Binding :=
  if bindings.any fun other => other.1 == binding.1 then
    bindings.map fun other => if other.1 == binding.1 then binding else other
  else bindings ++ [binding]

/-- Looks a variable up among bindings, where a key without a value counts as
empty, and then in the environment. -/
def scopeOf (environment : List (List Char × List Char)) (bindings : List Binding) : Scope :=
  fun name =>
    match bindings.lookup name with
    | some value => some (value.getD [])
    | none => environment.lookup name

/-- Expands bindings one after the other. -/
def expandAll (environment : List (List Char × List Char)) :
    List Binding → List Binding → List Binding
  | done, [] => done
  | done, (key, value) :: rest =>
    let value := value.map fun value =>
      expand (scopeOf environment done) (value.length + 1) value
    expandAll environment (put done (key, value)) rest

/-- Drops the mark that tells the order of bytes. -/
def dropMark : List Char → List Char
  | '\ufeff' :: rest => rest
  | chars => chars

/-- The bindings of a file in an environment. -/
def read (environment : List (String × String)) (text : String) : List (String × Option String) :=
  let chars := unifyNewlines (dropMark text.toList)
  let outer := environment.map fun (name, value) => (name.toList, value.toList)
  let bindings := expandAll outer [] (readBindings (chars.length + 1) chars)
  bindings.map fun (key, value) => (String.ofList key, value.map String.ofList)

end Galley.Settings.EnvFile
