import Galley.Syntax.Numbering
import Galley.Syntax.Token

/-!
# The grammar of markup

A recursive-descent parser that reads every text: malformed input becomes error
leaves, and each character ends up in exactly one leaf. A step takes the
characters from its position on and answers with what it read and the
characters behind it; nothing in front of its position is visible to it, so a
top-level node never depends on the text before.

The steps call each other in a cycle. Each call takes one unit of fuel, and
`budget` is enough of it for the whole text, because between two calls of the
same step at least one character is consumed.
-/

namespace Galley.Syntax.Grammar

open Galley.Text Token

/-- A step that reads one node. -/
abbrev NodeStep := Option (Node × List Char)

/-- A step that reads a run of nodes. -/
abbrev NodesStep := Option (List Node × List Char)

/-- The closing token of a construct, or an empty error in its place. -/
def closing (kind : Kind) (delimiter : Char) (message : String) (chars : List Char) :
    Node × List Char :=
  match chars with
  | [] => (Node.error [] message, [])
  | c :: rest =>
    if c = delimiter then (Node.leaf kind [c], rest) else (Node.error [] message, c :: rest)

/-- Puts the hash in front of embedded code: into the node if it has children,
and around it otherwise. -/
def attachHash (node : Node) : Node :=
  let hash := Node.leaf .hash ['#']
  if node.children.isEmpty then Node.inner .embedded [hash, node]
  else { node with children := hash :: node.children }

/-- Applies a node to a content block. A call takes the block as one more
argument. -/
def applyBlock (node block : Node) : Node :=
  if node.kind = .funcCall then { node with children := node.children ++ [block] }
  else Node.inner .funcCall [node, block]

mutual

/-- Markup up to one of the stop characters or the end. -/
def markup (fuel : Nat) (stops chars : List Char) : NodesStep :=
  match fuel with
  | 0 => none
  | fuel + 1 =>
    match chars with
    | [] => some ([], [])
    | c :: rest =>
      if stops.contains c then some ([], c :: rest)
      else do
        let (node, rest) ← markupNode fuel stops c rest
        let (nodes, rest) ← markup fuel stops rest
        return (node :: nodes, rest)

/-- One markup node, which starts with the given character. -/
def markupNode (fuel : Nat) (stops : List Char) (first : Char) (rest : List Char) : NodeStep :=
  match fuel with
  | 0 => none
  | fuel + 1 =>
    if isSpace first then some (blank (first :: rest))
    else if first = '/' && nextIs (· == '/') rest then some (lineComment (first :: rest))
    else if first = '/' && nextIs (· == '*') rest then some (blockComment (rest.drop 1))
    else if first = '\\' then some (escape rest)
    else if first = '\x60' then some (raw (first :: rest))
    else if first = '$' then some (math rest)
    else if first = '*' then delimited fuel .strong .star '*' stops rest
    else if first = '_' then delimited fuel .emph .underscore '_' stops rest
    else if first = '#' then embedded fuel rest
    else if first = ']' then some (Node.error [']'] "unexpected closing bracket", rest)
    else some (text first rest)

/-- Markup between two delimiters, given the characters behind the first. -/
def delimited (fuel : Nat) (kind marker : Kind) (delimiter : Char) (stops chars : List Char) :
    NodeStep :=
  match fuel with
  | 0 => none
  | fuel + 1 => do
    let (nodes, rest) ← markup fuel (delimiter :: stops) chars
    let (close, rest) := closing marker delimiter ("unclosed " ++ kind.name) rest
    return (Node.inner kind (Node.leaf marker [delimiter] :: nodes ++ [close]), rest)

/-- Embedded code, given the characters behind the hash. -/
def embedded (fuel : Nat) (chars : List Char) : NodeStep :=
  match fuel with
  | 0 => none
  | fuel + 1 =>
    if nextIs startsName chars then
      let (word, rest) := name chars
      let read : NodeStep :=
        if word = ['s', 'e', 't'] then setRule fuel rest
        else if word = ['l', 'e', 't'] then letBinding fuel rest
        else applications fuel (Token.word word) rest
      read.map fun (node, rest) => (attachHash node, rest)
    else some (Node.error ['#'] "expected expression", chars)

/-- A set rule, given the characters behind its keyword. -/
def setRule (fuel : Nat) (chars : List Char) : NodeStep :=
  match fuel with
  | 0 => none
  | fuel + 1 =>
    let (gap, rest) := spaces chars
    let start := Node.leaf .setWord ['s', 'e', 't'] :: gap
    if nextIs startsName rest then
      let (target, rest) := name rest
      let start := start ++ [Node.leaf .ident target]
      match rest with
      | '(' :: rest => do
        let (arguments, rest) ← args fuel rest
        return (Node.inner .setRule (start ++ [arguments]), rest)
      | _ => some (Node.inner .setRule (start ++ [Node.error [] "expected arguments"]), rest)
    else some (Node.inner .setRule (start ++ [Node.error [] "expected identifier"]), rest)

/-- A binding, given the characters behind its keyword. Without an equals sign
the spaces behind the name do not belong to it. -/
def letBinding (fuel : Nat) (chars : List Char) : NodeStep :=
  match fuel with
  | 0 => none
  | fuel + 1 =>
    let (gap, rest) := spaces chars
    let start := Node.leaf .letWord ['l', 'e', 't'] :: gap
    if nextIs startsName rest then
      let (bound, afterName) := name rest
      let start := start ++ [Node.leaf .ident bound]
      let (before, rest) := spaces afterName
      match rest with
      | '=' :: rest =>
        if nextIs (· == '=') rest then some (Node.inner .letBinding start, afterName)
        else do
          let (behind, rest) := spaces rest
          let (value, rest) ← codeAtom fuel rest
          return (Node.inner .letBinding
            (start ++ before ++ Node.leaf .eq ['='] :: behind ++ [value]), rest)
      | _ => some (Node.inner .letBinding start, afterName)
    else some (Node.inner .letBinding (start ++ [Node.error [] "expected identifier"]), rest)

/-- Argument lists and content blocks that directly follow a value. -/
def applications (fuel : Nat) (node : Node) (chars : List Char) : NodeStep :=
  match fuel with
  | 0 => none
  | fuel + 1 =>
    match chars with
    | '(' :: rest => do
      let (arguments, rest) ← args fuel rest
      applications fuel (Node.inner .funcCall [node, arguments]) rest
    | '[' :: rest => do
      let (block, rest) ← contentBlock fuel rest
      applications fuel (applyBlock node block) rest
    | _ => some (node, chars)

/-- An argument list, given the characters behind its opening parenthesis. -/
def args (fuel : Nat) (chars : List Char) : NodeStep :=
  match fuel with
  | 0 => none
  | fuel + 1 => do
    let (gap, rest) := trivia chars
    let (items, rest) ← argItems fuel rest
    return (Node.inner .args (Node.leaf .leftParen ['('] :: gap ++ items), rest)

/-- The arguments and commas up to the closing parenthesis, each with the trivia
behind it. -/
def argItems (fuel : Nat) (chars : List Char) : NodesStep :=
  match fuel with
  | 0 => none
  | fuel + 1 =>
    match chars with
    | [] => some ([Node.error [] "unclosed delimiter"], [])
    | c :: after =>
      if c = ']' then some ([Node.error [] "unclosed delimiter"], c :: after)
      else if c = ')' then some ([Node.leaf .rightParen [')']], after)
      else if c = ',' then do
        let (gap, rest) := trivia after
        let (items, rest) ← argItems fuel rest
        return (Node.leaf .comma [','] :: gap ++ items, rest)
      else do
        let (item, rest) ← arg fuel (c :: after)
        let (gap, rest) := trivia rest
        let (items, rest) ← argItems fuel rest
        return (item :: gap ++ items, rest)

/-- One argument: an expression with or without a name. -/
def arg (fuel : Nat) (chars : List Char) : NodeStep :=
  match fuel with
  | 0 => none
  | fuel + 1 =>
    if nextIs startsName chars then
      let (key, rest) := name chars
      match rest with
      | ':' :: rest => do
        let (gap, rest) := trivia rest
        let (value, rest) ← codeExpr fuel rest
        return (Node.inner .named
          (Node.leaf .ident key :: Node.leaf .colon [':'] :: gap ++ [value]), rest)
      | _ => codeExpr fuel chars
    else codeExpr fuel chars

/-- An expression: values joined by operators, grouped to the left. -/
def codeExpr (fuel : Nat) (chars : List Char) : NodeStep :=
  match fuel with
  | 0 => none
  | fuel + 1 => do
    let (left, rest) ← codeAtom fuel chars
    operations fuel left rest

/-- The operators and values behind a first value. Trivia that no operator
follows is left where it is. -/
def operations (fuel : Nat) (left : Node) (chars : List Char) : NodeStep :=
  match fuel with
  | 0 => none
  | fuel + 1 =>
    let (before, rest) := trivia chars
    match binaryOperator rest with
    | none => some (left, chars)
    | some (operator, rest) => do
      let (behind, rest) := trivia rest
      let (right, rest) ← codeAtom fuel rest
      operations fuel
        (Node.inner .binary (left :: before ++ operator :: behind ++ [right])) rest

/-- A single value. -/
def codeAtom (fuel : Nat) (chars : List Char) : NodeStep :=
  match fuel with
  | 0 => none
  | fuel + 1 =>
    match chars with
    | [] => some (Node.error [] "expected expression", [])
    | c :: rest =>
      if startsName c then
        let (word, rest) := name (c :: rest)
        applications fuel (Token.word word) rest
      else if isAsciiDigit c || (c = '-' && nextIs isAsciiDigit rest) then
        some (number (c :: rest))
      else if c = '"' then some (string rest)
      else if c = '[' then contentBlock fuel rest
      else if c = '(' then do
        let (group, rest) ← args fuel rest
        applications fuel group rest
      else if isSpace c || c = ')' || c = ',' || c = ']' then
        some (Node.error [] "expected expression", c :: rest)
      else some (Node.error [c] "unexpected character", rest)

/-- A content block, given the characters behind its opening bracket. -/
def contentBlock (fuel : Nat) (chars : List Char) : NodeStep :=
  match fuel with
  | 0 => none
  | fuel + 1 => do
    let (nodes, rest) ← markup fuel [']'] chars
    let (close, rest) := closing .rightBracket ']' "unclosed delimiter" rest
    return (Node.inner .contentBlock
      [Node.leaf .leftBracket ['['], Node.inner .markup nodes, close], rest)

end

/-- Fuel for any step on a text. -/
def budget (chars : List Char) : Nat :=
  8 * chars.length + 8

/-- The top-level nodes of a text. -/
def topLevel (chars : List Char) : List Node :=
  match markup (budget chars) [] chars with
  | some (nodes, _) => nodes
  | none => []

/-- The top-level node that starts with the given character. -/
def topNode (first : Char) (rest : List Char) : Node × List Char :=
  (markupNode (budget (first :: rest)) [] first rest).getD (text first rest)

end Grammar

/-- The numbered tree of a text. -/
def parse (text : String) : Node :=
  (Node.inner .markup (Grammar.topLevel text.toList)).numberRoot

end Galley.Syntax
