/-!
# Kinds of syntax nodes

The markup language has leaves for its tokens and inner nodes for its
constructs. Every kind has one written name, which dumps and messages use.
-/

namespace Galley.Syntax

inductive Kind
  | markup | text | space | parbreak | linebreak | escape | strong | emph | star | underscore
  | raw | math | lineComment | blockComment
  | hash | ident | int | float | numeric | str | bool | noneWord | setWord | letWord
  | leftParen | rightParen | leftBracket | rightBracket | comma | colon
  | eq | eqEq | exclEq | plus | minus
  | contentBlock | args | named | funcCall | embedded | setRule | letBinding | binary
  | error
  deriving DecidableEq, Repr, Inhabited

namespace Kind

/-- The written name of a kind. -/
def name : Kind → String
  | markup => "markup"
  | text => "text"
  | space => "space"
  | parbreak => "parbreak"
  | linebreak => "linebreak"
  | escape => "escape"
  | strong => "strong"
  | emph => "emph"
  | star => "star"
  | underscore => "underscore"
  | raw => "raw"
  | math => "math"
  | lineComment => "line-comment"
  | blockComment => "block-comment"
  | hash => "hash"
  | ident => "ident"
  | int => "int"
  | float => "float"
  | numeric => "numeric"
  | str => "str"
  | bool => "bool"
  | noneWord => "none"
  | setWord => "set"
  | letWord => "let"
  | leftParen => "left-paren"
  | rightParen => "right-paren"
  | leftBracket => "left-bracket"
  | rightBracket => "right-bracket"
  | comma => "comma"
  | colon => "colon"
  | eq => "eq"
  | eqEq => "eq-eq"
  | exclEq => "excl-eq"
  | plus => "plus"
  | minus => "minus"
  | contentBlock => "content-block"
  | args => "args"
  | named => "named"
  | funcCall => "func-call"
  | embedded => "embedded"
  | setRule => "set-rule"
  | letBinding => "let-binding"
  | binary => "binary"
  | error => "error"

/-- Every kind, in the order of its declaration. -/
def all : List Kind :=
  [markup, text, space, parbreak, linebreak, escape, strong, emph, star, underscore, raw, math,
   lineComment, blockComment, hash, ident, int, float, numeric, str, bool, noneWord, setWord,
   letWord, leftParen, rightParen, leftBracket, rightBracket, comma, colon, eq, eqEq, exclEq,
   plus, minus, contentBlock, args, named, funcCall, embedded, setRule, letBinding, binary, error]

/-- The kind with a written name. -/
def ofName? (name : String) : Option Kind :=
  all.find? fun kind => kind.name == name

theorem mem_all (kind : Kind) : kind ∈ all := by
  cases kind <;> decide

theorem name_injective {left right : Kind} (hname : left.name = right.name) : left = right := by
  revert hname
  cases left <;> cases right <;> decide

/-- Reading a written name gives the kind back. -/
theorem ofName?_name (kind : Kind) : ofName? kind.name = some kind := by
  cases kind <;> rfl

/-- Nodes that separate others and mean nothing between them. -/
def isTrivia : Kind → Bool
  | space | parbreak | lineComment | blockComment => true
  | _ => false

/-- Tokens that only delimit their neighbours inside code. -/
def isPunctuation : Kind → Bool
  | hash | leftParen | rightParen | comma | colon => true
  | _ => false

end Kind

end Galley.Syntax
