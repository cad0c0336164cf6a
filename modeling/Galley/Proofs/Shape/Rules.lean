import Galley.Proofs.Coverage.Parse
import Galley.Proofs.Shape.Token

/-!
# The rules of the grammar

A step of the grammar puts its node together from what other steps have read.  The rules say how,
with calls and operators on the left of what they follow; they leave out where a run of markup stops
and which of the rules for some characters a step takes.  Whatever a step answers is read by them,
so what the rules keep holds of every tree, by induction on a reading and without a look at fuel.
-/

namespace Galley.Syntax

open Galley.Text Node Token

/-! ## Rules -/

/-- What there is to read. -/
inductive Symbol
  | markup
  | markupNode
  | embedded
  | value
  | args
  | argItems
  | arg
  | codeExpr
  | codeAtom
  | contentBlock

/-- Markup and the items of an argument list are runs of nodes. -/
abbrev Symbol.Result : Symbol → Type
  | .markup | .argItems => List Node
  | _ => Node

/-- A node of markup that is a single token. -/
inductive MarkupToken : List Char → Step → Prop
  | blank {first : Char} (chars : List Char) (hspace : isSpace first = true) :
    MarkupToken (first :: chars) (blank (first :: chars))
  | lineComment (chars : List Char) :
    MarkupToken ('/' :: '/' :: chars) (lineComment ('/' :: '/' :: chars))
  | blockComment (chars : List Char) : MarkupToken ('/' :: '*' :: chars) (blockComment chars)
  | escape (chars : List Char) : MarkupToken ('\\' :: chars) (escape chars)
  | raw (chars : List Char) : MarkupToken ('\x60' :: chars) (raw ('\x60' :: chars))
  | math (chars : List Char) : MarkupToken ('$' :: chars) (math chars)
  | hash (chars : List Char) :
    MarkupToken ('#' :: chars) (error ['#'] "expected expression", chars)
  | bracket (chars : List Char) :
    MarkupToken (']' :: chars) (error [']'] "unexpected closing bracket", chars)
  | text {first : Char} (chars : List Char) (hspace : isSpace first = false)
    (hspecial : first ∉ special) (hcomment : startsComment (first :: chars) = false) :
    MarkupToken (first :: chars) (text first chars)

/-- The delimiters around markup. -/
inductive Delimits : Kind → Kind → Char → Prop
  | strong : Delimits .strong .star '*'
  | emph : Delimits .emph .underscore '_'

/-- The keywords in front of a name. -/
inductive Introduces : Kind → Kind → List Char → Prop
  | setRule : Introduces .setRule .setWord ['s', 'e', 't']
  | letBinding : Introduces .letBinding .letWord ['l', 'e', 't']

/-- A keyword, spaces and a name. -/
inductive Heads (kind : Kind) : List Char → List Node → List Char → Prop
  | mk {word : Kind} {keyword : List Char} (chars : List Char)
    (hkeyword : Introduces kind word keyword)
    (hstarts : nextIs startsName (spaces chars).2 = true) :
    Heads kind (keyword ++ chars)
      (leaf word keyword :: (spaces chars).1 ++ [leaf .ident (name (spaces chars).2).1])
      (name (spaces chars).2).2

theorem Heads.ne_nil {kind : Kind} {chars rest : List Char} {start : List Node}
    (hstart : Heads kind chars start rest) : start ≠ [] := by
  cases hstart
  exact List.cons_ne_nil _ _

/-- A value that is a single token.  One is missing only where none begins. -/
inductive AtomToken : List Char → Step → Prop
  | number {chars : List Char} (hstarts : StartsNumber chars) : AtomToken chars (number chars)
  | string (chars : List Char) : AtomToken ('"' :: chars) (string chars)
  | missing {chars : List Char} (hstarts : ¬Grammar.StartsValue chars) :
    AtomToken chars (error [] "expected expression", chars)
  | unexpected (c : Char) (chars : List Char) :
    AtomToken (c :: chars) (error [c] "unexpected character", chars)

/-- A symbol is read from some characters, and others are left behind it. -/
inductive Reads : (symbol : Symbol) → List Char → symbol.Result → List Char → Prop
  | markupNil (chars : List Char) : Reads .markup chars [] chars
  | markupCons {chars middle rest : List Char} {node : Node} {nodes : List Node}
    (hnode : Reads .markupNode chars node middle) (hnodes : Reads .markup middle nodes rest) :
    Reads .markup chars (node :: nodes) rest
  | markupToken {chars : List Char} {token : Step} (htoken : MarkupToken chars token) :
    Reads .markupNode chars token.1 token.2
  | delimited {kind marker : Kind} {delimiter : Char} {chars middle : List Char}
    {nodes : List Node} (hdelimits : Delimits kind marker delimiter)
    (hnodes : Reads .markup chars nodes middle) :
    Reads .markupNode (delimiter :: chars)
      (inner kind (leaf marker [delimiter] :: nodes ++
        [(Grammar.closing marker delimiter ("unclosed " ++ kind.name) middle).1]))
      (Grammar.closing marker delimiter ("unclosed " ++ kind.name) middle).2
  | hash {chars rest : List Char} {node : Node} (hnode : Reads .embedded chars node rest) :
    Reads .markupNode ('#' :: chars) (Grammar.attachHash node) rest
  | unnamed {kind word : Kind} {keyword : List Char} (chars : List Char)
    (hkeyword : Introduces kind word keyword) :
    Reads .embedded (keyword ++ chars)
      (inner kind (leaf word keyword :: (spaces chars).1 ++ [error [] "expected identifier"]))
      (spaces chars).2
  | setRule {chars middle rest : List Char} {start : List Node} {arguments : Node}
    (hstart : Heads .setRule chars start middle) (harguments : Reads .args middle arguments rest) :
    Reads .embedded chars (inner .setRule (start ++ [arguments])) rest
  | setNothing {chars rest : List Char} {start : List Node}
    (hstart : Heads .setRule chars start rest) :
    Reads .embedded chars (inner .setRule (start ++ [error [] "expected arguments"])) rest
  | letBinding {chars middle behind rest : List Char} {start : List Node} {value : Node}
    (hstart : Heads .letBinding chars start middle)
    (hequals : (spaces middle).2 = '=' :: behind)
    (hvalue : Reads .codeAtom (spaces behind).2 value rest) :
    Reads .embedded chars
      (inner .letBinding
        (start ++ (spaces middle).1 ++ leaf .eq ['='] :: (spaces behind).1 ++ [value])) rest
  | letNothing {chars rest : List Char} {start : List Node}
    (hstart : Heads .letBinding chars start rest) :
    Reads .embedded chars (inner .letBinding start) rest
  | embedded {chars rest : List Char} {node : Node} (hstarts : nextIs startsName chars = true)
    (hnode : Reads .value chars node rest) : Reads .embedded chars node rest
  | word {chars : List Char} (hstarts : nextIs startsName chars = true) :
    Reads .value chars (word (name chars).1) (name chars).2
  | group {chars rest : List Char} {arguments : Node}
    (harguments : Reads .args ('(' :: chars) arguments rest) :
    Reads .value ('(' :: chars) arguments rest
  | call {chars middle rest : List Char} {node arguments : Node}
    (hnode : Reads .value chars node middle) (harguments : Reads .args middle arguments rest) :
    Reads .value chars (inner .funcCall [node, arguments]) rest
  | block {chars middle rest : List Char} {node block : Node}
    (hnode : Reads .value chars node middle) (hblock : Reads .contentBlock middle block rest) :
    Reads .value chars (Grammar.applyBlock node block) rest
  | args {chars rest : List Char} {items : List Node}
    (hitems : Reads .argItems (trivia chars).2 items rest) :
    Reads .args ('(' :: chars) (inner .args (leaf .leftParen ['('] :: (trivia chars).1 ++ items))
      rest
  | argsUnclosed (chars : List Char) :
    Reads .argItems chars [error [] "unclosed delimiter"] chars
  | argsClosed (chars : List Char) :
    Reads .argItems (')' :: chars) [leaf .rightParen [')']] chars
  | comma {chars rest : List Char} {items : List Node}
    (hitems : Reads .argItems (trivia chars).2 items rest) :
    Reads .argItems (',' :: chars) (leaf .comma [','] :: (trivia chars).1 ++ items) rest
  | item {chars middle rest : List Char} {node : Node} {items : List Node}
    (hstarts : Grammar.StartsValue chars) (hnode : Reads .arg chars node middle)
    (hitems : Reads .argItems (trivia middle).2 items rest) :
    Reads .argItems chars (node :: (trivia middle).1 ++ items) rest
  | named {chars behind rest : List Char} {value : Node}
    (hstarts : nextIs startsName chars = true) (hcolon : (name chars).2 = ':' :: behind)
    (hvalue : Reads .codeExpr (trivia behind).2 value rest) :
    Reads .arg chars
      (inner .named (leaf .ident (name chars).1 :: leaf .colon [':'] :: (trivia behind).1 ++
        [value])) rest
  | unnamedArg {chars rest : List Char} {node : Node} (hnode : Reads .codeExpr chars node rest) :
    Reads .arg chars node rest
  | codeExpr {chars rest : List Char} {node : Node} (hnode : Reads .codeAtom chars node rest) :
    Reads .codeExpr chars node rest
  | binary {chars middle behind rest : List Char} {left operator right : Node}
    (hleft : Reads .codeExpr chars left middle)
    (hoperator : binaryOperator (trivia middle).2 = some (operator, behind))
    (hright : Reads .codeAtom (trivia behind).2 right rest) :
    Reads .codeExpr chars
      (inner .binary (left :: (trivia middle).1 ++ operator :: (trivia behind).1 ++ [right])) rest
  | atomToken {chars : List Char} {token : Step} (htoken : AtomToken chars token) :
    Reads .codeAtom chars token.1 token.2
  | value {chars rest : List Char} {node : Node} (hnode : Reads .value chars node rest) :
    Reads .codeAtom chars node rest
  | content {chars rest : List Char} {node : Node} (hnode : Reads .contentBlock chars node rest) :
    Reads .codeAtom chars node rest
  | contentBlock {chars middle : List Char} {nodes : List Node}
    (hnodes : Reads .markup chars nodes middle) :
    Reads .contentBlock ('[' :: chars)
      (inner .contentBlock [leaf .leftBracket ['['], inner .markup nodes,
        (Grammar.closing .rightBracket ']' "unclosed delimiter" middle).1])
      (Grammar.closing .rightBracket ']' "unclosed delimiter" middle).2

/-! ## Steps -/

namespace Grammar

variable {α β : Type}

/-- Whatever a step answers, the predicate holds of it and the characters behind it. -/
def Gives (step : Option (α × List Char)) (holds : α → List Char → Prop) : Prop :=
  ∀ value rest, step = some (value, rest) → holds value rest

namespace Gives

variable {holds : α → List Char → Prop}

theorem of_some {answer : α × List Char} (hholds : holds answer.1 answer.2) :
    Gives (some answer) holds := by
  rintro _ _ ⟨⟩
  exact hholds

theorem bind {step : Option (α × List Char)} {holds' : β → List Char → Prop}
    {next : α × List Char → Option (β × List Char)} (hstep : Gives step holds)
    (hnext : ∀ value rest, holds value rest → Gives (next (value, rest)) holds') :
    Gives (step >>= next) holds' := by
  intro value rest hanswer
  obtain ⟨⟨first, between⟩, hfirst, hrest⟩ := Option.bind_eq_some_iff.1 hanswer
  exact hnext first between (hstep first between hfirst) value rest hrest

theorem map {step : Option (α × List Char)} {holds' : β → List Char → Prop}
    {change : α × List Char → β × List Char} (hstep : Gives step holds)
    (hchange : ∀ value rest, holds value rest →
      holds' (change (value, rest)).1 (change (value, rest)).2) :
    Gives (step.map change) holds' := by
  intro value rest hanswer
  obtain ⟨⟨first, between⟩, hfirst, heq⟩ := Option.map_eq_some_iff.1 hanswer
  have hchanged := hchange first between (hstep first between hfirst)
  rwa [heq] at hchanged

theorem mono {step : Option (α × List Char)} {holds' : α → List Char → Prop}
    (hstep : Gives step holds) (himplies : ∀ value rest, holds value rest → holds' value rest) :
    Gives step holds' :=
  fun value rest hanswer => himplies value rest (hstep value rest hanswer)

end Gives

/-- The steps read their symbols.  What follows a value or an expression is given what was read of
it in front. -/
structure Reading (fuel : Nat) : Prop where
  markup : ∀ stops chars, Gives (Grammar.markup fuel stops chars) (Reads .markup chars)
  markupNode : ∀ stops first chars,
    Gives (Grammar.markupNode fuel stops first chars) (Reads .markupNode (first :: chars))
  delimited : ∀ {kind marker delimiter}, Delimits kind marker delimiter → ∀ stops chars,
    Gives (Grammar.delimited fuel kind marker delimiter stops chars)
      (Reads .markupNode (delimiter :: chars))
  embedded : ∀ chars, Gives (Grammar.embedded fuel chars) (Reads .markupNode ('#' :: chars))
  setRule : ∀ chars,
    Gives (Grammar.setRule fuel chars) (Reads .embedded (['s', 'e', 't'] ++ chars))
  letBinding : ∀ chars,
    Gives (Grammar.letBinding fuel chars) (Reads .embedded (['l', 'e', 't'] ++ chars))
  applications : ∀ {front node chars}, Reads .value front node chars →
    Gives (Grammar.applications fuel node chars) (Reads .value front)
  args : ∀ chars, Gives (Grammar.args fuel chars) (Reads .args ('(' :: chars))
  argItems : ∀ chars, nextIs isSpace chars = false →
    Gives (Grammar.argItems fuel chars) (Reads .argItems chars)
  arg : ∀ chars, Gives (Grammar.arg fuel chars) (Reads .arg chars)
  codeExpr : ∀ chars, Gives (Grammar.codeExpr fuel chars) (Reads .codeExpr chars)
  operations : ∀ {front left chars}, Reads .codeExpr front left chars →
    Gives (Grammar.operations fuel left chars) (Reads .codeExpr front)
  codeAtom : ∀ chars, Gives (Grammar.codeAtom fuel chars) (Reads .codeAtom chars)
  contentBlock : ∀ chars,
    Gives (Grammar.contentBlock fuel chars) (Reads .contentBlock ('[' :: chars))

namespace Reading

variable {fuel : Nat}

theorem markup_succ (hsteps : Reading fuel) (stops chars : List Char) :
    Gives (Grammar.markup (fuel + 1) stops chars) (Reads .markup chars) := by
  cases chars with
  | nil => exact .of_some (.markupNil [])
  | cons c chars =>
    rw [Grammar.markup]
    split
    · exact .of_some (.markupNil _)
    · refine (hsteps.markupNode stops c chars).bind fun node middle hnode => ?_
      exact (hsteps.markup stops middle).bind fun nodes rest hnodes =>
        .of_some (.markupCons hnode hnodes)

theorem markupNode_succ (hsteps : Reading fuel) (stops : List Char) (first : Char)
    (chars : List Char) :
    Gives (Grammar.markupNode (fuel + 1) stops first chars)
      (Reads .markupNode (first :: chars)) := by
  rw [Grammar.markupNode]
  split_ifs with hspace hline hblock hescape hraw hmath hstrong hemph hhash hbracket
  · exact .of_some (.markupToken (.blank chars hspace))
  · obtain ⟨rfl, hnext⟩ : first = '/' ∧ nextIs (· == '/') chars = true := by simpa using hline
    obtain ⟨rest, rfl⟩ := nextIs_eq hnext
    exact .of_some (.markupToken (.lineComment rest))
  · obtain ⟨rfl, hnext⟩ : first = '/' ∧ nextIs (· == '*') chars = true := by simpa using hblock
    obtain ⟨rest, rfl⟩ := nextIs_eq hnext
    exact .of_some (.markupToken (.blockComment rest))
  · subst hescape
    exact .of_some (.markupToken (.escape chars))
  · subst hraw
    exact .of_some (.markupToken (.raw chars))
  · subst hmath
    exact .of_some (.markupToken (.math chars))
  · subst hstrong
    exact hsteps.delimited .strong stops chars
  · subst hemph
    exact hsteps.delimited .emph stops chars
  · subst hhash
    exact hsteps.embedded chars
  · subst hbracket
    exact .of_some (.markupToken (.bracket chars))
  · have hplain : isSpace first = false := by simpa using hspace
    have hspecial : first ∉ special := by
      simp [special, hescape, hraw, hmath, hstrong, hemph, hhash, hbracket]
    refine .of_some (.markupToken (.text chars hplain hspecial ?_))
    cases chars with
    | nil => simp [startsComment]
    | cons second chars => simp_all [startsComment, nextIs]

theorem delimited_succ (hsteps : Reading fuel) {kind marker : Kind} {delimiter : Char}
    (hdelimits : Delimits kind marker delimiter) (stops chars : List Char) :
    Gives (Grammar.delimited (fuel + 1) kind marker delimiter stops chars)
      (Reads .markupNode (delimiter :: chars)) := by
  rw [Grammar.delimited]
  exact (hsteps.markup _ chars).bind fun nodes rest hnodes => .of_some (.delimited hdelimits hnodes)

theorem embedded_succ (hsteps : Reading fuel) (chars : List Char) :
    Gives (Grammar.embedded (fuel + 1) chars) (Reads .markupNode ('#' :: chars)) := by
  rw [Grammar.embedded]
  split
  · rename_i hstarts
    have hname := name_append chars
    dsimp only
    refine Gives.map (?_ : Gives _ (Reads .embedded chars)) fun node rest => .hash
    -- Each of the three readings starts with the name that is already known.
    split_ifs with hset hlet
    · have hread := hsteps.setRule (name chars).2
      rwa [← hset, hname] at hread
    · have hread := hsteps.letBinding (name chars).2
      rwa [← hlet, hname] at hread
    · exact (hsteps.applications (.word hstarts)).mono fun node rest => .embedded hstarts
  · exact .of_some (.markupToken (.hash chars))

theorem setRule_succ (hsteps : Reading fuel) (chars : List Char) :
    Gives (Grammar.setRule (fuel + 1) chars) (Reads .embedded (['s', 'e', 't'] ++ chars)) := by
  rw [Grammar.setRule]
  dsimp only
  split
  · rename_i hstarts
    have hstart := Heads.mk chars .setRule hstarts
    split
    · rename_i inside hopen
      rw [hopen] at hstart
      exact (hsteps.args inside).bind fun arguments rest harguments =>
        .of_some (.setRule hstart harguments)
    · exact .of_some (.setNothing hstart)
  · exact .of_some (.unnamed chars .setRule)

theorem letBinding_succ (hsteps : Reading fuel) (chars : List Char) :
    Gives (Grammar.letBinding (fuel + 1) chars) (Reads .embedded (['l', 'e', 't'] ++ chars)) := by
  rw [Grammar.letBinding]
  dsimp only
  split
  · rename_i hstarts
    have hstart := Heads.mk chars .letBinding hstarts
    split
    · rename_i behind hequals
      split
      · exact .of_some (.letNothing hstart)
      · exact (hsteps.codeAtom _).bind fun value rest hvalue =>
          .of_some (.letBinding hstart hequals hvalue)
    · exact .of_some (.letNothing hstart)
  · exact .of_some (.unnamed chars .letBinding)

theorem applications_succ (hsteps : Reading fuel) {front chars : List Char} {node : Node}
    (hnode : Reads .value front node chars) :
    Gives (Grammar.applications (fuel + 1) node chars) (Reads .value front) := by
  unfold Grammar.applications
  split
  · exact (hsteps.args _).bind fun arguments rest harguments =>
      hsteps.applications (.call hnode harguments)
  · exact (hsteps.contentBlock _).bind fun block rest hblock =>
      hsteps.applications (.block hnode hblock)
  · exact .of_some hnode

theorem args_succ (hsteps : Reading fuel) (chars : List Char) :
    Gives (Grammar.args (fuel + 1) chars) (Reads .args ('(' :: chars)) := by
  rw [Grammar.args]
  exact (hsteps.argItems _ (nextIs_isSpace_trivia chars)).bind fun items rest hitems =>
    .of_some (.args hitems)

theorem argItems_succ (hsteps : Reading fuel) (chars : List Char)
    (hspace : nextIs isSpace chars = false) :
    Gives (Grammar.argItems (fuel + 1) chars) (Reads .argItems chars) := by
  unfold Grammar.argItems
  split
  · exact .of_some (.argsUnclosed [])
  · rename_i c after
    split_ifs with hbracket hclose hcomma
    · exact .of_some (.argsUnclosed _)
    · subst hclose
      exact .of_some (.argsClosed after)
    · subst hcomma
      exact (hsteps.argItems _ (nextIs_isSpace_trivia after)).bind fun items rest hitems =>
        .of_some (.comma hitems)
    · have hstarts : StartsValue (c :: after) :=
        ⟨c, after, rfl, hspace, hclose, hcomma, hbracket⟩
      refine (hsteps.arg (c :: after)).bind fun node middle hnode => ?_
      exact (hsteps.argItems _ (nextIs_isSpace_trivia middle)).bind fun items rest hitems =>
        .of_some (.item hstarts hnode hitems)

theorem arg_succ (hsteps : Reading fuel) (chars : List Char) :
    Gives (Grammar.arg (fuel + 1) chars) (Reads .arg chars) := by
  have hunnamed : Gives (Grammar.codeExpr fuel chars) (Reads .arg chars) :=
    (hsteps.codeExpr chars).mono fun node rest => .unnamedArg
  rw [Grammar.arg]
  split
  · rename_i hstarts
    dsimp only
    split
    · rename_i behind hcolon
      exact (hsteps.codeExpr _).bind fun value rest hvalue =>
        .of_some (.named hstarts hcolon hvalue)
    · exact hunnamed
  · exact hunnamed

theorem codeExpr_succ (hsteps : Reading fuel) (chars : List Char) :
    Gives (Grammar.codeExpr (fuel + 1) chars) (Reads .codeExpr chars) := by
  rw [Grammar.codeExpr]
  exact (hsteps.codeAtom chars).bind fun left rest hleft => hsteps.operations (.codeExpr hleft)

theorem operations_succ (hsteps : Reading fuel) {front chars : List Char} {left : Node}
    (hleft : Reads .codeExpr front left chars) :
    Gives (Grammar.operations (fuel + 1) left chars) (Reads .codeExpr front) := by
  rw [Grammar.operations]
  dsimp only
  split
  · exact .of_some hleft
  · rename_i operator behind hoperator
    exact (hsteps.codeAtom _).bind fun right rest hright =>
      hsteps.operations (.binary hleft hoperator hright)

theorem codeAtom_succ (hsteps : Reading fuel) (chars : List Char) :
    Gives (Grammar.codeAtom (fuel + 1) chars) (Reads .codeAtom chars) := by
  unfold Grammar.codeAtom
  split
  · exact .of_some (.atomToken (.missing (by simp [StartsValue])))
  · rename_i c rest
    split_ifs with hname hnumber hquote hbracket hparen hstop
    · have hstarts : nextIs startsName (c :: rest) = true := hname
      exact (hsteps.applications (.word hstarts)).mono fun node rest => .value
    · exact .of_some (.atomToken (.number (by simpa [StartsNumber, nextIs] using hnumber)))
    · subst hquote
      exact .of_some (.atomToken (.string rest))
    · subst hbracket
      exact (hsteps.contentBlock rest).mono fun node rest => .content
    · subst hparen
      refine (hsteps.args rest).bind fun arguments middle harguments => ?_
      exact (hsteps.applications (.group harguments)).mono fun node rest => .value
    · refine .of_some (.atomToken (.missing ?_))
      rintro ⟨first, after, hchars, hspace, hparen, hcomma, hclosing⟩
      obtain ⟨rfl, rfl⟩ := List.cons.inj hchars
      simp [hspace, hparen, hcomma, hclosing] at hstop
    · exact .of_some (.atomToken (.unexpected c rest))

theorem contentBlock_succ (hsteps : Reading fuel) (chars : List Char) :
    Gives (Grammar.contentBlock (fuel + 1) chars) (Reads .contentBlock ('[' :: chars)) := by
  rw [Grammar.contentBlock]
  exact (hsteps.markup _ chars).bind fun nodes rest hnodes => .of_some (.contentBlock hnodes)

end Reading

/-- Whatever a step answers with some fuel is read by the rules, by induction on the fuel. -/
theorem reading (fuel : Nat) : Reading fuel := by
  induction fuel with
  | zero => constructor <;> intros <;> rintro _ _ ⟨⟩
  | succ fuel ih =>
    exact ⟨ih.markup_succ, ih.markupNode_succ, ih.delimited_succ, ih.embedded_succ,
      ih.setRule_succ, ih.letBinding_succ, ih.applications_succ, ih.args_succ, ih.argItems_succ,
      ih.arg_succ, ih.codeExpr_succ, ih.operations_succ, ih.codeAtom_succ, ih.contentBlock_succ⟩

end Grammar

/-- The top level of a text is read from all of it. -/
theorem reads_topLevel (chars : List Char) :
    Reads .markup chars (Grammar.topLevel chars) [] :=
  (Grammar.reading _).markup _ _ _ _ (Grammar.markup_budget chars).1

end Galley.Syntax
