import Galley.Proofs.Shape.Rules

/-!
# What the grammar complains about

A node that cannot be read says why in one of a few sentences, and no text of a document ever gets
into them.  The steps of the grammar only put nodes together, so the errors of what they build are
those of its parts.
-/

namespace Galley.Syntax

open Galley.Text Node Token

namespace Node

@[simp]
theorem message_withSpan (span : Int) (node : Node) :
    (node.withSpan span).message = node.message := by
  rcases node with ⟨kind, text, children, own, message⟩
  rfl

end Node

/-- What is said of text that cannot be read. -/
def complaints : List String :=
  ["unclosed comment", "invalid unicode escape sequence", "unclosed raw text", "unclosed equation",
   "unclosed string", "unclosed strong", "unclosed emph", "unclosed delimiter",
   "unexpected closing bracket", "unexpected character", "expected expression",
   "expected arguments", "expected identifier"]

/-- The errors in a node are complaints. -/
def Complains (node : Node) : Prop :=
  ∀ error ∈ node.errors, ∃ complaint ∈ complaints, error.message = some complaint

/-! ## Nodes -/

theorem mem_errorsOf {error : Node} {nodes : List Node} :
    error ∈ errorsOf nodes ↔ ∃ node ∈ nodes, error ∈ node.errors := by
  induction nodes with
  | nil => simp [errorsOf]
  | cons node nodes ih => simp [errorsOf, ih]

theorem complains_iff {node : Node} :
    Complains node ↔
      (node.kind = .error → ∃ complaint ∈ complaints, node.message = some complaint) ∧
        (node.kind ≠ .error → ∀ child ∈ node.children, Complains child) := by
  rcases node with ⟨kind, text, children, span, message⟩
  by_cases hkind : kind = .error
  · simp [Complains, errors, hkind]
  · simp only [Complains, errors, hkind, if_false, mem_errorsOf, false_implies, true_and, ne_eq,
      not_false_eq_true, true_implies]
    constructor
    · intro hall child hchild error herror
      exact hall error ⟨child, hchild, herror⟩
    · rintro hall error ⟨child, hchild, herror⟩
      exact hall child hchild error herror

namespace Complains

variable {node : Node}

/-- Without an error of its own, a node has those of its children. -/
theorem of_children (hkind : node.kind ≠ .error)
    (hchildren : ∀ child ∈ node.children, Complains child) : Complains node :=
  complains_iff.2 ⟨fun herror => absurd herror hkind, fun _ => hchildren⟩

theorem children (hnode : Complains node) (hkind : node.kind ≠ .error) :
    ∀ child ∈ node.children, Complains child :=
  (complains_iff.1 hnode).2 hkind

theorem leaf {kind : Kind} (hkind : kind ≠ .error) (chars : List Char) :
    Complains (Node.leaf kind chars) :=
  of_children hkind (List.forall_mem_nil _)

theorem error {message : String} (hmessage : message ∈ complaints) (chars : List Char) :
    Complains (Node.error chars message) := by
  intro error herror
  obtain rfl := List.mem_singleton.1 herror
  exact ⟨message, hmessage, rfl⟩

/-- A node with an error of its own keeps it whatever its children are. -/
theorem with_children {nodes : List Node} (hnode : Complains node)
    (hnodes : node.kind ≠ .error → ∀ child ∈ nodes, Complains child) :
    Complains { node with children := nodes } :=
  complains_iff.2 ⟨(complains_iff.1 hnode).1, hnodes⟩

theorem inner {kind : Kind} {nodes : List Node} (hkind : kind ≠ .error)
    (hnodes : ∀ child ∈ nodes, Complains child) : Complains (Node.inner kind nodes) :=
  of_children hkind hnodes

/-- The children of a construct, with the last one apart. -/
theorem concat {nodes : List Node} {last : Node} (hnodes : ∀ node ∈ nodes, Complains node)
    (hlast : Complains last) : ∀ node ∈ nodes ++ [last], Complains node :=
  List.forall_mem_append.2 ⟨hnodes, List.forall_mem_singleton.2 hlast⟩

end Complains

/-- A token that is no leaf says one of its own messages. -/
theorem Lexeme.complains {messages : List String} {node : Node} (hlexeme : Lexeme messages node)
    (hmessages : ∀ message ∈ messages, message ∈ complaints) : Complains node := by
  cases hlexeme with
  | leaf hkind chars => exact .leaf hkind chars
  | error hmessage chars => exact .error (hmessages _ hmessage) chars

namespace Token

theorem complains_word (chars : List Char) : Complains (word chars) :=
  (lexeme_word chars).complains (by decide)

theorem complains_spaces (chars : List Char) : ∀ node ∈ (spaces chars).1, Complains node :=
  fun node hnode => (lexeme_spaces chars node hnode).complains (by decide)

theorem complains_trivia (chars : List Char) : ∀ node ∈ (trivia chars).1, Complains node :=
  forall_mem_trivia (fun htoken => (lexeme_triviaToken htoken).complains (by decide)) chars

end Token

/-! ## Steps -/

namespace Grammar

theorem complains_closing {kind : Kind} (hkind : kind ≠ .error) (delimiter : Char)
    {message : String} (hmessage : message ∈ complaints) (chars : List Char) :
    Complains (closing kind delimiter message chars).1 := by
  unfold closing
  split
  · exact .error hmessage _
  · split
    · exact .leaf hkind _
    · exact .error hmessage _

theorem complains_attachHash {node : Node} (hnode : Complains node) :
    Complains (attachHash node) := by
  have hhash : Complains (leaf .hash ['#']) := .leaf (by decide) _
  rw [attachHash]
  split
  · exact .inner (by decide) (List.forall_mem_cons.2 ⟨hhash, List.forall_mem_singleton.2 hnode⟩)
  · exact hnode.with_children fun hkind =>
      List.forall_mem_cons.2 ⟨hhash, hnode.children hkind⟩

theorem complains_call {node part : Node} (hnode : Complains node) (hpart : Complains part) :
    Complains (inner .funcCall [node, part]) :=
  .inner (by decide) (List.forall_mem_cons.2 ⟨hnode, List.forall_mem_singleton.2 hpart⟩)

theorem complains_applyBlock {node block : Node} (hnode : Complains node)
    (hblock : Complains block) : Complains (applyBlock node block) := by
  rw [applyBlock]
  split
  · exact hnode.with_children fun hkind => .concat (hnode.children hkind) hblock
  · exact complains_call hnode hblock

end Grammar

theorem MarkupToken.complains {chars : List Char} {token : Step}
    (htoken : MarkupToken chars token) : Complains token.1 := by
  cases htoken with
  | blank => exact (lexeme_blank _).complains (by decide)
  | lineComment => exact (lexeme_lineComment _).complains (by decide)
  | blockComment => exact (lexeme_blockComment _).complains (by decide)
  | escape => exact (lexeme_escape _).complains (by decide)
  | raw => exact (lexeme_raw _).complains (by decide)
  | math => exact (lexeme_math _).complains (by decide)
  | hash | bracket => exact .error (by decide) _
  | text => exact (lexeme_text _ _).complains (by decide)

theorem AtomToken.complains {chars : List Char} {token : Step}
    (htoken : AtomToken chars token) : Complains token.1 := by
  cases htoken with
  | number => exact (lexeme_number _).complains (by decide)
  | string => exact (lexeme_string _).complains (by decide)
  | missing | unexpected => exact .error (by decide) _

theorem Delimits.mem_complaints {kind marker : Kind} {delimiter : Char}
    (hdelimits : Delimits kind marker delimiter) :
    kind ≠ .error ∧ marker ≠ .error ∧ "unclosed " ++ kind.name ∈ complaints := by
  cases hdelimits <;> decide

theorem complains_keyword {kind word : Kind} {keyword : List Char}
    (hkeyword : Introduces kind word keyword) (chars : List Char) :
    ∀ node ∈ leaf word keyword :: (spaces chars).1, Complains node := by
  have hword : word ≠ .error := by cases hkeyword <;> decide
  exact List.forall_mem_cons.2 ⟨.leaf hword _, complains_spaces chars⟩

theorem Heads.complains {kind : Kind} {chars rest : List Char} {start : List Node}
    (hstart : Heads kind chars start rest) : ∀ node ∈ start, Complains node := by
  cases hstart with
  | mk chars hkeyword => exact .concat (complains_keyword hkeyword chars) (.leaf (by decide) _)

/-- The errors in all that was read are complaints. -/
def Symbol.Complains : (symbol : Symbol) → symbol.Result → Prop
  | .markup, nodes | .argItems, nodes => ∀ node ∈ nodes, Syntax.Complains node
  | .markupNode, node | .embedded, node | .value, node | .args, node | .arg, node
  | .codeExpr, node | .codeAtom, node | .contentBlock, node => Syntax.Complains node

/-- Whatever is read complains in one of the sentences for that. -/
theorem Reads.complains {symbol : Symbol} {chars rest : List Char} {result : symbol.Result}
    (hreads : Reads symbol chars result rest) : symbol.Complains result := by
  induction hreads with
  | markupNil => exact List.forall_mem_nil _
  | markupCons _ _ hnode hnodes => exact List.forall_mem_cons.2 ⟨hnode, hnodes⟩
  | markupToken htoken => exact htoken.complains
  | delimited hdelimits _ hnodes =>
    obtain ⟨hkind, hmarker, hmessage⟩ := hdelimits.mem_complaints
    refine .inner hkind (.concat (List.forall_mem_cons.2 ⟨.leaf hmarker _, hnodes⟩) ?_)
    exact Grammar.complains_closing hmarker _ hmessage _
  | hash _ hnode => exact Grammar.complains_attachHash hnode
  | unnamed chars hkeyword =>
    refine .inner ?_ (.concat (complains_keyword hkeyword chars) (.error (by decide) _))
    cases hkeyword <;> decide
  | setRule hstart _ harguments => exact .inner (by decide) (.concat hstart.complains harguments)
  | setNothing hstart => exact .inner (by decide) (.concat hstart.complains (.error (by decide) _))
  | letBinding hstart _ _ hvalue =>
    refine .inner (by decide) (.concat (List.forall_mem_append.2 ⟨?_, ?_⟩) hvalue)
    · exact List.forall_mem_append.2 ⟨hstart.complains, complains_spaces _⟩
    · exact List.forall_mem_cons.2 ⟨.leaf (by decide) _, complains_spaces _⟩
  | letNothing hstart => exact .inner (by decide) hstart.complains
  | embedded _ _ hnode => exact hnode
  | word => exact complains_word _
  | group _ harguments => exact harguments
  | call _ _ hnode harguments => exact Grammar.complains_call hnode harguments
  | block _ _ hnode hblock => exact Grammar.complains_applyBlock hnode hblock
  | args _ hitems =>
    refine .inner (by decide) (List.forall_mem_append.2 ⟨?_, hitems⟩)
    exact List.forall_mem_cons.2 ⟨.leaf (by decide) _, complains_trivia _⟩
  | argsUnclosed => exact List.forall_mem_singleton.2 (.error (by decide) _)
  | argsClosed => exact List.forall_mem_singleton.2 (.leaf (by decide) _)
  | comma _ hitems =>
    refine List.forall_mem_append.2 ⟨?_, hitems⟩
    exact List.forall_mem_cons.2 ⟨.leaf (by decide) _, complains_trivia _⟩
  | item _ _ _ hnode hitems =>
    refine List.forall_mem_append.2 ⟨?_, hitems⟩
    exact List.forall_mem_cons.2 ⟨hnode, complains_trivia _⟩
  | named _ _ _ hvalue =>
    refine .inner (by decide) (.concat (List.forall_mem_cons.2 ⟨.leaf (by decide) _, ?_⟩) hvalue)
    exact List.forall_mem_cons.2 ⟨.leaf (by decide) _, complains_trivia _⟩
  | unnamedArg _ hnode => exact hnode
  | codeExpr _ hnode => exact hnode
  | binary _ hoperator _ hleft hright =>
    refine .inner (by decide) (.concat (List.forall_mem_append.2 ⟨?_, ?_⟩) hright)
    · exact List.forall_mem_cons.2 ⟨hleft, complains_trivia _⟩
    · exact List.forall_mem_cons.2
        ⟨(lexeme_binaryOperator hoperator).complains (by decide), complains_trivia _⟩
  | atomToken htoken => exact htoken.complains
  | value _ hnode => exact hnode
  | content _ hnode => exact hnode
  | contentBlock _ hnodes =>
    refine .inner (by decide) (List.forall_mem_cons.2 ⟨.leaf (by decide) _, ?_⟩)
    refine List.forall_mem_cons.2 ⟨.inner (by decide) hnodes, List.forall_mem_singleton.2 ?_⟩
    exact Grammar.complains_closing (by decide) ']' (by decide) _

/-! ## Trees -/

/-- Numbers make no difference to errors. -/
theorem complains_withSpan_iff (span : Int) (node : Node) :
    Complains (node.withSpan span) ↔ Complains node := by
  induction node using Node.induction with
  | step node ih =>
    rw [complains_iff, complains_iff, kind_withSpan, message_withSpan, children_withSpan,
      List.forall_mem_map]
    exact and_congr_right fun _ => imp_congr_right fun _ => forall₂_congr ih

/-- Whatever is wrong with a text, it is complained about in one of the sentences for that. -/
theorem complains_of_erase_eq {root : Node} {text : String}
    (hroot : root.erase = (parse text).erase) : Complains root := by
  have hparsed : Complains (inner .markup (Grammar.topLevel text.toList)) :=
    .inner (by decide) (reads_topLevel text.toList).complains
  have hsame : root.withSpan detached =
      (inner .markup (Grammar.topLevel text.toList)).withSpan detached :=
    hroot.trans (erase_parse text)
  rwa [← complains_withSpan_iff detached, hsame, complains_withSpan_iff]

end Galley.Syntax
