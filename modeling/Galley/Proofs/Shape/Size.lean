import Galley.Proofs.Edit.Order
import Galley.Proofs.Shape.Rules

/-!
# Trees are no larger than their texts

Errors about something missing are empty, but each of them stands beside a token,
and every other node that is built covers at least one character of its own.  So a
tree has at most five nodes for each character of its text, and any text in reach
leaves enough span numbers for them.
-/

namespace Galley.Syntax

open Galley.Text Node Token

/-! ## The surplus of a tree -/

namespace Node

/-- What is left of five units for each character of a tree when every node of it
has taken one. -/
def surplus (node : Node) : Int :=
  5 * node.chars.length - node.size

def surplusOf (nodes : List Node) : Int :=
  5 * (charsOf nodes).length - sizeOf nodes

@[simp, grind =]
theorem surplusOf_nil : surplusOf [] = 0 := rfl

@[simp, grind =]
theorem surplusOf_cons (node : Node) (nodes : List Node) :
    surplusOf (node :: nodes) = node.surplus + surplusOf nodes := by
  simp only [surplusOf, surplus, charsOf_cons, sizeOf, List.length_append]
  omega

@[simp, grind =]
theorem surplusOf_append (left right : List Node) :
    surplusOf (left ++ right) = surplusOf left + surplusOf right := by
  simp only [surplusOf, charsOf_append, sizeOf_append, List.length_append]
  omega

@[simp, grind =]
theorem surplus_leaf (kind : Kind) (chars : List Char) :
    (leaf kind chars).surplus = 5 * chars.length - 1 := by
  rw [surplus, chars_leaf]
  rfl

@[grind =]
theorem surplus_mark (kind : Kind) (c : Char) : (leaf kind [c]).surplus = 4 := by
  simp

@[grind =]
theorem surplusOf_concat (nodes : List Node) (last : Node) :
    surplusOf (nodes ++ [last]) = surplusOf nodes + last.surplus := by
  simp

@[simp, grind =]
theorem surplus_error (chars : List Char) (message : String) :
    (error chars message).surplus = 5 * chars.length - 1 := by
  rw [surplus, chars_error]
  rfl

@[simp, grind =]
theorem surplus_inner (kind : Kind) (children : List Node) :
    (inner kind children).surplus = surplusOf children - 1 := by
  rw [surplus, chars_inner, size_eq, surplusOf, children_inner]
  omega

/-- A node with children has what they leave to it. -/
theorem surplus_of_children {node : Node} (hchildren : node.children ≠ []) :
    node.surplus = surplusOf node.children - 1 := by
  rw [surplus, chars_of_children hchildren, size_eq, surplusOf]
  omega

end Node

/-- A node of fewer than five nodes for each character that it covers. -/
def Compact (node : Node) : Prop :=
  0 < node.surplus

/-- A value is compact where it has something to cover, and a single error otherwise. -/
structure CompactValue (chars : List Char) (node : Node) : Prop where
  surplus : -1 ≤ node.surplus
  compact : Grammar.StartsValue chars → Compact node

theorem Compact.value {node : Node} (hnode : Compact node) (chars : List Char) :
    CompactValue chars node :=
  ⟨(by decide : (-1 : Int) ≤ 0).trans (le_of_lt hnode), fun _ => hnode⟩

theorem surplusOf_nonneg {nodes : List Node} (hnodes : ∀ node ∈ nodes, Compact node) :
    0 ≤ surplusOf nodes := by
  induction nodes with
  | nil => exact Int.le_refl 0
  | cons node nodes ih =>
    obtain ⟨hnode, hrest⟩ := List.forall_mem_cons.1 hnodes
    rw [surplusOf_cons]
    exact Int.add_nonneg (le_of_lt hnode) (ih hrest)

/-! ## Tokens -/

theorem compact_of_leaf {node : Node} (hleaf : node.children = []) (hchars : node.chars ≠ []) :
    Compact node := by
  have hpos := List.length_pos_iff.2 hchars
  rw [Compact, surplus, size_eq, hleaf, Node.sizeOf]
  omega

/-- A leaf behind characters that it covers is compact. -/
theorem Covers.compact {front chars rest : List Char} {node : Node}
    (hcovers : Covers front chars node rest) (hfront : front ≠ []) (hleaf : node.children = []) :
    Compact node :=
  compact_of_leaf hleaf (hcovers.chars_ne_nil hfront)

namespace Token

theorem compact_word {chars : List Char} (hchars : chars ≠ []) : Compact (word chars) :=
  compact_of_leaf (lexeme_word chars).children_eq (by rwa [chars_word])

theorem compact_number {chars : List Char} (hstarts : StartsNumber chars) :
    Compact (number chars).1 := by
  cases chars with
  | nil => obtain hdigit | ⟨_, hsign, _⟩ := hstarts <;> contradiction
  | cons c rest =>
    refine compact_of_leaf (lexeme_number _).children_eq (number_ne_nil ?_ rest)
    exact hstarts.imp_right fun ⟨_, hsign, _⟩ => (List.cons.inj hsign).1

theorem compact_spaces (chars : List Char) : ∀ node ∈ (spaces chars).1, Compact node := by
  intro node hnode
  obtain ⟨rfl, hrun⟩ := eq_of_mem_spaces hnode
  exact compact_of_leaf rfl (by rwa [chars_leaf])

theorem compact_triviaToken {chars rest : List Char} {node : Node}
    (htoken : triviaToken chars = some (node, rest)) : Compact node :=
  compact_of_leaf (lexeme_triviaToken htoken).children_eq (triviaToken_covers htoken).2

theorem compact_trivia (chars : List Char) : ∀ node ∈ (trivia chars).1, Compact node :=
  forall_mem_trivia compact_triviaToken chars

theorem surplus_binaryOperator {chars rest : List Char} {operator : Node}
    (hoperator : binaryOperator chars = some (operator, rest)) : 4 ≤ operator.surplus := by
  obtain rfl | rfl | rfl | rfl := (binaryOperator_cases hoperator).1 <;> decide

end Token

/-! ## Parts of nodes -/

namespace Grammar

theorem surplus_closing (kind : Kind) (delimiter : Char) (message : String) (chars : List Char) :
    -1 ≤ (closing kind delimiter message chars).1.surplus := by
  unfold closing
  split
  · simp
  · split <;> simp

/-- The hash pays for itself and for a node around it. -/
theorem compact_attachHash {node : Node} (hnode : Compact node) : Compact (attachHash node) := by
  rw [Compact] at hnode ⊢
  rw [attachHash]
  by_cases hempty : node.children = []
  · rw [hempty]
    show 0 < (inner .embedded [leaf .hash ['#'], node]).surplus
    grind
  · rw [surplus_of_children hempty] at hnode
    rw [if_neg (by simpa using hempty), surplus_of_children (List.cons_ne_nil _ _)]
    grind

theorem compact_call {node part : Node} (hnode : Compact node) (hpart : Compact part) :
    Compact (inner .funcCall [node, part]) := by
  rw [Compact] at *
  grind

theorem compact_applyBlock {node block : Node} (hcall : CallsHaveChildren node)
    (hnode : Compact node) (hblock : Compact block) : Compact (applyBlock node block) := by
  rw [applyBlock]
  split
  · rename_i hkind
    rw [Compact] at *
    rw [surplus_of_children (hcall hkind)] at hnode
    rw [surplus_of_children (by simp)]
    grind
  · exact compact_call hnode hblock

end Grammar

/-! ## What the rules build -/

theorem MarkupToken.compact {chars : List Char} {token : Step} (htoken : MarkupToken chars token) :
    Compact token.1 := by
  cases htoken with
  | blank chars hspace => exact (blank_covers hspace chars).compact (List.cons_ne_nil _ _) rfl
  | lineComment chars => exact (lineComment_covers chars).compact (List.cons_ne_nil _ _) rfl
  | blockComment chars =>
    exact (blockComment_covers chars).compact (List.cons_ne_nil _ _)
      (lexeme_blockComment _).children_eq
  | escape chars =>
    exact (escape_covers chars).compact (List.cons_ne_nil _ _) (lexeme_escape _).children_eq
  | raw chars => exact (raw_covers chars).compact (List.cons_ne_nil _ _) (lexeme_raw _).children_eq
  | math chars =>
    exact (math_covers chars).compact (List.cons_ne_nil _ _) (lexeme_math _).children_eq
  | hash | bracket => exact compact_of_leaf rfl (by simp)
  | text chars => exact (text_covers _ chars).compact (List.cons_ne_nil _ _) rfl

theorem AtomToken.compactValue {chars : List Char} {token : Step} (htoken : AtomToken chars token) :
    CompactValue chars token.1 := by
  cases htoken with
  | number hstarts =>
    exact (compact_number hstarts).value _
  | string chars =>
    exact ((string_covers chars).compact (List.cons_ne_nil _ _)
      (lexeme_string _).children_eq).value _
  | missing hstarts => exact ⟨by simp, fun hvalue => absurd hvalue hstarts⟩
  | unexpected => exact (compact_of_leaf rfl (by simp)).value _

/-- A keyword and a name pay for a node around them and an error behind them. -/
theorem Heads.surplus {kind : Kind} {chars rest : List Char} {start : List Node}
    (hstart : Heads kind chars start rest) : 2 < surplusOf start := by
  cases hstart with
  | mk chars hkeyword =>
    have hgap := surplusOf_nonneg (compact_spaces chars)
    cases hkeyword <;> grind

/-- What each symbol is read as.  Errors in the place of values have no characters to pay for them,
nor have those at the end of arguments. -/
abbrev Symbol.Pays : (symbol : Symbol) → List Char → symbol.Result → Prop
  | .markup, _, nodes => ∀ node ∈ nodes, Compact node
  | .markupNode, _, node | .embedded, _, node | .contentBlock, _, node => Compact node
  | .value, _, node | .args, _, node => Compact node ∧ Grammar.CallsHaveChildren node
  | .argItems, _, nodes => -1 ≤ surplusOf nodes
  | .arg, chars, node | .codeExpr, chars, node | .codeAtom, chars, node => CompactValue chars node

/-- What is read is compact, apart from errors in the place of values. -/
theorem Reads.pays {symbol : Symbol} {chars rest : List Char} {result : symbol.Result}
    (hreads : Reads symbol chars result rest) : symbol.Pays chars result := by
  induction hreads with
  | markupNil => exact List.forall_mem_nil _
  | markupCons _ _ hnode hnodes => exact List.forall_mem_cons.2 ⟨hnode, hnodes⟩
  | markupToken htoken => exact htoken.compact
  | @delimited kind marker delimiter _ middle _ _ _ hnodes =>
    have hinside := surplusOf_nonneg hnodes
    have hclose := Grammar.surplus_closing marker delimiter ("unclosed " ++ kind.name) middle
    grind [Compact]
  | hash _ hnode => exact Grammar.compact_attachHash hnode
  | unnamed chars hkeyword =>
    have hgap := surplusOf_nonneg (compact_spaces chars)
    cases hkeyword <;> grind [Compact]
  | setRule hstart _ harguments =>
    have hhead := hstart.surplus
    have harguments := harguments.1
    grind [Compact]
  | setNothing hstart =>
    have hhead := hstart.surplus
    grind [Compact]
  | @letBinding _ middle behind _ _ _ hstart _ _ hvalue =>
    have hhead := hstart.surplus
    have hbefore := surplusOf_nonneg (compact_spaces middle)
    have hbehind := surplusOf_nonneg (compact_spaces behind)
    have hvalue := hvalue.surplus
    grind [Compact]
  | letNothing hstart =>
    have hhead := hstart.surplus
    grind [Compact]
  | embedded _ _ hnode => exact hnode.1
  | word hstarts =>
    exact ⟨compact_word (name_ne_nil hstarts), Grammar.callsHaveChildren_word _⟩
  | group _ harguments => exact harguments
  | call _ _ hnode harguments =>
    exact ⟨Grammar.compact_call hnode.1 harguments.1, fun _ => List.cons_ne_nil _ _⟩
  | block _ _ hnode hblock =>
    exact ⟨Grammar.compact_applyBlock hnode.2 hnode.1 hblock,
      Grammar.callsHaveChildren_applyBlock _ _⟩
  | @args chars _ _ _ hitems =>
    have hgap := surplusOf_nonneg (compact_trivia chars)
    exact ⟨by grind [Compact], fun hkind => by cases hkind⟩
  | argsUnclosed => simp
  | argsClosed => simp
  | @comma chars _ _ _ hitems =>
    have hgap := surplusOf_nonneg (compact_trivia chars)
    grind
  | @item _ middle _ _ _ hstarts _ _ hnode hitems =>
    have hnode := hnode.compact hstarts
    have hgap := surplusOf_nonneg (compact_trivia middle)
    grind [Compact]
  | @named _ behind _ _ _ _ _ hvalue =>
    have hgap := surplusOf_nonneg (compact_trivia behind)
    have hvalue := hvalue.surplus
    refine Compact.value ?_ _
    grind [Compact]
  | unnamedArg _ hnode => exact hnode
  | codeExpr _ hnode => exact hnode
  | @binary _ middle behind _ _ _ _ _ hoperator _ hleft hright =>
    have hleft := hleft.surplus
    have hbefore := surplusOf_nonneg (compact_trivia middle)
    have hoperator := surplus_binaryOperator hoperator
    have hbehind := surplusOf_nonneg (compact_trivia behind)
    have hright := hright.surplus
    refine Compact.value ?_ _
    grind [Compact]
  | atomToken htoken => exact htoken.compactValue
  | value _ hnode => exact hnode.1.value _
  | content _ hnode => exact hnode.value _
  | @contentBlock _ middle _ _ hnodes =>
    have hinside := surplusOf_nonneg hnodes
    have hclose := Grammar.surplus_closing .rightBracket ']' "unclosed delimiter" middle
    grind [Compact]

/-! ## Whole texts -/

/-- A tree has at most five nodes for each character of its text, and its root. -/
theorem size_parse_le (text : String) : (parse text).size ≤ 5 * text.length + 1 := by
  have hsize := surplusOf_nonneg (reads_topLevel text.toList).pays
  rw [surplusOf, Grammar.charsOf_topLevel, String.length_toList] at hsize
  rw [size_eq_of_erase_eq (erase_parse text), size_eq, children_inner]
  omega

theorem length_le_byteLength (chars : List Char) : chars.length ≤ byteLength chars := by
  induction chars with
  | nil => rfl
  | cons c chars ih =>
    have hpos := c.utf8Size_pos
    rw [List.length_cons, byteLength_cons]
    omega

/-- There are enough numbers for the tree of any text of up to sixteen tebibytes. -/
theorem fits_parse {text : String} (hshort : text.utf8ByteSize ≤ 2 ^ 44) : Fits (parse text) := by
  have hsize := size_parse_le text
  have hlength := length_le_byteLength text.toList
  rw [String.length_toList, byteLength_toList] at hlength
  have hupper : upperSpan = 2 ^ 47 := rfl
  have hfirst : firstSpan = 2 := rfl
  rw [Fits, hupper, hfirst]
  omega

end Galley.Syntax
