import Galley.Compile.Evaluation
import Galley.Proofs.Span.Numbering

/-!
# The shape of trees without errors

What evaluation asks of a node is said once for each kind: which children carry
meaning and in which order, where a delimiter stands, and what the text of a
leaf looks like.  A node is proper if it holds an error or if everything in it
has its shape; proper nodes are built from proper children.
-/

namespace Galley.Syntax

open Compile (isMeaningful)

namespace Kind

/-- Nodes that stand in markup. -/
def isMarkup : Kind → Bool
  | text | space | parbreak | linebreak | escape | strong | emph | raw | math | lineComment
  | blockComment | embedded | funcCall | setRule | letBinding => true
  | _ => false

/-- Nodes that stand for a value inside code. -/
def isValue : Kind → Bool
  | ident | bool | noneWord | int | float | numeric | str | contentBlock | args | funcCall
  | binary => true
  | _ => false

def isOperator : Kind → Bool
  | eqEq | exclEq | plus | minus => true
  | _ => false

/-- What an argument list holds between its parentheses. -/
def isArgument (kind : Kind) : Bool :=
  kind.isValue || kind == named

/-- What an argument list is made of. -/
def isItem (kind : Kind) : Bool :=
  kind.isArgument || kind.isTrivia || kind.isPunctuation

theorem isMeaningful_of_isValue {node : Node} (hvalue : node.kind.isValue = true) :
    isMeaningful node = true := by
  rw [isMeaningful]
  cases hkind : node.kind <;> simp_all [isValue, isTrivia, isPunctuation]

theorem isMeaningful_of_isOperator {node : Node} (hoperator : node.kind.isOperator = true) :
    isMeaningful node = true := by
  rw [isMeaningful]
  cases hkind : node.kind <;> simp_all [isOperator, isTrivia, isPunctuation]

theorem isMeaningful_of_isTrivia {node : Node} (htrivia : node.kind.isTrivia = true) :
    isMeaningful node = false := by
  rw [isMeaningful, htrivia]
  rfl

theorem isArgument_of_isItem {node : Node} (hitem : node.kind.isItem = true)
    (hmeans : isMeaningful node = true) : node.kind.isArgument = true := by
  rw [isMeaningful] at hmeans
  rw [isItem] at hitem
  revert hitem hmeans
  cases node.kind.isTrivia <;> cases node.kind.isPunctuation <;> simp

end Kind

/-! ## Texts of leaves -/

/-- Digits with an optional minus in front. -/
def WholeText (chars : List Char) : Prop :=
  ∃ sign digits, (sign = [] ∨ sign = ['-']) ∧ digits ≠ [] ∧
    (∀ c ∈ digits, Text.isAsciiDigit c = true) ∧ chars = sign ++ digits

/-- Digits, a point and digits again, with an optional minus in front. -/
def PointText (chars : List Char) : Prop :=
  ∃ whole places, WholeText whole ∧ places ≠ [] ∧
    (∀ c ∈ places, Text.isAsciiDigit c = true) ∧ chars = whole ++ '.' :: places

/-- The texts that a leaf of a kind may have. -/
def LeafText (kind : Kind) (chars : List Char) : Prop :=
  match kind with
  | .escape => (∃ c, chars = ['\\', c]) ∨
      ∃ digits, digits ≠ [] ∧ (∀ c ∈ digits, Text.isHexDigit c = true) ∧
        chars = '\\' :: 'u' :: '\x7b' :: digits ++ ['\x7d']
  | .raw => chars = ['\x60', '\x60'] ∨
      ∃ ticks body, 0 < ticks ∧ body ≠ [] ∧ body.head? ≠ some '\x60' ∧
        chars = List.replicate ticks '\x60' ++ body ++ List.replicate ticks '\x60'
  | .math => ∃ body, chars = '$' :: body ++ ['$']
  | .int => WholeText chars
  | .float => PointText chars
  | .numeric => ∃ number unit, (WholeText number ∨ PointText number) ∧ unit ∈ Token.units ∧
      chars = number ++ unit
  | .str => ∃ body, chars = '"' :: body ++ ['"']
  | _ => True

/-! ## Shapes -/

/-- What evaluation asks of a node of a kind, given the kinds of its children,
those among them that carry meaning, and its own text. -/
def Kind.Shape (kind : Kind) (kinds meaning : List Kind) (chars : List Char) : Prop :=
  match kind with
  | .markup => ∀ child ∈ kinds, child.isMarkup = true
  | .strong => ∃ inside, kinds = star :: inside ++ [star] ∧
      ∀ child ∈ inside, child.isMarkup = true
  | .emph => ∃ inside, kinds = underscore :: inside ++ [underscore] ∧
      ∀ child ∈ inside, child.isMarkup = true
  | .contentBlock => kinds = [leftBracket, markup, rightBracket]
  | .embedded => ∃ code, meaning = [code] ∧ code.isValue = true
  | .args => ∀ item ∈ meaning, item.isArgument = true
  | .named => ∃ value, meaning = [ident, value] ∧ value.isValue = true
  | .funcCall => ∃ callee parts, meaning = callee :: parts ∧ callee.isValue = true ∧
      ∀ part ∈ parts, part = args ∨ part = contentBlock
  | .binary => ∃ left operator right, meaning = [left, operator, right] ∧
      left.isValue = true ∧ operator.isOperator = true ∧ right.isValue = true
  | .letBinding => meaning = [letWord, ident] ∨
      ∃ value, meaning = [letWord, ident, eq, value] ∧ value.isValue = true
  | .setRule => meaning = [setWord, ident, args]
  | .error => False
  | kind => kinds = [] ∧ LeafText kind chars

/-- The kinds of the children that carry meaning. -/
def Node.meaning (node : Node) : List Kind :=
  (node.children.filter isMeaningful).map Node.kind

/-- A node has the shape of its kind. -/
def Shaped (node : Node) : Prop :=
  node.kind.Shape (node.children.map Node.kind) node.meaning node.text.toList

namespace Node

@[simp]
theorem kind_leaf (kind : Kind) (chars : List Char) : (leaf kind chars).kind = kind := rfl

@[simp]
theorem kind_inner (kind : Kind) (children : List Node) : (inner kind children).kind = kind := rfl

@[simp]
theorem text_withSpan (span : Int) (node : Node) : (node.withSpan span).text = node.text := by
  rcases node with ⟨kind, text, children, own, message⟩
  rfl

@[simp]
theorem children_inner (kind : Kind) (children : List Node) :
    (inner kind children).children = children := rfl

mutual

/-- What a node has as soon as its children have it, every node has. -/
@[elab_as_elim]
theorem induction {motive : Node → Prop}
    (step : ∀ node : Node, (∀ child ∈ node.children, motive child) → motive node) :
    ∀ node : Node, motive node
  | ⟨_, _, children, _, _⟩ => step _ (inductionOf step children)

theorem inductionOf {motive : Node → Prop}
    (step : ∀ node : Node, (∀ child ∈ node.children, motive child) → motive node) :
    ∀ nodes : List Node, ∀ node ∈ nodes, motive node
  | [] => List.forall_mem_nil _
  | node :: nodes => List.forall_mem_cons.2 ⟨induction step node, inductionOf step nodes⟩

end

/-- Something holds of every node of a tree. -/
def Everywhere (holds : Node → Prop) (node : Node) : Prop :=
  ∀ inner ∈ node.preorder, holds inner

theorem mem_preorderOf {inner : Node} {nodes : List Node} :
    inner ∈ preorderOf nodes ↔ ∃ node ∈ nodes, inner ∈ node.preorder := by
  induction nodes with
  | nil => simp [preorderOf]
  | cons node nodes ih => simp [preorderOf, ih]

theorem preorder_eq (node : Node) : node.preorder = node :: preorderOf node.children := by
  rcases node with ⟨kind, text, children, span, message⟩
  rw [preorder]

theorem everywhere_iff {holds : Node → Prop} {node : Node} :
    node.Everywhere holds ↔ holds node ∧ ∀ child ∈ node.children, child.Everywhere holds := by
  simp only [Everywhere, preorder_eq node, List.forall_mem_cons, mem_preorderOf]
  exact and_congr_right fun _ =>
    ⟨fun hall child hchild inner hinner => hall inner ⟨child, hchild, hinner⟩,
      fun hall inner ⟨child, hchild, hinner⟩ => hall child hchild inner hinner⟩

theorem preorder_subset {inner : Node} (node : Node) (hinner : inner ∈ node.preorder) :
    inner.preorder ⊆ node.preorder := by
  induction node using induction with
  | step node ih =>
    rw [preorder_eq node] at hinner ⊢
    obtain rfl | hbelow := List.mem_cons.1 hinner
    · rw [preorder_eq inner]
      exact List.Subset.refl _
    · obtain ⟨child, hchild, hmem⟩ := mem_preorderOf.1 hbelow
      intro other hother
      exact List.mem_cons_of_mem _ (mem_preorderOf.2 ⟨child, hchild, ih child hchild hmem hother⟩)

theorem Everywhere.of_mem {holds : Node → Prop} {node inner : Node}
    (hnode : node.Everywhere holds) (hinner : inner ∈ node.preorder) : inner.Everywhere holds :=
  fun _ hother => hnode _ (preorder_subset node hinner hother)

theorem errorsOf_eq_nil_iff {nodes : List Node} :
    errorsOf nodes = [] ↔ ∀ node ∈ nodes, node.errors = [] := by
  induction nodes with
  | nil => simp [errorsOf]
  | cons node nodes ih => simp [errorsOf, ih]

theorem errors_eq_nil_iff {node : Node} :
    node.errors = [] ↔ node.kind ≠ .error ∧ ∀ child ∈ node.children, child.errors = [] := by
  rcases node with ⟨kind, text, children, span, message⟩
  rw [errors, ← errorsOf_eq_nil_iff]
  by_cases hkind : kind = .error <;> simp [hkind]

theorem errors_withSpan_eq_nil_iff (span : Int) (node : Node) :
    (node.withSpan span).errors = [] ↔ node.errors = [] := by
  induction node using induction with
  | step node ih =>
    rw [errors_eq_nil_iff, errors_eq_nil_iff, kind_withSpan, children_withSpan,
      List.forall_mem_map]
    exact and_congr_right fun _ => forall₂_congr ih

theorem everywhere_withSpan_iff {holds : Node → Prop} (span : Int)
    (hspan : ∀ node : Node, holds (node.withSpan span) ↔ holds node) (node : Node) :
    (node.withSpan span).Everywhere holds ↔ node.Everywhere holds := by
  induction node using induction with
  | step node ih =>
    rw [everywhere_iff, everywhere_iff, children_withSpan, List.forall_mem_map]
    exact and_congr (hspan node) (forall₂_congr ih)

end Node

/-- No span number is a part of a shape. -/
theorem shaped_withSpan_iff (span : Int) (node : Node) :
    Shaped (node.withSpan span) ↔ Shaped node := by
  have hkind : Node.kind ∘ Node.withSpan span = Node.kind :=
    funext fun child => Node.kind_withSpan span child
  have hmeaning : isMeaningful ∘ Node.withSpan span = isMeaningful :=
    funext fun child => by simp [isMeaningful]
  rw [Shaped, Shaped, Node.meaning, Node.meaning, Node.children_withSpan, List.filter_map,
    List.map_map, List.map_map, hkind, hmeaning, Node.kind_withSpan, Node.text_withSpan]

open Node

/-- Unless it holds an error, a node has one of some kinds, and everything in it
has its shape. -/
def Proper (kinds : Kind → Prop) (node : Node) : Prop :=
  node.errors = [] → kinds node.kind ∧ node.Everywhere Shaped

namespace Proper

variable {kinds kinds' : Kind → Prop} {node : Node}

theorem mono (hnode : Proper kinds node) (himplies : ∀ kind, kinds kind → kinds' kind) :
    Proper kinds' node :=
  fun herrors => (hnode herrors).imp_left (himplies _)

theorem error (chars : List Char) (message : String) :
    Proper kinds (Node.error chars message) := by
  intro herrors
  cases herrors

/-- A node without errors is proper if its children are and its own shape follows
from theirs. -/
theorem of_children (hkind : kinds node.kind)
    (hchildren : ∀ child ∈ node.children, Proper (fun _ => True) child)
    (hshape : (∀ child ∈ node.children, child.errors = []) → Shaped node) :
    Proper kinds node := by
  intro herrors
  have hclean := (errors_eq_nil_iff.1 herrors).2
  exact ⟨hkind, everywhere_iff.2
    ⟨hshape hclean, fun child hchild => (hchildren child hchild (hclean child hchild)).2⟩⟩

theorem leaf {kind : Kind} {chars : List Char} (hkind : kinds kind)
    (hshape : Shaped (Node.leaf kind chars)) : Proper kinds (Node.leaf kind chars) :=
  of_children hkind (by simp [Node.leaf]) fun _ => hshape

theorem any (hnode : Proper kinds node) : Proper (fun _ => True) node :=
  hnode.mono fun _ _ => trivial

theorem all_any {nodes : List Node} (hnodes : ∀ node ∈ nodes, Proper kinds node) :
    ∀ node ∈ nodes, Proper (fun _ => True) node :=
  fun node hnode => (hnodes node hnode).any

theorem kind_of_clean (hnode : Proper kinds node) (hclean : node.errors = []) :
    kinds node.kind :=
  (hnode hclean).1

end Proper

end Galley.Syntax
