import Galley.Indexing
import Galley.Syntax.Kind
import Galley.Text.Quoted
import Galley.Text.Utf8

/-!
# Syntax trees

A node is a leaf with text or an inner node with children. Inner nodes cover
the text of their leaves and nothing else, so every length and position of a
node is read off its leaves. Error nodes are leaves that carry a message; their
text may be empty.

Every node carries a span number, by which it is found again in its tree.
Views of a tree come in pairs, one for a node and one for a list of siblings.
-/

namespace Galley.Syntax

/-- The span of a node that belongs to no numbered tree. -/
def detached : Int := 1

structure Node where
  kind : Kind
  text : String := ""
  children : List Node := []
  span : Int := detached
  message : Option String := none
  deriving Inhabited

namespace Node

/-- A leaf with the given characters. -/
def leaf (kind : Kind) (chars : List Char) : Node :=
  { kind, text := String.ofList chars }

def inner (kind : Kind) (children : List Node) : Node :=
  { kind, children }

/-- An error leaf that covers the given characters. -/
def error (chars : List Char) (message : String) : Node :=
  { kind := .error, text := String.ofList chars, message := some message }

mutual

/-- The characters that a node covers: those of its leaves in order. -/
def chars : Node → List Char
  | ⟨_, text, [], _, _⟩ => text.toList
  | ⟨_, _, child :: children, _, _⟩ => child.chars ++ charsOf children

def charsOf : List Node → List Char
  | [] => []
  | node :: nodes => node.chars ++ charsOf nodes

end

/-- The text that a node covers. -/
def fullText (node : Node) : String :=
  String.ofList node.chars

mutual

/-- Length of the covered text in bytes. -/
def byteLen : Node → Nat
  | ⟨_, text, [], _, _⟩ => Text.byteLength text.toList
  | ⟨_, _, child :: children, _, _⟩ => child.byteLen + byteLenOf children

def byteLenOf : List Node → Nat
  | [] => 0
  | node :: nodes => node.byteLen + byteLenOf nodes

end

mutual

/-- Length of the covered text in characters. -/
def charLen : Node → Nat
  | ⟨_, text, [], _, _⟩ => text.toList.length
  | ⟨_, _, child :: children, _, _⟩ => child.charLen + charLenOf children

def charLenOf : List Node → Nat
  | [] => 0
  | node :: nodes => node.charLen + charLenOf nodes

end

mutual

/-- Number of nodes of a tree. -/
def size : Node → Nat
  | ⟨_, _, children, _, _⟩ => 1 + sizeOf children

def sizeOf : List Node → Nat
  | [] => 0
  | node :: nodes => node.size + sizeOf nodes

end

mutual

/-- The nodes of a tree in pre-order. -/
def preorder : Node → List Node
  | ⟨kind, text, children, span, message⟩ =>
    ⟨kind, text, children, span, message⟩ :: preorderOf children

def preorderOf : List Node → List Node
  | [] => []
  | node :: nodes => node.preorder ++ preorderOf nodes

end

/-- The node that is reached from child to child by their indexes. -/
def descendant? (node : Node) (indexes : List Int) : Option Node :=
  indexes.foldlM (fun node index => itemAt? node.children index) node

mutual

/-- The leaves of a tree in document order, the node itself if it has no
children. -/
def leaves : Node → List Node
  | ⟨kind, text, [], span, message⟩ => [⟨kind, text, [], span, message⟩]
  | ⟨_, _, child :: children, _, _⟩ => child.leaves ++ leavesOf children

def leavesOf : List Node → List Node
  | [] => []
  | node :: nodes => node.leaves ++ leavesOf nodes

end

mutual

/-- The error nodes of a tree in document order. -/
def errors : Node → List Node
  | ⟨kind, text, children, span, message⟩ =>
    if kind = .error then [⟨kind, text, children, span, message⟩] else errorsOf children

def errorsOf : List Node → List Node
  | [] => []
  | node :: nodes => node.errors ++ errorsOf nodes

end

mutual

/-- The tree with the same span number on every node. -/
def withSpan (span : Int) : Node → Node
  | ⟨kind, text, children, _, message⟩ => ⟨kind, text, withSpanOf span children, span, message⟩

def withSpanOf (span : Int) : List Node → List Node
  | [] => []
  | node :: nodes => node.withSpan span :: withSpanOf span nodes

end

/-- The tree without its span numbers. -/
def erase (node : Node) : Node :=
  node.withSpan detached

mutual

/-- Whether two trees agree in everything, span numbers included. -/
def same : Node → Node → Bool
  | ⟨kind, text, children, span, message⟩, ⟨kind', text', children', span', message'⟩ =>
    kind == kind' && text == text' && span == span' && message == message' &&
      sameAll children children'

def sameAll : List Node → List Node → Bool
  | [], [] => true
  | node :: nodes, node' :: nodes' => node.same node' && sameAll nodes nodes'
  | _, _ => false

end

instance : BEq Node := ⟨same⟩

mutual

theorem eq_of_same : ∀ {left right : Node}, left.same right = true → left = right
  | ⟨_, _, children, _, _⟩, ⟨_, _, children', _, _⟩, hsame => by
    simp only [same, Bool.and_eq_true, beq_iff_eq] at hsame
    obtain ⟨⟨⟨⟨rfl, rfl⟩, rfl⟩, rfl⟩, hchildren⟩ := hsame
    rw [eq_of_sameAll hchildren]

theorem eq_of_sameAll : ∀ {left right : List Node}, sameAll left right = true → left = right
  | [], [], _ => rfl
  | [], _ :: _, hsame => by simp [sameAll] at hsame
  | _ :: _, [], hsame => by simp [sameAll] at hsame
  | node :: nodes, node' :: nodes', hsame => by
    simp only [sameAll, Bool.and_eq_true] at hsame
    rw [eq_of_same hsame.1, eq_of_sameAll hsame.2]

end

mutual

theorem same_self : ∀ node : Node, node.same node = true
  | ⟨_, _, children, _, _⟩ => by simp [same, sameAll_self children]

theorem sameAll_self : ∀ nodes : List Node, sameAll nodes nodes = true
  | [] => rfl
  | node :: nodes => by simp [sameAll, same_self node, sameAll_self nodes]

end

instance : LawfulBEq Node where
  eq_of_beq := eq_of_same
  rfl := same_self _

instance : DecidableEq Node := fun left right =>
  decidable_of_iff (left.same right = true)
    ⟨eq_of_same, fun heq => heq ▸ same_self left⟩

/-- The head of a dump line: kind, span and message. -/
def dumpHead (node : Node) (indent : Nat) : String :=
  let pad := String.ofList (List.replicate (2 * indent) ' ')
  let span := if node.span = detached then "" else s!" @{node.span}"
  let message :=
    if node.kind = .error then " (" ++ node.message.getD "None" ++ ")" else ""
  pad ++ node.kind.name ++ span ++ message

mutual

/-- The lines of an indented dump: leaves with their text, inner nodes with
their length in bytes. -/
def dumpLines (indent : Nat) : Node → List String
  | ⟨kind, text, [], span, message⟩ =>
    [dumpHead ⟨kind, text, [], span, message⟩ indent ++ ": " ++ Text.quoted text]
  | ⟨kind, text, child :: children, span, message⟩ =>
    (dumpHead ⟨kind, text, child :: children, span, message⟩ indent ++
      s!": {child.byteLen + byteLenOf children}") ::
      (child.dumpLines (indent + 1) ++ dumpLinesOf (indent + 1) children)

def dumpLinesOf (indent : Nat) : List Node → List String
  | [] => []
  | node :: nodes => node.dumpLines indent ++ dumpLinesOf indent nodes

end

/-- The dump of a tree. -/
def dump (node : Node) : String :=
  "\n".intercalate (node.dumpLines 0)

end Node

end Galley.Syntax
