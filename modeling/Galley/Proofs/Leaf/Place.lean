import Galley.Proofs.Coverage.Parse
import Galley.Proofs.Leaf.Form

/-!
# Every leaf is a token in its place

White space in markup ends where the text goes on with something else, so what is said of a node has
to know the characters behind it.  Each step of the grammar builds nodes from sound parts: it is
enough to put them one behind the other, because the parts together are what the step has read.
-/

namespace Galley.Syntax

open Galley.Text Node Token

/-! ## Places in a tree -/

namespace Node

mutual

/-- Something holds of every node of a tree and the characters behind it. -/
def EveryPlace (holds : Node → List Char → Prop) : Node → List Char → Prop
  | ⟨kind, text, children, span, message⟩, behind =>
    holds ⟨kind, text, children, span, message⟩ behind ∧ EveryPlaceOf holds children behind

def EveryPlaceOf (holds : Node → List Char → Prop) : List Node → List Char → Prop
  | [], _ => True
  | node :: nodes, behind =>
    node.EveryPlace holds (charsOf nodes ++ behind) ∧ EveryPlaceOf holds nodes behind

end

variable {holds holds' : Node → List Char → Prop}

theorem everyPlace_iff {node : Node} {behind : List Char} :
    node.EveryPlace holds behind ↔ holds node behind ∧ EveryPlaceOf holds node.children behind := by
  rcases node with ⟨kind, text, children, span, message⟩
  rw [EveryPlace]

theorem everyPlaceOf_append {left right : List Node} {behind : List Char} :
    EveryPlaceOf holds (left ++ right) behind ↔
      EveryPlaceOf holds left (charsOf right ++ behind) ∧ EveryPlaceOf holds right behind := by
  induction left with
  | nil => simp [EveryPlaceOf]
  | cons node left ih =>
    rw [List.cons_append, EveryPlaceOf, EveryPlaceOf, ih, charsOf_append, List.append_assoc,
      and_assoc]

mutual

theorem EveryPlace.imp (himplies : ∀ node behind, holds node behind → holds' node behind) :
    ∀ (node : Node) (behind : List Char),
      node.EveryPlace holds behind → node.EveryPlace holds' behind
  | ⟨_, _, children, _, _⟩, behind, hnode =>
    ⟨himplies _ _ hnode.1, EveryPlaceOf.imp himplies children behind hnode.2⟩

theorem EveryPlaceOf.imp (himplies : ∀ node behind, holds node behind → holds' node behind) :
    ∀ (nodes : List Node) (behind : List Char),
      EveryPlaceOf holds nodes behind → EveryPlaceOf holds' nodes behind
  | [], _, _ => trivial
  | node :: nodes, behind, hnodes =>
    ⟨EveryPlace.imp himplies node _ hnodes.1, EveryPlaceOf.imp himplies nodes behind hnodes.2⟩

end

mutual

/-- What does not depend on numbers holds however a tree is numbered. -/
theorem everyPlace_withSpan_iff (span : Int)
    (hspan : ∀ (node : Node) (behind : List Char), holds (node.withSpan span) behind ↔
      holds node behind) : ∀ (node : Node) (behind : List Char),
    (node.withSpan span).EveryPlace holds behind ↔ node.EveryPlace holds behind
  | ⟨kind, text, children, own, message⟩, behind => by
    rw [everyPlace_iff, everyPlace_iff, hspan]
    exact and_congr_right fun _ => everyPlaceOf_withSpanOf_iff span hspan children behind

theorem everyPlaceOf_withSpanOf_iff (span : Int)
    (hspan : ∀ (node : Node) (behind : List Char), holds (node.withSpan span) behind ↔
      holds node behind) : ∀ (nodes : List Node) (behind : List Char),
    EveryPlaceOf holds (withSpanOf span nodes) behind ↔ EveryPlaceOf holds nodes behind
  | [], _ => Iff.rfl
  | node :: nodes, behind => by
    rw [withSpanOf, EveryPlaceOf, EveryPlaceOf, charsOf_withSpanOf]
    exact and_congr (everyPlace_withSpan_iff span hspan node _)
      (everyPlaceOf_withSpanOf_iff span hspan nodes behind)

end

mutual

/-- The characters behind a place are those of the text. -/
theorem EveryPlace.within {text : List Char} : ∀ (node : Node) (behind : List Char),
    node.EveryPlace holds behind → node.chars ++ behind <:+ text →
      node.EveryPlace (fun inner behind => inner.chars ++ behind <:+ text ∧ holds inner behind)
        behind
  | ⟨_, _, [], _, _⟩, _, hnode, hwithin => ⟨⟨hwithin, hnode.1⟩, trivial⟩
  | ⟨_, _, child :: children, _, _⟩, behind, hnode, hwithin =>
    ⟨⟨hwithin, hnode.1⟩, EveryPlaceOf.within (child :: children) behind hnode.2 hwithin⟩

theorem EveryPlaceOf.within {text : List Char} : ∀ (nodes : List Node) (behind : List Char),
    EveryPlaceOf holds nodes behind → charsOf nodes ++ behind <:+ text →
      EveryPlaceOf (fun inner behind => inner.chars ++ behind <:+ text ∧ holds inner behind) nodes
        behind
  | [], _, _, _ => trivial
  | node :: nodes, behind, hnodes, hwithin => by
    rw [charsOf_cons, List.append_assoc] at hwithin
    exact ⟨EveryPlace.within node _ hnodes.1 hwithin,
      EveryPlaceOf.within nodes behind hnodes.2 ((List.suffix_append _ _).trans hwithin)⟩

end

mutual

/-- Every leaf has its place. -/
theorem exists_of_mem_leaves : ∀ (node : Node) (behind : List Char),
    node.EveryPlace holds behind → ∀ leaf ∈ node.leaves,
      leaf.children = [] ∧ ∃ behind, holds leaf behind
  | ⟨kind, text, [], span, message⟩, behind, hnode, leaf, hleaf => by
    obtain rfl := List.mem_singleton.1 hleaf
    exact ⟨rfl, behind, hnode.1⟩
  | ⟨kind, text, child :: children, span, message⟩, behind, hnode, leaf, hleaf => by
    obtain hleaf | hleaf := List.mem_append.1 hleaf
    · exact exists_of_mem_leaves child _ hnode.2.1 leaf hleaf
    · exact exists_of_mem_leavesOf children behind hnode.2.2 leaf hleaf

theorem exists_of_mem_leavesOf : ∀ (nodes : List Node) (behind : List Char),
    EveryPlaceOf holds nodes behind → ∀ leaf ∈ leavesOf nodes,
      leaf.children = [] ∧ ∃ behind, holds leaf behind
  | node :: nodes, behind, hnodes, leaf, hleaf => by
    obtain hleaf | hleaf := List.mem_append.1 hleaf
    · exact exists_of_mem_leaves node _ hnodes.1 leaf hleaf
    · exact exists_of_mem_leavesOf nodes behind hnodes.2 leaf hleaf

end

end Node

/-! ## White space in markup -/

namespace Kind

/-- Nodes whose children are markup, between delimiters or not. -/
def holdsMarkup : Kind → Bool
  | markup | strong | emph => true
  | _ => false

/-- White space as a node of markup. -/
def isBlank : Kind → Bool
  | space | parbreak => true
  | _ => false

end Kind

/-- If a node is white space in markup, it starts as such and goes on up to something else, and it
is a paragraph break from two newlines on. -/
def EndsBlank (node : Node) (behind : List Char) : Prop :=
  node.kind.isBlank = true → nextIs isSpace node.chars = true ∧ nextIs isSpace behind = false ∧
    (node.kind = .parbreak ↔ 2 ≤ node.chars.count '\n')

/-- This holds of all nodes of a run. -/
def Spaced : List Node → List Char → Prop
  | [], _ => True
  | node :: nodes, behind => EndsBlank node (charsOf nodes ++ behind) ∧ Spaced nodes behind

theorem EndsBlank.of_not_isBlank {node : Node} (hkind : node.kind.isBlank = false)
    (behind : List Char) : EndsBlank node behind := by
  intro hblank
  rw [hkind] at hblank
  cases hblank

theorem spaced_append {left right : List Node} {behind : List Char} :
    Spaced (left ++ right) behind ↔
      Spaced left (charsOf right ++ behind) ∧ Spaced right behind := by
  induction left with
  | nil => simp [Spaced]
  | cons node left ih =>
    rw [List.cons_append, Spaced, Spaced, ih, charsOf_append, List.append_assoc, and_assoc]

theorem endsBlank_withSpan_iff (span : Int) (node : Node) (behind : List Char) :
    EndsBlank (node.withSpan span) behind ↔ EndsBlank node behind := by
  rw [EndsBlank, EndsBlank, kind_withSpan, chars_withSpan]

theorem spaced_withSpan_iff (span : Int) (nodes : List Node) (behind : List Char) :
    Spaced (nodes.map (withSpan span)) behind ↔ Spaced nodes behind := by
  induction nodes with
  | nil => rfl
  | cons node nodes ih =>
    rw [List.map_cons, Spaced, Spaced, endsBlank_withSpan_iff, ih, ← withSpanOf_eq_map,
      charsOf_withSpanOf]

/-- A run of white space among the children of a node that holds markup: it goes on as far as there
is white space, none stands in front of it, and it is a paragraph break from two newlines on. -/
def MaximalBlanks (node : Node) (behind : List Char) : Prop :=
  node.kind.holdsMarkup = true → ∀ front blank back, node.children = front ++ blank :: back →
    blank.kind.isBlank = true →
      nextIs isSpace (charsOf back ++ behind) = false ∧
      (∀ previous ∈ front.getLast?, previous.kind.isBlank = false) ∧
      (blank.kind = .parbreak ↔ 2 ≤ blank.chars.count '\n')

theorem Spaced.maximal {front back : List Node} {blank : Node} {behind : List Char}
    (hspaced : Spaced (front ++ blank :: back) behind) (hblank : blank.kind.isBlank = true) :
    nextIs isSpace (charsOf back ++ behind) = false ∧
      (∀ previous ∈ front.getLast?, previous.kind.isBlank = false) ∧
      (blank.kind = .parbreak ↔ 2 ≤ blank.chars.count '\n') := by
  obtain ⟨hfront, hends, -⟩ := spaced_append.1 hspaced
  obtain ⟨hstarts, hstops, hbreak⟩ := hends hblank
  refine ⟨hstops, ?_, hbreak⟩
  intro previous hprevious
  obtain ⟨earlier, rfl⟩ := List.getLast?_eq_some_iff.1 hprevious
  obtain ⟨-, hbetween, -⟩ := spaced_append.1 hfront
  by_contra hkind
  have hnext := (hbetween (Bool.eq_true_of_not_eq_false hkind)).2.1
  -- The run in front would have gone on into this one.
  cases hchars : blank.chars with
  | nil =>
    rw [hchars] at hstarts
    cases hstarts
  | cons c chars =>
    rw [hchars] at hstarts
    rw [charsOf_nil, List.nil_append, charsOf_cons, hchars] at hnext
    cases hstarts.symm.trans hnext

/-- A leaf has its form, and what holds markup is spaced. -/
structure WellPlaced (node : Node) (behind : List Char) : Prop where
  form : node.children = [] → node.kind.Form node.text.toList
  spaced : node.kind.holdsMarkup = true → Spaced node.children behind

theorem wellPlaced_withSpan_iff (span : Int) (node : Node) (behind : List Char) :
    WellPlaced (node.withSpan span) behind ↔ WellPlaced node behind := by
  constructor
  · rintro ⟨hform, hspaced⟩
    rw [children_withSpan, kind_withSpan, List.map_eq_nil_iff, text_withSpan] at hform
    rw [children_withSpan, kind_withSpan, spaced_withSpan_iff] at hspaced
    exact ⟨hform, hspaced⟩
  · rintro ⟨hform, hspaced⟩
    constructor
    · rwa [children_withSpan, kind_withSpan, List.map_eq_nil_iff, text_withSpan]
    · rwa [children_withSpan, kind_withSpan, spaced_withSpan_iff]

theorem everyPlace_of_children {node : Node} {behind : List Char}
    (hkind : node.kind.holdsMarkup = false) (hchildren : node.children ≠ []) :
    node.EveryPlace WellPlaced behind ↔ EveryPlaceOf WellPlaced node.children behind := by
  rw [everyPlace_iff]
  refine ⟨And.right, fun hall => ⟨⟨fun hnone => absurd hnone hchildren, ?_⟩, hall⟩⟩
  rw [hkind]
  exact fun hfalse => by cases hfalse

theorem everyPlace_with_children {node : Node} {children : List Node} {behind : List Char}
    (hkind : node.kind.holdsMarkup = false) (hchildren : children ≠ []) :
    { node with children }.EveryPlace WellPlaced behind ↔
      EveryPlaceOf WellPlaced children behind :=
  everyPlace_of_children hkind hchildren

/-! ## Sound parts -/

/-- A node covers what was read, and everything in it is well placed. -/
structure Sound (chars : List Char) (node : Node) (rest : List Char) : Prop where
  append : node.chars ++ rest = chars
  places : node.EveryPlace WellPlaced rest

/-- So do the nodes of a run one behind the other. -/
structure SoundRun (chars : List Char) (nodes : List Node) (rest : List Char) : Prop where
  append : charsOf nodes ++ rest = chars
  places : EveryPlaceOf WellPlaced nodes rest

variable {chars middle rest : List Char} {node : Node} {nodes left right : List Node}

theorem Formed.sound (hnode : Formed node) (happend : node.chars ++ rest = chars) :
    Sound chars node rest := by
  refine ⟨happend, everyPlace_iff.2 ⟨⟨fun _ => hnode.form, ?_⟩, ?_⟩⟩
  · rw [hnode.children_eq]
    exact fun _ => trivial
  · rw [hnode.children_eq]
    trivial

theorem Sound.leaf {kind : Kind} {own : List Char} (hform : kind.Form own)
    (rest : List Char) : Sound (own ++ rest) (leaf kind own) rest :=
  (formed_leaf hform).sound (by rw [chars_leaf])

theorem Sound.mark (kind : Kind) (c : Char) (hform : kind.Form [c]) (rest : List Char) :
    Sound (c :: rest) (Node.leaf kind [c]) rest :=
  .leaf hform rest

theorem Sound.error (own : List Char) (message : String) (rest : List Char) :
    Sound (own ++ rest) (Node.error own message) rest :=
  (formed_error own message).sound (by rw [chars_error])

namespace SoundRun

theorem nil (chars : List Char) : SoundRun chars [] chars :=
  ⟨rfl, trivial⟩

theorem cons (hnode : Sound chars node middle) (hnodes : SoundRun middle nodes rest) :
    SoundRun chars (node :: nodes) rest := by
  obtain ⟨rfl, hnodes⟩ := hnodes
  exact ⟨by rw [charsOf_cons, List.append_assoc, hnode.append], hnode.places, hnodes⟩

theorem concat (hleft : SoundRun chars left middle) (hright : SoundRun middle right rest) :
    SoundRun chars (left ++ right) rest := by
  obtain ⟨rfl, hright⟩ := hright
  exact ⟨by rw [charsOf_append, List.append_assoc, hleft.append],
    everyPlaceOf_append.2 ⟨hleft.places, hright⟩⟩

theorem single (hnode : Sound chars node rest) : SoundRun chars [node] rest :=
  cons hnode (nil rest)

/-- The children of a construct in code. -/
theorem code (hnodes : SoundRun chars nodes rest) {kind : Kind}
    (hkind : kind.holdsMarkup = false) (hchildren : nodes ≠ []) :
    Sound chars (inner kind nodes) rest :=
  ⟨by rw [chars_inner, hnodes.append], (everyPlace_of_children hkind hchildren).2 hnodes.places⟩

/-- Nodes of markup between their delimiters. -/
theorem delimited (hnodes : SoundRun chars nodes rest) {kind : Kind} (hchildren : nodes ≠ [])
    (hspaced : Spaced nodes rest) : Sound chars (inner kind nodes) rest :=
  ⟨by rw [chars_inner, hnodes.append],
    everyPlace_iff.2 ⟨⟨fun hnone => absurd hnone hchildren, fun _ => hspaced⟩, hnodes.places⟩⟩

theorem markup (hnodes : SoundRun chars nodes rest) (hspaced : Spaced nodes rest) :
    Sound chars (inner .markup nodes) rest :=
  ⟨by rw [chars_inner, hnodes.append],
    everyPlace_iff.2 ⟨⟨fun _ => String.toList_empty, fun _ => hspaced⟩, hnodes.places⟩⟩

end SoundRun

/-- A token that starts with no white space is none. -/
theorem Formed.not_isBlank (hnode : Formed node) {first : Char}
    (hcovers : Covers [first] chars node rest) (hspace : isSpace first = false) :
    node.kind.isBlank = false := by
  obtain ⟨kind, text, children, span, message⟩ := node
  obtain ⟨rfl, hform⟩ := hnode
  obtain ⟨inside, hchars, -⟩ := hcovers
  have hfirst : first ∈ text.toList := by
    rw [show text.toList = [first] ++ inside from hchars]
    exact List.mem_cons_self
  cases kind with
  | space =>
    rw [hform.2 first hfirst] at hspace
    cases hspace
  | parbreak =>
    rw [hform.1 first hfirst] at hspace
    cases hspace
  | _ => rfl

theorem everyPlaceOf_of_formed (hnodes : ∀ node ∈ nodes, Formed node) (behind : List Char) :
    EveryPlaceOf WellPlaced nodes behind := by
  induction nodes with
  | nil => trivial
  | cons node nodes ih =>
    obtain ⟨hnode, hnodes⟩ := List.forall_mem_cons.1 hnodes
    exact ⟨(hnode.sound rfl).places, ih hnodes⟩

namespace Token

theorem sound_spaces (chars : List Char) : SoundRun chars (spaces chars).1 (spaces chars).2 :=
  ⟨spaces_covers chars, everyPlaceOf_of_formed (formed_spaces chars) _⟩

theorem sound_trivia (chars : List Char) : SoundRun chars (trivia chars).1 (trivia chars).2 :=
  ⟨trivia_covers chars, everyPlaceOf_of_formed (formed_trivia chars) _⟩

theorem sound_name {chars : List Char} (hstarts : nextIs startsName chars = true) :
    Sound chars (leaf .ident (name chars).1) (name chars).2 := by
  have hsound := Sound.leaf (form_name hstarts) (name chars).2
  rwa [name_append] at hsound

theorem sound_word {chars : List Char} (hstarts : nextIs startsName chars = true) :
    Sound chars (word (name chars).1) (name chars).2 :=
  (formed_word (form_name hstarts)).sound (by rw [chars_word, name_append])

end Token

end Galley.Syntax
