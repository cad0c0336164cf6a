import Galley.Proofs.Evaluation.Documents

/-!
# Strong and emphasized text

The flags of the machine are those of the strong and emphasized nodes around a node, and they are
what they were behind it, whatever happens in it.  So text is set strong inside a strong node, at
every depth and in the bodies of links, and nowhere else, unless it comes from elsewhere under a
name or in a document.  The exception is a link without a body, which shows its destination plainly
wherever it stands.
-/

namespace Galley.Compile

open Syntax Document Eval

/-- Whether text is strong and emphasized. -/
structure Flags where
  strong : Bool
  emph : Bool
  deriving DecidableEq, Repr

/-- The flags of plain text. -/
def Flags.plain : Flags := ⟨false, false⟩

def Machine.flags (machine : Machine) : Flags :=
  ⟨machine.strong, machine.emph⟩

/-- The watch that wants the flags of the strong and emphasized nodes around. -/
abbrev flagsWatch : Watch where
  Place := Flags
  strong flags := { flags with strong := true }
  emph flags := { flags with emph := true }
  fine flags machine := machine.flags = flags

/-- A node with its evaluation as long as the flags are those of the nodes around it, none in
front of the root. -/
def evalFlagged (astray : Stop) (context : Context) (node : Node) : Operand :=
  flagsWatch.evalNode astray context Flags.plain node

/-! ## Flags -/

/-- The flags are those of the place. -/
def trueFlags : Discipline flagsWatch where
  holds flags machine := machine.flags = flags
  fine hflags := decide_eq_true hflags
  count _ hflags := hflags
  print _ hflags := hflags
  report _ _ hflags _ := hflags
  restyle _ hflags _ := hflags
  enterStrong hflags := hflags ▸ rfl
  leaveStrong hbefore hflags := by
    subst hbefore
    obtain ⟨-, hemph⟩ := Flags.mk.inj hflags
    exact congrArg (Flags.mk _) hemph
  enterEmph hflags := hflags ▸ rfl
  leaveEmph hbefore hflags := by
    subst hbefore
    obtain ⟨hstrong, -⟩ := Flags.mk.inj hflags
    exact congrArg (Flags.mk · _) hstrong
  bind _ _ _ hflags _ := hflags

theorem loads_trueFlags (files : File.Tree) (chain : List Nat)
    (enter : Source → Surroundings → Except Failure Module × Surroundings) :
    trueFlags.Loads (loadDocument files chain enter) (loadDocument files chain enter) := by
  intro _ place span path
  refine Abides.of_any (fun _ _ _ => trivial) (fun _ => trivial) fun machine hflags => ?_
  obtain ⟨-, -, hstrong, hemph⟩ := loadDocument_keeps files chain enter span path machine
  show Flags.mk _ _ = place
  rw [hstrong, hemph]
  exact hflags

/-- Behind a node the flags are what they were in front of it, however it ends. -/
theorem flags_evalNode (files : File.Tree) (chain : List Nat)
    (enter : Source → Surroundings → Except Failure Module × Surroundings) (source : Nat)
    (node : Node) (machine : Machine) :
    ((evalNode ⟨source, loadDocument files chain enter⟩ node).value machine).2.flags =
      machine.flags :=
  ((follows_evalNode (loads_trueFlags files chain enter) source machine.flags node
    fun _ _ => trivial).run machine rfl).2.1

/-! ## Letters -/

/-- Letters have the flags of what is around them, and no others but those of something in
between. -/
structure Marked (around between : Flags) (letter : Letters) : Prop where
  strong : around.strong = true → letter.strong = true
  emph : around.emph = true → letter.emph = true
  strong_only : letter.strong = true → around.strong = true ∨ between.strong = true
  emph_only : letter.emph = true → around.emph = true ∨ between.emph = true

/-- The flags of the strong and emphasized nodes of a tree. -/
def marks (node : Node) : Flags :=
  ⟨node.preorder.any fun inner => inner.kind == .strong,
    node.preorder.any fun inner => inner.kind == .emph⟩

/-- Text is marked as the nodes around it are.  There are no names, and no nodes with flags but
those that are allowed for. -/
def markedLetters (between : Flags) : Discipline flagsWatch where
  holds flags machine := machine.flags = flags ∧ machine.scope = []
  letters flags letter := Marked flags between letter
  admits node := node.kind ≠ .letBinding ∧ (node.kind = .strong → between.strong = true) ∧
    (node.kind = .emph → between.emph = true)
  fine hholds := decide_eq_true hholds.1
  count _ hholds := hholds
  print _ hholds := hholds
  report _ _ hholds _ := hholds
  restyle _ hholds _ := hholds
  enterStrong hholds := ⟨trueFlags.enterStrong hholds.1, hholds.2⟩
  leaveStrong hbefore hholds := ⟨trueFlags.leaveStrong hbefore.1 hholds.1, hholds.2⟩
  enterEmph hholds := ⟨trueFlags.enterEmph hholds.1, hholds.2⟩
  leaveEmph hbefore hholds := ⟨trueFlags.leaveEmph hbefore.1 hholds.1, hholds.2⟩
  bind _ hadmits hkind _ _ := absurd hkind hadmits.1
  set _ hholds _ := hholds.1 ▸ ⟨id, id, .inl, .inl⟩
  strong hadmits hkind hmarked :=
    ⟨fun _ => hmarked.strong rfl, hmarked.emph, fun _ => .inr (hadmits.2.1 hkind),
      hmarked.emph_only⟩
  emph hadmits hkind hmarked :=
    ⟨hmarked.strong, fun _ => hmarked.emph rfl, hmarked.strong_only,
      fun _ => .inr (hadmits.2.2 hkind)⟩
  scope hholds hentry := nomatch hholds.2 ▸ hentry

/-! ## Trees without documents -/

/-- An outcome asks for no document: it is the same however documents are loaded. -/
def AsksForNothing {β : Type} (outcome : (Int → String → Eval Content) → β) : Prop :=
  ∀ load load', outcome load = outcome load'

/-- Nothing that is known is the function that asks for documents, and no node names it. -/
def withoutDocuments : Discipline idleWatch where
  holds _ machine := ∀ entry ∈ machine.scope, entry.2 ≠ .func .load
  calls native := native ≠ .load
  admits node := node.kind = .ident → node.text ≠ "include"
  fine _ := rfl
  count _ hholds := hholds
  print _ hholds := hholds
  report _ _ hholds _ := hholds
  restyle _ hholds _ := hholds
  enterStrong hholds := hholds
  leaveStrong _ hholds := hholds
  enterEmph hholds := hholds
  leaveEmph _ hholds := hholds
  bind _ _ _ hholds hvalue :=
    List.forall_mem_cons.2 ⟨fun hload => hvalue.calls .load hload rfl, hholds⟩
  scope hholds hentry :=
    ⟨fun _ _ => trivial, fun _ _ _ _ => trivial,
      fun _ hnative hload => hholds _ hentry (hload ▸ hnative)⟩
  callable hadmits hident hname hload := hadmits hident (hload ▸ hname).symm

theorem loads_withoutDocuments (load load' : Int → String → Eval Content) :
    withoutDocuments.Loads load load' :=
  fun hcalls => absurd rfl hcalls

/-- A node that does not name the function which loads documents asks for none, unless it is in
scope under another name. -/
theorem asksForNothing_evalNode (source : Nat) {node : Node} {machine : Machine}
    (hnames : ∀ inner ∈ node.preorder, inner.kind = .ident → inner.text ≠ "include")
    (hscope : ∀ entry ∈ machine.scope, entry.2 ≠ .func .load) :
    AsksForNothing fun load => (evalNode ⟨source, load⟩ node).value machine := by
  intro load load'
  have hsame := fun first second => ((Obeys.of_loads (loads_withoutDocuments first second)
    (.failure .endlessChain) source () node hnames).value.run machine hscope).1
  exact (hsame load load').symm.trans (hsame load' load')

/-- Nor does a tree that does not name it. -/
theorem asksForNothing_evaluateTree {source : Source} {outside : Surroundings}
    (hnames : ∀ inner ∈ source.root.preorder, inner.kind = .ident → inner.text ≠ "include") :
    AsksForNothing fun load => evaluateTree ⟨source.id, load⟩ source outside := by
  intro load load'
  have hstart : withoutDocuments.holds () (outside.machine {}) := List.forall_mem_nil _
  have hsame := fun first second => (evaluateTreeFrom_obeys (loads_withoutDocuments first second)
    hnames (.failure .endlessChain) () hstart).1
  exact (hsame load load').symm.trans (hsame load' load')

/-- A way to load documents that refuses them all. -/
def refuseAll (span : Int) (_ : String) : Eval Content :=
  report span .cyclicInclude

theorem loads_refuseAll (between : Flags) :
    (markedLetters between).Loads refuseAll refuseAll :=
  fun _ _ _ _ => ⟨fun _ hholds => ⟨rfl, hholds, trivial⟩⟩

/-! ## What is marked -/

section Unbound

variable {node : Node} (hlet : ∀ inner ∈ node.preorder, inner.kind ≠ .letBinding)
include hlet

theorem admits_markedLetters : node.Everywhere (markedLetters (marks node)).admits := by
  refine fun inner hinner => ⟨hlet inner hinner, fun hkind => ?_, fun hkind => ?_⟩
  · exact List.any_eq_true.2 ⟨inner, hinner, beq_iff_eq.2 hkind⟩
  · exact List.any_eq_true.2 ⟨inner, hinner, beq_iff_eq.2 hkind⟩

/-- The letters of what a node comes to are marked as the nodes around them are. -/
theorem marked_evalNode {source : Nat} {load : Int → String → Eval Content} {machine : Machine}
    (hscope : machine.scope = [])
    (hasks : AsksForNothing fun load => (evalNode ⟨source, load⟩ node).value machine)
    {value : Value} (hvalue : ((evalNode ⟨source, load⟩ node).value machine).1 = .ok value) :
    ∀ letter ∈ value.letters,
      Marked (flagsWatch.inside machine.flags node.kind) (marks node) letter := by
  obtain ⟨-, -, hallows⟩ := (follows_evalNode (loads_refuseAll (marks node)) source machine.flags
    node (admits_markedLetters hlet)).run machine ⟨rfl, hscope⟩
  rw [show (evalNode ⟨source, load⟩ node).value machine = _ from hasks load refuseAll] at hvalue
  rw [hvalue] at hallows
  exact hallows.letters

end Unbound

/-- The letters of a module are marked as the nodes of its source are. -/
theorem marked_evaluateTree {source : Source} {load : Int → String → Eval Content}
    {outside : Surroundings} (hlet : ∀ inner ∈ source.root.preorder, inner.kind ≠ .letBinding)
    (hasks : AsksForNothing fun load => evaluateTree ⟨source.id, load⟩ source outside)
    {module : Module} (hmodule : (evaluateTree ⟨source.id, load⟩ source outside).1 = .ok module) :
    ∀ letter ∈ Elem.lettersAll module.content,
      Marked .plain (marks source.root) letter := by
  rw [show evaluateTree ⟨source.id, load⟩ source outside = _ from hasks load refuseAll] at hmodule
  obtain ⟨after, machine, hconforms⟩ := exists_conforms_of_evaluateTreeFrom
    (loads_refuseAll (marks source.root)) (admits_markedLetters hlet) .plain ⟨rfl, rfl⟩ hmodule
  exact hconforms.content

/-- At every node the flags are those of the strong and emphasized nodes around it, and they are
what they were behind it, however it ends.  So all letters inside a strong node are strong, and
without names and documents none are strong that have no such node around them; emphasis is the
same.  A link shows its body as it is, and only a link without one shows its destination plainly,
whatever is around it. -/
theorem emphasis_reaches_text (files : File.Tree) :
    (∀ depth route source outside astray,
      evaluateFrom {} (evalFlagged astray) files depth route source outside =
        evaluate files depth route source outside) ∧
    (∀ chain enter source node machine,
      ((evalNode ⟨source, loadDocument files chain enter⟩ node).value machine).2.flags =
        machine.flags) ∧
    (∀ source load node machine value, (∀ inner ∈ node.preorder, inner.kind ≠ .letBinding) →
      machine.scope = [] →
      (AsksForNothing fun load => (evalNode ⟨source, load⟩ node).value machine) →
      ((evalNode ⟨source, load⟩ node).value machine).1 = .ok value →
      ∀ letter ∈ value.letters,
        Marked (flagsWatch.inside machine.flags node.kind) (marks node) letter) ∧
    (∀ source load outside module, (∀ inner ∈ source.root.preorder, inner.kind ≠ .letBinding) →
      (AsksForNothing fun load => evaluateTree ⟨source.id, load⟩ source outside) →
      (evaluateTree ⟨source.id, load⟩ source outside).1 = .ok module →
      ∀ letter ∈ Elem.lettersAll module.content,
        Marked .plain (marks source.root) letter) ∧
    (∀ context span place place' dest body machine,
      call context .link span [⟨none, .str dest, place⟩, ⟨none, .content body, place'⟩] machine =
        (.ok (.content [.link dest body]), machine) ∧
      call context .link span [⟨none, .str dest, place⟩] machine =
        (.ok (.content [.link dest [.text dest machine.styles.textSize false false]]),
          machine)) := by
  refine ⟨fun depth route source outside astray => ?_, flags_evalNode files, ?_, ?_, ?_⟩
  · rw [evaluate_eq_from, ← evaluateFrom_watched (fun _ => trivial) (loads_trueFlags files) astray
      .plain (fun _ => rfl) depth]
    rfl
  · exact fun source load node machine value hlet hscope hasks hvalue =>
      marked_evalNode hlet hscope hasks hvalue
  · exact fun source load outside module hlet hasks hmodule =>
      marked_evaluateTree hlet hasks hmodule
  · exact fun context span place place' dest body machine => ⟨rfl, rfl⟩

/-- Strong text with emphasized text and a link in it. -/
theorem emphasis_reaches_text_nested :
    let source := Source.detached "*a _b_ #link(\"d\")[c]* e"
    let outside : Surroundings := { world := { root := .current } }
    (∀ inner ∈ source.root.preorder, inner.kind ≠ .letBinding) ∧
    (AsksForNothing fun load => evaluateTree ⟨source.id, load⟩ source outside) ∧
    (∀ module, (evaluateTree ⟨source.id, refuseAll⟩ source outside).1 = .ok module →
      ∀ letter ∈ Elem.lettersAll module.content, Marked .plain (marks source.root) letter) ∧
    (evaluateTree ⟨source.id, refuseAll⟩ source outside).1.toOption.map
        (fun module => Elem.lettersAll module.content) =
      some [⟨"a", true, false⟩, ⟨"b", true, true⟩, ⟨"c", true, false⟩, ⟨"e", false, false⟩] := by
  intro source outside
  have hlet : ∀ inner ∈ source.root.preorder, inner.kind ≠ .letBinding := by decide +kernel
  have hasks : AsksForNothing fun load => evaluateTree ⟨source.id, load⟩ source outside :=
    asksForNothing_evaluateTree (by decide +kernel)
  refine ⟨hlet, hasks, fun module hmodule => ?_, by decide +kernel⟩
  exact (emphasis_reaches_text ⟨[]⟩).2.2.2.1 source refuseAll outside module hlet hasks hmodule

/-- A link without a body shows its destination plainly inside a strong node. -/
theorem emphasis_misses_destination :
    (parse "*#link(\"a\")*").errors = [] ∧
    (compile ⟨[]⟩ ⟨(World.set { root := .current } { names := ["m"] }
      "*#link(\"a\")*").2, "", 0⟩).1.toOption.map (fun compiled =>
        compiled.module.content.map fun elem =>
          match elem with
          | .link _ [.text word _ strong _] => some (word, strong)
          | _ => none) = some [some ("a", false)] :=
  ⟨by decide +kernel, by decide +kernel⟩

end Galley.Compile
