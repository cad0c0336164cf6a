import Galley.Proofs.Evaluation.Documents

/-!
# Styles in the course of an evaluation

A source may begin with any styles that leave room on the page and give text a size.  Set rules
refuse what does not, and behind a block stand the page styles of the block beside the text size
from before, so the styles stay that way at every node of every document.  A document that is asked
for has styles, names and flags of its own.
-/

namespace Galley.Compile

open Syntax Document Eval

/-! ## Calls for documents -/

/-- An evaluation that only looks. -/
def Idle {α : Type} (action : Eval α) : Prop :=
  ∀ machine, (action machine).2 = machine

theorem idle_expect (span : Int) (what : String) (args : List Arg) :
    Idle (Arg.expect span what args) := by
  rw [Arg.expect]
  split <;> exact fun _ => rfl

theorem idle_castString (span : Int) (value : Value) : Idle (castString span value) := by
  unfold castString
  split <;> exact fun _ => rfl

theorem idle_finish (args : List Arg) : Idle (Arg.finish args) := by
  cases args <;> exact fun _ => rfl

/-- What is idle can be left out where only the machine matters. -/
theorem Idle.after_bind {α β : Type} {action : Eval α} (hidle : Idle action) {next : α → Eval β}
    {holds : Machine → Prop} {machine : Machine} (hmachine : holds machine)
    (hnext : ∀ value, holds (next value machine).2) : holds ((action >>= next) machine).2 := by
  have hsame := hidle machine
  rw [bind_apply]
  generalize action machine = answer at hsame
  obtain ⟨stop | value, after⟩ := answer <;> obtain rfl : after = machine := hsame
  · exact hmachine
  · exact hnext value

/-- A call for a document leaves the machine alone apart from what the document does to it. -/
theorem after_load {asking : Nat} {load : Int → String → Eval Content} {span : Int}
    {args : List Arg} (holds : Machine → Prop) {machine : Machine} (hmachine : holds machine)
    (hload : ∀ path, holds (load span path machine).2) :
    holds (call ⟨asking, load⟩ .load span args machine).2 := by
  refine (idle_expect span "path" args).after_bind hmachine fun answer => ?_
  refine (idle_castString span answer.1).after_bind hmachine fun path => ?_
  refine (idle_finish answer.2).after_bind hmachine fun _ => ?_
  have hafter := hload path
  change holds ((load span path >>= fun content => pure (Value.content content)) machine).2
  rw [bind_apply]
  generalize load span path machine = outcome at hafter
  obtain ⟨stop | content, after⟩ := outcome <;> exact hafter

/-! ## Sound styles -/

/-- The watch that wants sound styles, wherever a node stands. -/
abbrev stylesWatch : Watch where
  Place := Unit
  strong := id
  emph := id
  fine _ machine := machine.styles.Sound

/-- A node with its evaluation as long as the styles are sound. -/
def evalStyled (astray : Stop) (context : Context) (node : Node) : Operand :=
  stylesWatch.evalNode astray context () node

/-- The styles are sound. -/
def soundStyles : Discipline stylesWatch where
  holds _ machine := machine.styles.Sound
  fine hsound := decide_eq_true hsound
  count _ hsound := hsound
  print _ hsound := hsound
  report _ _ hsound _ := hsound
  restyle hbefore hsound hstyles := hstyles hbefore hsound
  enterStrong hsound := hsound
  leaveStrong _ hsound := hsound
  enterEmph hsound := hsound
  leaveEmph _ hsound := hsound
  bind _ _ _ hsound _ := hsound

theorem loads_soundStyles (files : File.Tree) (chain : List Nat)
    (enter : Source → Surroundings → Except Failure Module × Surroundings) :
    soundStyles.Loads (loadDocument files chain enter) (loadDocument files chain enter) := by
  intro _ place span path
  refine Abides.of_any (fun _ _ _ => trivial) (fun _ => trivial) fun machine hsound => ?_
  show Styles.Sound _
  rw [(loadDocument_keeps files chain enter span path machine).1]
  exact hsound

theorem sound_default : Styles.Sound {} := by decide +kernel

/-- What comes of a source that begins with sound styles has sound styles. -/
theorem sound_of_evaluateFrom {styles : Styles} (hstyles : styles.Sound) {files : File.Tree}
    {depth : Nat} {route : List Nat} {source : Source} {outside : Surroundings} {module : Module}
    (hmodule : (evaluateFrom styles evalNode files depth route source outside).1 = .ok module) :
    module.styles.Sound := by
  cases depth with
  | zero => cases hmodule
  | succ depth =>
    rw [evaluateFrom] at hmodule
    split at hmodule
    · obtain ⟨after, machine, hconforms⟩ := exists_conforms_of_evaluateTreeFrom
        (loads_soundStyles files _ _) (fun _ _ => trivial) () hstyles hmodule
      rw [hconforms.styles]
      exact hconforms.holds
    · cases hmodule
      exact sound_default

/-! ## Blocks -/

/-- Behind a block the machine is as its body leaves it, apart from the text size, which is that
from before. -/
theorem machine_contentBlock {context : Context} {block body : Node}
    (hkind : block.kind = .contentBlock) (hbody : block.children[1]? = some body)
    (machine : Machine) :
    let ended := ((evalNode context body).content machine).2
    ((evalNode context block).value machine).2 =
      { ended with styles := { ended.styles with textSize := machine.styles.textSize } } := by
  obtain ⟨first, rest, hchildren⟩ : ∃ first rest, block.children = first :: body :: rest := by
    generalize block.children = children at hbody
    obtain _ | ⟨first, _ | ⟨second, rest⟩⟩ := children
    · cases hbody
    · cases hbody
    · obtain rfl := Option.some.inj hbody
      exact ⟨first, rest, rfl⟩
  have hvalue : (evalNode context block).value =
      do return .content (← withinBlock (evalNode context body).content) := by
    rw [evalNode_eq context block]
    show evalInner _ _ _ = _
    unfold evalInner
    rw [hkind, hchildren]
    rfl
  rw [hvalue, bind_apply, withinBlock]
  generalize (evalNode context body).content machine = answer
  obtain ⟨stop | content, ended⟩ := answer <;> rfl

/-- However a source with sound styles to begin with is evaluated, the styles are sound at every
node of every document and in the module that comes of it; the default styles are one way to
begin.  Behind a block the text size is that from before, and page settings of the block stay,
however it ends.  A document that is asked for leaves styles, names and flags alone. -/
theorem styles_stay_sound {library : Styles} (hlibrary : library.Sound) (files : File.Tree) :
    (∀ depth, evaluate files depth = evaluateFrom {} evalNode files depth) ∧
    (∀ depth route source outside astray,
      evaluateFrom library (evalStyled astray) files depth route source outside =
        evaluateFrom library evalNode files depth route source outside) ∧
    (∀ depth route source outside module,
      (evaluateFrom library evalNode files depth route source outside).1 = .ok module →
        module.styles.Sound) ∧
    (∀ context block body machine, block.kind = .contentBlock → block.children[1]? = some body →
      let ended := ((evalNode context body).content machine).2
      ((evalNode context block).value machine).2 =
        { ended with styles := { ended.styles with textSize := machine.styles.textSize } }) ∧
    (∀ asking chain enter span args machine,
      let after := (call ⟨asking, loadDocument files chain enter⟩ .load span args machine).2
      after.styles = machine.styles ∧ after.scope = machine.scope ∧
        after.strong = machine.strong ∧ after.emph = machine.emph) := by
  refine ⟨evaluate_eq_from files, fun depth route source outside astray => ?_, fun depth => ?_,
    ?_, ?_⟩
  · have hwatched := evaluateFrom_watched (fun _ => trivial) (loads_soundStyles files) astray ()
      (fun _ => hlibrary) depth
    exact congrFun (congrFun (congrFun hwatched route) source) outside
  · exact fun route source outside module hmodule => sound_of_evaluateFrom hlibrary hmodule
  · exact fun context block body machine hkind hbody => machine_contentBlock hkind hbody machine
  · intro asking chain enter span args machine
    refine after_load (fun after => after.styles = machine.styles ∧
      after.scope = machine.scope ∧ after.strong = machine.strong ∧ after.emph = machine.emph)
      ⟨rfl, rfl, rfl, rfl⟩ fun path => ?_
    exact loadDocument_keeps files chain enter span path machine

/-- Styles with pages of a limited height, and a block that sets a page and text. -/
theorem styles_stay_sound_limited :
    Styles.Sound { pageHeight := some (.points 50.0), textSize := .points 12.0 } ∧
    evaluateFrom { pageHeight := some (.points 50.0), textSize := .points 12.0 }
        (evalStyled (.failure .endlessChain)) ⟨[]⟩ 1 []
        (Source.detached "#[#set page(margin: 1pt) #set text(size: 20pt) a] b")
        { world := { root := { names := ["assets"] } } } =
      evaluateFrom { pageHeight := some (.points 50.0), textSize := .points 12.0 } evalNode ⟨[]⟩
        1 [] (Source.detached "#[#set page(margin: 1pt) #set text(size: 20pt) a] b")
        { world := { root := { names := ["assets"] } } } :=
  have hsound : Styles.Sound { pageHeight := some (.points 50.0), textSize := .points 12.0 } := by
    decide +kernel
  ⟨hsound, (styles_stay_sound hsound ⟨[]⟩).2.1 1 [] _ _ _⟩

end Galley.Compile
