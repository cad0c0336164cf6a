import Galley.Proofs.Evaluation.Documents
import Galley.Proofs.Leaf.Name
import Galley.Proofs.Shape.Complaint
import Galley.Proofs.Value.Printed
import Galley.Proofs.World.Explained

/-!
# Messages

What is reported is one of a few sentences, with the names in a document, the types of its values or
what those are printed as.  All of it is solid, and only two kinds of errors show text that is not
written in a document as a word: a failed assertion shows its values, and a load error shows a path.
Those are where a message gets a line break from.
-/

namespace Galley.Compile

open Syntax Document Text

/-- Errors that show a line break: a failed assertion about a string with one, and a document that
is missing under a path with one. -/
inductive EvalError.Breaks (root : File.Path) : EvalError → Prop
  | assertionFailed {left right : Value} {leftText rightText : String}
      (hleft : left.repr = .ok leftText) (hright : right.repr = .ok rightText)
      (hbreak : ∃ string ∈ left.strings ++ right.strings, '\n' ∈ string.toList) :
      Breaks root (.assertionFailed leftText rightText)
  | load {files : File.Tree} {asked : String} {error : LoadError}
      (hload : World.load { root } files (World.normalize { root } (.ofString asked)) =
        .error (.error error))
      (hbreak : '\n' ∈ asked.toList ∨ ∃ name ∈ root.names, '\n' ∈ name.toList) :
      Breaks root (.load error)

/-- A message that stands on a line, unless it is that of an error that shows a line break. -/
abbrev Tellable (root : File.Path) (message : String) : Prop :=
  LinedBut (∃ error : EvalError, error.Breaks root ∧ message = error.message) message.toList

variable {root : File.Path}

/-! ## Errors -/

theorem word_typeName (value : Value) : Word value.typeName.toList := by
  cases value <;> (rw [Value.typeName]; decide)

theorem word_kindName (kind : Kind) : Word kind.name.toList := by
  cases kind <;> decide

/-- A sentence about something that stands on a line. -/
theorem tellable_about (front : String) {line : String} (hline : Lined line.toList)
    (hhead : SolidHead front.toList := by decide)
    (hfront : '\n' ∉ front.toList := by decide) : Tellable root (front ++ line) := by
  refine Lined.linedBut ?_
  rw [String.toList_append]
  exact hline.prepend hhead hfront

/-- A sentence about two such things. -/
theorem tellable_about_two (front between : String) {first last : String}
    (hfirst : Lined first.toList) (hlast : Lined last.toList)
    (hhead : SolidHead front.toList := by decide)
    (hfront : '\n' ∉ front.toList := by decide)
    (hbetween : '\n' ∉ between.toList := by decide) :
    Tellable root (front ++ first ++ between ++ last) := by
  refine tellable_about _ hlast ?_ ?_
  · simp only [String.toList_append]
    exact head_append (head_append hhead _) _
  · simp only [String.toList_append, List.mem_append, hfront, hfirst.line, hbetween, or_self,
      not_false_eq_true]

/-- A failed assertion has the line breaks of its values. -/
theorem tellable_assertionFailed {left right : Value} {leftText rightText : String}
    (hleft : left.repr = .ok leftText) (hright : right.repr = .ok rightText) :
    Tellable root (EvalError.assertionFailed leftText rightText).message := by
  have hmessage : (EvalError.assertionFailed leftText rightText).message =
      "Assertion failed: " ++ leftText ++ " != " ++ rightText := rfl
  have hleftText := Value.printed_of_repr left leftText hleft
  have hrightText := Value.printed_of_repr right rightText hright
  constructor
  · rw [hmessage]
    simp only [String.toList_append]
    exact ⟨head_append (head_append (head_append (by decide) _) _) _,
      last_append _ hrightText.solid.last⟩
  · intro hnewline
    refine ⟨_, .assertionFailed hleft hright ?_, rfl⟩
    have hopening : '\n' ∉ "Assertion failed: ".toList := by decide
    have hbetween : '\n' ∉ " != ".toList := by decide
    rw [hmessage] at hnewline
    simp only [String.toList_append, List.mem_append, hopening, hbetween, false_or, or_false]
      at hnewline
    obtain hshown | hshown := hnewline
    · obtain ⟨string, hstring, hline⟩ := hleftText.lines hshown
      exact ⟨string, List.mem_append_left _ hstring, hline⟩
    · obtain ⟨string, hstring, hline⟩ := hrightText.lines hshown
      exact ⟨string, List.mem_append_right _ hstring, hline⟩

/-- The errors of a tree can be told if the names in it are words. -/
theorem tellable_of_sourced {error : EvalError}
    (herror : error.Sourced fun name => Word name.toList) : Tellable root error.message := by
  cases herror with
  | cannotEvaluate kind => exact tellable_about "cannot evaluate " (word_kindName kind).lined
  | @invalidCodepoint digits hdigits =>
    rw [Literal.isHexadecimal, Bool.and_eq_true, List.all_eq_true] at hdigits
    have hword : Word (String.ofList digits).toList := by
      rw [String.toList_ofList]
      exact ⟨by simpa using hdigits.1, fun c hc => isSpace_of_isHexDigit (hdigits.2 c hc)⟩
    exact tellable_about "invalid unicode codepoint: " hword.lined
  | unknownVariable hname => exact tellable_about "unknown variable: " hname.lined
  | dictionary => exact Lined.linedBut (by decide)
  | notAFunction value =>
    exact tellable_about "expected function, found " (word_typeName value).lined
  | wrongType hexpected value =>
    have hlined : ∀ expected ∈ expectations, Lined expected.toList := by decide
    exact tellable_about_two "expected " ", found " (hlined _ hexpected) (word_typeName value).lined
  | missingArgument hwhat =>
    have hlined : ∀ role ∈ argumentRoles, Lined role.toList := by decide
    exact tellable_about "missing argument: " (hlined _ hwhat)
  | @unexpectedArgument name hname =>
    cases name with
    | none => exact Lined.linedBut (by decide)
    | some word => exact tellable_about "unexpected argument: " (hname word rfl).lined
  | pageTooSmall => exact Lined.linedBut (by decide)
  | textSizeNotPositive => exact Lined.linedBut (by decide)
  | cannotSet htarget => exact tellable_about "cannot set " htarget.lined
  | cannotAdd left right =>
    exact tellable_about_two "cannot add " " and " (word_typeName left).lined
      (word_typeName right).lined
  | cannotSubtract left right =>
    exact tellable_about_two "cannot subtract " " from " (word_typeName right).lined
      (word_typeName left).lined
  | assertionFailed hleft hright => exact tellable_assertionFailed hleft hright

/-- What is said of a document that is missing. -/
theorem tellable_load {files : File.Tree} {asked : String} {error : LoadError}
    (hload : World.load { root } files (World.normalize { root } (.ofString asked)) =
      .error (.error error)) : Tellable root (EvalError.load error).message := by
  refine (World.message_of_load hload).mono fun hname => ⟨_, .load hload ?_, rfl⟩
  exact World.exists_of_mem_normalize hname

/-- What the grammar complains about can be told. -/
theorem tellable_syntaxDiagnostics {source : Source} {text : String}
    (htext : source.root.erase = (parse text).erase) :
    ∀ diagnostic ∈ syntaxDiagnostics source, Tellable root diagnostic.message := by
  have hlined : ∀ complaint ∈ complaints, Lined complaint.toList := by decide
  refine List.forall_mem_map.2 fun node hnode => ?_
  obtain ⟨complaint, hcomplaint, hmessage⟩ := complains_of_erase_eq htext node hnode
  show Tellable root (node.message.getD "")
  rw [hmessage]
  exact (hlined complaint hcomplaint).linedBut

/-! ## Evaluations -/

/-- A world below a root, with everything in its place. -/
structure Orderly (root : File.Path) (world : World) : Prop where
  root_eq : world.root = root
  tidy : world.Tidy
  explained : world.Explained

theorem Orderly.resolve {world : World} (hworld : Orderly root world) (files : File.Tree)
    (path : File.Path) : Orderly root (world.resolve files path).2 where
  root_eq := (World.Extends.resolve world files path).root.trans hworld.root_eq
  tidy := (hworld.tidy.resolved files path).tidy
  explained := hworld.explained.resolve files path

/-- Everything that has been reported can be told. -/
def tellableMessages (root : File.Path) : Discipline idleWatch where
  holds _ machine := Orderly root machine.world ∧
    ∀ diagnostic ∈ machine.diagnostics, Tellable root diagnostic.message
  reports error := Tellable root error.message
  named name := Word name.toList
  admits := Worded
  fine _ := rfl
  count _ hholds := hholds
  print _ hholds := hholds
  report _ _ hholds herror :=
    ⟨hholds.1, List.forall_mem_append.2 ⟨hholds.2, List.forall_mem_singleton.2 herror⟩⟩
  restyle _ hholds _ := hholds
  enterStrong hholds := hholds
  leaveStrong _ hholds := hholds
  enterEmph hholds := hholds
  leaveEmph _ hholds := hholds
  bind _ _ _ hholds _ := hholds
  sourced := tellable_of_sourced
  ident hnode hkind := hnode.own hkind
  argument hnode hkind hchildren := hnode.argument hkind hchildren
  target hnode hkind hchildren := hnode.target hkind hchildren

/-- The documents that are asked for report what can be told as well. -/
theorem carries_tellableMessages (root : File.Path) (files : File.Tree) :
    (tellableMessages root).Carries files (Orderly root) where
  start hworld := ⟨hworld, List.forall_mem_nil _⟩
  world hholds := hholds.1
  resolve path hworld := hworld.resolve files path
  absorb _ _ hholds hended hreported :=
    ⟨hended.1, List.forall_mem_append.2
      ⟨hholds.2, fun diagnostic hdiagnostic => hended.2 diagnostic (hreported hdiagnostic)⟩⟩
  cyclic := Lined.linedBut (by decide)
  missing := by
    intro world path error hworld hanswer
    obtain ⟨files, hload⟩ := hworld.explained.of_resolve hanswer
    have hbare : world.root = (World.mk root [] [] none).root := hworld.root_eq
    rw [World.normalize_eq_of_root hbare, World.load_eq_of_root hbare] at hload
    exact tellable_load hload
  clean hworld hsource := worded_of_erase_eq (hworld.tidy.faithful _ hsource)
  faulty hworld hsource :=
    ⟨hworld, tellable_syntaxDiagnostics (hworld.tidy.faithful _ hsource)⟩

variable {files : File.Tree} {outside : Surroundings}

/-- What compiling the main source reports can be told. -/
theorem tellable_of_compile {compiled : Compiled} {after : Surroundings}
    (hworld : Orderly root outside.world)
    (hcompile : compile files outside = (.ok compiled, after)) :
    Orderly root after.world ∧
      ∀ diagnostic ∈ compiled.module.diagnostics, Tellable root diagnostic.message := by
  obtain ⟨source, hsource, hevaluate⟩ := evaluateSource_of_compile hcompile
  have hyields : (tellableMessages root).Yields () (evaluateSource files source outside) :=
    (carries_tellableMessages root files).yields _ _ hworld hsource
  rw [hevaluate] at hyields
  obtain ⟨machine, hconforms⟩ := hyields
  rw [hconforms.world, hconforms.diagnostics]
  exact hconforms.holds

end Galley.Compile
