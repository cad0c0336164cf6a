import Galley.Proofs.Evaluation.Message
import Galley.Proofs.Note.Announcement

/-!
# Emitted notes

What compiling a main text reports about it is emitted as notes at places of that text, with slashes
for backslashes.  A note whose message breaks no line can be announced and is read back with the
same message.
-/

namespace Galley

open Text Syntax

/-! ## Ranges -/

namespace Syntax

mutual

/-- A range starts and stops between characters. -/
theorem exists_chars_of_rangeFrom {answer : Nat × Nat} (span : Int) : ∀ (offset : Nat)
    (node : Node), node.rangeFrom span offset = some answer →
      ∃ front inside back, node.chars = front ++ inside ++ back ∧
        answer = (offset + byteLength front, offset + byteLength (front ++ inside))
  | offset, ⟨kind, text, children, own, message⟩, hrange => by
    rw [Node.rangeFrom] at hrange
    split at hrange
    · obtain rfl := Option.some.inj hrange
      refine ⟨[], _, [], (List.append_nil _).symm, ?_⟩
      rw [Node.byteLen_eq]
      rfl
    · cases children with
      | nil => cases hrange
      | cons child children =>
        exact exists_chars_of_rangeIn span offset (child :: children) hrange

theorem exists_chars_of_rangeIn {answer : Nat × Nat} (span : Int) : ∀ (offset : Nat)
    (nodes : List Node), Node.rangeIn span offset nodes = some answer →
      ∃ front inside back, Node.charsOf nodes = front ++ inside ++ back ∧
        answer = (offset + byteLength front, offset + byteLength (front ++ inside))
  | _, [], hrange => by cases hrange
  | offset, node :: nodes, hrange => by
    rw [Node.rangeIn] at hrange
    rw [Node.charsOf_cons]
    split at hrange
    · obtain ⟨front, inside, back, hchars, hanswer⟩ :=
        exists_chars_of_rangeFrom span offset node hrange
      exact ⟨front, inside, back ++ Node.charsOf nodes, by rw [hchars]; simp, hanswer⟩
    · obtain ⟨front, inside, back, hchars, hanswer⟩ :=
        exists_chars_of_rangeIn span _ nodes hrange
      refine ⟨node.chars ++ front, inside, back, by rw [hchars]; simp, ?_⟩
      rw [hanswer, Node.byteLen_eq]
      simp [byteLength_append, Nat.add_assoc]

end

end Syntax

namespace Note

/-! ## Messages on a line -/

/-- A message that stands on a line is read back from its announcement in front of an empty
text. -/
theorem exists_read_announcement {message : String} (hmessage : Lined message.toList) :
    ∃ place : Nat,
      Metadata.read (.detached (announcement (.detached "") ⟨0, 0, message⟩)) =
        .ok ⟨none, [⟨place, place, message⟩]⟩ := by
  generalize hnote : (⟨0, 0, message⟩ : Note) = note
  have hnotes : ∀ other ∈ [note], Announceable (Source.detached "").chars other := by
    rw [List.forall_mem_singleton, ← hnote]
    exact ⟨⟨[], [], rfl, rfl⟩, ⟨[], [], rfl, rfl⟩, hmessage.line, hmessage.solid.trim_eq⟩
  generalize hsource : Source.detached (announcement (.detached "") note) = source
  have hchars : source.chars = (announce (.detached "") [note]).toList ++ [] := by
    rw [announce_cons, ← hsource, List.append_assoc]
    exact (List.append_nil _).symm
  obtain ⟨texts, htexts, hlines⟩ := exists_lines_announce hnotes []
  obtain ⟨hends, hcount⟩ := announce_endsLine hnotes
  have hread : List.Forall₂ (Metadata.Reads source 1) texts
      ([note].map (shift (byteLength (announce (.detached "") [note]).toList))) := by
    rw [List.forall₂_map_right_iff, ← List.length_singleton (a := note), ← hcount]
    exact htexts.imp fun _ _ =>
      Announces.reads hends hchars (Number.lt_tenPow (by decide) (by decide))
  have hdirectives : texts.filterMap Metadata.directive = [] :=
    List.filterMap_eq_nil_iff.2 fun text htext =>
      Metadata.directive_eq_none (Metadata.forall_isPrefixOf hread text htext)
  have hlength : 0 + texts.length = 1 := by
    rw [htexts.length_eq]
    rfl
  have hnoted : (Metadata.noteLines 0 (texts ++ [])).mapM (Metadata.readNote source) = _ :=
    Metadata.mapM_readNote hread (by rintro _ ⟨⟩) (List.forall_mem_nil _) hlength
  have hempty : (lines []).map trim = [] := rfl
  refine ⟨0 + byteLength (announce (.detached "") [note]).toList, ?_⟩
  rw [Metadata.read, hchars, hlines, hempty, hnoted, List.append_nil, hdirectives, ← hnote]
  rfl

/-- A note on a text whose message is trimmed.  A message that breaks no line can be announced and
is read back; one that does is that of an error that shows a line break. -/
structure Annotates (root : File.Path) (text : List Char) (note : Note) : Prop where
  trimmed : trim note.message.toList = note.message.toList
  announced : '\n' ∉ note.message.toList → Announceable text note ∧ ∃ place : Nat,
    Metadata.read (.detached (announcement (.detached "") ⟨0, 0, note.message⟩)) =
      .ok ⟨none, [⟨place, place, note.message⟩]⟩
  breaks : '\n' ∈ note.message.toList → ∃ error : Compile.EvalError, error.Breaks root ∧
    note.message = String.ofList (replaceChar '\\' '/' error.message.toList)

end Note

namespace Compile

/-! ## Notes for diagnostics -/

theorem exists_mapM_eq_ok {α β : Type} {make : α → Except Failure β} {good : β → Prop}
    {items : List α} (hmake : ∀ item ∈ items, ∃ made, make item = .ok made ∧ good made) :
    ∃ made, items.mapM make = .ok made ∧ ∀ one ∈ made, good one := by
  induction items with
  | nil => exact ⟨[], rfl, List.forall_mem_nil _⟩
  | cons item items ih =>
    obtain ⟨hitem, hitems⟩ := List.forall_mem_cons.1 hmake
    obtain ⟨first, hfirst, hgood⟩ := hitem
    obtain ⟨rest, hrest, hothers⟩ := ih hitems
    refine ⟨first :: rest, ?_, List.forall_mem_cons.2 ⟨hgood, hothers⟩⟩
    rw [List.mapM_cons, hfirst, hrest]
    rfl

/-- What can be told about a source becomes a note on its text. -/
theorem exists_toNote {root : File.Path} {world : World} {source : Source} {diagnostic : Diagnostic}
    (hsource : world.source diagnostic.source = .ok source)
    (htold : Tellable root diagnostic.message) :
    ∃ note, diagnostic.toNote world = .ok note ∧ note.Annotates root source.root.chars := by
  have hnote : diagnostic.toNote world = .ok
      ⟨((source.range diagnostic.span).getD (0, 0)).1,
        ((source.range diagnostic.span).getD (0, 0)).2,
        String.ofList (replaceChar '\\' '/' diagnostic.message.toList)⟩ := by
    rw [Diagnostic.toNote, Diagnostic.range, hsource]
    rfl
  have hplaces : ∃ front inside back, source.root.chars = front ++ inside ++ back ∧
      (source.range diagnostic.span).getD (0, 0) =
        (byteLength front, byteLength (front ++ inside)) := by
    cases hrange : source.range diagnostic.span with
    | none => exact ⟨[], [], source.root.chars, rfl, rfl⟩
    | some range =>
      obtain ⟨front, inside, back, hchars, hanswer⟩ :=
        exists_chars_of_rangeFrom _ _ source.root hrange
      rw [Nat.zero_add, Nat.zero_add] at hanswer
      exact ⟨front, inside, back, hchars, hanswer⟩
  obtain ⟨front, inside, back, hchars, hplace⟩ := hplaces
  have hsolid :
      Solid (String.ofList (replaceChar '\\' '/' diagnostic.message.toList)).toList := by
    rw [String.toList_ofList]
    exact htold.solid.replaceChar (by decide)
  have hnewline :
      '\n' ∈ (String.ofList (replaceChar '\\' '/' diagnostic.message.toList)).toList →
        '\n' ∈ diagnostic.message.toList := by
    rw [String.toList_ofList]
    exact (mem_replaceChar (by decide) (by decide)).1
  refine ⟨_, hnote, hsolid.trim_eq, fun hline => ⟨?_, ?_⟩, fun hline => ?_⟩
  · rw [hplace]
    exact ⟨⟨front, inside ++ back, by rw [hchars, List.append_assoc], rfl⟩,
      ⟨front ++ inside, back, hchars, rfl⟩, hline, hsolid.trim_eq⟩
  · exact Note.exists_read_announcement ⟨hsolid, hline⟩
  · obtain ⟨error, hbreaks, hmessage⟩ := htold.lines (hnewline hline)
    exact ⟨error, hbreaks, by rw [hmessage]⟩

/-! ## Notes for a main text -/

/-- A source is still registered under its id after a compilation. -/
theorem source_of_compile {files : File.Tree} {outside after : Surroundings} {compiled : Compiled}
    (htidy : outside.world.Tidy) (hcompile : compile files outside = (.ok compiled, after))
    {id : Nat} {source : Source} (hsource : outside.world.source id = .ok source) :
    after.world.source id = .ok source := by
  obtain ⟨main, hmain, hevaluate⟩ := evaluateSource_of_compile hcompile
  have hextends : World.Extends outside.world after.world := by
    have hevaluated := (htidy.evaluated outside hmain files
      (chainBound files outside.world + 1) []).1
    rwa [← evaluateSource, hevaluate] at hevaluated
  rw [World.source_eq_ok_iff] at hsource ⊢
  rw [hextends.getElem? (List.getElem?_eq_some_iff.1 hsource).1, hsource]

/-- Whatever the main text and the files say, each note for a diagnostic of the main text has a
trimmed message.  The message breaks a line for nothing but an assertion about a string that does
and a document that is missing under a path that does: any other note can be announced on the main
text, and its message is read back. -/
theorem notes_annotate_main (files : File.Tree) (world : World) (path : File.Path)
    (text printed : String) (computations : Nat) {compiled : Compiled} {after : Surroundings}
    (hworld : world.Reached fun _ => True)
    (hcompile : compile files ⟨(world.set path text).2, printed, computations⟩ =
      (.ok compiled, after)) :
    ∃ notes, Diagnostic.notesFor after.world (world.set path text).1 compiled.module.diagnostics =
        .ok notes ∧ ∀ note ∈ notes, note.Annotates world.root text.toList := by
  have hset := hworld.tidy.hasSet path text
  have hstart : Orderly world.root (world.set path text).2 :=
    ⟨hset.root, hset.tidy,
      World.Reached.explained (.step hworld (.set world path text) fun _ _ => trivial)⟩
  obtain ⟨source, hsource, -, -, hroot⟩ := World.exists_source_set hworld.numbered path text
  have hfound := source_of_compile hset.tidy hcompile hsource
  have hchars : source.root.chars = text.toList := by rw [hroot, chars_parse]
  obtain ⟨-, htold⟩ := tellable_of_compile hstart hcompile
  rw [← hchars]
  refine exists_mapM_eq_ok fun diagnostic hdiagnostic => ?_
  obtain ⟨hreported, hmain⟩ := List.mem_filter.1 hdiagnostic
  rw [← eq_of_beq hmain] at hfound
  exact exists_toNote hfound (htold diagnostic hreported)

/-- The notes on the main text of a world, if compiling it has a result. -/
def notesOn (files : File.Tree) (start : Nat × World) : Option (List Note) :=
  match compile files ⟨start.2, "", 0⟩ with
  | (.ok compiled, after) =>
    (Diagnostic.notesFor after.world start.1 compiled.module.diagnostics).toOption
  | (.error _, _) => none

theorem exists_of_notesOn (files : File.Tree) (start : Nat × World) {notes : List Note}
    (hnotes : notesOn files start = some notes) :
    ∃ compiled after, compile files ⟨start.2, "", 0⟩ = (.ok compiled, after) ∧
      Diagnostic.notesFor after.world start.1 compiled.module.diagnostics = .ok notes := by
  rw [notesOn] at hnotes
  generalize compile files ⟨start.2, "", 0⟩ = outcome at hnotes ⊢
  obtain ⟨failure | compiled, after⟩ := outcome
  · cases hnotes
  · refine ⟨compiled, after, rfl, ?_⟩
    dsimp only at hnotes
    generalize Diagnostic.notesFor after.world start.1 compiled.module.diagnostics = made
      at hnotes ⊢
    cases made with
    | error failure => cases hnotes
    | ok made => rw [Option.some.inj hnotes]

/-- A name that nobody knows is noted, and so is an assertion that fails. -/
theorem notes_annotate_main_twice :
    let start := World.set { root := .current } { names := ["m"] } "#x#test(1, 2)"
    World.Reached (fun _ => True) { root := .current } ∧
    ∃ compiled after, compile ⟨[]⟩ ⟨start.2, "", 0⟩ = (.ok compiled, after) ∧
      Diagnostic.notesFor after.world start.1 compiled.module.diagnostics =
        .ok [⟨1, 2, "unknown variable: x"⟩, ⟨2, 13, "Assertion failed: 1 != 2"⟩] ∧
      ∀ note ∈ [(⟨1, 2, "unknown variable: x"⟩ : Note), ⟨2, 13, "Assertion failed: 1 != 2"⟩],
        note.Annotates .current "#x#test(1, 2)".toList := by
  have hworld : World.Reached (fun _ => True) { root := .current } := .new _
  obtain ⟨compiled, after, hcompile, hnotes⟩ : ∃ compiled after, _ ∧ _ = Except.ok
      [(⟨1, 2, "unknown variable: x"⟩ : Note), ⟨2, 13, "Assertion failed: 1 != 2"⟩] :=
    exists_of_notesOn ⟨[]⟩ (World.set { root := .current } { names := ["m"] } "#x#test(1, 2)")
      (by decide +kernel)
  obtain ⟨notes, hmade, hannotates⟩ := notes_annotate_main ⟨[]⟩ { root := .current }
    { names := ["m"] } "#x#test(1, 2)" "" 0 hworld hcompile
  rw [hnotes] at hmade
  obtain rfl := Except.ok.inj hmade
  exact ⟨hworld, compiled, after, hcompile, hnotes, hannotates⟩

/-- A string with a line break in a failed assertion leaves its note without a line to stand on. -/
theorem note_breaks_line :
    let start := World.set { root := .current } { names := ["m"] } "#test(\"a\\nb\", \"c\")"
    ∃ compiled after, compile ⟨[]⟩ ⟨start.2, "", 0⟩ = (.ok compiled, after) ∧
      ∃ notes, Diagnostic.notesFor after.world start.1 compiled.module.diagnostics = .ok notes ∧
        ∃ note ∈ notes, '\n' ∈ note.message.toList := by
  obtain ⟨compiled, after, hcompile, hnotes⟩ : ∃ compiled after, _ ∧ _ = Except.ok
      [(⟨0, 18, "Assertion failed: \"a\nb\" != \"c\""⟩ : Note)] :=
    exists_of_notesOn ⟨[]⟩
      (World.set { root := .current } { names := ["m"] } "#test(\"a\\nb\", \"c\")")
      (by decide +kernel)
  exact ⟨compiled, after, hcompile, _, hnotes, _, List.mem_singleton_self _, by decide⟩

end Compile

end Galley
