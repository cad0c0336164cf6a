import Galley.Proofs.Fixture.Lines
import Galley.Proofs.Note.Announcement
import Galley.Proofs.Note.Comparison
import Galley.Proofs.Run.Findings

/-!
# What passes has compiled

A file passes if nothing in it is wrong.  Every subtest that was run has then
been compiled, and its notes account for all errors in its own text.  Errors in
the documents that it asks for are not looked at.
-/

namespace Galley.Run

open Compile File Check

variable {α β : Type}

/-! ## Steps that pass -/

/-- A step comes to a value, and nothing is wrong behind it. -/
def Passes (action : Check α) (progress : Progress) (value : α) (after : Progress) : Prop :=
  action progress = (.ok value, after) ∧ ¬ after.Bad

variable {progress after : Progress}

namespace Passes

theorem of_bind {action : Check α} {next : α → Check β} {value : β}
    (hpasses : Passes (action >>= next) progress value after) :
    ∃ first middle, action progress = (.ok first, middle) ∧
      Passes (next first) middle value after := by
  obtain ⟨first, middle, haction, hrun⟩ := eq_ok_of_bind hpasses.1
  exact ⟨first, middle, haction, hrun, hpasses.2⟩

/-- Nothing was wrong in front of a step that passes. -/
theorem not_bad {action : Check α} {value : α} (haction : NeverMends action)
    (hpasses : Passes action progress value after) : ¬ progress.Bad := by
  intro hbad
  have hafter := haction progress hbad
  rw [hpasses.1] at hafter
  exact hpasses.2 hafter

theorem not_blame {entry : Entry} {value : Unit} :
    ¬ Passes (blame entry) progress value after := by
  rintro ⟨hrun, hgood⟩
  obtain ⟨-, rfl⟩ := Prod.mk.inj hrun
  exact hgood rfl

end Passes

/-! ## What a subtest has compiled to -/

/-- The source that has been compiled holds the text of the subtest. -/
theorem text_of_compileSubtest {setup : Setup} {path : Path} {subtest : Subtest} {bench : Bench}
    {source : Syntax.Source} {compiled : Compiled} (hnumbered : Numbered bench.world.sources)
    (hcompiled : compileSubtest setup path subtest bench = .ok (source, compiled)) :
    source.text = subtest.text := by
  obtain ⟨found, hfound, -, htext, -⟩ := World.exists_source_set hnumbered path subtest.text
  rw [compileSubtest] at hcompiled
  dsimp only at hcompiled
  rw [hfound] at hcompiled
  change ((compile _ _).1 >>= fun compiled => pure (found, compiled)) = _ at hcompiled
  generalize (compile _ _).1 = result at hcompiled
  cases result with
  | error failure => cases hcompiled
  | ok module =>
    cases hcompiled
    exact htext

/-- A subtest that passes has been compiled, its notes are well formed, and they
announce what the compilation reported in its text. -/
theorem Passes.of_checkSubtest {setup : Setup} {path : Path} {subtest : Subtest}
    {outcome : Outcome}
    (hpasses : Passes (checkSubtest setup path subtest) progress outcome after) :
    ∃ source compiled metadata world emitted,
      compileSubtest setup path subtest progress.bench = .ok (source, compiled) ∧
      Metadata.read source = .ok metadata ∧
      Diagnostic.notesFor world source.id compiled.module.diagnostics = .ok emitted ∧
      (Note.compare metadata.notes emitted).ok = true := by
  obtain ⟨-, source, compiled, trials, emitted, metadata, hfound, hread, -, -, hnotes⟩ :=
    (ok_checkSubtest_iff hpasses.1).1 (eq_true_of_ne_false hpasses.2)
  exact ⟨source, compiled, metadata, _, emitted, hfound.compiles, hread, hfound.notes, hnotes⟩

/-! ## Parts in front of a subtest -/

theorem checkParts_append (setup : Setup) (path : Path) (selected : Option Nat)
    (front rest : List (Option Subtest × Nat)) :
    checkParts setup path selected (front ++ rest) = (do
      let before ← checkParts setup path selected front
      let behind ← checkParts setup path selected rest
      return before ++ behind) := by
  induction front with
  | nil => simp [checkParts]
  | cons slot front ih =>
    obtain ⟨_ | subtest, index⟩ := slot <;> rw [List.cons_append, checkParts, checkParts] <;> split
    · simp only [ih, bind_assoc]
    · exact ih
    · simp only [ih, bind_assoc]
    · simp only [ih, bind_assoc, pure_bind, List.cons_append]

/-- Parts that pass have got to every subtest among them that was not skipped. -/
theorem Passes.of_checkParts {setup : Setup} {path : Path} {selected : Option Nat}
    {front rest : List (Option Subtest × Nat)} {subtest : Subtest} {index : Nat}
    {outcomes : List Outcome} (hselected : selected.any (· != index) = false)
    (hpasses : Passes (checkParts setup path selected (front ++ (some subtest, index) :: rest))
      progress outcomes after) :
    ∃ before middle outcome final,
      checkParts setup path selected front progress = (.ok before, middle) ∧
      Passes (checkSubtest setup path subtest) middle outcome final := by
  rw [checkParts_append] at hpasses
  obtain ⟨before, middle, hbefore, hpasses⟩ := hpasses.of_bind
  obtain ⟨_, behind, hbehind, hpasses⟩ := hpasses.of_bind
  have hpassed := hpasses.not_bad (.pure _)
  rw [checkParts, if_neg (by simpa using hselected)] at hbehind
  obtain ⟨outcome, final, hsubtest, hpasses⟩ := of_bind ⟨hbehind, hpassed⟩
  have hgood := hpasses.not_bad (.bind (neverMends_checkParts _ _ _ _) fun _ => .pure _)
  exact ⟨before, middle, outcome, final, hbefore, hsubtest, hgood⟩

/-! ## Files that pass -/

/-- A file that passes has been checked to its end. -/
theorem passes_of_ok {setup : Setup} {path : Path} {bench : Bench}
    (hok : (runFile setup path bench).1.ok = true) :
    ∃ after, Passes (checkFixture setup path) (.start setup path bench) () after := by
  cases hcheck : checkFixture setup path (.start setup path bench) with
  | mk result after =>
    rw [runFile, ← Progress.start, hcheck] at hok
    cases result with
    | error failure => cases hok
    | ok value => exact ⟨after, hcheck, fun hbad => Bool.noConfusion (hok.symm.trans hbad)⟩

/-- No line of a text is a note. -/
def Unannotated (text : String) : Prop :=
  ∀ line ∈ Text.lines text.toList, Metadata.errorMark.isPrefixOf (Text.trim line) = false

theorem notes_eq_nil {source : Syntax.Source} {metadata : Metadata}
    (hunannotated : Unannotated source.text) (hread : Metadata.read source = .ok metadata) :
    metadata.notes = [] := by
  have hlines : Metadata.noteLines 0 ((Text.lines source.chars).map Text.trim) = [] :=
    Metadata.noteLines_eq_nil 0 (List.forall_mem_map.2 hunannotated)
  rw [Metadata.read, hlines] at hread
  cases hread
  rfl

theorem mapM_ne_ok_nil {make : α → Except Failure β} {first : α} {rest : List α} :
    (first :: rest).mapM make ≠ .ok [] := by
  rw [List.mapM_cons]
  cases make first with
  | error failure => exact fun hmade => by cases hmade
  | ok made =>
    show (rest.mapM make >>= fun others => pure (made :: others)) ≠ .ok []
    cases rest.mapM make <;> exact fun hmade => by cases hmade

/-- Nothing was reported in a text for which there are no notes. -/
theorem forall_source_ne {world : World} {id : Int} {diagnostics : List Diagnostic}
    (hnotes : Diagnostic.notesFor world id diagnostics = .ok []) :
    ∀ diagnostic ∈ diagnostics, diagnostic.source ≠ id := by
  intro diagnostic hdiagnostic hsource
  have hmem : diagnostic ∈ diagnostics.filter fun diagnostic => diagnostic.source == id :=
    List.mem_filter.2 ⟨hdiagnostic, beq_iff_eq.2 hsource⟩
  rw [Diagnostic.notesFor] at hnotes
  obtain ⟨first, rest, hcons⟩ := List.exists_cons_of_ne_nil (List.ne_nil_of_mem hmem)
  rw [hcons] at hnotes
  exact mapM_ne_ok_nil hnotes

theorem eq_nil_of_ok_compare {emitted : List Note}
    (hok : (Note.compare [] emitted).ok = true) : emitted = [] :=
  List.nil_perm.1 (Note.perm_of_sorted_eq (Note.ok_compare_iff.1 hok))

/-- A subtest stands at its index. -/
theorem getElem?_slots {fixture : Fixture} {subtest : Subtest}
    (hsubtest : subtest ∈ fixture.subtests) :
    fixture.slots[subtest.index]? = some (some subtest) := by
  obtain ⟨slot, hslot, hsome⟩ := List.mem_filterMap.1 hsubtest
  obtain rfl : slot = some subtest := hsome
  obtain ⟨⟨⟨part, line⟩, index⟩, hpart, hslot⟩ := List.mem_map.1 hslot
  change fixture.subtestAt index part line = some subtest at hslot
  have hindex : subtest.index = index := by
    rw [Fixture.subtestAt] at hslot
    split at hslot
    · cases hslot
    · cases hslot
      rfl
  rw [hindex, Fixture.slots, List.getElem?_map, List.getElem?_zipIdx,
    List.mem_zipIdx_iff_getElem?.1 hpart, ← hslot, Nat.zero_add]
  rfl

theorem exists_zipIdx_slots {fixture : Fixture} {subtest : Subtest}
    (hsubtest : subtest ∈ fixture.subtests) :
    ∃ rest, fixture.slots.zipIdx =
      fixture.slots.zipIdx.take subtest.index ++ (some subtest, subtest.index) :: rest := by
  have hslot : fixture.slots.zipIdx[subtest.index]? = some (some subtest, subtest.index) := by
    rw [List.getElem?_zipIdx, getElem?_slots hsubtest, Nat.zero_add]
    rfl
  obtain ⟨hindex, hslot⟩ := List.getElem?_eq_some_iff.1 hslot
  refine ⟨fixture.slots.zipIdx.drop (subtest.index + 1), ?_⟩
  rw [← hslot, ← List.drop_eq_getElem_cons hindex, List.take_append_drop]

/-- If a file passes, then every subtest of it that was run and has no notes was
compiled without an error in its own text.  Errors in the documents that it asks
for do not count. -/
theorem passing_subtests_compile_clean (setup : Setup) (path : Path) (bench : Bench)
    (hworld : bench.world.Reached fun _ => True)
    (hok : (runFile setup path bench).1.ok = true) :
    ∃ fixture selected,
      fixtureAt bench.files path = .ok fixture ∧
      setup.options.subtest.part? fixture.parts.length = .ok selected ∧
      ∀ subtest ∈ fixture.subtests, selected.any (· != subtest.index) = false →
        Unannotated subtest.text →
        ∃ outcomes progress source compiled,
          checkParts setup path selected (fixture.slots.zipIdx.take subtest.index)
            (.start setup path bench) = (.ok outcomes, progress) ∧
          compileSubtest setup path subtest progress.bench = .ok (source, compiled) ∧
          source.text = subtest.text ∧
          ∀ diagnostic ∈ compiled.module.diagnostics, diagnostic.source ≠ source.id := by
  obtain ⟨after, hpasses⟩ := passes_of_ok hok
  rw [checkFixture] at hpasses
  obtain ⟨fixture, loaded, hload, hloaded⟩ := hpasses.of_bind
  rw [loadFixture_apply] at hload
  obtain ⟨hfixture, rfl⟩ := Prod.mk.inj hload
  obtain ⟨selected, opened, hopen, hopened⟩ := hloaded.of_bind
  obtain ⟨hselect, rfl⟩ := eq_ok_of_lift hopen
  obtain ⟨outcomes, checked, hparts, hchecked⟩ := hopened.of_bind
  refine ⟨fixture, selected, hfixture, hselect, ?_⟩
  intro subtest hsubtest hrun hunannotated
  have hgood : ¬ checked.Bad := hchecked.not_bad (neverMends_comparePages _ _ outcomes)
  obtain ⟨rest, hslots⟩ := exists_zipIdx_slots hsubtest
  rw [hslots] at hparts
  obtain ⟨before, progress, outcome, final, hbefore, hsubtestPasses⟩ :=
    Passes.of_checkParts hrun ⟨hparts, hgood⟩
  obtain ⟨source, compiled, metadata, world, emitted, hcompiled, hread, hnotes, hcompare⟩ :=
    hsubtestPasses.of_checkSubtest
  have hreached : progress.bench.world.Reached fun _ => True := by
    have hfront := (lasting_reached bench.files path).checkParts setup selected
      (fixture.slots.zipIdx.take subtest.index) (.start setup path bench) ⟨rfl, hworld⟩
    rw [hbefore] at hfront
    exact hfront.2
  have htext := text_of_compileSubtest hreached.numbered hcompiled
  refine ⟨before, progress, source, compiled, hbefore, hcompiled, htext, ?_⟩
  rw [notes_eq_nil (htext ▸ hunannotated) hread] at hcompare
  rw [eq_nil_of_ok_compare hcompare] at hnotes
  exact forall_source_ne hnotes

/-- A file that asks for a document with an error in it. -/
def includingFaulty : Bench where
  files := ⟨[(["typ"], .directory),
    (["typ", "a"], .file (.bytes "// Ref: false\n#include(\"b\")".toUTF8)),
    (["assets"], .directory), (["assets", "b"], .file (.bytes "#x".toUTF8))]⟩
  world := { root := .ofString "assets" }

/-- Fixtures and the documents that they ask for, each in a directory of its own. -/
def separateDirectories : Setup where
  settings := { fixtureDir := .ofString "typ", assetDir := .ofString "assets" }

theorem ok_includingFaulty :
    (runFile separateDirectories (.ofString "typ/a") includingFaulty).1.ok = true := by
  decide +kernel

/-- The file passes, and its only subtest has no error of its own. -/
theorem passing_subtests_compile_clean_faulty :
    (includingFaulty.world.Reached fun _ => True) ∧
    (runFile separateDirectories (.ofString "typ/a") includingFaulty).1.ok = true ∧
    ∃ fixture selected,
      fixtureAt includingFaulty.files (.ofString "typ/a") = .ok fixture ∧
      Choice.all.part? fixture.parts.length = .ok selected ∧
      ∀ subtest ∈ fixture.subtests, selected.any (· != subtest.index) = false →
        Unannotated subtest.text →
        ∃ outcomes progress source compiled,
          checkParts separateDirectories (.ofString "typ/a") selected
            (fixture.slots.zipIdx.take subtest.index)
            (.start separateDirectories (.ofString "typ/a") includingFaulty) =
              (.ok outcomes, progress) ∧
          compileSubtest separateDirectories (.ofString "typ/a") subtest progress.bench =
            .ok (source, compiled) ∧
          source.text = subtest.text ∧
          ∀ diagnostic ∈ compiled.module.diagnostics, diagnostic.source ≠ source.id :=
  ⟨.new _, ok_includingFaulty, passing_subtests_compile_clean separateDirectories
    (.ofString "typ/a") includingFaulty (.new _) ok_includingFaulty⟩

/-- The file passes although its only subtest, which has no notes, was compiled with
an error in the document that it asks for. -/
theorem passing_subtest_reports_included :
    (runFile separateDirectories (.ofString "typ/a") includingFaulty).1.ok = true ∧
    (fixtureAt includingFaulty.files (.ofString "typ/a")).toOption.map Fixture.subtests =
      some [⟨0, "// Ref: false\n#include(\"b\")", 0, true⟩] ∧
    Unannotated "// Ref: false\n#include(\"b\")" ∧
    (compileSubtest separateDirectories (.ofString "typ/a")
        ⟨0, "// Ref: false\n#include(\"b\")", 0, true⟩ includingFaulty).toOption.map
      (fun (source, compiled) => (source.id, compiled.module.diagnostics.map fun diagnostic =>
        (diagnostic.source, diagnostic.message))) =
      some (0, [(1, "unknown variable: x")]) := by
  refine ⟨ok_includingFaulty, ?_, ?_, ?_⟩
  · decide +kernel
  · unfold Unannotated
    decide +kernel
  · decide +kernel

end Galley.Run
