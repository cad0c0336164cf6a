import Galley.Proofs.Run.Alone
import Galley.Proofs.Run.Pages

/-!
# Runs of one part

A file that passes does so part by part: every subtest passes alone, in the world
in which the file began, with the same outcome.  So a run of one part of it can only
fail when its pages are compared, because the reference shows the pages of all parts.
-/

namespace Galley.Run

open Compile File Check

variable {α β : Type} {setup : Setup} {path : Path} {bench : Bench} {progress after : Progress}

/-- The same setup with another choice of parts and of what happens to references. -/
def Setup.choosing (setup : Setup) (choice : Choice) (update : Bool) : Setup :=
  { setup with options := { setup.options with subtest := choice, update } }

/-- The parts of a file are checked in the same way whatever is chosen. -/
theorem checkParts_choosing (setup : Setup) (choice : Choice) (update : Bool) (path : Path)
    (selected : Option Nat) (slots : List (Option Subtest × Nat)) :
    checkParts (setup.choosing choice update) path selected slots =
      checkParts setup path selected slots := by
  induction slots with
  | nil => rfl
  | cons slot slots ih =>
    obtain ⟨_ | subtest, index⟩ := slot <;> rw [checkParts, checkParts, ih]
    rfl

theorem Passes.bind {action : Check α} {next : α → Check β} {first : α} {value : β}
    {middle : Progress} (haction : Passes action progress first middle)
    (hnext : Passes (next first) middle value after) :
    Passes (action >>= next) progress value after := by
  refine ⟨?_, hnext.2⟩
  rw [bind_apply, haction.1]
  exact hnext.1

/-- A step passes wherever a file can begin on a bench, and leaves the files alone. -/
def PassesOn (bench : Bench) (action : Check α) (value : α) : Prop :=
  ∀ progress, progress.bench = bench → ¬ progress.Bad →
    ∃ final, Passes action progress value final ∧ final.bench.files = bench.files

/-! ## Parts that are skipped -/

/-- Parts that are not selected are skipped. -/
theorem exists_skip (setup : Setup) (path : Path) {index : Nat}
    {slots : List (Option Subtest × Nat)} (hslots : ∀ slot ∈ slots, slot.2 ≠ index)
    (progress : Progress) (hgood : ¬ progress.Bad) :
    ∃ final, Passes (checkParts setup path (some index) slots) progress [] final ∧
      final.bench = progress.bench := by
  induction slots generalizing progress with
  | nil => exact ⟨progress, ⟨rfl, hgood⟩, rfl⟩
  | cons slot slots ih =>
    obtain ⟨hslot, hothers⟩ := List.forall_mem_cons.1 hslots
    obtain ⟨slot?, other⟩ := slot
    obtain ⟨final, hskipped, hbench⟩ :=
      ih hothers { progress with report := progress.report.add (.skipped other) } hgood
    have hother : (some index).any (· != other) = true := bne_iff_ne.2 (Ne.symm hslot)
    refine ⟨final, ?_, hbench⟩
    cases slot? <;> rw [checkParts, if_pos hother] <;> exact hskipped

/-- If the selected part passes alone, then it passes among the others. -/
theorem PassesOn.checkParts {slots : List (Option Subtest)} {index : Nat}
    {slot : Option Subtest} {outcomes : List Outcome} (hslot : slots[index]? = some slot)
    (halone : PassesOn bench (checkParts setup path (some index) [(slot, index)]) outcomes) :
    PassesOn bench (checkParts setup path (some index) slots.zipIdx) outcomes := by
  intro progress hbench hgood
  obtain ⟨hindex, hslot⟩ := List.getElem?_eq_some_iff.1 hslot
  have hsplit : slots.zipIdx = (slots.take index).zipIdx ++
      ([(slot, index)] ++ (slots.drop (index + 1)).zipIdx (index + 1)) := by
    conv_lhs => rw [← List.take_append_drop index slots, List.drop_eq_getElem_cons hindex]
    rw [List.zipIdx_append, List.zipIdx_cons, List.length_take_of_le hindex.le, hslot, Nat.zero_add,
      List.singleton_append]
  have hfront : ∀ other ∈ (slots.take index).zipIdx, other.2 ≠ index := by
    intro other hother
    have hless := List.snd_lt_of_mem_zipIdx hother
    rw [List.length_take_of_le hindex.le] at hless
    omega
  have hrest : ∀ other ∈ (slots.drop (index + 1)).zipIdx (index + 1), other.2 ≠ index := by
    intro other hother
    have hmore := List.le_snd_of_mem_zipIdx hother
    omega
  obtain ⟨skipped, hskipped, hbench'⟩ := exists_skip setup path hfront progress hgood
  obtain ⟨middle, hmiddle, hfiles⟩ := halone skipped (hbench'.trans hbench) hskipped.2
  obtain ⟨final, hfinal, hbench''⟩ := exists_skip setup path hrest middle hmiddle.2
  refine ⟨final, ?_, (congrArg Bench.files hbench'').trans hfiles⟩
  rw [hsplit, checkParts_append, checkParts_append]
  refine hskipped.bind (Passes.bind (hmiddle.bind (hfinal.bind ?_)) ⟨rfl, hfinal.2⟩)
  rw [List.append_nil]
  exact ⟨rfl, hfinal.2⟩

/-- There is nothing to be checked in the header. -/
theorem passesOn_header {index : Nat} :
    PassesOn bench (Run.checkParts setup path (some index) [(none, index)]) [] := by
  intro progress hbench hgood
  refine ⟨progress, ⟨?_, hgood⟩, congrArg Bench.files hbench⟩
  rw [Run.checkParts, if_neg (by simp)]
  rfl

theorem PassesOn.checkParts_singleton {subtest : Subtest} {outcome : Outcome} {index : Nat}
    (halone : PassesOn bench (checkSubtest setup path subtest) outcome) :
    PassesOn bench (Run.checkParts setup path (some index) [(some subtest, index)]) [outcome] := by
  intro progress hbench hgood
  obtain ⟨final, hfinal, hfiles⟩ := halone progress hbench hgood
  refine ⟨final, ?_, hfiles⟩
  rw [Run.checkParts, if_neg (by simp)]
  exact hfinal.bind ⟨rfl, hfinal.2⟩

/-! ## Parts of a file that passes -/

/-- Every subtest of a file that passes also does so alone. -/
theorem forall₂_passesOn {slots : List (Option Subtest × Nat)} {outcomes : List Outcome}
    (hbooked : bench.world.Booked)
    (hquiet : ∀ subtest ∈ slots.filterMap Prod.fst, Fuzz.Quiet setup.reparser subtest.text)
    (hfront : Front path bench progress)
    (hattached : progress.bench = bench ∨
      (bench.world.set path "").1 ≠ Syntax.Source.detachedId)
    (hpasses : Passes (checkParts setup path none slots) progress outcomes after) :
    List.Forall₂ (fun subtest outcome => PassesOn bench (checkSubtest setup path subtest) outcome)
        (slots.filterMap Prod.fst) outcomes ∧
      after.bench.files = bench.files := by
  induction slots generalizing progress outcomes with
  | nil =>
    obtain ⟨hnothing, rfl⟩ := Prod.mk.inj hpasses.1
    rw [← Except.ok.inj hnothing]
    exact ⟨.nil, hfront.disk⟩
  | cons slot slots ih =>
    obtain ⟨_ | subtest, index⟩ := slot
    · exact ih hquiet hfront hattached hpasses
    obtain ⟨hfirst, hothers⟩ := List.forall_mem_cons.1 hquiet
    obtain ⟨outcome, middle, hsubtest, hpasses⟩ := Passes.of_bind hpasses
    obtain ⟨rest, final, hrest, hpasses⟩ := hpasses.of_bind
    obtain ⟨hvalue, rfl⟩ := Prod.mk.inj hpasses.1
    obtain rfl := Except.ok.inj hvalue
    have hattached : (bench.world.set path "").1 ≠ Syntax.Source.detachedId := by
      refine hattached.elim (fun hbench => ?_) id
      have hown := (settled_checkSubtest hfront.booked hsubtest).2
      rwa [hbench, World.fst_set_eq _ path _ ""] at hown
    have hsubtest : Passes (checkSubtest setup path subtest) progress outcome middle :=
      ⟨hsubtest, Passes.not_bad (neverMends_checkParts _ _ _ _) ⟨hrest, hpasses.2⟩⟩
    obtain ⟨hforall, hfiles⟩ :=
      ih hothers (hfront.next hsubtest.1) (.inr hattached) ⟨hrest, hpasses.2⟩
    exact ⟨.cons (fun progress' hbench hgood =>
      hfront.passes_alone hbooked hattached hfirst hsubtest hbench hgood) hforall, hfiles⟩

theorem ok_runFile_iff :
    (runFile setup path bench).1.ok = true ↔
      ∃ after, Passes (checkFixture setup path) (.start setup path bench) () after := by
  refine ⟨passes_of_ok, fun ⟨after, hrun, hgood⟩ => ?_⟩
  rw [runFile, ← Progress.start, hrun]
  exact eq_true_of_ne_false hgood

/-- What a run of a part comes to if all that is left is to compare pages. -/
theorem checkFixture_only {fixture : Fixture} {outcomes : List Outcome} {n : Int}
    (hfixture : fixtureAt bench.files path = .ok fixture)
    (hparts : PassesOn bench (checkParts setup path (some (n.fmod fixture.parts.length).toNat)
      fixture.slots.zipIdx) outcomes) (update : Bool) :
    ∃ middle, ¬ middle.Bad ∧ middle.report.updated = false ∧ middle.bench.files = bench.files ∧
      checkFixture (setup.choosing (.only n) update) path
          (.start (setup.choosing (.only n) update) path bench) =
        comparePages (setup.choosing (.only n) update) path outcomes middle := by
  obtain ⟨middle, ⟨hrun, hgood⟩, hfiles⟩ := hparts (.start setup path bench) rfl Bool.noConfusion
  have hupdated : Unworldly fun progress => progress.report.updated = false :=
    { dump := fun _ => id, blame := fun _ => id, draw := fun _ => id, travel := fun _ _ => id }
  have hmaintained := hupdated.closed.checkParts setup path
    (some (n.fmod fixture.parts.length).toNat) fixture.slots.zipIdx (fun _ _ => id)
    (.checkSubtest hupdated setup path) (.start setup path bench) rfl
  rw [hrun] at hmaintained
  refine ⟨middle, hgood, hmaintained, hfiles, ?_⟩
  have hplan : planAt (setup.choosing (.only n) update) bench.files path =
      .ok (fixture, some (n.fmod fixture.parts.length).toNat) := by
    rw [planAt, hfixture]
    rfl
  have hstart : Progress.start (setup.choosing (.only n) update) path bench =
      .start setup path bench := rfl
  rw [hstart, checkFixture_apply, show (Progress.start setup path bench).bench = bench from rfl,
    hplan]
  dsimp only
  rw [bind_apply, checkParts_choosing, hrun]

/-! ## What is left to compare -/

/-- A run of one part that passes without a look at the reference. -/
structure Unjudged (setup : Setup) (path : Path) (bench : Bench) (n : Int) : Prop where
  ok : ∀ update, (runFile (setup.choosing (.only n) update) path bench).1.ok = true
  updated : ∀ update, (runFile (setup.choosing (.only n) update) path bench).1.updated = false
  files : ∀ update, (runFile (setup.choosing (.only n) update) path bench).2.files = bench.files

/-- A run of one part with the given pages that depends on the comparison only: it passes if
the reference shows just these pages.  With updates it always passes, and the reference is
replaced if it would not have passed otherwise. -/
structure Judged (setup : Setup) (path : Path) (bench : Bench) (n : Int)
    (frames : List Document.Frame) (outputs : Outputs) (picture : Image.Picture)
    (reference : Option Image.Picture) (shown : Tree) : Prop where
  paths : outputPaths setup path = .ok outputs
  drawn : present outputs frames bench.files = (.ok (picture, reference), shown)
  ok_iff : (runFile (setup.choosing (.only n) false) path bench).1.ok = true ↔
    Recognized frames picture reference
  ok : (runFile (setup.choosing (.only n) true) path bench).1.ok = true
  updated_iff : (runFile (setup.choosing (.only n) true) path bench).1.updated = true ↔
    ¬ Recognized frames picture reference
  kept : Recognized frames picture reference →
    (runFile (setup.choosing (.only n) true) path bench).2.files = shown
  replaced : ¬ Recognized frames picture reference →
    (runFile (setup.choosing (.only n) true) path bench).2.files =
      shown.write outputs.ref (.picture picture)

theorem runFile_of_ok
    (hcheck : checkFixture setup path (.start setup path bench) = (.ok (), after)) :
    runFile setup path bench = (after.report, after.bench) := by
  rw [runFile, ← Progress.start, hcheck]

section Only

variable {fixture : Fixture} {n : Int} (hfixture : fixtureAt bench.files path = .ok fixture)

include hfixture

theorem unjudged {outcomes : List Outcome}
    (hparts : PassesOn bench (checkParts setup path (some (n.fmod fixture.parts.length).toNat)
      fixture.slots.zipIdx) outcomes)
    (hnothing : outcomes.any Outcome.compareRef = false) : Unjudged setup path bench n := by
  have hrun : ∀ update, ∃ middle : Progress, ¬ middle.Bad ∧ middle.report.updated = false ∧
      middle.bench.files = bench.files ∧
      runFile (setup.choosing (.only n) update) path bench = (middle.report, middle.bench) := by
    intro update
    obtain ⟨middle, hgood, hupdated, hfiles, hcheck⟩ := checkFixture_only hfixture hparts update
    rw [comparePages, hnothing] at hcheck
    exact ⟨middle, hgood, hupdated, hfiles, runFile_of_ok hcheck⟩
  constructor <;> intro update <;> obtain ⟨middle, hgood, hupdated, hfiles, hrun⟩ := hrun update <;>
    rw [hrun]
  · exact eq_true_of_ne_false hgood
  · exact hupdated
  · exact hfiles

/-- A run of one part comes down to a conclusion about its pages. -/
theorem checkFixture_conclude {outcome : Outcome} {outputs : Outputs} {picture : Image.Picture}
    {reference : Option Image.Picture} {shown : Tree}
    (hparts : PassesOn bench (checkParts setup path (some (n.fmod fixture.parts.length).toNat)
      fixture.slots.zipIdx) [outcome])
    (hcompare : outcome.compareRef = true) (houtputs : outputPaths setup path = .ok outputs)
    (hown : present outputs outcome.frames bench.files = (.ok (picture, reference), shown))
    (update : Bool) :
    ∃ middle, ¬ middle.Bad ∧ middle.report.updated = false ∧ middle.bench.files = shown ∧
      checkFixture (setup.choosing (.only n) update) path
          (.start (setup.choosing (.only n) update) path bench) =
        conclude update outcome.frames outputs.ref picture reference middle := by
  obtain ⟨middle, hgood, hupdated, hfiles, hcheck⟩ := checkFixture_only hfixture hparts update
  have hpaths : outputPaths (setup.choosing (.only n) update) path = .ok outputs := houtputs
  obtain ⟨report, hlike, hpages⟩ := exists_checkPages hpaths outcome.frames middle
  rw [hfiles, hown] at hpages
  refine ⟨middle.after shown report, fun hbad => hgood (hlike.ok.symm.trans hbad),
    hlike.updated.trans hupdated, rfl, ?_⟩
  rw [hcheck, comparePages, List.any_cons, hcompare, List.flatMap_cons, List.flatMap_nil,
    List.append_nil]
  exact hpages

section Conclusion

variable {outcome : Outcome} {outputs : Outputs} {picture : Image.Picture}
  {found : Option Image.Picture} {shown : Tree}
  (hparts : PassesOn bench (checkParts setup path (some (n.fmod fixture.parts.length).toNat)
    fixture.slots.zipIdx) [outcome])
  (hcompare : outcome.compareRef = true) (houtputs : outputPaths setup path = .ok outputs)
  (hown : present outputs outcome.frames bench.files = (.ok (picture, found), shown))

include hparts hcompare houtputs hown

theorem judged_of_recognized (hrecognized : Recognized outcome.frames picture found) :
    Judged setup path bench n outcome.frames outputs picture found shown := by
  have hrun : ∀ update, ∃ middle : Progress, ¬ middle.Bad ∧ middle.report.updated = false ∧
      middle.bench.files = shown ∧
      runFile (setup.choosing (.only n) update) path bench = (middle.report, middle.bench) := by
    intro update
    obtain ⟨middle, hgood, hupdated, hfiles, hcheck⟩ :=
      checkFixture_conclude hfixture hparts hcompare houtputs hown update
    rw [conclude_of_recognized hrecognized] at hcheck
    exact ⟨middle, hgood, hupdated, hfiles, runFile_of_ok hcheck⟩
  obtain ⟨middle, hgood, -, -, hplain⟩ := hrun false
  obtain ⟨middle', hgood', hupdated', hfiles', hupdating⟩ := hrun true
  exact {
    paths := houtputs
    drawn := hown
    ok_iff := iff_of_true (hplain ▸ eq_true_of_ne_false hgood) hrecognized
    ok := hupdating ▸ eq_true_of_ne_false hgood'
    updated_iff := iff_of_false (by rw [hupdating, hupdated']; decide) (not_not.2 hrecognized)
    kept := fun _ => hupdating ▸ hfiles'
    replaced := absurd hrecognized }

theorem judged_of_not_recognized (hrecognized : ¬ Recognized outcome.frames picture found)
    (hreplace : replaceReference picture outputs.ref shown =
      (.ok (), shown.write outputs.ref (.picture picture))) :
    Judged setup path bench n outcome.frames outputs picture found shown := by
  obtain ⟨middle, -, -, -, hplain⟩ :=
    checkFixture_conclude hfixture hparts hcompare houtputs hown false
  obtain ⟨middle', hgood', -, rfl, hupdating⟩ :=
    checkFixture_conclude hfixture hparts hcompare houtputs hown true
  rw [conclude_of_not_recognized hrecognized hreplace] at hupdating
  have hupdating := runFile_of_ok hupdating
  have hfails : ¬ (runFile (setup.choosing (.only n) false) path bench).1.ok = true := by
    rw [ok_runFile_iff]
    rintro ⟨after, hrun, hgood⟩
    have hbad := bad_conclude hrecognized outputs.ref middle
    rw [← hplain, hrun] at hbad
    exact hgood hbad
  exact {
    paths := houtputs
    drawn := hown
    ok_iff := iff_of_false hfails hrecognized
    ok := hupdating ▸ eq_true_of_ne_false hgood'
    updated_iff := iff_of_true (hupdating ▸ rfl) hrecognized
    kept := fun hother => absurd hother hrecognized
    replaced := fun _ => hupdating ▸ rfl }

end Conclusion

/-- If all pages are recognized, then what some of them come to depends on the comparison only. -/
theorem exists_judged {outcome : Outcome} {outputs : Outputs} {all : List Document.Frame}
    {whole : Image.Picture} {reference : Option Image.Picture} {shown : Tree}
    (hparts : PassesOn bench (checkParts setup path (some (n.fmod fixture.parts.length).toNat)
      fixture.slots.zipIdx) [outcome])
    (hcompare : outcome.compareRef = true) (houtputs : outputPaths setup path = .ok outputs)
    (hframes : outcome.frames.Sublist all)
    (hall : present outputs all bench.files = (.ok (whole, reference), shown))
    (hwhole : Recognized all whole reference) :
    ∃ picture found shown', Judged setup path bench n outcome.frames outputs picture found shown' ∧
      (outcome.frames = all → Recognized outcome.frames picture found) := by
  obtain ⟨picture, found, shown', hown, hwidth, hheight, hfound⟩ :=
    exists_present_of_sublist hframes hall
  have hfull : outcome.frames = all → Recognized outcome.frames picture found := by
    rintro rfl
    obtain ⟨rfl, rfl⟩ := Prod.mk.inj (Except.ok.inj (Prod.mk.inj (hown.symm.trans hall)).1)
    exact hwhole
  refine ⟨picture, found, shown', ?_, hfull⟩
  by_cases hrecognized : Recognized outcome.frames picture found
  · exact judged_of_recognized hfixture hparts hcompare houtputs hown hrecognized
  · exact judged_of_not_recognized hfixture hparts hcompare houtputs hown hrecognized
      (replaceReference_of_present hframes hall hwhole hown hwidth hheight hfound hrecognized)

end Only

/-! ## One part of a file that passes -/

theorem parts_ne_nil (path : Path) (text : String) : (Fixture.read path text).parts ≠ [] := by
  rw [Fixture.parts_read, Ne, List.map_eq_nil_iff, List.map_eq_nil_iff]
  exact Text.splitOnAux_ne_nil _ _ _

theorem length_slots_read (path : Path) (text : String) :
    (Fixture.read path text).slots.length = (Fixture.read path text).parts.length := by
  have hlines : ∀ line parts, (Fixture.partLines line parts).length = parts.length := by
    intro line parts
    induction parts generalizing line with
    | nil => rfl
    | cons part parts ih => exact congrArg (· + 1) (ih _)
  rw [Fixture.slots, List.length_map, List.length_zipIdx, List.length_zip]
  refine (congrArg (min _) ((hlines 0 _).trans ?_)).trans (Nat.min_self _)
  exact (List.length_map _).symm

theorem exists_read_of_fixtureAt {files : Tree} {fixture : Fixture}
    (hfixture : fixtureAt files path = .ok fixture) : ∃ text, fixture = Fixture.read path text := by
  rw [fixtureAt] at hfixture
  split at hfixture
  · cases hfixture
  split at hfixture
  · cases hfixture
  · split at hfixture
    · exact ⟨_, (Except.ok.inj hfixture).symm⟩
    · cases hfixture
  · cases hfixture

/-- Every number stands for a part. -/
theorem exists_slot {files : Tree} {fixture : Fixture}
    (hfixture : fixtureAt files path = .ok fixture) (n : Int) :
    ∃ slot, fixture.slots[(n.fmod fixture.parts.length).toNat]? = some slot := by
  obtain ⟨text, rfl⟩ := exists_read_of_fixtureAt hfixture
  have hparts := List.length_pos_iff.2 (parts_ne_nil path text)
  have hnonneg := Int.fmod_nonneg_of_pos n (Int.natCast_pos.2 hparts)
  have hless := Int.fmod_lt_of_pos n (Int.natCast_pos.2 hparts)
  refine ⟨_, List.getElem?_eq_getElem ?_⟩
  rw [length_slots_read]
  omega

theorem exists_mem_zip {holds : α → β → Prop} {items : List α} {values : List β}
    (hforall : List.Forall₂ holds items values) {item : α} (hitem : item ∈ items) :
    ∃ value, (item, value) ∈ items.zip values ∧ holds item value := by
  induction hforall with
  | nil => cases hitem
  | @cons first value items values hfirst _ ih =>
    obtain rfl | hitem := List.mem_cons.1 hitem
    · exact ⟨value, List.mem_cons_self, hfirst⟩
    · obtain ⟨value', hzip, hholds⟩ := ih hitem
      exact ⟨value', List.mem_cons_of_mem _ hzip, hholds⟩

/-- What a file that passes has come to: an outcome for every subtest, and pages that are
recognized if one of them is compared. -/
theorem exists_outcomes (hworld : bench.world.Booked)
    (hquiet : ∀ fixture, fixtureAt bench.files path = .ok fixture →
      ∀ subtest ∈ fixture.subtests, Fuzz.Quiet setup.reparser subtest.text)
    (hok : (runFile (setup.choosing .all false) path bench).1.ok = true) :
    ∃ fixture outcomes, fixtureAt bench.files path = .ok fixture ∧
      List.Forall₂ (fun subtest outcome => PassesOn bench (checkSubtest setup path subtest) outcome)
        fixture.subtests outcomes ∧
      (outcomes.any Outcome.compareRef = true → ∃ outputs whole reference shown,
        outputPaths setup path = .ok outputs ∧
        present outputs (outcomes.flatMap Outcome.frames) bench.files =
          (.ok (whole, reference), shown) ∧
        Recognized (outcomes.flatMap Outcome.frames) whole reference) := by
  obtain ⟨after, hpasses⟩ := ok_runFile_iff.1 hok
  rw [checkFixture] at hpasses
  obtain ⟨fixture, _, hload, hpasses⟩ := hpasses.of_bind
  rw [loadFixture_apply] at hload
  obtain ⟨hfixture, rfl⟩ := Prod.mk.inj hload
  obtain ⟨selected, _, hselect, hpasses⟩ := hpasses.of_bind
  obtain ⟨hselected, rfl⟩ := eq_ok_of_lift hselect
  obtain rfl := Except.ok.inj hselected
  obtain ⟨outcomes, middle, hparts, hpages⟩ := hpasses.of_bind
  have hgood : ¬ middle.Bad := hpages.not_bad (neverMends_comparePages _ _ outcomes)
  have hsubtests : fixture.slots.zipIdx.filterMap Prod.fst = fixture.subtests := by
    change fixture.slots.zipIdx.filterMap (id ∘ Prod.fst) = fixture.slots.filterMap id
    rw [← List.filterMap_map, List.zipIdx_map_fst]
  rw [checkParts_choosing] at hparts
  obtain ⟨hforall, hfiles⟩ := forall₂_passesOn hworld (hsubtests ▸ hquiet fixture hfixture)
    (Front.start setup path hworld) (.inl rfl) ⟨hparts, hgood⟩
  refine ⟨fixture, outcomes, hfixture, hsubtests ▸ hforall, fun hcompare => ?_⟩
  rw [if_pos hcompare] at hpages
  obtain ⟨outputs, whole, reference, shown, houtputs, hpresent, hrecognized⟩ :=
    hpages.of_checkPages rfl
  exact ⟨outputs, whole, reference, shown, houtputs, hfiles ▸ hpresent, hrecognized⟩

/-- If a file passes, then so does every part of it alone, as far as its own text goes.  A part
that is compared passes exactly if the reference shows the pages of this part only, and with
updates the reference is replaced by its picture if it does not.  So selecting a part keeps a file
passing if all pages of the file are its own, but not in general. -/
theorem part_passes_iff_recognized (setup : Setup) (path : Path) (bench : Bench)
    (hreparser : setup.reparser = .incremental) (hworld : bench.world.Reached fun _ => True)
    (hreach : ∀ fixture, fixtureAt bench.files path = .ok fixture →
      ∀ subtest ∈ fixture.subtests, Fuzz.InReach subtest.text)
    (hok : (runFile (setup.choosing .all false) path bench).1.ok = true) (n : Int) :
    ∃ fixture outcomes slot, fixtureAt bench.files path = .ok fixture ∧
      List.Forall₂ (fun subtest outcome => PassesOn bench (checkSubtest setup path subtest) outcome)
        fixture.subtests outcomes ∧
      fixture.slots[(n.fmod fixture.parts.length).toNat]? = some slot ∧
      match slot with
      | none => Unjudged setup path bench n
      | some subtest =>
        ∃ outcome, (subtest, outcome) ∈ fixture.subtests.zip outcomes ∧
          (outcome.compareRef = false → Unjudged setup path bench n) ∧
          (outcome.compareRef = true → ∃ outputs picture reference shown,
            Judged setup path bench n outcome.frames outputs picture reference shown ∧
              (outcome.frames = outcomes.flatMap Outcome.frames →
                Recognized outcome.frames picture reference)) := by
  have hquiet : ∀ fixture, fixtureAt bench.files path = .ok fixture →
      ∀ subtest ∈ fixture.subtests, Fuzz.Quiet setup.reparser subtest.text := by
    intro fixture hfixture subtest hsubtest
    rw [hreparser]
    exact (hreach fixture hfixture subtest hsubtest).quiet
  obtain ⟨fixture, outcomes, hfixture, hforall, hpages⟩ := exists_outcomes hworld.booked hquiet hok
  obtain ⟨slot, hslot⟩ := exists_slot hfixture n
  refine ⟨fixture, outcomes, slot, hfixture, hforall, hslot, ?_⟩
  cases slot with
  | none => exact unjudged hfixture (PassesOn.checkParts hslot passesOn_header) rfl
  | some subtest =>
    have hmem : subtest ∈ fixture.subtests :=
      List.mem_filterMap.2 ⟨some subtest, List.mem_of_getElem? hslot, rfl⟩
    obtain ⟨outcome, hzip, halone⟩ := exists_mem_zip hforall hmem
    have hparts := PassesOn.checkParts hslot halone.checkParts_singleton
    refine ⟨outcome, hzip, fun hsilent => ?_, fun hcompare => ?_⟩
    · exact unjudged hfixture hparts (by rw [List.any_cons, hsilent]; rfl)
    have hin : outcome ∈ outcomes := (List.of_mem_zip hzip).2
    obtain ⟨outputs, whole, reference, shown, houtputs, hall, hwhole⟩ :=
      hpages (List.any_eq_true.2 ⟨outcome, hin, hcompare⟩)
    have hframes : outcome.frames.Sublist (outcomes.flatMap Outcome.frames) :=
      List.flatMap_def ▸ List.sublist_flatten_of_mem (List.mem_map_of_mem hin)
    obtain ⟨picture, found, shown', hjudged⟩ :=
      exists_judged hfixture hparts hcompare houtputs hframes hall hwhole
    exact ⟨outputs, picture, found, shown', hjudged⟩

/-- Fixtures and what belongs to them, each in a directory of its own. -/
def ownDirectories : Setup where
  settings :=
    { fixtureDir := .ofString "typ", refDir := .ofString "ref", pngDir := .ofString "png" }

/-- Two pages of two pixels each. -/
def smallPages : Image.Picture where
  raster := .stack Image.padding Image.canvasColor
    [.filled 2 1 Image.white, .filled 2 1 Image.white]

/-- A file with two parts that have a small page each, and its reference. -/
def twoPages : Bench where
  files := ⟨[(["typ"], .directory),
    (["typ", "a"], .file (.bytes
      "#set page(width:1pt,margin:0pt)\n---\n#set page(width:1pt,margin:0pt)".toUTF8)),
    (["ref"], .directory),
    (["ref", "a.png"], .file (.picture smallPages))]⟩
  world := { root := .ofString "assets" }

theorem ok_twoPages :
    (runFile (ownDirectories.choosing .all false) (.ofString "typ/a") twoPages).1.ok = true := by
  decide +kernel

theorem part_passes_iff_recognized_twoPages :
    ownDirectories.reparser = .incremental ∧ (twoPages.world.Reached fun _ => True) ∧
    (∀ fixture, fixtureAt twoPages.files (.ofString "typ/a") = .ok fixture →
      ∀ subtest ∈ fixture.subtests, Fuzz.InReach subtest.text) ∧
    (runFile (ownDirectories.choosing .all false) (.ofString "typ/a") twoPages).1.ok = true ∧
    ∃ fixture outcomes slot, fixtureAt twoPages.files (.ofString "typ/a") = .ok fixture ∧
      List.Forall₂ (fun subtest outcome =>
        PassesOn twoPages (checkSubtest ownDirectories (.ofString "typ/a") subtest) outcome)
        fixture.subtests outcomes ∧
      fixture.slots[((-1 : Int).fmod fixture.parts.length).toNat]? = some slot ∧
      match slot with
      | none => Unjudged ownDirectories (.ofString "typ/a") twoPages (-1)
      | some subtest =>
        ∃ outcome, (subtest, outcome) ∈ fixture.subtests.zip outcomes ∧
          (outcome.compareRef = false →
            Unjudged ownDirectories (.ofString "typ/a") twoPages (-1)) ∧
          (outcome.compareRef = true → ∃ outputs picture reference shown,
            Judged ownDirectories (.ofString "typ/a") twoPages (-1) outcome.frames outputs
              picture reference shown ∧
              (outcome.frames = outcomes.flatMap Outcome.frames →
                Recognized outcome.frames picture reference)) := by
  have hreach : ∀ fixture, fixtureAt twoPages.files (.ofString "typ/a") = .ok fixture →
      ∀ subtest ∈ fixture.subtests, Fuzz.InReach subtest.text := by
    have hsubtests : (fixtureAt twoPages.files (.ofString "typ/a")).toOption.map
        (fun fixture => fixture.subtests.all fun subtest => Fuzz.InReach subtest.text) =
          some true := by
      decide +kernel
    intro fixture hfixture subtest hsubtest
    rw [hfixture] at hsubtests
    exact of_decide_eq_true (List.all_eq_true.1 (Option.some.inj hsubtests) subtest hsubtest)
  exact ⟨rfl, .new _, hreach, ok_twoPages, part_passes_iff_recognized ownDirectories
    (.ofString "typ/a") twoPages rfl (.new _) hreach ok_twoPages (-1)⟩

/-- The file passes, but its first part does not pass alone.  With updates the reference of the
file is lost. -/
theorem part_fails_in_passing_file :
    (runFile (ownDirectories.choosing .all false) (.ofString "typ/a") twoPages).1.ok = true ∧
    (runFile (ownDirectories.choosing (.only 0) false) (.ofString "typ/a") twoPages).1.ok = false ∧
    (runFile (ownDirectories.choosing (.only 0) true) (.ofString "typ/a") twoPages).1.updated =
      true := by
  refine ⟨ok_twoPages, ?_, ?_⟩
  · decide +kernel
  · decide +kernel

end Galley.Run
