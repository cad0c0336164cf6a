import Galley.Proofs.Evaluation.Snapshot
import Galley.Proofs.Fuzz.Session
import Galley.Proofs.Run.Parallel
import Galley.Proofs.Run.Passing

/-!
# Subtests alone

The subtests of a file hand on their world, their generator and their report.  What
a subtest that passes leaves in the world tells the others what they would be told
anyway, a session finds nothing whatever it draws, and nothing looks at the report.
So a subtest that passes in a file that passes also passes alone, with the same
outcome.
-/

namespace Galley.Run

open Compile File Check World

variable {α β : Type} {setup : Setup} {files : Tree} {own path : Path} {before : World}
  {progress progress' after : Progress}

/-! ## What a subtest that passes leaves behind -/

/-- A step that comes to a value leads from one state of the check to another. -/
def Leads (holds : Progress → Prop) (action : Check α) (leaves : Progress → Prop) : Prop :=
  ∀ progress value after, holds progress → action progress = (.ok value, after) → leaves after

namespace Leads

variable {holds between leaves : Progress → Prop}

theorem of_maintains {action : Check α} (haction : Maintains holds action) :
    Leads holds action holds := by
  intro progress value after hholds hrun
  have hafter := haction progress hholds
  rwa [hrun] at hafter

theorem bind {action : Check α} {next : α → Check β} (haction : Leads holds action between)
    (hnext : ∀ value, Leads between (next value) leaves) :
    Leads holds (action >>= next) leaves := by
  intro progress value after hholds hrun
  rw [bind_apply] at hrun
  cases hfirst : action progress with
  | mk result middle =>
    rw [hfirst] at hrun
    cases result with
    | error failure => cases hrun
    | ok first => exact hnext first middle value after (haction _ _ _ hholds hfirst) hrun

end Leads

theorem lasting_booked (files : Tree) (path : Path) : Lasting files path World.Booked where
  faithful hbooked := hbooked.tidy.faithful
  set text hbooked := hbooked.set path text
  resolve asked hbooked := hbooked.resolve files asked

/-- A subtest that is being checked in a world in which its source is the main one. -/
structure Standing (files : Tree) (opened : World) (source : Syntax.Source)
    (progress : Progress) : Prop where
  holds : progress.Holds files World.Booked source
  kept : Kept opened progress.bench.world
  settled : Settled opened progress.bench.world

variable {opened : World} {source : Syntax.Source}

theorem steady_standing : Steady (Standing files opened source) where
  dump _ hstanding := ⟨hstanding.holds, hstanding.kept, hstanding.settled⟩
  blame _ hstanding := ⟨hstanding.holds, hstanding.kept, hstanding.settled⟩
  draw _ hstanding := ⟨hstanding.holds, hstanding.kept, hstanding.settled⟩

/-- A computation with a result leaves no path without an outcome. -/
theorem Standing.computed {same : World → World → α → α → Prop} {value : α}
    (step : Tree → Surroundings → Except Failure α × Surroundings)
    (hstanding : Standing files opened source progress)
    (hself : Alongside (fun _ => false) files files same progress.bench.surroundings
      progress.bench.surroundings (step files progress.bench.surroundings)
      (step files progress.bench.surroundings))
    (hstep : (step files progress.bench.surroundings).1 = .ok value)
    (hafter : (compiling step progress).2.Holds files World.Booked source) :
    Standing files opened source (compiling step progress).2 := by
  obtain rfl : progress.bench.files = files := hstanding.holds.1.1
  exact ⟨hafter, hstanding.kept.trans hself.kept, hstanding.settled.trans (hself.settled _ hstep)⟩

theorem leads_showModel (setup : Setup) :
    Leads (Standing files opened source) (showModel setup source)
      (Standing files opened source) := by
  rw [showModel]
  split
  · refine .bind ?_ fun _ => .of_maintains (steady_standing.closed.dump rfl)
    intro progress module after hstanding hrun
    obtain ⟨⟨rfl, hbooked⟩, hsource⟩ := hstanding.holds
    have hworld : progress.bench.surroundings.world.Booked := hbooked
    have hmem : source ∈ progress.bench.surroundings.world.sources := hsource
    have hafter := (lasting_booked progress.bench.files progress.bench.world.root).evaluateSource
      hworld hmem
    rw [compiling_apply] at hrun
    obtain ⟨hmodule, hrun⟩ := Prod.mk.inj hrun
    rw [← hrun]
    exact hstanding.computed (fun files => evaluateSource files source)
      (Booked.alongside_evaluateSource _ hworld hmem) hmodule ⟨⟨rfl, hafter.1⟩, hafter.2 hsource⟩
  · exact .of_maintains (.pure _)

theorem leads_compile (hmain : opened.mainId = some source.id) :
    Leads (Standing files opened source) (compiling compile) fun progress =>
      Standing files opened source progress ∧ source.id ≠ Syntax.Source.detachedId := by
  intro progress compiled after hstanding hrun
  obtain ⟨⟨rfl, hbooked⟩, hsource⟩ := hstanding.holds
  have hafter := (lasting_booked progress.bench.files progress.bench.world.root).holds_compile
    source progress hstanding.holds
  rw [compiling_apply] at hrun
  obtain ⟨hcompiled, hrun⟩ := Prod.mk.inj hrun
  rw [← hrun]
  have hworld : progress.bench.surroundings.world.Booked := hbooked
  refine ⟨hstanding.computed compile (Booked.alongside_compile _ hworld hcompiled) hcompiled
    hafter, ?_⟩
  obtain ⟨main, hfound⟩ := exists_hasMain hworld.tidy.numbered hcompiled
  have hsame := Option.some.inj ((hstanding.kept.mainId.trans hmain).symm.trans hfound.mainId)
  exact hsame ▸ hfound.attached

theorem leads_checkOpened (setup : Setup) (subtest : Subtest)
    (hmain : opened.mainId = some source.id) :
    Leads (Standing files opened source) (checkOpened setup subtest source) fun progress =>
      Standing files opened source progress ∧ source.id ≠ Syntax.Source.detachedId := by
  rw [checkOpened]
  have hclosed : Closed (Maintains (Standing files opened source)) := steady_standing.closed
  refine .bind (.of_maintains (hclosed.showTree setup source)) fun _ =>
    .bind (.of_maintains (hclosed.readNotes subtest source)) fun metadata =>
    .bind (.of_maintains (hclosed.checkTree source)) fun _ =>
    .bind (.of_maintains (.fuzz steady_standing setup subtest source.text)) fun _ =>
    .bind (leads_showModel setup) fun _ =>
    .bind (leads_compile hmain) fun compiled => .of_maintains ?_
  rintro progress ⟨hstanding, hattached⟩
  exact ⟨Maintains.judgeCompiled steady_standing _ _ _ _ progress hstanding, hattached⟩

/-- A subtest with an outcome leaves no path without one, and its source has an id of its
own. -/
theorem settled_checkSubtest {subtest : Subtest} {outcome : Outcome}
    (hbooked : progress.bench.world.Booked)
    (hrun : checkSubtest setup path subtest progress = (.ok outcome, after)) :
    Settled progress.bench.world after.bench.world ∧
      (progress.bench.world.set path subtest.text).1 ≠ Syntax.Source.detachedId := by
  have hset := hbooked.tidy.hasSet path subtest.text
  obtain ⟨source, hsource, hid, -⟩ :=
    exists_source_set hbooked.tidy.numbered path subtest.text
  rw [checkSubtest_eq, bind_apply, setMain_apply, hsource] at hrun
  have hmain : (progress.bench.world.set path subtest.text).2.mainId = some source.id :=
    hid ▸ hset.mainId
  have hstanding : Standing progress.bench.files (progress.bench.world.set path subtest.text).2
      source (progress.moved (progress.bench.world.set path subtest.text).2) :=
    ⟨⟨⟨rfl, hbooked.set path subtest.text⟩, mem_of_source hsource⟩, .refl _, .refl _⟩
  obtain ⟨hafter, hattached⟩ := leads_checkOpened setup subtest hmain _ _ _ hstanding hrun
  exact ⟨hset.settled.trans hafter.settled, hid ▸ hattached⟩

/-- What is true in front of every subtest of a file whose other subtests have passed: the
world tells what the first one told, and the source of the file has an id of its own. -/
structure Front (path : Path) (bench : Bench) (progress : Progress) : Prop where
  disk : progress.bench.files = bench.files
  booked : progress.bench.world.Booked
  aged : Aged bench.files (bench.world.normalize path) bench.world progress.bench.world
  settled : Settled bench.world progress.bench.world

variable {bench : Bench}

theorem Front.start (setup : Setup) (path : Path) (hbooked : bench.world.Booked) :
    Front path bench (.start setup path bench) :=
  ⟨rfl, hbooked, .refl hbooked.tidy, .refl _⟩

theorem Front.next {subtest : Subtest} {outcome : Outcome} (hfront : Front path bench progress)
    (hrun : checkSubtest setup path subtest progress = (.ok outcome, after)) :
    Front path bench after := by
  have hbooked := (lasting_booked bench.files path).checkSubtest setup subtest progress
    ⟨hfront.disk, hfront.booked⟩
  have hkeeps : progress.Keeps bench.files
      (Aged bench.files (bench.world.normalize path) bench.world) := ⟨hfront.disk, hfront.aged⟩
  have haged := (lasting_aged rfl).checkSubtest setup subtest progress hkeeps
  rw [hrun] at hbooked haged
  exact ⟨hbooked.1, hbooked.2, haged.2,
    hfront.settled.trans (settled_checkSubtest hfront.booked hrun).1⟩

/-- Such a file can be checked further in the world in which it began. -/
theorem Front.ready (hfront : Front path bench progress) (hbooked : bench.world.Booked)
    (hattached : (bench.world.set path "").1 ≠ Syntax.Source.detachedId)
    (hattached' : (progress.bench.world.set path "").1 ≠ Syntax.Source.detachedId) :
    Ready (fun _ => false) bench.files path (bench.world.normalize path) progress.bench
      bench.world where
  disk := hfront.disk
  key := normalize_eq_of_root hfront.aged.root path
  parallel := by
    refine ⟨hfront.booked.tidy, hbooked.tidy, hfront.aged.root.symm, fun other hother => ?_⟩
    exact (hfront.aged.told_eq hfront.settled (orAt_eq_false.1 hother).2).symm
  attached text := by rwa [fst_set_eq _ path text ""]
  attached' text := by rwa [fst_set_eq _ path text ""]

/-! ## Steps that pass again -/

/-- If a step passes, then another one passes on every bench that belongs to that of the first
one, with the same value, whatever its report and its generator are. -/
structure Repeats (holds : Bench → Bench → Prop) (left right : Check α) : Prop where
  mends : NeverMends left
  again : ∀ {progress after progress' : Progress} {value : α},
    Passes left progress value after → holds progress.bench progress'.bench →
      ¬ progress'.Bad →
        ∃ after', Passes right progress' value after' ∧ holds after.bench after'.bench

namespace Repeats

variable {holds : Bench → Bench → Prop}

theorem pure (value : α) : Repeats holds (pure value) (pure value) where
  mends := .pure value
  again := by
    rintro progress after progress' _ ⟨hrun, -⟩ hbench hgood
    obtain ⟨hvalue, rfl⟩ := Prod.mk.inj hrun
    obtain rfl := Except.ok.inj hvalue
    exact ⟨progress', ⟨rfl, hgood⟩, hbench⟩

theorem throw (failure : Failure) (right : Check α) : Repeats holds (throw failure) right where
  mends := .throw failure
  again hpasses := nomatch hpasses.1

theorem bind {left right : Check α} {next next' : α → Check β} (haction : Repeats holds left right)
    (hnext : ∀ value, Repeats holds (next value) (next' value)) :
    Repeats holds (left >>= next) (right >>= next') where
  mends := .bind haction.mends fun value => (hnext value).mends
  again := by
    intro progress after progress' value hpasses hbench hgood
    obtain ⟨first, middle, hfirst, hrest⟩ := hpasses.of_bind
    obtain ⟨middle', hfirst', hbench'⟩ :=
      haction.again ⟨hfirst, hrest.not_bad (hnext first).mends⟩ hbench hgood
    obtain ⟨after', hrest', hafter⟩ := (hnext first).again hrest hbench' hfirst'.2
    refine ⟨after', ⟨?_, hrest'.2⟩, hafter⟩
    rw [bind_apply, hfirst'.1]
    exact hrest'.1

theorem add (entry entry' : Entry) : Repeats holds (add entry) (add entry') where
  mends _ hbad := hbad
  again := by
    rintro progress after progress' value ⟨hrun, -⟩ hbench hgood
    obtain ⟨-, rfl⟩ := Prod.mk.inj hrun
    exact ⟨_, ⟨rfl, hgood⟩, hbench⟩

/-- What passes blames nobody. -/
theorem blame (entry : Entry) (right : Check Unit) : Repeats holds (blame entry) right where
  mends _ _ := rfl
  again hpasses := absurd hpasses Passes.not_blame

theorem closed : Closed fun action => Repeats holds action action where
  pure := pure
  throw failure := throw failure _
  bind := bind
  dump _ := add _ _
  blame _ := blame _ _

/-- A session that finds nothing, whatever it draws. -/
theorem fuzz {text : String} (setup : Setup) (subtest : Subtest)
    (hquiet : Fuzz.Quiet setup.reparser text) :
    Repeats holds (fuzz setup subtest text) (fuzz setup subtest text) where
  mends := .fuzz steady_bad _ _ _
  again := by
    have hrun : ∀ progress, ∃ generator,
        Run.fuzz setup subtest text progress = (.ok (), { progress with generator }) := by
      intro progress
      obtain ⟨report, next, hsession, hnothing⟩ := hquiet progress.generator
      rw [fuzz_apply, hsession]
      dsimp only
      rw [hnothing]
      exact ⟨next, rfl⟩
    rintro progress after progress' value ⟨hpasses, -⟩ hbench hgood
    obtain ⟨generator, hfuzz⟩ := hrun progress
    obtain ⟨generator', hfuzz'⟩ := hrun progress'
    obtain ⟨-, rfl⟩ := Prod.mk.inj (hfuzz.symm.trans hpasses)
    exact ⟨_, ⟨hfuzz', hgood⟩, hbench⟩

end Repeats

/-! ## The same subtest in another world -/

/-- Benches on which the same text is the main source, in worlds that tell the same. -/
structure Beside (files : Tree) (path own : Path) (source source' : Syntax.Source)
    (bench bench' : Bench) : Prop where
  opened : Opened (fun _ => false) files path own source source' bench bench'.world
  disk : bench'.files = files

variable {source' : Syntax.Source}

/-- What follows a computation passes again if it does so for results that belong together. -/
theorem repeats_compiling {same : World → World → α → α → Prop}
    {step step' : Tree → Surroundings → Except Failure α × Surroundings} {next next' : α → Check β}
    (hstep : ∀ bench world' printed',
      Opened (fun _ => false) files path own source source' bench world' →
        Agree (fun _ => false) files same step step' bench world' printed')
    (hmends : ∀ value, NeverMends (next value))
    (hnext : ∀ {progress after progress' : Progress} {value value' : α} {result : β},
      Passes (next value) progress result after →
        Beside files path own source source' progress.bench progress'.bench →
          same progress.bench.world progress'.bench.world value value' → ¬ progress'.Bad →
            ∃ after', Passes (next' value') progress' result after' ∧
              Beside files path own source source' after.bench after'.bench) :
    Repeats (Beside files path own source source') (compiling step >>= next)
      (compiling step' >>= next') where
  mends := .bind (.compiling benchless_bad.toUnworldly step) hmends
  again := by
    intro progress after progress' result hpasses hbeside hgood
    obtain ⟨value, middle, hvalue, hrest⟩ := hpasses.of_bind
    obtain ⟨hopened, hdisk⟩ := hbeside
    obtain ⟨hsources, hsources', hsame⟩ :=
      hstep progress.bench progress'.bench.world progress'.bench.printed hopened
    have hsame := hsame.resolve_left (not_lost _)
    obtain rfl := hopened.disk
    rw [compiling_apply] at hvalue
    obtain ⟨hstepped, rfl⟩ := Prod.mk.inj hvalue
    obtain ⟨value', hvalue', hresult⟩ : ∃ value',
        (step' progress.bench.files progress'.bench.surroundings).1 = .ok value' ∧
          same (step progress.bench.files progress.bench.surroundings).2.world
            (step' progress.bench.files progress'.bench.surroundings).2.world value value' := by
      have hmatched := hsame.matched
      rw [hstepped] at hmatched
      change Matched _ _ (step' progress.bench.files progress'.bench.surroundings).1 at hmatched
      generalize (step' progress.bench.files progress'.bench.surroundings).1 = result'
        at hmatched ⊢
      cases hmatched with
      | value hresult => exact ⟨_, rfl, hresult⟩
    let middle' : Progress := { progress' with
      bench := { progress'.bench with
        world := (step' progress.bench.files progress'.bench.surroundings).2.world
        printed := (step' progress.bench.files progress'.bench.surroundings).2.printed } }
    have hmiddle : Beside progress.bench.files path own source source' _ middle'.bench :=
      ⟨hopened.after hsame hsources hsources'
        (step progress.bench.files progress.bench.surroundings).2.printed, hdisk⟩
    obtain ⟨after', hrest', hbeside⟩ := hnext hrest hmiddle hresult hgood
    refine ⟨after', ⟨?_, hrest'.2⟩, hbeside⟩
    rw [bind_apply, compiling_apply, hdisk, hvalue']
    exact hrest'.1

section Subtest

variable (hroot : source'.root = source.root) (htext : source'.text = source.text)
  (hattached : source.id ≠ Syntax.Source.detachedId)
  (hattached' : source'.id ≠ Syntax.Source.detachedId)

include hroot in
theorem repeats_showModel (setup : Setup) :
    Repeats (Beside files path own source source') (showModel setup source)
      (showModel setup source') := by
  rw [showModel, showModel]
  split
  · refine repeats_compiling
      (fun _ _ printed' hopened => agree_evaluateSource printed' rfl hroot hopened)
      (fun _ => steady_bad.closed.dump rfl) ?_
    intro progress after progress' module module' value hpasses hbeside _ hgood
    exact (Repeats.add _ _).again hpasses hbeside hgood
  · exact .pure _

include htext hattached hattached' in
theorem repeats_compile (subtest : Subtest) (metadata : Metadata) :
    Repeats (Beside files path own source source')
      (compiling compile >>= judgeCompiled subtest source metadata)
      (compiling compile >>= judgeCompiled subtest source' metadata) := by
  refine repeats_compiling
    (fun _ _ printed' hopened => agree_compile printed' rfl hattached hattached' hopened)
    (fun _ => .judgeCompiled steady_bad _ _ _ _) ?_
  intro progress after progress' compiled compiled' outcome hpasses hbeside hsame hgood
  have hnotes : Diagnostic.notesFor progress'.bench.world source'.id
      compiled'.module.diagnostics =
        Diagnostic.notesFor progress.bench.world source.id compiled.module.diagnostics :=
    notesFor_mirrored hbeside.opened.parallel (hbeside.opened.linked rfl)
      hsame.module.diagnostics
  rw [Passes, judgeCompiled_apply] at hpasses
  obtain ⟨after', hpasses', hafter⟩ :=
    (Repeats.closed.judgeNotes _ _ _ _ _).again hpasses hbeside hgood
  refine ⟨after', ?_, hafter⟩
  rw [Passes, judgeCompiled_apply, hnotes, hsame.pages, judgeNotes_eq _ _ _ _ htext]
  exact hpasses'

include hroot htext hattached hattached' in
theorem repeats_checkOpened (setup : Setup) (subtest : Subtest)
    (hquiet : Fuzz.Quiet setup.reparser source.text) :
    Repeats (Beside files path own source source') (checkOpened setup subtest source)
      (checkOpened setup subtest source') := by
  rw [checkOpened, checkOpened, showTree_eq setup hroot, readNotes_eq subtest htext,
    checkTree_eq hroot, htext]
  have hclosed : Closed fun action =>
      Repeats (Beside files path own source source') action action :=
    Repeats.closed
  exact .bind (hclosed.showTree _ _) fun _ => .bind (hclosed.readNotes _ _) fun metadata =>
    .bind (hclosed.checkTree _) fun _ => .bind (.fuzz setup subtest hquiet) fun _ =>
    .bind (repeats_showModel hroot setup) fun _ =>
      repeats_compile htext hattached hattached' subtest metadata

end Subtest

/-- A subtest that passes in a file whose subtests in front have passed also passes alone, with
the same outcome. -/
theorem Front.passes_alone {bench : Bench} {subtest : Subtest} {outcome : Outcome}
    (hfront : Front path bench progress) (hbooked : bench.world.Booked)
    (hattached : (bench.world.set path "").1 ≠ Syntax.Source.detachedId)
    (hquiet : Fuzz.Quiet setup.reparser subtest.text)
    (hpasses : Passes (checkSubtest setup path subtest) progress outcome after)
    (hbench : progress'.bench = bench) (hgood : ¬ progress'.Bad) :
    ∃ final, Passes (checkSubtest setup path subtest) progress' outcome final ∧
      final.bench.files = bench.files := by
  have hattached' := (settled_checkSubtest hfront.booked hpasses.1).2
  have hready := hfront.ready hbooked hattached (by rwa [fst_set_eq _ path "" subtest.text])
  obtain ⟨source, source', hleft, hright, htext, hroot, hown, hown', hopened⟩ :=
    hready.exists_opened subtest.text
  have hsource : source.text = subtest.text := by
    obtain ⟨found, hfound, -, hsame, -⟩ :=
      exists_source_set hfront.booked.tidy.numbered path subtest.text
    rw [setMain_apply, hfound] at hleft
    obtain rfl := Except.ok.inj (Prod.mk.inj hleft).1
    exact hsame
  rw [← hsource] at hquiet
  rw [Passes, checkSubtest_eq, bind_apply, hleft] at hpasses
  have hdisk : progress'.bench.files = bench.files := congrArg Bench.files hbench
  have hmoved : Beside bench.files path (bench.world.normalize path) source source' _
      (progress'.moved (bench.world.set path subtest.text).2).bench := ⟨hopened, hdisk⟩
  obtain ⟨final, hfinal, hbeside⟩ :=
    (repeats_checkOpened hroot htext hown hown' setup subtest hquiet).again hpasses hmoved hgood
  have hset : setMain path subtest.text progress' =
      (.ok source', progress'.moved (bench.world.set path subtest.text).2) := by
    have hworld : progress'.bench.world = bench.world := congrArg Bench.world hbench
    rw [setMain_apply] at hright
    rw [setMain_apply, hworld]
    exact congrArg (·, _) (Prod.mk.inj hright).1
  refine ⟨final, ⟨?_, hfinal.2⟩, hbeside.disk⟩
  rw [checkSubtest_eq, bind_apply, hset]
  exact hfinal.1

end Galley.Run
