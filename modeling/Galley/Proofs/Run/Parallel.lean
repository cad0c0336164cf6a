import Galley.Proofs.Evaluation.Parallel
import Galley.Proofs.Run.Steps

/-!
# Checks in parallel worlds

A check looks at its world for what its main sources compile to, and for nothing
else.  So in two parallel worlds a file gets the same report, unless a document
asks for a hidden path in the first one.
-/

namespace Galley.Run

open Compile File Check World

variable {α β : Type}

/-- The progress of a check in another world. -/
def Progress.moved (progress : Progress) (world : World) : Progress :=
  { progress with bench := { progress.bench with world } }

/-- A step that neither looks at the world nor changes it. -/
def Worldless (action : Check α) : Prop :=
  ∀ progress world, action (progress.moved world) =
    ((action progress).1, (action progress).2.moved world)

namespace Worldless

theorem pure (value : α) : Worldless (pure value) :=
  fun _ _ => rfl

theorem throw (failure : Failure) : Worldless (throw failure : Check α) :=
  fun _ _ => rfl

theorem bind {action : Check α} {next : α → Check β} (haction : Worldless action)
    (hnext : ∀ value, Worldless (next value)) : Worldless (action >>= next) := by
  intro progress world
  rw [bind_apply, bind_apply, haction]
  generalize action progress = answer
  obtain ⟨failure | value, after⟩ := answer
  · rfl
  · exact hnext value after world

/-- What is put into the report is a matter of the report. -/
theorem closed : Closed Worldless where
  pure := pure
  throw := throw
  bind := bind
  dump _ _ _ := rfl
  blame _ _ _ := rfl

theorem fuzz (setup : Setup) (subtest : Subtest) (text : String) :
    Worldless (fuzz setup subtest text) := by
  intro progress world
  have hgenerator : (progress.moved world).generator = progress.generator := rfl
  rw [fuzz_apply, fuzz_apply, hgenerator]
  cases Fuzz.runSession setup.reparser text progress.generator with
  | error failure => rfl
  | ok drawn =>
    exact closed.forM (fun _ => closed.blame rfl) { progress with generator := drawn.2 } world

theorem comparePages (setup : Setup) (path : Path) (outcomes : List Outcome) :
    Worldless (comparePages setup path outcomes) :=
  closed.comparePages (fun _ _ _ => rfl) (fun _ _ => rfl) setup path outcomes

theorem world_eq {action : Check α} (haction : Worldless action) (progress : Progress) :
    (action progress).2.bench.world = progress.bench.world :=
  congrArg (fun answer => answer.2.bench.world) (haction progress progress.bench.world)

end Worldless

/-! ## Checks side by side -/

/-- The first outcome leaves a lost bench, or the second one is the same in a world
that belongs to the bench of the first one. -/
def Ties (lost : Bench → Prop) (holds : Bench → World → Prop)
    (outcome outcome' : Except Failure α × Progress) : Prop :=
  lost outcome.2.bench ∨ ∃ world, holds outcome.2.bench world ∧
    outcome' = (outcome.1, outcome.2.moved world)

/-- Two steps have the same outcome in worlds that belong together, and leave such
worlds behind, unless the first one loses its bench. -/
structure Paired (lost : Bench → Prop) (holds : Bench → World → Prop) (left right : Check α) :
    Prop where
  stays : Maintains (fun progress => lost progress.bench) left
  run : ∀ progress world, holds progress.bench world →
    Ties lost holds (left progress) (right (progress.moved world))

theorem Ties.mono {lost lost' : Bench → Prop} {holds holds' : Bench → World → Prop}
    {outcome outcome' : Except Failure α × Progress} (hties : Ties lost holds outcome outcome')
    (hlost : ∀ bench, lost bench → lost' bench)
    (hholds : ∀ bench world, holds bench world → holds' bench world) :
    Ties lost' holds' outcome outcome' := by
  obtain hbench | ⟨world, hworld, hsame⟩ := hties
  · exact .inl (hlost _ hbench)
  · exact .inr ⟨world, hholds _ _ hworld, hsame⟩

namespace Paired

variable {lost : Bench → Prop} {holds : Bench → World → Prop}

/-- What neither looks at the world nor touches the bench. -/
theorem of_worldless {action : Check α} (haction : Worldless action)
    (hbench : ∀ bench, Maintains (fun progress => progress.bench = bench) action) :
    Paired lost holds action action where
  stays progress hlost := by
    show lost (action progress).2.bench
    rwa [hbench progress.bench progress rfl]
  run progress world hholds := by
    rw [← hbench progress.bench progress rfl] at hholds
    exact .inr ⟨world, hholds, haction progress world⟩

theorem bind {left right : Check α} {next next' : α → Check β}
    (haction : Paired lost holds left right)
    (hnext : ∀ value, Paired lost holds (next value) (next' value)) :
    Paired lost holds (left >>= next) (right >>= next') where
  stays := .bind haction.stays fun value => (hnext value).stays
  run progress world hholds := by
    have hrun := haction.run progress world hholds
    rw [bind_apply, bind_apply]
    generalize left progress = answer at hrun ⊢
    obtain ⟨failure | value, after⟩ := answer
    · obtain hlost | ⟨_, hafter, hright⟩ := hrun
      · exact .inl hlost
      · rw [hright]
        exact .inr ⟨_, hafter, rfl⟩
    · obtain hlost | ⟨_, hafter, hright⟩ := hrun
      · exact .inl ((hnext value).stays after hlost)
      · rw [hright]
        exact (hnext value).run after _ hafter

theorem skip (index : Nat) : Paired lost holds (add (.skipped index)) (add (.skipped index)) :=
  of_worldless (fun _ _ => rfl) fun _ _ hbench => hbench

theorem closed : Closed fun action => Paired lost holds action action where
  pure value := of_worldless (.pure value) fun _ => .pure value
  throw failure := of_worldless (.throw failure) fun _ => .throw failure
  bind := bind
  dump hdump :=
    of_worldless (Worldless.closed.dump hdump) fun _ => (steady_bench _).closed.dump hdump
  blame hfault :=
    of_worldless (Worldless.closed.blame hfault) fun _ => (steady_bench _).closed.blame hfault

end Paired

/-! ## Subtests -/

variable {hidden : Path → Bool} {files : Tree} {own path : Path}
  {source source' : Syntax.Source}

theorem lasting_tidy (files : Tree) (path : Path) : Lasting files path World.Tidy where
  faithful htidy := htidy.faithful
  set _ htidy := (htidy.hasSet _ _).tidy
  resolve _ htidy := (htidy.resolved _ _).tidy

/-- What a file leaves in a world of which it knows its own path only. -/
theorem lasting_aged {before : World} (hkey : before.normalize path = own) :
    Lasting files path (Aged files own before) where
  faithful haged := haged.tidy.faithful
  set text haged := haged.set hkey text
  resolve asked haged := haged.resolve asked

/-- The main sources of a file in two parallel worlds. -/
structure Opened (hidden : Path → Bool) (files : Tree) (path own : Path)
    (source source' : Syntax.Source) (bench : Bench) (world' : World) : Prop where
  disk : bench.files = files
  key : bench.world.normalize path = own
  parallel : Parallel hidden files files bench.world world'
  main : bench.world.mainId = some source.id
  main' : world'.mainId = some source'.id
  slot : bench.world.slot? own = some (.source source.id)
  slot' : world'.slot? own = some (.source source'.id)
  mem : source ∈ bench.world.sources
  mem' : source' ∈ world'.sources

namespace Opened

variable {bench : Bench} {world' : World}

theorem linked (hopened : Opened hidden files path own source source' bench world')
    (hown : hidden own = false) : Linked hidden bench.world world' source.id source'.id :=
  ⟨own, hown, hopened.slot, hopened.slot'⟩

/-- A computation that comes to the same in both worlds leaves the sources as they are. -/
theorem after {same : World → World → α → α → Prop}
    {outcome outcome' : Except Failure α × Surroundings}
    {outside' : Surroundings}
    (hopened : Opened hidden files path own source source' bench outside'.world)
    (hsame : Alongside hidden files files same bench.surroundings outside' outcome outcome')
    (hsources : bench.world.sources ⊆ outcome.2.world.sources)
    (hsources' : outside'.world.sources ⊆ outcome'.2.world.sources) (printed : String) :
    Opened hidden files path own source source' ⟨bench.files, outcome.2.world, printed⟩
      outcome'.2.world where
  disk := hopened.disk
  key := (normalize_eq_of_root hsame.kept.root path).trans hopened.key
  parallel := hsame.parallel
  main := hsame.kept.mainId.trans hopened.main
  main' := hsame.kept'.mainId.trans hopened.main'
  slot := hsame.kept.slot hopened.slot
  slot' := hsame.kept'.slot hopened.slot'
  mem := hsources hopened.mem
  mem' := hsources' hopened.mem'

end Opened

/-- Two computations on benches that come to the same. -/
def Agree (hidden : Path → Bool) (files : Tree) (same : World → World → α → α → Prop)
    (step step' : Tree → Surroundings → Except Failure α × Surroundings) (bench : Bench)
    (world' : World) (printed' : String) : Prop :=
  bench.world.sources ⊆ (step files bench.surroundings).2.world.sources ∧
    world'.sources ⊆ (step' files { world := world', printed := printed' }).2.world.sources ∧
    (Lost hidden (step files bench.surroundings).2.world ∨
      Alongside hidden files files same bench.surroundings
        { world := world', printed := printed' } (step files bench.surroundings)
        (step' files { world := world', printed := printed' }))

theorem agree_evaluateSource {bench : Bench} {world' : World} (printed' : String)
    (hown : hidden own = false) (hroot : source'.root = source.root)
    (hopened : Opened hidden files path own source source' bench world') :
    Agree hidden files (SameModule hidden) (fun files => evaluateSource files source)
      (fun files => evaluateSource files source') bench world' printed' := by
  have htidy := lasting_tidy files path
  have houtside : bench.surroundings.world.Tidy := hopened.parallel.tidy
  have houtside' : (Surroundings.mk world' printed' 0).world.Tidy := hopened.parallel.tidy'
  exact ⟨(htidy.evaluateSource houtside hopened.mem).2,
    (htidy.evaluateSource houtside' hopened.mem').2,
    evaluateSource_alongside (hopened.linked hown) hopened.mem hopened.mem' hopened.parallel
      rfl hroot⟩

theorem agree_compile {bench : Bench} {world' : World} (printed' : String)
    (hown : hidden own = false) (hattached : source.id ≠ Syntax.Source.detachedId)
    (hattached' : source'.id ≠ Syntax.Source.detachedId)
    (hopened : Opened hidden files path own source source' bench world') :
    Agree hidden files (SameCompiled hidden) compile compile bench world' printed' := by
  have htidy := lasting_tidy files path
  have houtside : bench.surroundings.world.Tidy := hopened.parallel.tidy
  have houtside' : (Surroundings.mk world' printed' 0).world.Tidy := hopened.parallel.tidy'
  have hmain : SameMain hidden bench.world world' source.id source'.id :=
    ⟨hopened.main, hopened.main', hopened.linked hown, hattached, hattached'⟩
  exact ⟨(htidy.compile houtside).2, (htidy.compile houtside').2,
    compile_alongside hmain hopened.parallel rfl⟩

/-- Nothing but the tree and the text of a source is looked at before it is compiled. -/
theorem showTree_eq (setup : Setup) (hroot : source'.root = source.root) :
    showTree setup source' = showTree setup source := by
  rw [showTree, showTree, hroot]

theorem checkTree_eq (hroot : source'.root = source.root) :
    checkTree source' = checkTree source := by
  rw [checkTree, checkTree, hroot]

theorem read_eq (htext : source'.text = source.text) :
    Metadata.read source' = Metadata.read source := by
  obtain ⟨id, path, text, root⟩ := source
  obtain ⟨id', path', text', root'⟩ := source'
  obtain rfl : text' = text := htext
  rfl

theorem readNotes_eq (subtest : Subtest) (htext : source'.text = source.text) :
    readNotes subtest source' = readNotes subtest source := by
  rw [readNotes, readNotes, read_eq htext]

theorem describe_eq (htext : source'.text = source.text) (line : Int) (note : Note) :
    Note.describe source' line note = Note.describe source line note := by
  obtain ⟨id, path, text, root⟩ := source
  obtain ⟨id', path', text', root'⟩ := source'
  obtain rfl : text' = text := htext
  rfl

theorem judgeNotes_eq (subtest : Subtest) (metadata : Metadata)
    (pages : List Document.Frame) (emitted : Except Failure (List Note))
    (htext : source'.text = source.text) :
    judgeNotes subtest source' metadata pages emitted =
      judgeNotes subtest source metadata pages emitted := by
  have hnotes : checkNotes subtest source' = checkNotes subtest source := by
    funext expected emitted
    simp only [checkNotes, describe_eq htext]
  rw [judgeNotes, judgeNotes, hnotes]

section Subtest

variable (hown : hidden own = false) (hroot : source'.root = source.root)

include hown hroot

variable (htext : source'.text = source.text) (hattached : source.id ≠ Syntax.Source.detachedId)
  (hattached' : source'.id ≠ Syntax.Source.detachedId)

include htext hattached hattached'

end Subtest

/-! ## Files -/

/-- A bench on which a file may be checked as well as in another world, which tells the
same about all other paths that are not hidden. -/
structure Ready (hidden : Path → Bool) (files : Tree) (path own : Path) (bench : Bench)
    (world' : World) : Prop where
  disk : bench.files = files
  key : bench.world.normalize path = own
  parallel : Parallel (orAt hidden own) files files bench.world world'
  attached : ∀ text, (bench.world.set path text).1 ≠ Syntax.Source.detachedId
  attached' : ∀ text, (world'.set path text).1 ≠ Syntax.Source.detachedId

/-- A file may be checked further after a subtest. -/
theorem Opened.ready {bench : Bench} {world' : World}
    (hopened : Opened hidden files path own source source' bench world')
    (hattached : source.id ≠ Syntax.Source.detachedId)
    (hattached' : source'.id ≠ Syntax.Source.detachedId) :
    Ready hidden files path own bench world' where
  disk := hopened.disk
  key := hopened.key
  parallel := hopened.parallel.orAt
  attached text := by
    rwa [hopened.parallel.tidy.fst_set_of_source (hopened.key ▸ hopened.slot)]
  attached' text := by
    have hkey := (normalize_eq_of_root hopened.parallel.root path).trans hopened.key
    rwa [hopened.parallel.tidy'.fst_set_of_source (hkey ▸ hopened.slot')]

/-- A text becomes the main source in both worlds. -/
theorem Ready.exists_opened {progress : Progress} {world' : World}
    (hready : Ready hidden files path own progress.bench world') (text : String) :
    ∃ source source' : Syntax.Source,
      setMain path text progress =
        (.ok source, progress.moved (progress.bench.world.set path text).2) ∧
      setMain path text (progress.moved world') =
        (.ok source', progress.moved (world'.set path text).2) ∧
      source'.text = source.text ∧ source'.root = source.root ∧
      source.id ≠ Syntax.Source.detachedId ∧ source'.id ≠ Syntax.Source.detachedId ∧
      Opened hidden files path own source source'
        { progress.bench with world := (progress.bench.world.set path text).2 }
        (world'.set path text).2 := by
  have htidy := hready.parallel.tidy
  have htidy' := hready.parallel.tidy'
  obtain ⟨source, hsource, hid, htext, hroot⟩ := exists_source_set htidy.numbered path text
  obtain ⟨source', hsource', hid', htext', hroot'⟩ := exists_source_set htidy'.numbered path text
  have hset := htidy.hasSet path text
  have hset' := htidy'.hasSet path text
  have hkey := (normalize_eq_of_root hready.parallel.root path).trans hready.key
  rw [hready.key] at hset
  rw [hkey] at hset'
  refine ⟨source, source', (setMain_apply _ _ _).trans (congrArg (·, _) hsource),
    (setMain_apply _ _ _).trans (congrArg (·, _) hsource'), htext'.trans htext.symm,
    hroot'.trans hroot.symm, hid ▸ hready.attached text, hid' ▸ hready.attached' text, ?_⟩
  exact ⟨hready.disk, (normalize_eq_of_root hset.root path).trans hready.key,
    Parallel.set (hready.key ▸ hready.parallel) text, hid ▸ hset.mainId, hid' ▸ hset'.mainId,
    hid ▸ hset.slot, hid' ▸ hset'.slot, mem_of_source hsource, mem_of_source hsource'⟩

/-- What a check maintains in a world holds of it when the file has been run. -/
theorem Lasting.runFile {good : World → Prop} {bench : Bench}
    (hlasting : Lasting bench.files path good) (setup : Setup) (hworld : good bench.world) :
    good (runFile setup path bench).2.world := by
  have hcheck : good (checkFixture setup path (.start setup path bench)).2.bench.world := by
    rw [checkFixture_apply]
    split
    · rename_i fixture selected _
      have hparts := hlasting.checkParts setup selected fixture.slots.zipIdx
        (.start setup path bench) ⟨rfl, hworld⟩
      rw [bind_apply]
      generalize Run.checkParts setup path selected fixture.slots.zipIdx _ = answer at hparts ⊢
      obtain ⟨failure | outcomes, after⟩ := answer
      · exact hparts.2
      · exact ((Worldless.comparePages setup path outcomes).world_eq after).symm ▸ hparts.2
    · exact hworld
  rw [Run.runFile, ← Progress.start]
  generalize checkFixture setup path (.start setup path bench) = outcome at hcheck ⊢
  obtain ⟨failure | value, after⟩ := outcome <;> exact hcheck

end Galley.Run
