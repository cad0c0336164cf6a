import Galley.Proofs.Evaluation.OwnPath
import Galley.Proofs.File.Joined
import Galley.Proofs.Run.Findings

/-!
# Subtests that ask for their own file

A subtest is set under the path at which its file was found, which starts where one works.  The
world takes that path from the asset directory, like the paths that documents ask for.  So the
document that a file asks for at its own path is the main source if both directories are the same
one.  Otherwise it is another source with the text of the file, which is loaded and evaluated.
-/

namespace Galley.Run

open Compile File

variable {setup : Setup} {path : Path} {subtest : Subtest} {bench : Bench}
  {source : Syntax.Source} {compiled : Compiled}

/-- Two paths have the same slot in the worlds of a run. -/
def SameSlot (settings : Settings) (path other : Path) : Prop :=
  (settings.assetDir ++ path).normalize = (settings.assetDir ++ other).normalize

instance (settings : Settings) (path other : Path) : Decidable (SameSlot settings path other) :=
  inferInstanceAs (Decidable (_ = _))

theorem normalize_eq_append (world : World) (path : Path) :
    world.normalize path = (world.root ++ path).normalize := by
  rw [World.normalize]
  split
  · rw [Path.append_of_isAbsolute world.root ‹_›]
  · rfl

theorem sameSlot_iff {settings : Settings} {world : World} (hroot : world.root = settings.assetDir)
    {path other : Path} :
    SameSlot settings path other ↔ world.normalize other = world.normalize path := by
  rw [SameSlot, normalize_eq_append, normalize_eq_append, hroot, eq_comm]

/-! ## The main source of a subtest -/

/-- What the evaluation of a subtest starts with, once its text is set. -/
def evaluationStart (setup : Setup) (path : Path) (subtest : Subtest) (source : Syntax.Source)
    (bench : Bench) : Surroundings :=
  startOf setup source { bench with world := (bench.world.set path subtest.text).2 }

theorem extends_evaluationStart (setup : Setup)
    (htidy : (bench.world.set path subtest.text).2.Tidy)
    (hsource : source ∈ (bench.world.set path subtest.text).2.sources) :
    World.Extends (bench.world.set path subtest.text).2
        (evaluationStart setup path subtest source bench).world ∧
      (evaluationStart setup path subtest source bench).world.Tidy := by
  rw [evaluationStart, startOf]
  split
  · exact htidy.evaluated ⟨_, bench.printed, 0⟩ hsource bench.files _ []
  · exact ⟨.refl _, htidy⟩

/-- A compiled subtest is the source that its text has become, and its module is what that source
is evaluated to. -/
theorem evaluateSource_of_compileSubtest (htidy : bench.world.Tidy)
    (hcompiled : compileSubtest setup path subtest bench = .ok (source, compiled)) :
    source.id = (bench.world.set path subtest.text).1 ∧
      World.Extends (bench.world.set path subtest.text).2
        (evaluationStart setup path subtest source bench).world ∧
      (evaluationStart setup path subtest source bench).world.Tidy ∧
      (evaluateSource bench.files source
        (evaluationStart setup path subtest source bench)).1 = .ok compiled.module := by
  obtain ⟨found, hfound, hid, -⟩ := World.exists_source_set htidy.numbered path subtest.text
  have hset := htidy.hasSet path subtest.text
  rw [compileSubtest] at hcompiled
  dsimp only at hcompiled
  rw [hfound] at hcompiled
  change ((compile bench.files (evaluationStart setup path subtest found bench)).1 >>=
    fun compiled => pure (found, compiled)) = _ at hcompiled
  obtain ⟨hextends, hstart⟩ :=
    extends_evaluationStart setup hset.tidy (World.mem_of_source hfound)
  cases hresult : compile bench.files (evaluationStart setup path subtest found bench) with
  | mk result after =>
    rw [hresult] at hcompiled
    cases result with
    | error failure => cases hcompiled
    | ok module =>
      cases hcompiled
      obtain ⟨main, hmain, hevaluate⟩ := main_of_compile hresult
      -- The source that is compiled has the id of the main source, so it is the one that was set.
      obtain ⟨mainId, hmainId, -, hfound'⟩ := World.main_eq_ok_iff.1 hmain
      rw [hextends.mainId, hset.mainId] at hmainId
      obtain rfl := Option.some.inj hmainId
      have hplace := World.source_eq_ok_iff.1 hfound
      rw [hextends.getElem? (List.getElem?_eq_some_iff.1 hplace).1, hplace] at hfound'
      obtain rfl := Option.some.inj hfound'
      exact ⟨hid, hextends, hstart, congrArg Prod.fst hevaluate⟩

/-! ## Asking for one's own file -/

/-- What becomes of a subtest of a file that is asked for at its own path. -/
structure SelfInclusion (setup : Setup) (here path : Path) (subtest : Subtest) (bench : Bench)
    (asked : String) : Prop where
  absolute : path.isAbsolute = true →
    (SameSlot setup.settings path (.ofString asked) ↔ setup.settings.assetDir.isAbsolute = true)
  relative : path.StaysBelow →
    (SameSlot setup.settings path (.ofString asked) ↔
      (here ++ setup.settings.assetDir).normalize = here.normalize)
  place : SameSlot setup.settings path (.ofString asked) →
    (here ++ (setup.settings.assetDir ++ path)).normalize = (here ++ path).normalize
  /-- With one slot, a call that asks for the file makes no difference, or it is reported. -/
  refused : SameSlot setup.settings path (.ofString asked) →
    ∀ source compiled, compileSubtest setup path subtest bench = .ok (source, compiled) →
      ∀ span load, (∀ place other,
        ¬(place = span ∧ SameSlot setup.settings path (.ofString other)) →
          load place other =
            loadFor bench.files source (evaluationStart setup path subtest source bench)
              place other) →
        (evaluateWith load source (evaluationStart setup path subtest source bench)).1 =
            .ok compiled.module ∨
          ⟨source.id, span, EvalError.cyclicInclude.message⟩ ∈ compiled.module.diagnostics
  /-- With two slots, the file is never refused to the subtest. -/
  missed : ¬SameSlot setup.settings path (.ofString asked) →
    ∀ source compiled, compileSubtest setup path subtest bench = .ok (source, compiled) →
      ∀ span place machine,
        World.Extends (bench.world.set path subtest.text).2 machine.world → machine.world.Tidy →
          (loadFor bench.files source (evaluationStart setup path subtest source bench)
            span asked machine).1 ≠ .error (.report place .cyclicInclude)

/-- A subtest that asks for its own file, by its path from the asset directory, is told that this is
a cycle wherever both paths have one slot.  A relative path has the slot exactly if the asset
directory is where one works, and an absolute one exactly if that directory is absolute. -/
theorem selfInclusion (setup : Setup) (here path : Path) (subtest : Subtest) (bench : Bench)
    (asked : String) (hworld : bench.world.Reached fun _ => True)
    (hroot : bench.world.root = setup.settings.assetDir)
    (hinside : Path.Inside here setup.settings.assetDir path (.ofString asked)) :
    SelfInclusion setup here path subtest bench asked where
  absolute := hinside.same_iff_of_isAbsolute
  relative := hinside.same_iff
  place := hinside.place_of_same
  refused _ source compiled hcompiled span load hload := by
    obtain ⟨hid, hextends, htidy, hmodule⟩ := evaluateSource_of_compileSubtest hworld.tidy hcompiled
    have hloads : ∀ place other, ¬(place = span ∧
        bench.world.normalize (.ofString other) = bench.world.normalize path) →
          load place other = loadFor bench.files source
            (evaluationStart setup path subtest source bench) place other :=
      fun place other hother => hload place other fun ⟨hplace, hsame⟩ =>
        hother ⟨hplace, (sameSlot_iff hroot).1 hsame⟩
    obtain hsame | hheard := evaluateSource_heard hworld.tidy hid hextends htidy hloads
    · exact .inl (hsame ▸ hmodule)
    · exact .inr (hheard _ hmodule)
  missed hother source compiled hcompiled span place machine hextends hmachine :=
    loadFor_ne_cyclicInclude hworld.tidy (evaluateSource_of_compileSubtest hworld.tidy hcompiled).1
      (fun hsame => hother ((sameSlot_iff hroot).2 hsame)) hextends hmachine

/-- A file whose only subtest asks for it by its path from the asset directory. -/
def askingForItself (directories : List String) : Bench where
  files := ⟨(directories ++ ["typ"]).inits.tail.map (·, .directory) ++
    [(directories ++ ["typ", "a"], .file (.bytes "#include(\"typ/a\")".toUTF8))]⟩
  world := { root := { names := directories } }

/-- Where the asset directory is the current one, the subtest is told so. -/
theorem selfInclusion_current :
    let setup : Setup := { settings := { assetDir := .current } }
    let subtest : Subtest := ⟨0, "#include(\"typ/a\")", 0, true⟩
    (askingForItself []).world.Reached (fun _ => True) ∧
      (askingForItself []).world.root = setup.settings.assetDir ∧
      Path.Inside (.ofString "/w") setup.settings.assetDir (.ofString "typ/a") (.ofString "typ/a") ∧
      SelfInclusion setup (.ofString "/w") (.ofString "typ/a") subtest (askingForItself [])
        "typ/a" ∧
      SameSlot setup.settings (.ofString "typ/a") (.ofString "typ/a") ∧
      (compileSubtest setup (.ofString "typ/a") subtest (askingForItself [])).toOption.map
        (fun (source, compiled) => (source.id, compiled.module.diagnostics.map fun diagnostic =>
          (diagnostic.source, diagnostic.message))) = some (0, [(0, "cyclic include")]) := by
  intro setup subtest
  have hworld : (askingForItself []).world.Reached fun _ => True := .new _
  have hinside : Path.Inside (.ofString "/w") setup.settings.assetDir (.ofString "typ/a")
      (.ofString "typ/a") :=
    ⟨by decide, ⟨by decide, by decide⟩, by decide⟩
  exact ⟨hworld, rfl, hinside, selfInclusion setup _ _ subtest _ _ hworld rfl hinside, rfl,
    by decide +kernel⟩

/-- With the default settings the document that the file asks for is another source, so the file
passes for one that asks for itself behind the main source. -/
theorem selfInclusion_missed :
    let setup : Setup := { settings := {} }
    let bench := askingForItself ["tests", "fixtures"]
    let path : Path := .ofString "tests/fixtures/typ/a"
    bench.world.root = setup.settings.assetDir ∧
      Path.Inside (.ofString "/w") setup.settings.assetDir path (.ofString "typ/a") ∧
      (bench.files.read path).toOption.isSome = true ∧
      (compileSubtest setup path ⟨0, "#include(\"typ/a\")", 0, true⟩ bench).toOption.map
        (fun (source, compiled) => (source.id, compiled.module.diagnostics.map fun diagnostic =>
          (diagnostic.source, diagnostic.message))) = some (0, [(1, "cyclic include")]) := by
  intro setup bench path
  exact ⟨rfl, ⟨by decide, ⟨by decide, by decide⟩, by decide⟩, by decide +kernel,
    by decide +kernel⟩

end Galley.Run
