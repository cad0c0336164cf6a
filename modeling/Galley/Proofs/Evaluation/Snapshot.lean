import Galley.Proofs.World.Bookkeeping

/-!
# Compiling again

A compilation keeps what it has loaded, and what it could not load, in its world.
So compiling again there comes to the same, whatever has happened to the files in
between: every request of the first compilation is answered by the slot that it
left.
-/

namespace Galley.Compile

open Syntax Document World

variable {files files' : File.Tree} {world : World} {compiled : Compiled}

/-! ## The main source -/

/-- A module is named after its source. -/
theorem name_evaluateSource {source : Source} {outside : Surroundings} {module : Module}
    (hmodule : (evaluateSource files source outside).1 = .ok module) :
    module.name = source.path.stem := by
  rw [evaluateSource, evaluate, evaluateOn] at hmodule
  split at hmodule
  · rw [evaluateTree] at hmodule
    generalize (evalNode _ source.root).content.run.run _ = answer at hmodule
    obtain ⟨(⟨span, error⟩ | failure) | content, machine⟩ := answer <;> cases hmodule <;> rfl
  · cases hmodule
    rfl

/-- What a compilation with a result says of the main source. -/
structure HasMain (files : File.Tree) (outside : Surroundings) (compiled : Compiled)
    (source : Source) : Prop where
  mainId : outside.world.mainId = some source.id
  attached : source.id ≠ Source.detachedId
  place : outside.world.sources[source.id]? = some source
  name : compiled.module.name = source.path.stem

theorem exists_hasMain {outside : Surroundings} (hnumbered : Numbered outside.world.sources)
    (hcompiled : (compile files outside).1 = .ok compiled) :
    ∃ source, HasMain files outside compiled source := by
  obtain ⟨source, hmain, hmodule⟩ := main_of_compile (Prod.ext hcompiled rfl)
  obtain ⟨id, hid, hattached, hplace⟩ := main_eq_ok_iff.1 hmain
  obtain rfl := hnumbered id source hplace
  exact ⟨source, hid, hattached, hplace, name_evaluateSource (congrArg Prod.fst hmodule)⟩

/-- A world that has only been added to has the same main source. -/
theorem HasMain.source_eq {later : World} {compiled' : Compiled} {source source' : Source}
    (hmain : HasMain files { world } compiled source)
    (hmain' : HasMain files' { world := later } compiled' source')
    (hextends : Extends world later) : source' = source := by
  have hid := Option.some.inj (hmain'.mainId.symm.trans (hextends.mainId.trans hmain.mainId))
  have hplace := hextends.getElem? (List.getElem?_eq_some_iff.1 hmain.place).1
  rw [← hid, hmain'.place, hid, hmain.place] at hplace
  exact Option.some.inj hplace

/-! ## What is asked for again -/

theorem World.Parallel.refl (htidy : world.Tidy) (files : File.Tree) :
    Parallel (fun _ => false) files files world world :=
  ⟨htidy, htidy, rfl, fun _ _ => rfl⟩

theorem World.Booked.linked_self (hbooked : world.Booked) {id : Nat}
    (hid : id < world.sources.length) : Linked (fun _ => false) world world id id := by
  obtain ⟨own, hslot⟩ := hbooked.owned hid
  exact ⟨own, rfl, hslot, hslot⟩

theorem not_lost (world : World) : ¬ Lost (fun _ => false) world :=
  fun ⟨_, _, hhidden, _⟩ => nomatch hhidden

/-- An evaluation runs alongside itself. -/
theorem World.Booked.alongside_evaluateSource (outside : Surroundings) {source : Source}
    (hbooked : outside.world.Booked) (hsource : source ∈ outside.world.sources) :
    Alongside (fun _ => false) files files (SameModule fun _ => false) outside outside
      (evaluateSource files source outside) (evaluateSource files source outside) := by
  obtain ⟨id, hplace⟩ := List.mem_iff_getElem?.1 hsource
  obtain rfl := hbooked.tidy.numbered id source hplace
  have hlinked := hbooked.linked_self (List.getElem?_eq_some_iff.1 hplace).1
  exact (evaluateSource_alongside hlinked hsource hsource (.refl hbooked.tidy files) rfl
    rfl).resolve_left (not_lost _)

/-- So does a compilation with a result. -/
theorem World.Booked.alongside_compile (outside : Surroundings) (hbooked : outside.world.Booked)
    (hcompiled : (compile files outside).1 = .ok compiled) :
    Alongside (fun _ => false) files files (SameCompiled fun _ => false) outside outside
      (compile files outside) (compile files outside) := by
  obtain ⟨source, hmain⟩ := exists_hasMain hbooked.tidy.numbered hcompiled
  have hlinked := hbooked.linked_self (List.getElem?_eq_some_iff.1 hmain.place).1
  have hsame : SameMain (fun _ => false) outside.world outside.world source.id source.id :=
    ⟨hmain.mainId, hmain.mainId, hlinked, hmain.attached, hmain.attached⟩
  exact (compile_alongside hsame (.refl hbooked.tidy files) rfl).resolve_left (not_lost _)

/-- Whatever a compilation with a result has asked for is told again later, as long as no
text changes. -/
theorem World.Booked.told_again {path : File.Path} {later : World} (hbooked : world.Booked)
    (hcompiled : (compile files { world }).1 = .ok compiled)
    (hlater : Extends (compile files { world }).2.world later)
    (hasked : ((compile files { world }).2.world.slot? path).isSome) :
    later.told files' path = world.told files path := by
  obtain ⟨hafter, hextends⟩ := hbooked.tidy.extends_compile files
  obtain ⟨source, hmain⟩ := exists_hasMain hbooked.tidy.numbered hcompiled
  obtain ⟨own, hslot⟩ := hbooked.owned (List.getElem?_eq_some_iff.1 hmain.place).1
  by_cases hown : path = own
  · rw [hown]
    exact (hextends.trans hlater).told_eq hbooked.tidy hslot files files'
  · obtain ⟨slot, hslot⟩ := Option.isSome_iff_exists.1 hasked
    have haged : Aged files own world (compile files { world }).2.world :=
      holds_compile (fun _ haged => haged.tidy.faithful) (fun _ path haged => haged.resolve path)
        (.refl hbooked.tidy)
    rw [hlater.told_eq hafter hslot files files']
    exact haged.told_eq ((hbooked.alongside_compile _ hcompiled).settled compiled hcompiled) hown

/-! ## Results -/

/-- In a world that has kept its slots, the same diagnostic is the very same one. -/
theorem Mirrored.eq {hidden : File.Path → Bool} {after later : World}
    {diagnostic diagnostic' : Diagnostic}
    (hmirrored : Mirrored hidden after later diagnostic diagnostic') (hkept : Kept after later) :
    diagnostic' = diagnostic := by
  obtain ⟨hspan, hmessage, id, id', hid, hid', path, -, hslot, hslot'⟩ := hmirrored
  obtain rfl := Slot.source.inj (Option.some.inj ((hkept.slot hslot).symm.trans hslot'))
  obtain ⟨source, span, message⟩ := diagnostic
  obtain ⟨source', span', message'⟩ := diagnostic'
  dsimp only at hspan hmessage hid hid'
  rw [hspan, hmessage, hid, hid']

theorem SameModule.eq {hidden : File.Path → Bool} {after later : World} {module module' : Module}
    (hsame : SameModule hidden after later module module') (hkept : Kept after later)
    (hname : module'.name = module.name) : module' = module := by
  obtain ⟨hcontent, hstyles, hdiagnostics⟩ := hsame
  have hdiagnostics : List.Forall₂ Eq module.diagnostics module'.diagnostics :=
    hdiagnostics.imp fun _ _ hmirrored => (Mirrored.eq hmirrored hkept).symm
  rw [List.forall₂_eq_eq_eq] at hdiagnostics
  obtain ⟨name, content, styles, diagnostics⟩ := module
  obtain ⟨name', content', styles', diagnostics'⟩ := module'
  dsimp only at hcontent hstyles hdiagnostics hname
  rw [hcontent, hstyles, ← hdiagnostics, hname]

theorem SameCompiled.eq {hidden : File.Path → Bool} {after later : World}
    {compiled compiled' : Compiled} (hsame : SameCompiled hidden after later compiled compiled')
    (hkept : Kept after later) (hname : compiled'.module.name = compiled.module.name) :
    compiled' = compiled := by
  have hmodule := hsame.module.eq hkept hname
  have hpages := hsame.pages
  obtain ⟨module, pages⟩ := compiled
  obtain ⟨module', pages'⟩ := compiled'
  dsimp only at hmodule hpages
  rw [hmodule, hpages]

/-- A compilation adds slots and sources to its world and changes nothing else.  If it has
a result, compiling again after any requests that change no text has the same result and
prints the same, whatever the files are then. -/
theorem compiling_again_repeats {fine : Source → Prop} (hworld : world.Reached fine)
    (files : File.Tree) :
    Extends world (compile files { world }).2.world ∧
      ∀ compiled, (compile files { world }).1 = .ok compiled →
        ∀ requests : List Request, (∀ request ∈ requests, request.Reads) → ∀ files' : File.Tree,
          let later := (compile files { world }).2.world.serveAll requests
          (compile files' { world := later }).1 = .ok compiled ∧
            (compile files' { world := later }).2.printed =
              (compile files { world }).2.printed := by
  classical
  have hbooked := hworld.booked
  obtain ⟨hafter, hextends⟩ := hbooked.tidy.extends_compile files
  refine ⟨hextends, fun compiled hcompiled requests hreads files' => ?_⟩
  intro later
  have hlater : Extends _ later := hafter.extends_serveAll hreads
  have htidy : later.Tidy := (root_serveAll hafter requests).1
  obtain ⟨source, hmain⟩ := exists_hasMain hbooked.tidy.numbered hcompiled
  obtain ⟨own, hslot⟩ := hbooked.owned (List.getElem?_eq_some_iff.1 hmain.place).1
  have hall := hextends.trans hlater
  -- The paths that are told otherwise by now: nobody can have asked for one of them.
  let hidden : File.Path → Bool :=
    fun path => decide (later.told files' path ≠ world.told files path)
  have hparallel : Parallel hidden files files' world later :=
    ⟨hbooked.tidy, htidy, hall.root, fun path hpath => not_not.1 (of_decide_eq_false hpath)⟩
  have hown : hidden own = false :=
    decide_eq_false (not_not.2 (hall.told_eq hbooked.tidy hslot files files'))
  have hsame : SameMain hidden world later source.id source.id :=
    ⟨hmain.mainId, hall.mainId.trans hmain.mainId, ⟨own, hown, hslot, hall.kept.slot hslot⟩,
      hmain.attached, hmain.attached⟩
  have hcompilations : Lost hidden (compile files { world }).2.world ∨
      Alongside hidden files files' (SameCompiled hidden) { world } { world := later }
        (compile files { world }) (compile files' { world := later }) :=
    compile_alongside hsame hparallel rfl
  obtain ⟨-, path, hpath, hasked⟩ | halongside := hcompilations
  · exact absurd (hbooked.told_again hcompiled hlater hasked) (of_decide_eq_true hpath)
  · refine ⟨?_, halongside.printed.eq_of_same⟩
    have hmatched := halongside.matched
    have hkept := hlater.kept.trans halongside.kept'
    rw [hcompiled] at hmatched
    cases hanswer : (compile files' { world := later }).1 with
    | error failure =>
      rw [hanswer] at hmatched
      cases hmatched
    | ok compiled' =>
      rw [hanswer] at hmatched
      obtain _ | ⟨hcompiled'⟩ := hmatched
      obtain ⟨source', hmain'⟩ := exists_hasMain htidy.numbered hanswer
      have hname : compiled'.module.name = compiled.module.name := by
        rw [hmain'.name, hmain.name, hmain.source_eq hmain' hall]
      rw [hcompiled'.eq hkept hname]

/-- A document that finds one file and misses another. -/
def missingOne : World :=
  (World.set { root := .ofString "assets" } (.ofString "main.pbt")
    "#print(1)#include(\"a.pbt\")#include(\"b.pbt\")").2

def foundOne : File.Tree :=
  ⟨[(["assets"], .directory), (["assets", "a.pbt"], .file (.bytes "#let x = 1".toUTF8))]⟩

/-- What it leaves behind, once another path has been asked for as well. -/
def missingLater : World :=
  (compile foundOne { world := missingOne }).2.world.serveAll
    [.resolve ⟨[]⟩ (.ofString "c.pbt")]

/-- It comes to the same after all files have been removed. -/
theorem compiling_again_repeats_removed : missingOne.Reached (fun _ => True) ∧
    ∃ compiled, (compile foundOne { world := missingOne }).1 = .ok compiled ∧
      compiled.module.diagnostics.map Diagnostic.message =
        ["file not found (searched at /b.pbt)"] ∧
      (compile ⟨[]⟩ { world := missingLater }).1 = .ok compiled ∧
      (compile ⟨[]⟩ { world := missingLater }).2.printed = "> 1\n" := by
  have hworld : missingOne.Reached fun _ => True := .step (.new _) (.set _ _ _) fun _ _ => trivial
  have hmessages : (compile foundOne { world := missingOne }).1.toOption.map
      (fun compiled => compiled.module.diagnostics.map Diagnostic.message) =
        some ["file not found (searched at /b.pbt)"] := by
    decide +kernel
  have hprinted : (compile foundOne { world := missingOne }).2.printed = "> 1\n" := by
    decide +kernel
  obtain ⟨compiled, hcompiled, hmessages⟩ : ∃ compiled,
      (compile foundOne { world := missingOne }).1 = .ok compiled ∧
        compiled.module.diagnostics.map Diagnostic.message =
          ["file not found (searched at /b.pbt)"] := by
    cases hcompiled : (compile foundOne { world := missingOne }).1 with
    | error failure =>
      rw [hcompiled] at hmessages
      cases hmessages
    | ok compiled =>
      rw [hcompiled] at hmessages
      exact ⟨compiled, rfl, Option.some.inj hmessages⟩
  obtain ⟨hresult, hsame⟩ := (compiling_again_repeats hworld foundOne).2 compiled hcompiled
    [.resolve ⟨[]⟩ (.ofString "c.pbt")] (by simp [Request.Reads]) ⟨[]⟩
  rw [missingLater]
  exact ⟨hworld, compiled, hcompiled, hmessages, hresult, hsame.trans hprinted⟩

end Galley.Compile
