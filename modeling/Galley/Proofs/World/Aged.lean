import Galley.Proofs.World.Told

/-!
# What requests leave behind

Requests for documents add slots and sources to a world and change nothing else.
So what has been told once stays so, whatever becomes of the files, and a path
that has got an outcome tells what was to be found in the files at first.
-/

namespace Galley.Compile

open Syntax

namespace World

variable {files : File.Tree} {own path : File.Path} {before between after : World}

/-! ## Growing worlds -/

/-- Nothing has changed but that slots and sources have come behind the others. -/
structure Extends (before after : World) : Prop where
  root : after.root = before.root
  mainId : after.mainId = before.mainId
  sources : before.sources <+: after.sources
  slots : before.slots <+: after.slots

namespace Extends

theorem refl (world : World) : Extends world world :=
  ⟨rfl, rfl, List.prefix_refl _, List.prefix_refl _⟩

theorem trans (hfirst : Extends before between) (hsecond : Extends between after) :
    Extends before after :=
  ⟨hsecond.root.trans hfirst.root, hsecond.mainId.trans hfirst.mainId,
    hfirst.sources.trans hsecond.sources, hfirst.slots.trans hsecond.slots⟩

theorem kept (hextends : Extends before after) : Kept before after := by
  refine ⟨hextends.root, hextends.mainId, fun {path slot} hslot => ?_⟩
  obtain ⟨rest, hslots⟩ := hextends.slots
  obtain ⟨entry, hentry, rfl⟩ := Option.map_eq_some_iff.1 hslot
  rw [slot?, ← hslots, List.find?_append, hentry]
  rfl

theorem getElem? (hextends : Extends before after) {id : Nat} (hid : id < before.sources.length) :
    after.sources[id]? = before.sources[id]? := by
  obtain ⟨rest, hsources⟩ := hextends.sources
  rw [← hsources, List.getElem?_append_left hid]

/-- What has an outcome is told for good, whatever becomes of the files. -/
theorem told_eq (hextends : Extends before after) (htidy : before.Tidy) {slot : Slot}
    (hslot : before.slot? path = some slot) (files files' : File.Tree) :
    after.told files' path = before.told files path := by
  rw [told_eq_of_isSome hslot files files', told, told, hextends.kept.slot hslot, hslot]
  cases slot with
  | source id =>
    dsimp only
    rw [hextends.getElem? (htidy.within hslot)]
  | _ => rfl

/-- A slot for a path that had none. -/
theorem setSlot (world : World) (hnone : world.slot? path = none) (slot : Slot) :
    Extends world (world.setSlot path slot) := by
  refine ⟨root_setSlot .., mainId_setSlot .., ?_, ?_⟩
  · exact (sources_setSlot world path slot).symm ▸ List.prefix_refl _
  · rw [World.setSlot, hnone]
    exact List.prefix_append _ _

theorem resolve (world : World) (files : File.Tree) (path : File.Path) :
    Extends world (world.resolve files path).2 := by
  obtain ⟨slot, -, hresolve⟩ | ⟨hnone, ⟨text, -, hresolve⟩ | ⟨error, -, hresolve⟩ |
    ⟨failure, -, hresolve⟩⟩ := resolve_cases world files path <;> rw [hresolve]
  · exact .refl world
  · have hslot := setSlot (world.insert (world.normalize path) text).2 hnone
      (.source world.sources.length)
    exact ⟨hslot.root, hslot.mainId, (List.prefix_append _ _).trans hslot.sources, hslot.slots⟩
  · exact setSlot world hnone _
  · exact setSlot world hnone _

end Extends

/-- Evaluation adds to its world by requests only. -/
theorem Tidy.evaluated (outside : Surroundings) (htidy : outside.world.Tidy) {source : Source}
    (hsource : source ∈ outside.world.sources) (files : File.Tree) (depth : Nat)
    (route : List Nat) :
    Extends outside.world (evaluate files depth route source outside).2.world ∧
      (evaluate files depth route source outside).2.world.Tidy := by
  let holds (after : World) : Prop := Extends outside.world after ∧ after.Tidy
  have hresolve : ∀ after path, holds after → holds (after.resolve files path).2 :=
    fun after path ⟨hextends, htidy⟩ =>
      ⟨hextends.trans (.resolve after files path), (htidy.resolved files path).tidy⟩
  exact holds_evaluate (fun _ hafter => hafter.2.faithful) hresolve depth route
    (htidy.faithful source hsource) ⟨.refl _, htidy⟩

/-! ## Outcomes -/

/-- No path has been left without an outcome in between. -/
def Settled (before after : World) : Prop :=
  ∀ path, after.slot? path = some .pending → before.slot? path = some .pending

theorem Settled.refl (world : World) : Settled world world :=
  fun _ => id

theorem Settled.trans (hfirst : Settled before between)
    (hsecond : Settled between after) : Settled before after :=
  fun path hslot => hfirst path (hsecond path hslot)

/-- Another outcome leaves no path without one. -/
theorem Settled.setSlot (world : World) (path : File.Path) {slot : Slot} (hslot : slot ≠ .pending) :
    Settled world (world.setSlot path slot) := by
  intro other hother
  by_cases hsame : other = path
  · rw [hsame, slot?_setSlot_self] at hother
    exact absurd (Option.some.inj hother) hslot
  · rwa [slot?_setSlot_of_ne world slot hsame] at hother

/-- A path that is set has one, and others keep theirs. -/
theorem HasSet.settled {text : String} {id : Nat} (hset : HasSet before path text id after) :
    Settled before after := by
  intro other hother
  by_cases hsame : other = path
  · rw [hsame, hset.slot] at hother
    exact nomatch Option.some.inj hother
  · rwa [(hset.others hsame).1] at hother

/-- A request leaves its path without an outcome only if it fails for that. -/
theorem settled_resolve (world : World) (files : File.Tree) (path : File.Path)
    (hanswer : ∀ failure, (world.resolve files path).1 = .error failure →
      ∃ error, failure = .load error) : Settled world (world.resolve files path).2 := by
  obtain ⟨slot, -, hresolve⟩ | ⟨-, ⟨text, -, hresolve⟩ | ⟨error, -, hresolve⟩ |
    ⟨failure, hload, hresolve⟩⟩ := resolve_cases world files path <;> rw [hresolve] at hanswer ⊢
  · exact .refl world
  · exact Settled.setSlot _ _ Slot.noConfusion
  · exact .setSlot world _ Slot.noConfusion
  · obtain ⟨error, rfl⟩ := hanswer failure rfl
    exact absurd rfl (ne_load_of_load hload error)

/-! ## What files leave behind -/

/-- What a file that was run leaves in a world, apart from its own path: what has been
told once stays so, and is what was to be found in the files, or nothing at all if it
could not be told. -/
structure Aged (files : File.Tree) (own : File.Path) (before after : World) : Prop where
  tidy : after.Tidy
  root : after.root = before.root
  slot : ∀ {path : File.Path} {slot : Slot}, path ≠ own → before.slot? path = some slot →
    after.slot? path = some slot
  told : ∀ {path : File.Path}, path ≠ own →
    (∀ other, after.told other path = before.told other path) ∨
      before.slot? path = none ∧ ((∀ other, after.told other path = before.told files path) ∨
        after.slot? path = some .pending ∧
          ∃ failure, before.load files path = .error (.failure failure))

theorem Aged.refl (htidy : before.Tidy) : Aged files own before before :=
  ⟨htidy, rfl, fun _ hslot => hslot, fun _ => .inl fun _ => rfl⟩

theorem Aged.set (haged : Aged files own before after) (hkey : before.normalize path = own)
    (text : String) : Aged files own before (after.set path text).2 := by
  have hset := haged.tidy.hasSet path text
  rw [(normalize_eq_of_root haged.root path).trans hkey] at hset
  refine ⟨hset.tidy, hset.root.trans haged.root, fun hother hslot => ?_, fun hother => ?_⟩
  · rw [(hset.others hother).1, haged.slot hother hslot]
  · simp only [(hset.others hother).1, (hset.others hother).2]
    exact haged.told hother

/-- A request for a path without an outcome. -/
theorem told_resolve (files : File.Tree) (htidy : after.Tidy) (asked : File.Path)
    (hnone : after.slot? (after.normalize asked) = none) :
    (∀ other, (after.resolve files asked).2.told other (after.normalize asked) =
        after.told files (after.normalize asked)) ∨
      (after.resolve files asked).2.slot? (after.normalize asked) = some .pending ∧
        ∃ failure, after.load files (after.normalize asked) = .error (.failure failure) := by
  have hresolved := htidy.resolved files asked
  obtain ⟨slot, hslot⟩ := Option.isSome_iff_exists.1 hresolved.asked
  have hfixed := fun other => told_eq_of_isSome hslot other files
  have htold := hresolved.told
  rw [told_of_none files hnone] at htold ⊢
  cases hload : after.load files (after.normalize asked) with
  | ok text =>
    rw [hload] at htold
    obtain ⟨_, -, -, htold⟩ := htold
    exact .inl fun other => (hfixed other).trans htold
  | error reason =>
    rw [hload] at htold
    cases reason with
    | error error => exact .inl fun other => (hfixed other).trans htold.2
    | failure failure =>
      refine .inr ⟨?_, failure, rfl⟩
      obtain ⟨_, hfound, -⟩ | ⟨-, ⟨_, hfound, -⟩ | ⟨_, hfound, -⟩ | ⟨_, -, hresolve⟩⟩ :=
        resolve_cases after files asked
      · rw [hnone] at hfound
        cases hfound
      · rw [hload] at hfound
        cases hfound
      · rw [hload] at hfound
        cases hfound
      · rw [hresolve]
        exact slot?_setSlot_self ..

theorem Aged.resolve (haged : Aged files own before after) (asked : File.Path) :
    Aged files own before (after.resolve files asked).2 := by
  have hresolved := haged.tidy.resolved files asked
  have hload := load_eq_of_root haged.root files
  refine ⟨hresolved.tidy, hresolved.kept.root.trans haged.root,
    fun hother hslot => hresolved.kept.slot (haged.slot hother hslot), ?_⟩
  intro path hpath
  by_cases hasked : path = after.normalize asked
  · subst hasked
    cases hslot : after.slot? (after.normalize asked) with
    | some slot =>
      obtain ⟨_, -, hresolve⟩ | ⟨hnone, -⟩ := resolve_cases after files asked
      · rw [hresolve]
        exact haged.told hpath
      · rw [hslot] at hnone
        cases hnone
    | none =>
      have hbefore : before.slot? (after.normalize asked) = none := by
        cases hfound : before.slot? (after.normalize asked) with
        | none => rfl
        | some slot => exact (haged.slot hpath hfound).symm.trans hslot
      have hfresh := told_resolve files haged.tidy asked hslot
      rw [told_of_none files hslot, hload, ← told_of_none files hbefore] at hfresh
      exact .inr ⟨hbefore, hfresh⟩
  · simp only [(hresolved.others hasked).1, (hresolved.others hasked).2]
    exact haged.told hpath

/-- If every path that was asked for has got an outcome, nothing else is told than before. -/
theorem Aged.told_eq (haged : Aged files own before after) (hsettled : Settled before after)
    (hpath : path ≠ own) : after.told files path = before.told files path := by
  obtain htold | ⟨hnone, htold | ⟨hpending, -⟩⟩ := haged.told hpath
  · exact htold files
  · exact htold files
  · exact nomatch hnone.symm.trans (hsettled path hpending)

end World

end Galley.Compile
