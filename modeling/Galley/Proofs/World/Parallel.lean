import Galley.Proofs.File.Alike
import Galley.Proofs.World.Told

/-!
# Parallel worlds

Two worlds run parallel if they tell the same about every path that is not
hidden.  They answer a request alike, whatever ids the sources have in either
one, until somebody asks for a hidden path in the first world: then that world is
lost, and nothing is said about the second one.
-/

namespace Galley.Compile

open Syntax

namespace World

/-- Two tidy worlds that tell the same about all paths that are not hidden. -/
structure Parallel (hidden : File.Path → Bool) (files files' : File.Tree) (world world' : World) :
    Prop where
  tidy : world.Tidy
  tidy' : world'.Tidy
  root : world'.root = world.root
  told : ∀ path, hidden path = false → world'.told files' path = world.told files path

/-- A tidy world in which somebody has asked for a hidden path. -/
def Lost (hidden : File.Path → Bool) (world : World) : Prop :=
  world.Tidy ∧ ∃ path, hidden path = true ∧ (world.slot? path).isSome = true

/-- Two sources that belong to one path. -/
def Linked (hidden : File.Path → Bool) (world world' : World) (id id' : Nat) : Prop :=
  ∃ path, hidden path = false ∧ world.slot? path = some (.source id) ∧
    world'.slot? path = some (.source id')

variable {hidden : File.Path → Bool} {files files' : File.Tree}
  {world world' after after' : World} {id id' other other' : Nat}

theorem Linked.kept (hlinked : Linked hidden world world' id id') (hkept : Kept world after)
    (hkept' : Kept world' after') : Linked hidden after after' id id' := by
  obtain ⟨path, hpath, hslot, hslot'⟩ := hlinked
  exact ⟨path, hpath, hkept.slot hslot, hkept'.slot hslot'⟩

/-- Sources are the same in one world exactly if they are in the other one. -/
theorem Linked.eq_iff (htidy : world.Tidy) (htidy' : world'.Tidy)
    (hlinked : Linked hidden world world' id id')
    (hother : Linked hidden world world' other other') : id = other ↔ id' = other' := by
  obtain ⟨path, -, hslot, hslot'⟩ := hlinked
  obtain ⟨path', -, hfound, hfound'⟩ := hother
  constructor
  · rintro rfl
    obtain rfl := htidy.distinct hslot hfound
    exact Slot.source.inj (Option.some.inj (hslot'.symm.trans hfound'))
  · rintro rfl
    obtain rfl := htidy'.distinct hslot' hfound'
    exact Slot.source.inj (Option.some.inj (hslot.symm.trans hfound))

/-- A source is in one chain exactly if the same one is in the other chain. -/
theorem Linked.mem_iff (htidy : world.Tidy) (htidy' : world'.Tidy) {chain chain' : List Nat}
    (hchain : List.Forall₂ (Linked hidden world world') chain chain')
    (hlinked : Linked hidden world world' id id') : id ∈ chain ↔ id' ∈ chain' := by
  induction hchain with
  | nil => simp
  | cons hfirst _ ih => rw [List.mem_cons, List.mem_cons, hlinked.eq_iff htidy htidy' hfirst, ih]

/-- A path with a source in both worlds has the same text and the same tree in both. -/
theorem Parallel.exists_sources (hparallel : Parallel hidden files files' world world')
    (hlinked : Linked hidden world world' id id') :
    ∃ source source', world.source id = .ok source ∧ world'.source id' = .ok source' ∧
      source.id = id ∧ source'.id = id' ∧ source'.text = source.text ∧
      source'.root = source.root := by
  obtain ⟨path, hpath, hslot, hslot'⟩ := hlinked
  have hplace := List.getElem?_eq_getElem (hparallel.tidy.within hslot)
  have hplace' := List.getElem?_eq_getElem (hparallel.tidy'.within hslot')
  have htold := hparallel.told path hpath
  rw [told_of_source hslot hplace, told_of_source hslot' hplace'] at htold
  obtain ⟨htext, hroot⟩ := Prod.mk.inj (Except.ok.inj htold)
  exact ⟨_, _, source_eq_ok_iff.2 hplace, source_eq_ok_iff.2 hplace',
    hparallel.tidy.numbered _ _ hplace, hparallel.tidy'.numbered _ _ hplace', htext, hroot⟩

theorem Lost.resolve (hlost : Lost hidden world) (files : File.Tree) (path : File.Path) :
    Lost hidden (world.resolve files path).2 := by
  obtain ⟨htidy, asked, hasked, hslot⟩ := hlost
  have hresolved := htidy.resolved files path
  obtain ⟨slot, hslot⟩ := Option.isSome_iff_exists.1 hslot
  exact ⟨hresolved.tidy, asked, hasked, by rw [hresolved.kept.slot hslot]; rfl⟩

/-- A request is answered alike in parallel worlds, which stay so, unless it is one for
a hidden path. -/
theorem Parallel.resolve (hparallel : Parallel hidden files files' world world')
    (path : File.Path) :
    Lost hidden (world.resolve files path).2 ∨
      Parallel hidden files files' (world.resolve files path).2 (world'.resolve files' path).2 ∧
        Matched (Linked hidden (world.resolve files path).2 (world'.resolve files' path).2)
          (world.resolve files path).1 (world'.resolve files' path).1 := by
  have hkey := normalize_eq_of_root hparallel.root path
  have hresolved := hparallel.tidy.resolved files path
  have hresolved' := hparallel.tidy'.resolved files' path
  rw [hkey] at hresolved'
  cases hhidden : hidden (world.normalize path) with
  | true => exact .inl ⟨hresolved.tidy, _, hhidden, hresolved.asked⟩
  | false =>
    have hleft := hresolved.told
    have hright := hresolved'.told
    rw [hparallel.told _ hhidden] at hright
    have hafter (hself : (world'.resolve files' path).2.told files' (world.normalize path) =
        (world.resolve files path).2.told files (world.normalize path)) :
        Parallel hidden files files' (world.resolve files path).2
          (world'.resolve files' path).2 := by
      refine ⟨hresolved.tidy, hresolved'.tidy, ?_, fun other hother => ?_⟩
      · rw [hresolved.kept.root, hresolved'.kept.root, hparallel.root]
      · by_cases hsame : other = world.normalize path
        · rw [hsame, hself]
        · rw [(hresolved.others hsame).2, (hresolved'.others hsame).2, hparallel.told _ hother]
    refine .inr ?_
    generalize world.told files (world.normalize path) = answer at hleft hright
    obtain (error | failure) | content := answer
    · obtain ⟨hresult, htold⟩ := hleft
      obtain ⟨hresult', htold'⟩ := hright
      rw [hresult, hresult']
      exact ⟨hafter (htold'.trans htold.symm), .failure _⟩
    · obtain ⟨hresult, htold⟩ := hleft
      obtain ⟨hresult', htold'⟩ := hright
      rw [hresult, hresult']
      exact ⟨hafter (htold'.trans htold.symm), .failure _⟩
    · obtain ⟨id, hresult, hslot, htold⟩ := hleft
      obtain ⟨id', hresult', hslot', htold'⟩ := hright
      rw [hresult, hresult']
      exact ⟨hafter (htold'.trans htold.symm), .value ⟨_, hhidden, hslot, hslot'⟩⟩

/-! ## Main sources -/

/-- Whether a path has a source decides alone which id a main source gets. -/
theorem fst_set (world : World) (path : File.Path) (text : String) :
    (world.set path text).1 =
      match world.slot? (world.normalize path) with
      | some (.source id) =>
        if id < world.sources.length then id else world.sources.length
      | _ => world.sources.length := by
  rw [World.set]
  dsimp only
  generalize world.slot? (world.normalize path) = slot
  obtain _ | (_ | id | _) := slot
  · rfl
  · rfl
  · dsimp only
    split
    · rename_i source hsource
      rw [if_pos (List.getElem?_eq_some_iff.1 hsource).1]
    · rename_i hnone
      rw [if_neg (Nat.not_lt.2 (List.getElem?_eq_none_iff.1 hnone))]
      rfl
  · rfl

/-- The text that is set makes no difference to its id. -/
theorem fst_set_eq (world : World) (path : File.Path) (text text' : String) :
    (world.set path text).1 = (world.set path text').1 := by
  rw [fst_set, fst_set]

theorem Tidy.fst_set_of_source (htidy : world.Tidy) {path : File.Path}
    (hslot : world.slot? (world.normalize path) = some (.source id)) (text : String) :
    (world.set path text).1 = id := by
  rw [fst_set, hslot]
  exact if_pos (htidy.within hslot)

theorem Lost.set (hlost : Lost hidden world) (path : File.Path) (text : String) :
    Lost hidden (world.set path text).2 := by
  obtain ⟨htidy, asked, hasked, hslot⟩ := hlost
  have hset := htidy.hasSet path text
  refine ⟨hset.tidy, asked, hasked, ?_⟩
  by_cases hsame : asked = world.normalize path
  · rw [hsame, hset.slot]
    rfl
  · rwa [(hset.others hsame).1]

/-- The paths that are hidden, and one more. -/
def orAt (hidden : File.Path → Bool) (path : File.Path) : File.Path → Bool :=
  fun other => hidden other || decide (other = path)

theorem orAt_eq_false {path other : File.Path} :
    orAt hidden path other = false ↔ hidden other = false ∧ other ≠ path := by
  rw [orAt, Bool.or_eq_false_iff, decide_eq_false_iff_not]

/-- Worlds run parallel with fewer hidden paths too if they tell the same about the
others. -/
theorem Parallel.orAt {path : File.Path} (hparallel : Parallel hidden files files' world world') :
    Parallel (orAt hidden path) files files' world world' :=
  ⟨hparallel.tidy, hparallel.tidy', hparallel.root,
    fun other hother => hparallel.told other (orAt_eq_false.1 hother).1⟩

/-- Whatever has been told about a path, once it is set the worlds tell the same. -/
theorem Parallel.set {path : File.Path}
    (hparallel : Parallel (World.orAt hidden (world.normalize path)) files files' world world')
    (text : String) :
    Parallel hidden files files' (world.set path text).2 (world'.set path text).2 := by
  have hkey := normalize_eq_of_root hparallel.root path
  have hset := hparallel.tidy.hasSet path text
  have hset' := hparallel.tidy'.hasSet path text
  rw [hkey] at hset'
  refine ⟨hset.tidy, hset'.tidy, ?_, fun other hother => ?_⟩
  · rw [hset.root, hset'.root, hparallel.root]
  · by_cases hsame : other = world.normalize path
    · rw [hsame, hset.told, hset'.told]
    · rw [(hset.others hsame).2, (hset'.others hsame).2,
        hparallel.told other (orAt_eq_false.2 ⟨hother, hsame⟩)]

/-! ## Forgotten paths -/

/-- The world without the outcomes for the hidden paths. -/
def without (world : World) (hidden : File.Path → Bool) : World :=
  { world with slots := world.slots.filter fun entry => !hidden entry.1 }

theorem slot?_without (world : World) (hidden : File.Path → Bool) (path : File.Path) :
    (world.without hidden).slot? path = if hidden path then none else world.slot? path := by
  rw [slot?, slot?, without]
  dsimp only
  rw [List.find?_filter]
  cases hhidden : hidden path with
  | true =>
    rw [if_pos rfl, Option.map_eq_none_iff, List.find?_eq_none]
    intro entry _ hfound
    obtain ⟨hseen, hpath⟩ := of_decide_eq_true hfound
    rw [beq_iff_eq.1 hpath, hhidden] at hseen
    cases hseen
  | false =>
    refine congrArg (fun test => (world.slots.find? test).map Prod.snd) (funext fun entry => ?_)
    by_cases hpath : entry.1 = path
    · simp [hpath, hhidden]
    · simp [hpath]

theorem Tidy.without (htidy : world.Tidy) (hidden : File.Path → Bool) :
    (world.without hidden).Tidy := by
  have hslot : ∀ {path : File.Path} {slot : Slot},
      (world.without hidden).slot? path = some slot → world.slot? path = some slot := by
    intro path slot hfound
    rw [slot?_without] at hfound
    split at hfound
    · cases hfound
    · exact hfound
  exact ⟨htidy.numbered, htidy.faithful, fun hfound => htidy.within (hslot hfound),
    fun hfound hother => htidy.distinct (hslot hfound) (hslot hother)⟩

end World

end Galley.Compile
