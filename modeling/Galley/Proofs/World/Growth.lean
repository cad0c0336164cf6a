import Galley.Proofs.Evaluation.Promise

/-!
# Worlds grow

Resolving a path looks at the slot of the path and, if there is none, gives it
one.  The only sources that come about this way are those of loaded files, each
behind all others and with the next id.
-/

namespace Galley.Compile

open Syntax

/-- The sources that come about when files are loaded one after another. -/
inductive Grown (sources : List Source) : List Source → Prop
  | refl : Grown sources sources
  | load {after : List Source} (path : File.Path) (text : String) (hgrown : Grown sources after) :
      Grown sources (after ++ [Source.new after.length path text])

namespace Grown

variable {before between after : List Source}

theorem trans (hfirst : Grown before between) (hsecond : Grown between after) :
    Grown before after := by
  induction hsecond with
  | refl => exact hfirst
  | load path text _ ih => exact ih.load path text

/-- What was there stays in its place. -/
theorem isPrefix (hgrown : Grown before after) : before <+: after := by
  induction hgrown with
  | refl => exact List.prefix_refl _
  | load path text _ ih => exact ih.trans (List.prefix_append _ _)

/-- What holds of the sources that were there and of new ones holds of all. -/
theorem forall_mem {good : Source → Prop} (hgrown : Grown before after)
    (hbefore : ∀ source ∈ before, good source)
    (hnew : ∀ id path text, Source.new id path text ∈ after → good (Source.new id path text)) :
    ∀ source ∈ after, good source := by
  induction hgrown with
  | refl => exact hbefore
  | @load after path text _ ih =>
    have hold := ih fun id path text hmem => hnew id path text (List.mem_append_left _ hmem)
    refine List.forall_mem_append.2 ⟨hold, List.forall_mem_singleton.2 ?_⟩
    exact hnew _ path text (by simp)

end Grown

/-- Every source has its place as its id. -/
def Numbered (sources : List Source) : Prop :=
  ∀ (id : Nat) (source : Source), sources[id]? = some source → source.id = id

theorem Numbered.append {sources : List Source} (hsources : Numbered sources) {source : Source}
    (hid : source.id = sources.length) : Numbered (sources ++ [source]) := by
  intro id found hfound
  obtain hlt | rfl | hgt := Nat.lt_trichotomy id sources.length
  · rw [List.getElem?_append_left hlt] at hfound
    exact hsources id found hfound
  · obtain rfl : source = found := by simpa using hfound
    exact hid
  · rw [List.getElem?_eq_none (by simpa using Nat.succ_le_of_lt hgt)] at hfound
    cases hfound

theorem Numbered.set {sources : List Source} (hsources : Numbered sources) {source : Source} :
    Numbered (sources.set source.id source) := by
  intro id found hfound
  rw [List.getElem?_set] at hfound
  split at hfound
  · rename_i hid
    split at hfound
    · rw [← Option.some.inj hfound, hid]
    · cases hfound
  · exact hsources id found hfound

theorem Grown.numbered {before after : List Source} (hgrown : Grown before after)
    (hbefore : Numbered before) : Numbered after := by
  induction hgrown with
  | refl => exact hbefore
  | load path text _ ih => exact ih.append rfl

namespace World

variable {world : World}

/-- An id is the place of its source. -/
theorem source_eq_ok_iff {id : Nat} {source : Source} :
    world.source id = .ok source ↔ world.sources[id]? = some source := by
  have hitem : itemAt? world.sources (id : Int) = world.sources[id]? := by
    simp only [itemAt?, if_neg (Int.not_lt.2 (Int.natCast_nonneg id)), Int.toNat_natCast]
  rw [World.source, hitem]
  cases world.sources[id]? <;> simp [pure, Except.pure, throw, throwThe, MonadExceptOf.throw]

/-- The main source stands at the place that has been chosen for it. -/
theorem main_eq_ok_iff {source : Source} :
    world.main = .ok source ↔
      ∃ id, world.mainId = some id ∧ id ≠ Source.detachedId ∧ world.sources[id]? = some source := by
  rw [World.main]
  cases world.mainId with
  | none =>
    refine iff_of_false nofun ?_
    rintro ⟨id, hid, -⟩
    cases hid
  | some id =>
    simp only [Option.some.injEq, exists_eq_left']
    split
    · rename_i hdetached
      exact iff_of_false nofun fun hplace => hplace.1 hdetached
    · rename_i hattached
      rw [source_eq_ok_iff, and_iff_right hattached]

@[simp]
theorem sources_setSlot (world : World) (path : File.Path) (slot : Slot) :
    (world.setSlot path slot).sources = world.sources := by
  rw [setSlot]
  split <;> rfl

/-- A main source holds its text. -/
theorem exists_source_set (hnumbered : Numbered world.sources) (path : File.Path) (text : String) :
    ∃ source, (world.set path text).2.source (world.set path text).1 = .ok source ∧
      source.id = (world.set path text).1 ∧ source.text = text ∧ source.root = parse text := by
  have hinsert : ∀ key : File.Path,
      ((world.insert path text).2.setSlot key (.source world.sources.length)).sources[
        world.sources.length]? = some (Source.new world.sources.length path text) := by
    intro key
    rw [sources_setSlot]
    exact List.getElem?_concat_length
  rw [set]
  dsimp only
  split
  · rename_i id hslot
    split
    · rename_i source hsource
      have hplace : (world.sources.set source.id (source.replace text))[id]? =
          some (source.replace text) := by
        rw [hnumbered id source hsource]
        exact List.getElem?_set_self (List.getElem?_eq_some_iff.1 hsource).1
      exact ⟨_, source_eq_ok_iff.2 hplace, hnumbered id source hsource, rfl, rfl⟩
    · exact ⟨_, source_eq_ok_iff.2 (hinsert _), rfl, rfl, rfl⟩
  · exact ⟨_, source_eq_ok_iff.2 (hinsert _), rfl, rfl, rfl⟩

/-- A slot stays as it is; a path without one gets a source, an error, or a slot
without any outcome. -/
theorem resolve_cases (world : World) (files : File.Tree) (path : File.Path) :
    (∃ slot, world.slot? (world.normalize path) = some slot ∧
      world.resolve files path = (Slot.outcome slot, world)) ∨
    world.slot? (world.normalize path) = none ∧
      ((∃ text, world.load files (world.normalize path) = .ok text ∧
        world.resolve files path = (.ok world.sources.length,
          (world.insert (world.normalize path) text).2.setSlot (world.normalize path)
            (.source world.sources.length))) ∨
      (∃ error, world.load files (world.normalize path) = .error (.error error) ∧
        world.resolve files path = (.error (.load error),
          world.setSlot (world.normalize path) (.failed error))) ∨
      ∃ failure, world.load files (world.normalize path) = .error (.failure failure) ∧
        world.resolve files path =
          (.error failure, world.setSlot (world.normalize path) .pending)) := by
  rw [resolve]
  dsimp only
  split
  · rename_i slot hslot
    exact .inl ⟨slot, hslot, rfl⟩
  · rename_i hslot
    refine .inr ⟨hslot, ?_⟩
    split
    · rename_i text hload
      exact .inl ⟨text, hload, rfl⟩
    · rename_i error hload
      exact .inr (.inl ⟨error, hload, rfl⟩)
    · rename_i failure hload
      exact .inr (.inr ⟨failure, hload, rfl⟩)

/-- A path fails by itself if it has a null character or is too long, and for no other
reason. -/
theorem load_eq_failure_iff {files : File.Tree} {path : File.Path} {failure : Failure} :
    world.load files path = .error (.failure failure) ↔
      path.hasNull = true ∧ failure = .nullCharacter ∨
      path.hasNull = false ∧ files.read path = .error .nameTooLong ∧
        failure = .blocked .nameTooLong path.toString := by
  constructor
  · intro hload
    rw [load] at hload
    split at hload
    · rename_i hnull
      cases hload
      exact .inl ⟨hnull, rfl⟩
    · rename_i hnull
      split at hload
      · rename_i hread
        cases hload
        exact .inr ⟨Bool.eq_false_iff.2 hnull, hread, rfl⟩
      · cases hload
      · cases hload
      · cases hload
      · split at hload <;> cases hload
      · cases hload
  · rintro (⟨hnull, rfl⟩ | ⟨hnull, hread, rfl⟩)
    · rw [load, if_pos hnull]
      rfl
    · rw [load, if_neg (Bool.eq_false_iff.1 hnull), hread]
      rfl

theorem ofDocument_load {files : File.Tree} {path : File.Path} {failure : Failure}
    (hload : world.load files path = .error (.failure failure)) : OfDocument failure := by
  obtain ⟨-, rfl⟩ | ⟨-, -, rfl⟩ := load_eq_failure_iff.1 hload <;> trivial

/-- Such a failure is no load error. -/
theorem ne_load_of_load {files : File.Tree} {path : File.Path} {failure : Failure}
    (hload : world.load files path = .error (.failure failure)) (error : LoadError) :
    failure ≠ .load error := by
  obtain ⟨-, rfl⟩ | ⟨-, -, rfl⟩ := load_eq_failure_iff.1 hload <;> exact Failure.noConfusion

/-- A path that has no source fails for what is known of the path. -/
theorem ofDocument_resolve {files : File.Tree} {path : File.Path} {failure : Failure}
    (hfailure : (world.resolve files path).1 = .error failure) : OfDocument failure := by
  obtain ⟨slot, -, hresolve⟩ | ⟨-, ⟨text, -, hresolve⟩ | ⟨error, -, hresolve⟩ |
    ⟨other, hload, hresolve⟩⟩ := resolve_cases world files path
  · rw [hresolve] at hfailure
    cases slot with
    | pending =>
      cases hfailure
      trivial
    | source id => cases hfailure
    | failed error =>
      cases hfailure
      trivial
  · rw [hresolve] at hfailure
    cases hfailure
  · rw [hresolve] at hfailure
    cases hfailure
    trivial
  · rw [hresolve] at hfailure
    cases hfailure
    exact ofDocument_load hload

theorem grown_resolve (world : World) (files : File.Tree) (path : File.Path) :
    Grown world.sources (world.resolve files path).2.sources := by
  obtain ⟨slot, -, hresolve⟩ | ⟨-, ⟨text, -, hresolve⟩ | ⟨error, -, hresolve⟩ |
    ⟨failure, -, hresolve⟩⟩ := resolve_cases world files path
  · rw [hresolve]
    exact .refl
  · rw [hresolve, sources_setSlot]
    exact .load _ text .refl
  · rw [hresolve, sources_setSlot]
    exact .refl
  · rw [hresolve, sources_setSlot]
    exact .refl

end World

end Galley.Compile
