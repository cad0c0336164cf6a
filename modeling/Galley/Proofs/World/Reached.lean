import Galley.Proofs.Edit.Order
import Galley.Proofs.Evaluation.Growth

/-!
# Reachable worlds

A world is filled by setting main sources, resolving paths, editing sources and
evaluating them.  Each of these steps either loads files or changes one source
in its place, so what holds of new sources and is preserved by changes holds of
every source of a reachable world.
-/

namespace Galley.Compile

open Syntax

namespace World

/-- One thing that is done with a world. -/
inductive Step : World → World → Prop
  | set (world : World) (path : File.Path) (text : String) : Step world (world.set path text).2
  | resolve (world : World) (files : File.Tree) (path : File.Path) :
      Step world (world.resolve files path).2
  | edit {world next : World} {edited : Source} {id start stop : Int} {replacement : String}
      (hedit : world.edit id start stop replacement = .ok (edited, next)) : Step world next
  | replace {world : World} {source : Source} (hsource : source ∈ world.sources) (text : String) :
      Step world (world.putSource (source.replace text))
  | evaluate {outside : Surroundings} {source : Source} (files : File.Tree) (depth : Nat)
      (route : List Nat) (hsource : source ∈ outside.world.sources) :
      Step outside.world (evaluate files depth route source outside).2.world

/-- The worlds that come about from an empty one, given what is true of each source
of each of them. -/
inductive Reached (fine : Source → Prop) : World → Prop
  | new (root : File.Path) : Reached fine { root }
  | step {world next : World} (hworld : Reached fine world) (hstep : Step world next)
      (hfine : ∀ source ∈ next.sources, fine source) : Reached fine next

variable {world next : World}

theorem mem_of_itemAt? {α : Type} {items : List α} {item : α} {index : Int}
    (hitem : itemAt? items index = some item) : item ∈ items := by
  rw [itemAt?] at hitem
  generalize (if index < 0 then index + (items.length : Int) else index) = place at hitem
  split at hitem
  · cases hitem
  · exact List.mem_of_getElem? hitem

theorem mem_of_source {id : Int} {source : Source} (hsource : world.source id = .ok source) :
    source ∈ world.sources := by
  rw [World.source] at hsource
  split at hsource
  · rename_i found hfound
    obtain rfl := Except.ok.inj hsource
    exact mem_of_itemAt? hfound
  · cases hsource

/-- An edit changes one of the sources. -/
theorem exists_of_edit {edited : Source} {id start stop : Int} {replacement : String}
    (hedit : world.edit id start stop replacement = .ok (edited, next)) :
    ∃ source ∈ world.sources, source.edit start stop replacement = .ok edited ∧
      next = world.putSource edited := by
  rw [edit] at hedit
  cases hsource : world.source id with
  | error failure =>
    rw [hsource] at hedit
    cases hedit
  | ok source =>
    rw [hsource] at hedit
    change (source.edit start stop replacement >>= fun edited =>
      pure (edited, world.putSource edited)) = _ at hedit
    cases hedited : source.edit start stop replacement with
    | error failure =>
      rw [hedited] at hedit
      cases hedit
    | ok changed =>
      rw [hedited] at hedit
      obtain ⟨rfl, rfl⟩ := Prod.mk.inj (Except.ok.inj hedit)
      exact ⟨source, mem_of_source hsource, hedited, rfl⟩

theorem sources_set_cases (world : World) (path : File.Path) (text : String) :
    Grown world.sources (world.set path text).2.sources ∨
      ∃ source ∈ world.sources,
        (world.set path text).2.sources = world.sources.set source.id (source.replace text) := by
  have hinsert : Grown world.sources ((world.insert path text).2.setSlot (world.normalize path)
      (.source world.sources.length)).sources := by
    rw [sources_setSlot]
    exact .load path text .refl
  rw [set]
  dsimp only
  split
  · split
    · rename_i source hsource
      exact .inr ⟨source, List.mem_of_getElem? hsource, rfl⟩
    · exact .inl hinsert
  · exact .inl hinsert

/-- Every step loads files or changes one source in its place. -/
theorem Step.cases (hstep : Step world next) (hfaithful : Faithful world.sources) :
    Grown world.sources next.sources ∨
      ∃ source ∈ world.sources, ∃ (change : Change) (changed : Source),
        change.apply source = .ok changed ∧
          next.sources = world.sources.set changed.id changed := by
  cases hstep with
  | set _ path text =>
    obtain hgrown | ⟨source, hsource, hset⟩ := world.sources_set_cases path text
    · exact .inl hgrown
    · exact .inr ⟨source, hsource, .replace text, source.replace text, rfl, hset⟩
  | resolve _ files path => exact .inl (world.grown_resolve files path)
  | @edit _ _ edited id start stop replacement hedit =>
    obtain ⟨source, hsource, hedited, rfl⟩ := exists_of_edit hedit
    exact .inr ⟨source, hsource, .edit start stop replacement, edited, hedited, rfl⟩
  | @replace _ source hsource text =>
    exact .inr ⟨source, hsource, .replace text, source.replace text, rfl, rfl⟩
  | @evaluate outside source files depth route hsource =>
    exact .inl (grown_evaluate files depth route hfaithful (hfaithful source hsource))

/-- What holds of each source of a reachable world, and that each has its place as
its id, if it holds of new sources and changes preserve it. -/
theorem Reached.invariant {fine : Source → Prop} (hworld : Reached fine world)
    (good : Source → Prop)
    (hnew : ∀ id path text, fine (Source.new id path text) → good (Source.new id path text))
    (hchange : ∀ {source next : Source} {change : Change}, good source → fine next →
      change.apply source = .ok next → good next) :
    Numbered world.sources ∧ Faithful world.sources ∧ ∀ source ∈ world.sources, good source := by
  induction hworld with
  | new root => exact ⟨by simp [Numbered], by simp [Faithful], by simp⟩
  | @step world next _ hstep hfine ih =>
    obtain ⟨hnumbered, hfaithful, hgood⟩ := ih
    obtain hgrown | ⟨source, hsource, change, changed, happly, hsources⟩ := hstep.cases hfaithful
    · refine ⟨hgrown.numbered hnumbered, hgrown.faithful hfaithful, hgrown.forall_mem hgood ?_⟩
      exact fun id path text hmem => hnew id path text (hfine _ hmem)
    · rw [hsources] at hfine ⊢
      refine ⟨hnumbered.set, fun other hother => ?_, fun other hother => ?_⟩
      · obtain hother | rfl := List.mem_or_eq_of_mem_set hother
        · exact hfaithful other hother
        · exact Change.erase_root_apply (hfaithful source hsource) happly
      · obtain hold | rfl := List.mem_or_eq_of_mem_set hother
        · exact hgood other hold
        · exact hchange (hgood source hsource) (hfine _ hother) happly

theorem Reached.numbered {fine : Source → Prop} (hworld : Reached fine world) :
    Numbered world.sources :=
  (hworld.invariant (fun _ => True) (fun _ _ _ _ => trivial) fun _ _ _ => trivial).1

theorem Reached.faithful {fine : Source → Prop} (hworld : Reached fine world) :
    Faithful world.sources :=
  (hworld.invariant (fun _ => True) (fun _ _ _ _ => trivial) fun _ _ _ => trivial).2.1

theorem Reached.wellNumbered (hworld : Reached (fun source => Fits source.root) world) :
    ∀ source ∈ world.sources, WellNumbered source.root :=
  (hworld.invariant (fun source => WellNumbered source.root)
    (fun _ _ _ hfits => .numberRoot hfits)
    fun hroot hfits happly => hroot.apply hfits happly).2.2

end World

end Galley.Compile
