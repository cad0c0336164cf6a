import Galley.Proofs.World.Requests

/-!
# The outcome of a path

A path that is asked for gets its slot before its text is read.  A text or a load
error becomes the outcome of the path and stays so.  What a path itself makes
impossible is no load error: it leaves the slot without an outcome, and the path
fails in another way from then on.
-/

namespace Galley.Compile

open Syntax

namespace World

/-- One outcome of a request, which the slot of its path keeps: a source or a load
error. -/
inductive HasOutcome (path : File.Path) (answer : Except Failure Nat) (after : World) : Prop
  | source {id : Nat} {source : Source} (hanswer : answer = .ok id)
      (hsource : after.source id = .ok source) (hslot : after.slot? path = some (.source id))
  | error {error : LoadError} (hanswer : answer = .error (.load error))
      (hslot : after.slot? path = some (.failed error))

/-- The failures that give a path no outcome: it has a null character or is too long, or
it has failed like this before. -/
inductive Stuck (world : World) (files : File.Tree) (path : File.Path) : Failure → Prop
  | again (hslot : world.slot? path = some .pending) : Stuck world files path .noOutcome
  | nullCharacter (hslot : world.slot? path = none) (hnull : path.hasNull = true) :
      Stuck world files path .nullCharacter
  | tooLong (hslot : world.slot? path = none) (hnull : path.hasNull = false)
      (hread : files.read path = .error .nameTooLong) :
      Stuck world files path (.blocked .nameTooLong path.toString)

/-- Every later request for a path gets the same answer and changes nothing, whatever is
asked for in between and however the files change, as long as no text is set for the path. -/
def Repeats (path : File.Path) (answer : Except Failure Nat) (world : World) : Prop :=
  ∀ requests : List Request, (∀ request ∈ requests, request.Spares world path) →
    ∀ files other, world.normalize other = path →
      (world.serveAll requests).resolve files other = (answer, world.serveAll requests)

variable {world : World} {files : File.Tree} {path : File.Path}

/-- A path that is asked for first is stuck exactly if it fails by itself. -/
theorem stuck_iff_load_eq {failure : Failure} (hslot : world.slot? path = none) :
    Stuck world files path failure ↔ world.load files path = .error (.failure failure) := by
  rw [load_eq_failure_iff]
  constructor
  · rintro (hpending | ⟨-, hnull⟩ | ⟨-, hnull, hread⟩)
    · exact nomatch hslot.symm.trans hpending
    · exact .inl ⟨hnull, rfl⟩
    · exact .inr ⟨hnull, hread, rfl⟩
  · rintro (⟨hnull, rfl⟩ | ⟨hnull, hread, rfl⟩)
    · exact .nullCharacter hslot hnull
    · exact .tooLong hslot hnull hread

/-- A failure that gives a path no outcome is no load error. -/
theorem Stuck.ne_load {failure : Failure} (hstuck : Stuck world files path failure)
    (error : LoadError) : failure ≠ .load error := by
  cases hstuck <;> exact Failure.noConfusion

/-- What a slot says is repeated for as long as no text is set for its path. -/
theorem Tidy.repeats (htidy : world.Tidy) {slot : Slot} (hslot : world.slot? path = some slot) :
    Repeats path (Slot.outcome slot) world := by
  intro requests hspares files other hother
  obtain ⟨-, hroot⟩ := root_serveAll htidy requests
  rw [World.resolve, normalize_eq_of_root hroot, hother, slot?_serveAll htidy hspares hslot]

/-- A request that gives its path an outcome gives it for good. -/
theorem HasOutcome.repeats {answer : Except Failure Nat}
    (houtcome : HasOutcome path answer world) (htidy : world.Tidy) : Repeats path answer world := by
  obtain ⟨rfl, -, hslot⟩ | ⟨rfl, hslot⟩ := houtcome <;> exact htidy.repeats hslot

/-- Without such a failure, a request has an outcome. -/
theorem Tidy.hasOutcome (htidy : world.Tidy)
    (hstuck : ∀ failure, ¬ Stuck world files (world.normalize path) failure) :
    HasOutcome (world.normalize path) (world.resolve files path).1
      (world.resolve files path).2 := by
  obtain ⟨slot, hslot, hresolve⟩ | ⟨hslot, ⟨text, -, hresolve⟩ | ⟨error, -, hresolve⟩ |
    ⟨failure, hload, hresolve⟩⟩ := resolve_cases world files path
  · rw [hresolve]
    cases slot with
    | pending => exact absurd (.again hslot) (hstuck _)
    | source id =>
      exact .source rfl (source_eq_ok_iff.2 (List.getElem?_eq_getElem (htidy.within hslot))) hslot
    | failed error => exact .error rfl hslot
  · have hsource : ((world.insert (world.normalize path) text).2.setSlot (world.normalize path)
        (.source world.sources.length)).sources[world.sources.length]? =
          some (Source.new world.sources.length (world.normalize path) text) := by
      rw [sources_setSlot]
      exact List.getElem?_concat_length
    rw [hresolve]
    exact .source rfl (source_eq_ok_iff.2 hsource) (slot?_setSlot_self ..)
  · rw [hresolve]
    exact .error rfl (slot?_setSlot_self ..)
  · exact absurd ((stuck_iff_load_eq hslot).2 hload) (hstuck failure)

/-- With one, its path is left without any. -/
theorem Stuck.resolve_eq {failure : Failure}
    (hstuck : Stuck world files (world.normalize path) failure) :
    (world.resolve files path).1 = .error failure ∧
      (world.resolve files path).2.slot? (world.normalize path) = some .pending := by
  obtain ⟨slot, hslot, hresolve⟩ | ⟨hslot, hcases⟩ := resolve_cases world files path
  · cases hstuck with
    | again hpending =>
      obtain rfl := Option.some.inj (hslot.symm.trans hpending)
      rw [hresolve]
      exact ⟨rfl, hslot⟩
    | nullCharacter hnone => exact nomatch hslot.symm.trans hnone
    | tooLong hnone => exact nomatch hslot.symm.trans hnone
  · have hload := (stuck_iff_load_eq hslot).1 hstuck
    obtain ⟨text, hother, -⟩ | ⟨error, hother, -⟩ | ⟨other, hother, hresolve⟩ := hcases
    · exact nomatch hother.symm.trans hload
    · exact nomatch hother.symm.trans hload
    · obtain rfl := Unloaded.failure.inj (Except.error.inj (hother.symm.trans hload))
      rw [hresolve]
      exact ⟨rfl, slot?_setSlot_self ..⟩

/-- A request in a reachable world gives its path one outcome, a source or a load error,
and every later request repeats it, unless the path has a null character or is too long:
then the request fails otherwise, the slot is left without an outcome, and every later
request fails for that. -/
theorem resolve_settles {fine : Source → Prop} (hworld : world.Reached fine)
    (files : File.Tree) (path : File.Path) :
    ((∀ failure, ¬ Stuck world files (world.normalize path) failure) ∧
      HasOutcome (world.normalize path) (world.resolve files path).1
        (world.resolve files path).2 ∧
      Repeats (world.normalize path) (world.resolve files path).1
        (world.resolve files path).2) ∨
    ∃ failure, Stuck world files (world.normalize path) failure ∧
      (∀ error, failure ≠ .load error) ∧ (world.resolve files path).1 = .error failure ∧
      (world.resolve files path).2.slot? (world.normalize path) = some .pending ∧
      Repeats (world.normalize path) (.error .noOutcome) (world.resolve files path).2 := by
  have hafter := (hworld.tidy.resolved files path).tidy
  by_cases hstuck : ∃ failure, Stuck world files (world.normalize path) failure
  · obtain ⟨failure, hstuck⟩ := hstuck
    obtain ⟨hanswer, hslot⟩ := hstuck.resolve_eq
    exact .inr ⟨failure, hstuck, hstuck.ne_load, hanswer, hslot, hafter.repeats hslot⟩
  · have hfree := not_exists.1 hstuck
    have houtcome := hworld.tidy.hasOutcome hfree
    exact .inl ⟨hfree, houtcome, houtcome.repeats hafter⟩

/-- A path that cannot be a path fails, and fails otherwise when it is asked for again
after a compilation. -/
theorem resolve_settles_nullCharacter :
    let world : World := { root := .ofString "assets" }
    let path := File.Path.ofString "a\x00b"
    let files : File.Tree := ⟨[(["assets", "b.pbt"], .file (.bytes "x".toUTF8))]⟩
    world.Reached (fun _ => True) ∧ Stuck world files (world.normalize path) .nullCharacter ∧
      (world.resolve files path).1 = .error .nullCharacter ∧
      Repeats (world.normalize path) (.error .noOutcome) (world.resolve files path).2 := by
  intro world path files
  have hworld : world.Reached fun _ => True := .new _
  have hstuck : Stuck world files (world.normalize path) .nullCharacter :=
    .nullCharacter rfl (by decide)
  obtain ⟨hfree, -⟩ | ⟨failure, -, -, -, -, hrepeats⟩ := resolve_settles hworld files path
  · exact absurd hstuck (hfree _)
  · exact ⟨hworld, hstuck, hstuck.resolve_eq.1, hrepeats⟩

/-- So such a path has no outcome, and the answers to it differ. -/
theorem nullCharacter_leaves_no_outcome :
    let world : World := { root := .ofString "assets" }
    let path := File.Path.ofString "a\x00b"
    ¬ HasOutcome (world.normalize path) (world.resolve ⟨[]⟩ path).1
      (world.resolve ⟨[]⟩ path).2 ∧
    ((world.resolve ⟨[]⟩ path).2.resolve ⟨[]⟩ path).1 ≠ (world.resolve ⟨[]⟩ path).1 := by
  intro world path
  constructor
  · rintro (⟨hanswer, -, -⟩ | ⟨hanswer, -⟩) <;> cases hanswer
  · exact fun hsame => nomatch hsame

end World

end Galley.Compile
