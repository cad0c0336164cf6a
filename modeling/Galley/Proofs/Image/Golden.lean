import Galley.Image.Golden

/-!
# Judgements

A picture looks like itself.  A reference is out of date if there is none for a picture that has
pages, or if it looks different from the picture, and nothing else decides how the picture is
judged.
-/

namespace Galley.Image

/-- There is no reference, or one that looks different from the picture.  None is needed for a
picture without pages. -/
def Outdated (picture : Picture) (reference : Option Picture) (hasPages : Bool) : Prop :=
  match reference with
  | none => hasPages = true
  | some found => picture.resembles found = false

variable {picture : Picture} {reference : Option Picture} {hasPages : Bool}

/-- A reference that is out of date is replaced or complained about. -/
theorem judge_of_outdated (houtdated : Outdated picture reference hasPages) :
    judge picture reference true hasPages = .updated ∧
      ∃ complaint, judge picture reference false hasPages = .rejected complaint := by
  cases reference with
  | none =>
    rw [show hasPages = true from houtdated]
    exact ⟨rfl, _, rfl⟩
  | some found =>
    have hother : ¬ picture.resembles found = true := Bool.not_eq_true _ ▸ houtdated
    rw [judge, judge, if_neg hother, if_neg hother]
    exact ⟨rfl, _, rfl⟩

theorem judge_of_not_outdated (houtdated : ¬ Outdated picture reference hasPages)
    (update : Bool) : judge picture reference update hasPages = .accepted := by
  cases reference with
  | none =>
    rw [show hasPages = false from Bool.eq_false_iff.2 houtdated]
    rfl
  | some found => exact if_pos (by simpa [Outdated] using houtdated)

end Galley.Image
