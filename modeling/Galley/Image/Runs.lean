import Galley.Image.Raster

/-!
# Runs

A list with long stretches of equal members is short when each stretch is
written as its length and its member. A raster is written as runs of equal
rows, each of which is written as runs of equal colors.
-/

namespace Galley.Image

open Document (Color)

/-- Puts a member in front of runs. -/
def consRun {α : Type} [DecidableEq α] (member : α) : List (Nat × α) → List (Nat × α)
  | [] => [(1, member)]
  | (count, first) :: rest =>
    if member = first then (count + 1, first) :: rest else (1, member) :: (count, first) :: rest

/-- The runs of equal neighbours. -/
def runs {α : Type} [DecidableEq α] (members : List α) : List (Nat × α) :=
  members.foldr consRun []

/-- The members of runs. -/
def unrun {α : Type} (runs : List (Nat × α)) : List α :=
  runs.flatMap fun (count, member) => List.replicate count member

/-- A raster as runs of rows. -/
def Raster.runs (raster : Raster) : List (Nat × List (Nat × Color)) :=
  Image.runs ((List.range raster.height).map fun y => Image.runs (raster.row y))

theorem unrun_consRun {α : Type} [DecidableEq α] (member : α) (rest : List (Nat × α)) :
    unrun (consRun member rest) = member :: unrun rest := by
  cases rest with
  | nil => rfl
  | cons first rest =>
    obtain ⟨count, first⟩ := first
    by_cases h : member = first
    · simp [consRun, unrun, h, List.replicate_succ]
    · simp [consRun, unrun, h]

/-- Writing runs loses nothing. -/
theorem unrun_runs {α : Type} [DecidableEq α] (members : List α) :
    unrun (runs members) = members := by
  induction members with
  | nil => rfl
  | cons member members ih =>
    show unrun (consRun member (runs members)) = member :: members
    rw [unrun_consRun, ih]

end Galley.Image
