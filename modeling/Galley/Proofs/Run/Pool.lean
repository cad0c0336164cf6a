import Galley.Run.Pool

/-!
# Worlds of workers

What a worker puts back is what it is handed next, and nobody else gets it.
-/

namespace Galley.Run.Pool

open Compile

variable {Worker : Type} [DecidableEq Worker] (pool : Pool Worker) (worker other : Worker)

/-- A worker is handed its world, or the base if it has none yet. -/
theorem fst_get : (pool.get worker).1 = (pool.world? worker).getD pool.base := by
  rw [get]
  cases pool.world? worker <;> rfl

theorem base_get : (pool.get worker).2.base = pool.base := by
  rw [get]
  cases pool.world? worker <;> rfl

/-- Whoever asks has a world from then on. -/
theorem world?_get :
    (pool.get worker).2.world? other =
      if other = worker then some (pool.get worker).1 else pool.world? other := by
  rw [get]
  cases hworld : pool.world? worker with
  | some world =>
    dsimp only
    split
    · rename_i hsame
      rw [hsame, hworld]
    · rfl
  | none =>
    show (pool.worlds ++ [(worker, pool.base)]).lookup other = _
    rw [List.lookup_append]
    split
    · rename_i hsame
      have hnone : pool.worlds.lookup worker = none := hworld
      rw [hsame, hnone, Option.none_or, List.lookup_cons_self]
    · rename_i hother
      rw [List.lookup_cons, beq_false_of_ne hother, List.lookup_nil, Option.or_none]
      rfl

theorem world?_put (world : World) :
    (pool.put worker world).world? other =
      if other = worker then (pool.world? worker).map fun _ => world else pool.world? other := by
  show (pool.worlds.map _).lookup other = if _ then (pool.worlds.lookup worker).map _ else
    pool.worlds.lookup other
  induction pool.worlds with
  | nil => simp
  | cons entry worlds ih =>
    obtain ⟨owner, owned⟩ := entry
    rw [List.map_cons]
    by_cases howner : owner = worker
    · subst howner
      by_cases hother : other = owner
      · simp [hother]
      · have hdiffers : (other == owner) = false := beq_false_of_ne hother
        simpa [hother, hdiffers, List.lookup_cons] using ih
    · by_cases hsame : other = owner
      · simp [howner, hsame]
      · have hdiffers : (other == owner) = false := beq_false_of_ne hsame
        have hworker : (worker == owner) = false := beq_false_of_ne (Ne.symm howner)
        simpa [howner, hdiffers, hworker, List.lookup_cons] using ih

end Galley.Run.Pool
