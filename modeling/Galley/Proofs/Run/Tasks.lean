import Galley.Proofs.Run.Pool
import Mathlib.Logic.Basic

/-!
# Tasks of workers

Workers that share a pool take turns in any order, and each of them asks for its world, sets a text
in it or reads its main source.  What a worker gets to see depends on its own tasks only.
-/

namespace Galley.Run

open Compile

/-- What a worker does. -/
inductive Task
  | get
  | set (path : File.Path) (text : String)
  | main

/-- What a worker gets to see. -/
inductive Answer
  | world (world : World)
  | id (id : Nat)
  | main (result : Except Failure Syntax.Source)

namespace Task

/-- What a task shows of a world. -/
def answer (world : World) : Task → Answer
  | get => .world world
  | set path text => .id (world.set path text).1
  | main => .main world.main

/-- The world behind a task. -/
def behind (world : World) : Task → World
  | set path text => (world.set path text).2
  | _ => world

end Task

namespace Pool

variable {Worker : Type} [DecidableEq Worker]

/-- Serves a worker. -/
def serve (pool : Pool Worker) (worker : Worker) : Task → Answer × Pool Worker
  | .get =>
    let (world, pool) := pool.get worker
    (.world world, pool)
  | .set path text =>
    let (world, pool) := pool.get worker
    let (id, world) := world.set path text
    (.id id, pool.put worker world)
  | .main =>
    let (world, pool) := pool.get worker
    (.main world.main, pool)

/-- Serves workers one after the other. -/
def serveAll (pool : Pool Worker) : List (Worker × Task) → List (Worker × Answer) × Pool Worker
  | [] => ([], pool)
  | (worker, task) :: turns =>
    let (answer, pool) := pool.serve worker task
    let (answers, pool) := pool.serveAll turns
    ((worker, answer) :: answers, pool)

variable (pool : Pool Worker) (worker other : Worker) (task : Task)

theorem fst_serve : (pool.serve worker task).1 = task.answer (pool.get worker).1 := by
  cases task <;> rfl

theorem base_serve : (pool.serve worker task).2.base = pool.base := by
  cases task <;> exact pool.base_get worker

/-- A task changes the world of its worker and no other one. -/
theorem world?_serve :
    (pool.serve worker task).2.world? other =
      if other = worker then some (task.behind (pool.get worker).1) else pool.world? other := by
  cases task with
  | set path text =>
    change ((pool.get worker).2.put worker ((pool.get worker).1.set path text).2).world? other = _
    rw [world?_put, world?_get, world?_get, if_pos rfl]
    split <;> rfl
  | get | main => exact pool.world?_get worker other

theorem base_serveAll (turns : List (Worker × Task)) :
    (pool.serveAll turns).2.base = pool.base := by
  induction turns generalizing pool with
  | nil => rfl
  | cons turn turns ih => exact (ih _).trans (pool.base_serve turn.1 turn.2)

/-- Every turn is answered. -/
theorem map_fst_serveAll (turns : List (Worker × Task)) :
    (pool.serveAll turns).1.map Prod.fst = turns.map Prod.fst := by
  induction turns generalizing pool with
  | nil => rfl
  | cons turn turns ih => exact congrArg (turn.1 :: ·) (ih _)

/-- Whatever the others do, a worker gets to see what it would see alone. -/
theorem filter_serveAll {pool pool' : Pool Worker} (hbase : pool.base = pool'.base)
    (hworld : pool.world? worker = pool'.world? worker) (turns : List (Worker × Task)) :
    (pool.serveAll turns).1.filter (·.1 = worker) =
      (pool'.serveAll (turns.filter (·.1 = worker))).1 := by
  induction turns generalizing pool pool' with
  | nil => rfl
  | cons turn turns ih =>
    obtain ⟨other, task⟩ := turn
    rw [serveAll]
    dsimp only
    by_cases hsame : other = worker
    · subst hsame
      have hget : (pool.get other).1 = (pool'.get other).1 := by
        rw [fst_get, fst_get, hworld, hbase]
      rw [List.filter_cons_of_pos (by simp), List.filter_cons_of_pos (by simp), serveAll]
      refine congrArg₂ List.cons ?_ (ih ?_ ?_)
      · rw [fst_serve, fst_serve, hget]
      · rw [base_serve, base_serve, hbase]
      · rw [world?_serve, world?_serve, if_pos rfl, if_pos rfl, hget]
    · rw [List.filter_cons_of_neg (by simpa using hsame),
        List.filter_cons_of_neg (by simpa using hsame)]
      refine ih ((pool.base_serve other task).trans hbase) ?_
      rw [world?_serve, if_neg (Ne.symm hsame), hworld]

end Pool

end Galley.Run
