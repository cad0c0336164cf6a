import Galley.Proofs.Run.Parallel
import Galley.Proofs.Run.Pool
import Galley.Proofs.World.Aged
import Galley.Run.All

/-!
# Files that are run together

Every worker runs its files in one world, so what a file leaves in that world is
all that others on the same worker can see of it: its own text, and what was
loaded from the files as they were then.  A file that asks for nothing of this
runs as it does alone.
-/

namespace Galley.Run

open Compile File Check World

/-! ## Schedules -/

/-- Which files are run one after the other, by their places, and on which workers. -/
abbrev Schedule (paths : List Path) :=
  List (Fin paths.length × Nat)

/-- What remains of a file that has been run. -/
def Finished.of (outcome : Report × Bench) : Finished :=
  ⟨outcome.1, outcome.2.printed⟩

theorem length_runAssigned (setup : Setup) (jobs : List (Path × Nat)) (shop : Workshop) :
    (runAssigned setup jobs shop).1.length = jobs.length := by
  induction jobs generalizing shop with
  | nil => rfl
  | cons job jobs ih => exact congrArg (· + 1) (ih _)

section Schedule

variable (setup : Setup) (base : World) (files : Tree) (paths : List Path)

/-- The files of a schedule with their workers. -/
def jobs (schedule : Schedule paths) : List (Path × Nat) :=
  schedule.map fun turn => (paths[turn.1], turn.2)

/-- The workshop behind a schedule. -/
def shopAfter (schedule : Schedule paths) : Workshop :=
  (runAssigned setup (jobs paths schedule) { files, pool := { base } }).2

/-- The bench on which a worker runs its next file behind a schedule. -/
def benchAfter (schedule : Schedule paths) (worker : Nat) : Bench :=
  ⟨(shopAfter setup base files paths schedule).files,
    ((shopAfter setup base files paths schedule).pool.get worker).1, ""⟩

/-- What remains of the files of a schedule, in the order of the files. -/
def runScheduled (schedule : Schedule paths) : List Finished :=
  (List.finRange paths.length).filterMap fun index =>
    ((schedule.map Prod.fst).zip
      (runAssigned setup (jobs paths schedule) { files, pool := { base } }).1).lookup index

variable {setup base files paths} {schedule : Schedule paths} {worker : Nat}

/-- A worker has run a file behind the front of a schedule. -/
def Earlier (schedule : Schedule paths) (worker : Nat) (front : Schedule paths) : Prop :=
  ∃ index back, schedule = front ++ (index, worker) :: back

theorem Earlier.concat {front : Schedule paths} (hfront : Earlier schedule worker front)
    (turn : Fin paths.length × Nat) : Earlier (schedule ++ [turn]) worker front := by
  obtain ⟨index, back, rfl⟩ := hfront
  exact ⟨index, back ++ [turn], by rw [List.append_assoc, List.cons_append]⟩

theorem earlier_concat (schedule : Schedule paths) (index : Fin paths.length) (worker : Nat) :
    Earlier (schedule ++ [(index, worker)]) worker schedule :=
  ⟨index, [], rfl⟩

/-- What the files that were run before have left of a path in the world of a worker. -/
inductive Trace (setup : Setup) (base : World) (files : Tree) (paths : List Path)
    (schedule : Schedule paths) (worker : Nat) (world : World) (path : Path) : Prop
  /-- The text of a file that was run on this worker. -/
  | run {index : Fin paths.length} (hrun : (index, worker) ∈ schedule)
      (hpath : base.normalize paths[index] = path)
  | nothing (hslot : ∀ slot, base.slot? path = some slot → world.slot? path = some slot)
      (htold : ∀ other, world.told other path = base.told other path)
  /-- What was to be found in the files at an earlier turn. -/
  | loaded {front : Schedule paths} (hfront : Earlier schedule worker front)
      (hbase : base.slot? path = none)
      (htold : ∀ other, world.told other path =
        base.told (benchAfter setup base files paths front worker).files path)
  /-- No outcome, since loading came to an end in another way than by an error. -/
  | raised {front : Schedule paths} (hfront : Earlier schedule worker front)
      (hbase : base.slot? path = none) (hslot : world.slot? path = some .pending)
      {failure : Failure}
      (hload : base.load (benchAfter setup base files paths front worker).files path =
        .error (.failure failure))

/-- What happens on other workers leaves no trace. -/
theorem Trace.concat {world : World} {path : Path}
    (htrace : Trace setup base files paths schedule worker world path)
    (turn : Fin paths.length × Nat) :
    Trace setup base files paths (schedule ++ [turn]) worker world path := by
  cases htrace with
  | run hrun hpath => exact .run (List.mem_append_left _ hrun) hpath
  | nothing hslot htold => exact .nothing hslot htold
  | loaded hfront hbase htold => exact .loaded (hfront.concat turn) hbase htold
  | raised hfront hbase hslot hload => exact .raised (hfront.concat turn) hbase hslot hload

/-- What a file of the same worker leaves. -/
theorem Trace.aged {index : Fin paths.length} {world after : World} {path : Path}
    (htrace : Trace setup base files paths schedule worker world path)
    (hroot : world.root = base.root)
    (haged : Aged (benchAfter setup base files paths schedule worker).files
      (base.normalize paths[index]) world after) :
    Trace setup base files paths (schedule ++ [(index, worker)]) worker after path := by
  by_cases hown : path = base.normalize paths[index]
  · exact .run (List.mem_append_right _ (List.mem_singleton.2 rfl)) hown.symm
  · have hload := load_eq_of_root hroot (benchAfter setup base files paths schedule worker).files
    have hnow := earlier_concat schedule index worker
    cases htrace with
    | run hrun hpath => exact .run (List.mem_append_left _ hrun) hpath
    | nothing hslot htold =>
      obtain hsame | ⟨hnone, hfresh⟩ := haged.told hown
      · exact .nothing (fun slot hbase => haged.slot hown (hslot slot hbase))
          fun other => (hsame other).trans (htold other)
      · have hbase : base.slot? path = none := by
          cases hbase : base.slot? path with
          | none => rfl
          | some slot => exact (hslot slot hbase).symm.trans hnone
        obtain hfresh | ⟨hpending, failure, hfailure⟩ := hfresh
        · exact .loaded hnow hbase fun other => (hfresh other).trans (htold _)
        · exact .raised hnow hbase hpending ((hload path).symm.trans hfailure)
    | loaded hfront hbase htold =>
      obtain hsame | ⟨hnone, hfresh | ⟨hpending, failure, hfailure⟩⟩ := haged.told hown
      · exact .loaded (hfront.concat _) hbase fun other => (hsame other).trans (htold other)
      · exact .loaded (hfront.concat _) hbase fun other => (hfresh other).trans (htold _)
      · exact .raised hnow hbase hpending ((hload path).symm.trans hfailure)
    | raised hfront hbase hslot hfailure =>
      exact .raised (hfront.concat _) hbase (haged.slot hown hslot) hfailure

/-- Looking up distinct keys in their order gives back the values. -/
theorem filterMap_lookup_zip {Key Value : Type} [DecidableEq Key] {keys : List Key}
    {values : List Value} (hkeys : keys.Nodup) (hlength : keys.length = values.length) :
    (keys.filterMap fun key => (keys.zip values).lookup key) = values := by
  induction keys generalizing values with
  | nil => exact (List.length_eq_zero_iff.1 hlength.symm).symm
  | cons key keys ih =>
    obtain _ | ⟨value, values⟩ := values
    · cases hlength
    · obtain ⟨hkey, hkeys⟩ := List.nodup_cons.1 hkeys
      have hrest : (keys.filterMap fun other => ((key, value) :: keys.zip values).lookup other) =
          keys.filterMap fun other => (keys.zip values).lookup other := by
        refine List.filterMap_congr fun other hother => ?_
        have hdiffers : (other == key) = false :=
          beq_false_of_ne fun hsame => hkey (hsame ▸ hother)
        rw [List.lookup_cons, hdiffers]
      rw [List.zip_cons_cons, List.filterMap_cons, List.lookup_cons_self, hrest,
        ih hkeys (Nat.succ.inj hlength)]

/-- Running all files is one of the schedules: one worker runs them in their order. -/
theorem runAll_eq_runScheduled (setup : Setup) (base : World) (files : Tree) (paths : List Path)
    (hworkers : checkWorkers setup.settings = .ok ()) :
    (runAll setup base files paths).map Prod.fst =
      .ok (runScheduled setup base files paths
        ((List.finRange paths.length).map fun index => (index, 0))) := by
  have hjobs : jobs paths ((List.finRange paths.length).map fun index => (index, 0)) =
      paths.map fun path => (path, 0) := by
    rw [jobs, List.map_map]
    conv_rhs => rw [← List.map_get_finRange paths, List.map_map]
    rfl
  have hkeys : ((List.finRange paths.length).map fun index => (index, 0)).map Prod.fst =
      List.finRange paths.length := by
    rw [List.map_map]
    exact List.map_id _
  rw [runAll, hworkers, runScheduled, hjobs, hkeys, filterMap_lookup_zip (List.nodup_finRange _)]
  · rfl
  · rw [length_runAssigned, List.length_map, List.length_finRange]

end Schedule

/-- Two files, one of which asks for the other one and finds it only if it has been run
in the same world. -/
def asking : Tree :=
  ⟨[(["typ"], .directory), (["typ", "a"], .file (.bytes "// Ref: false\nx".toUTF8)),
    (["typ", "b"], .file (.bytes "// Ref: false\n#include(\"typ/a\")".toUTF8)),
    (["assets"], .directory)]⟩

end Galley.Run
