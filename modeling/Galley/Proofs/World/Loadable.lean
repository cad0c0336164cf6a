import Galley.Proofs.File.Place
import Galley.Proofs.World.Growth

/-!
# What can still be loaded

A normalized path has its double dots in front, so what a file tree holds at it
stands in the tree under its very names.  Each path is loaded at most once, and
the number of sources together with that of the paths still without a slot
bounds how many sources there can ever be.
-/

namespace Galley.File

namespace Tree

variable {tree : Tree} {content : Content}

/-- The paths of the entries. -/
def paths (tree : Tree) : List Path :=
  tree.entries.map fun entry => { names := entry.1 }

theorem mem_entries_of_entry {names : List String}
    (hentry : tree.entry? names = some (.file content)) : names ∈ tree.entries.map Prod.fst := by
  unfold entry? at hentry
  split at hentry
  · cases hentry
  · obtain ⟨entry, hfind, -⟩ := Option.map_eq_some_iff.1 hentry
    have hnames : entry.1 = names := by simpa using List.find?_some hfind
    exact hnames ▸ List.mem_map_of_mem (List.mem_of_find?_eq_some hfind)

/-- Only relative paths lead to files, and if they never go back up, to those under their own
names. -/
theorem mem_paths_of_read {path : Path} (hread : tree.read path = .ok content)
    (hpath : path.isAbsolute = false → DotsInFront path.names) : path ∈ tree.paths := by
  have hentry := entry?_of_read hread
  obtain ⟨-, hrelative, -⟩ := relative_of_read hread
  rw [names_normalize hrelative, reach_of_dotsInFront (hpath hrelative)] at hentry
  obtain ⟨entry, hentry, hnames⟩ := List.mem_map.1 (mem_entries_of_entry hentry)
  refine List.mem_map.2 ⟨entry, hentry, ?_⟩
  obtain ⟨anchor, names⟩ := path
  obtain rfl : anchor = .relative := by simpa [Path.isAbsolute] using hrelative
  exact congrArg (Path.mk .relative) hnames

end Tree

end Galley.File

namespace Galley.Compile

open File

/-- A normalized path under which a world finds a text. -/
def Loadable (files : Tree) (path : Path) : Prop :=
  ∃ (world : World) (asked : Path) (text : String),
    world.normalize asked = path ∧ world.load files path = .ok text

/-- Every path that can be loaded is that of an entry, so there are finitely many. -/
theorem Loadable.mem_paths {files : Tree} {path : Path} (hpath : Loadable files path) :
    path ∈ files.paths := by
  obtain ⟨world, asked, text, rfl, hload⟩ := hpath
  rw [World.load] at hload
  split at hload
  · cases hload
  · split at hload
    · cases hload
    · cases hload
    · cases hload
    · cases hload
    · rename_i bytes hread
      exact Tree.mem_paths_of_read hread Tree.dotsInFront_normalize
    · cases hload

namespace World

variable (world : World)

theorem isSome_slot? (path : Path) :
    (world.slot? path).isSome ↔ path ∈ world.slots.map Prod.fst := by
  simp only [slot?, Option.isSome_map, List.find?_isSome, List.mem_map, beq_iff_eq]

/-- A path that has a slot keeps its place, and any other one comes behind all others. -/
theorem keys_setSlot (path : Path) (slot : Slot) :
    (world.setSlot path slot).slots.map Prod.fst =
      if (world.slot? path).isSome then world.slots.map Prod.fst
      else world.slots.map Prod.fst ++ [path] := by
  rw [setSlot]
  split
  · dsimp only
    rw [List.map_map]
    refine List.map_congr_left fun entry _ => ?_
    simp only [Function.comp]
    split
    · rename_i hentry
      exact (beq_iff_eq.1 hentry).symm
    · rfl
  · exact List.map_append

/-- Only the path that a slot is stored for gets one. -/
theorem isSome_slot?_setSlot (path other : Path) (slot : Slot) :
    ((world.setSlot path slot).slot? other).isSome ↔
      other = path ∨ (world.slot? other).isSome := by
  rw [isSome_slot?, isSome_slot?, keys_setSlot]
  split
  · rename_i hpath
    rw [isSome_slot?] at hpath
    refine ⟨.inr, ?_⟩
    rintro (rfl | hother)
    · exact hpath
    · exact hother
  · rw [List.mem_append, List.mem_singleton, or_comm]

/-- The paths that nobody has asked for yet. -/
def unasked (world : World) (paths : List Path) : List Path :=
  paths.filter fun path => (world.slot? path).isNone

theorem unasked_setSlot (paths : List Path) (path : Path) (slot : Slot) :
    (world.setSlot path slot).unasked paths = (world.unasked paths).filter (· != path) := by
  rw [unasked, unasked, List.filter_filter]
  refine List.filter_congr fun other _ => ?_
  rw [Bool.eq_iff_iff, Bool.and_eq_true, bne_iff_ne, ← Option.not_isSome, ← Option.not_isSome,
    Bool.not_eq_true', Bool.not_eq_true', ← Bool.not_eq_true, ← Bool.not_eq_true,
    isSome_slot?_setSlot, not_or]

/-- A path whose source is there already is not loaded again. -/
theorem resolve_eq_self {files : Tree} {path : Path} {id : Nat}
    (hresolve : (world.resolve files path).1 = .ok id) (hid : id < world.sources.length) :
    world.resolve files path = (.ok id, world) := by
  obtain ⟨slot, -, hcases⟩ | ⟨-, ⟨text, -, hcases⟩ | ⟨error, -, hcases⟩ |
    ⟨failure, -, hcases⟩⟩ := resolve_cases world files path
  · rw [hcases] at hresolve ⊢
    exact congrArg (·, world) hresolve
  · rw [hcases] at hresolve
    exact absurd (Except.ok.inj hresolve) (Nat.ne_of_gt hid)
  · rw [hcases] at hresolve
    cases hresolve
  · rw [hcases] at hresolve
    cases hresolve

/-- How many sources there are, and how many there can still be if only the given
paths can be loaded. -/
def reach (world : World) (paths : List Path) : Nat :=
  world.sources.length + (world.unasked paths).length

theorem reach_le (paths : List Path) :
    world.reach paths ≤ world.sources.length + paths.length :=
  Nat.add_le_add_left (List.length_filter_le _ _) _

/-- Resolving a path spends its own share of the reach, if any. -/
theorem reach_resolve_le {files : Tree} {paths : List Path}
    (hpaths : ∀ path, Loadable files path → path ∈ paths) (path : Path) :
    (world.resolve files path).2.reach paths ≤ world.reach paths := by
  have hfewer : ((world.unasked paths).filter (· != world.normalize path)).length ≤
      (world.unasked paths).length := List.length_filter_le _ _
  obtain ⟨slot, -, hresolve⟩ | ⟨hslot, ⟨text, hload, hresolve⟩ | ⟨error, -, hresolve⟩ |
    ⟨failure, -, hresolve⟩⟩ := resolve_cases world files path
  · exact Nat.le_of_eq (congrArg (reach · paths) (congrArg Prod.snd hresolve))
  · have hmem : world.normalize path ∈ world.unasked paths :=
      List.mem_filter.2 ⟨hpaths _ ⟨world, path, text, rfl, hload⟩, by rw [hslot]; rfl⟩
    have hless : ((world.unasked paths).filter (· != world.normalize path)).length <
        (world.unasked paths).length :=
      List.length_filter_lt_length_iff_exists.2 ⟨_, hmem, by simp⟩
    rw [hresolve, reach, unasked_setSlot, sources_setSlot, reach]
    have hinsert : (world.insert (world.normalize path) text).2.sources.length =
        world.sources.length + 1 := List.length_append
    show _ + ((world.unasked paths).filter (· != world.normalize path)).length ≤ _
    omega
  · rw [hresolve, reach, unasked_setSlot, sources_setSlot, reach]
    exact Nat.add_le_add_left hfewer _
  · rw [hresolve, reach, unasked_setSlot, sources_setSlot, reach]
    exact Nat.add_le_add_left hfewer _

end World

end Galley.Compile
