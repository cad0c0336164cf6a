import Galley.Proofs.Evaluation.Parallel
import Galley.Proofs.World.Requests

/-!
# The bookkeeping of a world

Sources enter a world because they are set or because they are loaded, and each
enters together with the slot of its path.  So in every world that comes about
the sources and the slots that hold one belong together one to one, whatever
failed in between, and a text that is set changes one source only.
-/

namespace Galley.Compile

open Syntax

/-- The source that a slot holds. -/
def Slot.source? : Slot → Option Nat
  | .source id => some id
  | _ => none

namespace World

variable {world : World}

/-- The sources that slots hold, slot by slot. -/
def held (world : World) : List Nat :=
  world.slots.filterMap fun entry => entry.2.source?

/-! ## Owners -/

/-- A tidy world in which paths have one slot each and sources have one path each. -/
structure Booked (world : World) : Prop where
  tidy : world.Tidy
  keys : (world.slots.map Prod.fst).Nodup
  owned : ∀ {id : Nat}, id < world.sources.length →
    ∃ path, world.slot? path = some (.source id)
  mainId : ∀ {id : Nat}, world.mainId = some id → id < world.sources.length

theorem nodup_keys_setSlot (hkeys : (world.slots.map Prod.fst).Nodup) (path : File.Path)
    (slot : Slot) : ((world.setSlot path slot).slots.map Prod.fst).Nodup := by
  rw [keys_setSlot]
  split
  · exact hkeys
  · rename_i hpath
    rw [isSome_slot?] at hpath
    refine List.nodup_append.2 ⟨hkeys, by simp, fun key hkey last hlast => ?_⟩
    rintro rfl
    exact hpath (List.mem_singleton.1 hlast ▸ hkey)

theorem length_insert (world : World) (path key : File.Path) (text : String) :
    ((world.insert path text).2.setSlot key (.source world.sources.length)).sources.length =
      world.sources.length + 1 := by
  rw [sources_setSlot]
  exact List.length_append

namespace Booked

/-- A path that had no slot may get one without a source. -/
theorem setSlot (hbooked : world.Booked) {path : File.Path} (hnone : world.slot? path = none)
    {slot : Slot} (hslot : ∀ id, slot ≠ .source id) : (world.setSlot path slot).Booked := by
  refine ⟨hbooked.tidy.setSlot path hslot, nodup_keys_setSlot hbooked.keys path slot, ?_, ?_⟩
  · intro id hid
    rw [sources_setSlot] at hid
    obtain ⟨owner, howner⟩ := hbooked.owned hid
    exact ⟨owner, (Kept.setSlot world hnone slot).slot howner⟩
  · intro id hid
    rw [mainId_setSlot] at hid
    rw [sources_setSlot]
    exact hbooked.mainId hid

/-- So may a path without a source, together with a new source. -/
theorem insert (hbooked : world.Booked) (path : File.Path) {key : File.Path}
    (hkey : ∀ id, world.slot? key ≠ some (.source id)) (text : String) :
    ((world.insert path text).2.setSlot key (.source world.sources.length)).Booked := by
  have hlength := world.length_insert path key text
  have hkeys : ((world.insert path text).2.slots.map Prod.fst).Nodup := hbooked.keys
  refine ⟨hbooked.tidy.insert path key text, nodup_keys_setSlot hkeys _ _, ?_, ?_⟩
  · intro id hid
    rw [hlength] at hid
    obtain hold | rfl := Nat.lt_succ_iff_lt_or_eq.1 hid
    · obtain ⟨owner, howner⟩ := hbooked.owned hold
      have hother : owner ≠ key := by
        rintro rfl
        exact hkey id howner
      exact ⟨owner, (slot?_setSlot_of_ne _ _ hother).trans howner⟩
    · exact ⟨key, slot?_setSlot_self _ key _⟩
  · intro id hid
    rw [mainId_setSlot] at hid
    rw [hlength]
    exact Nat.lt_succ_of_lt (hbooked.mainId hid)

theorem resolve (hbooked : world.Booked) (files : File.Tree) (path : File.Path) :
    (world.resolve files path).2.Booked := by
  obtain ⟨slot, -, hresolve⟩ | ⟨hnone, ⟨text, -, hresolve⟩ | ⟨error, -, hresolve⟩ |
    ⟨failure, -, hresolve⟩⟩ := resolve_cases world files path <;> rw [hresolve]
  · exact hbooked
  · exact hbooked.insert _ (fun id hid => nomatch hnone.symm.trans hid) text
  · exact hbooked.setSlot hnone fun _ => Slot.noConfusion
  · exact hbooked.setSlot hnone fun _ => Slot.noConfusion

/-- Another source in the place of one changes no book. -/
theorem putSource (hbooked : world.Booked) {source : Source}
    (htext : source.root.erase = (parse source.text).erase) : (world.putSource source).Booked := by
  have hlength : (world.putSource source).sources.length = world.sources.length :=
    List.length_set
  refine ⟨hbooked.tidy.putSource htext, hbooked.keys, fun hid => ?_, fun hid => ?_⟩
  · rw [hlength] at hid
    exact hbooked.owned hid
  · rw [hlength]
    exact hbooked.mainId hid

theorem withMain (hbooked : world.Booked) {id : Nat} (hid : id < world.sources.length) :
    { world with mainId := some id }.Booked := by
  refine ⟨⟨hbooked.tidy.numbered, hbooked.tidy.faithful, hbooked.tidy.within,
    hbooked.tidy.distinct⟩, hbooked.keys, hbooked.owned, ?_⟩
  rintro other hother
  obtain rfl := Option.some.inj hother
  exact hid

end Booked

/-! ## Main sources -/

/-- What setting a text does: a path without a source gets a new one, and that of any
other path is replaced in its place. -/
theorem Tidy.set_cases (htidy : world.Tidy) (path : File.Path) (text : String) :
    (∃ source : Source, world.sources[source.id]? = some source ∧
      world.slot? (world.normalize path) = some (.source source.id) ∧
      world.set path text = (source.id,
        { world.putSource (source.replace text) with mainId := some source.id })) ∨
    (∀ id, world.slot? (world.normalize path) ≠ some (.source id)) ∧
      world.set path text = (world.sources.length,
        { (world.insert path text).2.setSlot (world.normalize path)
            (.source world.sources.length) with mainId := some world.sources.length }) := by
  rw [set]
  dsimp only
  split
  · rename_i id hslot
    obtain ⟨source, hsource⟩ : ∃ source, world.sources[id]? = some source :=
      ⟨_, List.getElem?_eq_getElem (htidy.within hslot)⟩
    obtain rfl := htidy.numbered id source hsource
    rw [hsource]
    exact .inl ⟨source, hsource, hslot, rfl⟩
  · rename_i hslot
    exact .inr ⟨hslot, rfl⟩

theorem Booked.set (hbooked : world.Booked) (path : File.Path) (text : String) :
    (world.set path text).2.Booked := by
  obtain ⟨source, hsource, -, hset⟩ | ⟨hslot, hset⟩ := hbooked.tidy.set_cases path text
  · rw [hset]
    refine (hbooked.putSource rfl).withMain ?_
    rw [World.putSource, List.length_set]
    exact (List.getElem?_eq_some_iff.1 hsource).1
  · rw [hset]
    refine (hbooked.insert path hslot text).withMain ?_
    rw [length_insert]
    exact Nat.lt_succ_self _

/-- Every world that comes about is booked. -/
theorem Reached.booked {fine : Source → Prop} (hworld : world.Reached fine) : world.Booked := by
  induction hworld with
  | new root => exact ⟨(Reached.new root : Reached fine _).tidy, .nil, nofun, nofun⟩
  | @step world next _ hstep _ hbooked =>
    cases hstep with
    | set _ path text => exact hbooked.set path text
    | resolve _ files path => exact hbooked.resolve files path
    | @edit _ _ edited id start stop replacement hedit =>
      obtain ⟨source, hsource, hedited, rfl⟩ := exists_of_edit hedit
      have hchange : (Change.edit start stop replacement).apply source = .ok edited := hedited
      exact hbooked.putSource
        (Change.erase_root_apply (hbooked.tidy.faithful source hsource) hchange)
    | replace hsource text => exact hbooked.putSource rfl
    | @evaluate outside source files depth route hsource =>
      exact holds_evaluate (fun _ hbooked => hbooked.tidy.faithful)
        (fun _ path hbooked => hbooked.resolve files path) depth route
        (hbooked.tidy.faithful source hsource) hbooked

/-! ## One to one -/

theorem slot?_of_mem (hkeys : (world.slots.map Prod.fst).Nodup) {path : File.Path} {slot : Slot}
    (hentry : (path, slot) ∈ world.slots) : world.slot? path = some slot := by
  rw [slot?]
  generalize world.slots = slots at hkeys hentry
  induction slots with
  | nil => cases hentry
  | cons first slots ih =>
    obtain ⟨hfirst, hrest⟩ := List.nodup_cons.1 hkeys
    obtain rfl | hentry := List.mem_cons.1 hentry
    · simp
    · have hother : (first.1 == path) = false := by
        refine beq_false_of_ne fun hsame => hfirst ?_
        exact hsame ▸ List.mem_map_of_mem (f := Prod.fst) hentry
      rw [List.find?_cons, hother]
      exact ih hrest hentry

theorem mem_of_slot? {path : File.Path} {slot : Slot} (hslot : world.slot? path = some slot) :
    (path, slot) ∈ world.slots := by
  obtain ⟨⟨key, found⟩, hfound, rfl⟩ := Option.map_eq_some_iff.1 hslot
  have hkey := List.find?_some (p := fun slot : File.Path × Slot => slot.1 == path) hfound
  obtain rfl : key = path := beq_iff_eq.1 hkey
  exact List.mem_of_find?_eq_some hfound

theorem Booked.mem_held (hbooked : world.Booked) {id : Nat} :
    id ∈ world.held ↔ id < world.sources.length := by
  rw [held, List.mem_filterMap]
  constructor
  · rintro ⟨⟨path, slot⟩, hentry, hid⟩
    cases slot with
    | source other =>
      obtain rfl := Option.some.inj hid
      exact hbooked.tidy.within (slot?_of_mem hbooked.keys hentry)
    | _ => cases hid
  · intro hid
    obtain ⟨path, hslot⟩ := hbooked.owned hid
    exact ⟨_, mem_of_slot? hslot, rfl⟩

theorem Booked.nodup_held (hbooked : world.Booked) : world.held.Nodup := by
  rw [held, List.Nodup, List.pairwise_filterMap]
  refine (List.pairwise_map.1 hbooked.keys).imp_of_mem ?_
  rintro ⟨path, slot⟩ ⟨other, slot'⟩ hentry hother hpaths id hid _ hid' rfl
  cases slot <;> cases hid
  cases slot' <;> cases hid'
  exact hpaths (hbooked.tidy.distinct (slot?_of_mem hbooked.keys hentry)
    (slot?_of_mem hbooked.keys hother))

/-- The slots hold every source exactly once. -/
theorem Booked.held_perm (hbooked : world.Booked) :
    world.held.Perm (List.range world.sources.length) := by
  refine (List.perm_ext_iff_of_nodup hbooked.nodup_held List.nodup_range).2 fun id => ?_
  rw [hbooked.mem_held, List.mem_range]

/-! ## The books of every world -/

/-- Sources and slots balance: sources are numbered in order, each path has one slot,
the slots hold every source exactly once, and the main source is one of them. -/
structure Balanced (world : World) : Prop where
  numbered : ∀ (id : Nat) (source : Source), world.sources[id]? = some source → source.id = id
  keys : (world.slots.map Prod.fst).Nodup
  held : world.held.Perm (List.range world.sources.length)
  mainId : ∀ id, world.mainId = some id → id < world.sources.length

/-- What setting a text for a path comes to. -/
structure MadeMain (world : World) (path : File.Path) (text : String) (id : Nat) (after : World) :
    Prop where
  /-- The source with the id has the text, and is the main one. -/
  source : ∃ source, after.source id = .ok source ∧ source.id = id ∧ source.text = text ∧
    source.root = parse text
  mainId : after.mainId = some id
  main : id ≠ Source.detachedId → after.main = after.source id
  /-- Whatever the slot held, it holds the source now. -/
  slot : after.slot? (world.normalize path) = some (.source id)
  /-- No other source has changed, gone or come. -/
  others : ∀ other, other ≠ id → after.sources[other]? = world.sources[other]?
  /-- Every way to write the path would have led to the same id, -/
  alike : ∀ other, world.normalize other = world.normalize path →
    ∀ text', (world.set other text').1 = id
  /-- and leads to it for good. -/
  lasting : ∀ other, world.normalize other = world.normalize path → ∀ requests : List Request,
    (∀ text', ((after.serveAll requests).set other text').1 = id) ∧
      ∀ files, (after.serveAll requests).resolve files other = (.ok id, after.serveAll requests)

/-- A path keeps its source, whatever is asked for. -/
theorem Tidy.slot?_serveAll_source (htidy : world.Tidy) (requests : List Request)
    {path : File.Path} {id : Nat} (hslot : world.slot? path = some (.source id)) :
    (world.serveAll requests).slot? path = some (.source id) := by
  induction requests generalizing world with
  | nil => exact hslot
  | cons request requests ih =>
    have hspared := htidy.spared request
    refine ih hspared.tidy ?_
    by_cases hspares : request.Spares world path
    · exact hspared.slot hspares hslot
    · cases request with
      | set asked text =>
        obtain rfl : world.normalize asked = path := not_not.1 hspares
        have hset := (htidy.hasSet asked text).slot
        rwa [htidy.fst_set_of_source hslot] at hset
      | _ => exact absurd trivial hspares

/-- Only the source of the path changes. -/
theorem Tidy.getElem?_set_of_ne (htidy : world.Tidy) (path : File.Path) (text : String)
    {other : Nat} (hother : other ≠ (world.set path text).1) :
    (world.set path text).2.sources[other]? = world.sources[other]? := by
  obtain ⟨source, -, -, hset⟩ | ⟨-, hset⟩ := htidy.set_cases path text
  · rw [hset] at hother ⊢
    exact List.getElem?_set_ne (Ne.symm hother)
  · rw [hset] at hother ⊢
    rw [sources_setSlot]
    show (world.sources ++ [_])[other]? = _
    obtain hless | hgreater := Nat.lt_or_gt_of_ne hother
    · exact List.getElem?_append_left hless
    · rw [List.getElem?_eq_none (Nat.le_of_lt hgreater), List.getElem?_eq_none]
      rw [List.length_append]
      exact hgreater

/-- In a booked world a text is set for one path and for nothing else. -/
theorem Tidy.madeMain (htidy : world.Tidy) (path : File.Path) (text : String) :
    MadeMain world path text (world.set path text).1 (world.set path text).2 := by
  have hset := htidy.hasSet path text
  refine ⟨exists_source_set htidy.numbered path text, hset.mainId,
    main_of_mainId hset.mainId, hset.slot, fun other => htidy.getElem?_set_of_ne path text,
    fun other hother text' => ?_, fun other hother requests => ?_⟩
  · rw [fst_set, fst_set, hother]
  · obtain ⟨hafter, hroot⟩ := root_serveAll hset.tidy requests
    have hslot := hset.tidy.slot?_serveAll_source requests hset.slot
    have hkey : ((world.set path text).2.serveAll requests).normalize other =
        world.normalize path := by
      rw [normalize_eq_of_root hroot, normalize_eq_of_root hset.root, hother]
    rw [← hkey] at hslot
    refine ⟨fun text' => hafter.fst_set_of_source hslot text', fun files => ?_⟩
    rw [World.resolve, hslot]
    rfl

/-- In every world that comes about from a new one by setting, resolving, compiling,
editing and cloning in any order, the books balance, and setting a text makes its source
the main one and touches no other. -/
theorem books_balance {root : File.Path} {errands : List Errand}
    (hworld : world ∈ Errand.runAll [{ root }] errands) :
    Balanced world ∧
      ∀ path text, MadeMain world path text (world.set path text).1 (world.set path text).2 := by
  have hreached := reached_runAll (List.forall_mem_singleton.2 (.new root)) errands world hworld
  have hbooked := hreached.booked
  refine ⟨⟨hbooked.tidy.numbered, hbooked.keys, hbooked.held_perm, fun _ => hbooked.mainId⟩, ?_⟩
  exact hbooked.tidy.madeMain

/-- A failed load, a source set in its place, a clone, and another source in the clone. -/
def clonedWorlds : List World :=
  Errand.runAll [{ root := .ofString "assets" }] [
    .serve 0 (.resolve ⟨[]⟩ (.ofString "a.pbt")),
    .serve 0 (.set (.ofString "b/../a.pbt") "#include(\"c.pbt\")"),
    .serve 0 (.compile ⟨[]⟩),
    .clone 0,
    .serve 1 (.set (.ofString "c.pbt") "x")]

theorem books_balance_clone : ∃ world ∈ clonedWorlds,
    (world.held = [0, 1] ∧ world.mainId = some 1 ∧ Balanced world) ∧
      MadeMain world (.ofString "a.pbt") "y" (world.set (.ofString "a.pbt") "y").1
        (world.set (.ofString "a.pbt") "y").2 := by
  have hclone := clonedWorlds.get_mem ⟨1, by decide⟩
  have hentries : (clonedWorlds.get ⟨1, by decide⟩).held = [0, 1] ∧
      (clonedWorlds.get ⟨1, by decide⟩).mainId = some 1 := by
    decide +kernel
  obtain ⟨hbalanced, hset⟩ := books_balance hclone
  exact ⟨_, hclone, ⟨hentries.1, hentries.2, hbalanced⟩, hset _ _⟩

end World

end Galley.Compile
