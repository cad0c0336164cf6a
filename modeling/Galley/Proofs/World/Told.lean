import Galley.Proofs.World.Loadable
import Galley.Proofs.World.Reached

/-!
# What a world tells

A document that asks for a path is told the text of a source and its tree, or why
there is none.  In a tidy world the sources and the paths that have one belong
together one to one, so setting one path changes what is told about that path
only, and a request changes nothing but that a failed one leaves no outcome.
-/

namespace Galley.Compile

open Syntax

namespace World

variable {world : World} {path other : File.Path}

/-! ## Slots -/

theorem slot?_setSlot_self (world : World) (path : File.Path) (slot : Slot) :
    (world.setSlot path slot).slot? path = some slot := by
  rw [setSlot]
  split
  · rename_i hslot
    rw [isSome_slot?] at hslot
    rw [slot?]
    dsimp only
    generalize world.slots = slots at hslot
    induction slots with
    | nil => cases hslot
    | cons entry slots ih =>
      rw [List.map_cons]
      by_cases hentry : entry.1 = path
      · simp [hentry]
      · rw [List.map_cons, List.mem_cons] at hslot
        have hrest := ih (hslot.resolve_left (Ne.symm hentry))
        simpa [hentry] using hrest
  · rename_i hslot
    have hnone : world.slots.find? (fun entry => entry.1 == path) = none :=
      Option.map_eq_none_iff.1 (Option.not_isSome_iff_eq_none.1 hslot)
    simp [slot?, List.find?_append, hnone]

theorem slot?_setSlot_of_ne (world : World) (slot : Slot) (hother : other ≠ path) :
    (world.setSlot path slot).slot? other = world.slot? other := by
  rw [setSlot]
  split
  · rw [slot?, slot?]
    dsimp only
    induction world.slots with
    | nil => rfl
    | cons entry slots ih =>
      rw [List.map_cons]
      by_cases hentry : entry.1 = path
      · simpa [hentry, Ne.symm hother] using ih
      · by_cases hfound : entry.1 = other
        · simp [hfound, hother]
        · simpa [hentry, hfound] using ih
  · simp [slot?, List.find?_append, Ne.symm hother]

/-- Sources and the paths that have one belong together one to one, and every source
has the tree of its text. -/
structure Tidy (world : World) : Prop where
  numbered : Numbered world.sources
  faithful : Faithful world.sources
  within : ∀ {path : File.Path} {id : Nat}, world.slot? path = some (.source id) →
    id < world.sources.length
  distinct : ∀ {path other : File.Path} {id : Nat}, world.slot? path = some (.source id) →
    world.slot? other = some (.source id) → path = other

/-- What a document that asks for a path is told. -/
def told (world : World) (files : File.Tree) (path : File.Path) :
    Except Unloaded (String × Node) :=
  match world.slot? path with
  | some (.source id) =>
    match world.sources[id]? with
    | some source => .ok (source.text, source.root)
    | none => .error (.failure .indexOutOfRange)
  | some (.failed error) => .error (.error error)
  | some .pending => .error (.failure .noOutcome)
  | none => (world.load files path).map fun text => (text, parse text)

theorem told_of_source {files : File.Tree} {id : Nat} {source : Source}
    (hslot : world.slot? path = some (.source id)) (hsource : world.sources[id]? = some source) :
    world.told files path = .ok (source.text, source.root) := by
  simp only [told, hslot, hsource]

theorem told_of_failed {files : File.Tree} {error : LoadError}
    (hslot : world.slot? path = some (.failed error)) :
    world.told files path = .error (.error error) := by
  simp only [told, hslot]

theorem told_of_pending {files : File.Tree} (hslot : world.slot? path = some .pending) :
    world.told files path = .error (.failure .noOutcome) := by
  simp only [told, hslot]

theorem told_of_none (files : File.Tree) (hslot : world.slot? path = none) :
    world.told files path = (world.load files path).map fun text => (text, parse text) := by
  simp only [told, hslot]

/-- What has an outcome already does not depend on the files. -/
theorem told_eq_of_isSome {slot : Slot} (hslot : world.slot? path = some slot)
    (files files' : File.Tree) : world.told files path = world.told files' path := by
  rw [told, told, hslot]
  cases slot <;> rfl

/-- What is loaded depends on the root of a world alone. -/
theorem load_eq_of_root {before after : World} (hroot : after.root = before.root)
    (files : File.Tree) (path : File.Path) : after.load files path = before.load files path := by
  simp only [load, display, hroot]

/-- So is the path under which a path has its slot. -/
theorem normalize_eq_of_root {before after : World} (hroot : after.root = before.root)
    (path : File.Path) : after.normalize path = before.normalize path := by
  simp only [World.normalize, hroot]

@[simp]
theorem root_setSlot (world : World) (path : File.Path) (slot : Slot) :
    (world.setSlot path slot).root = world.root := by
  rw [setSlot]
  split <;> rfl

@[simp]
theorem mainId_setSlot (world : World) (path : File.Path) (slot : Slot) :
    (world.setSlot path slot).mainId = world.mainId := by
  rw [setSlot]
  split <;> rfl

/-- A slot says nothing about other paths. -/
theorem told_setSlot_of_ne (world : World) (files : File.Tree) (slot : Slot)
    (hother : other ≠ path) :
    (world.setSlot path slot).told files other = world.told files other := by
  rw [told, told, slot?_setSlot_of_ne world slot hother, sources_setSlot,
    load_eq_of_root (root_setSlot world path slot)]

namespace Tidy

/-- A new source, which has no slot yet, changes nothing that is told. -/
theorem told_insert (htidy : world.Tidy) (files : File.Tree) (path : File.Path) (text : String)
    (other : File.Path) :
    (world.insert path text).2.told files other = world.told files other := by
  have hload : (world.insert path text).2.load files other = world.load files other :=
    load_eq_of_root rfl files other
  rw [told, told, hload, show (world.insert path text).2.slot? other = world.slot? other from rfl]
  cases hslot : world.slot? other with
  | none => rfl
  | some slot =>
    cases slot with
    | source id =>
      show (match (world.sources ++ [_])[id]? with | some _ => _ | none => _) = _
      rw [List.getElem?_append_left (htidy.within hslot)]
    | _ => rfl

/-- An outcome without a source keeps a world tidy. -/
theorem setSlot (htidy : world.Tidy) (path : File.Path) {slot : Slot}
    (hslot : ∀ id, slot ≠ .source id) : (world.setSlot path slot).Tidy := by
  have hother : ∀ {other : File.Path} {id : Nat},
      (world.setSlot path slot).slot? other = some (.source id) →
        world.slot? other = some (.source id) := by
    intro other id hfound
    by_cases hpath : other = path
    · rw [hpath, slot?_setSlot_self] at hfound
      exact absurd (Option.some.inj hfound) (hslot id)
    · rwa [slot?_setSlot_of_ne world slot hpath] at hfound
  constructor
  · rw [sources_setSlot]
    exact htidy.numbered
  · rw [sources_setSlot]
    exact htidy.faithful
  · intro other id hfound
    rw [sources_setSlot]
    exact htidy.within (hother hfound)
  · exact fun hfound hsame => htidy.distinct (hother hfound) (hother hsame)

/-- So does a new source with a slot. -/
theorem insert (htidy : world.Tidy) (path key : File.Path) (text : String) :
    ((world.insert path text).2.setSlot key (.source world.sources.length)).Tidy := by
  have hsources : ((world.insert path text).2.setSlot key
      (.source world.sources.length)).sources =
        world.sources ++ [Source.new world.sources.length path text] :=
    sources_setSlot ..
  have hslot : ∀ {other : File.Path} {id : Nat},
      ((world.insert path text).2.setSlot key (.source world.sources.length)).slot? other =
        some (.source id) →
      other = key ∧ id = world.sources.length ∨
        id < world.sources.length ∧ world.slot? other = some (.source id) := by
    intro other id hfound
    by_cases hkey : other = key
    · rw [hkey, slot?_setSlot_self] at hfound
      exact .inl ⟨hkey, (Slot.source.inj (Option.some.inj hfound)).symm⟩
    · rw [slot?_setSlot_of_ne _ _ hkey] at hfound
      exact .inr ⟨htidy.within hfound, hfound⟩
  constructor
  · rw [hsources]
    exact htidy.numbered.append rfl
  · rw [hsources]
    exact (Grown.load path text .refl).faithful htidy.faithful
  · intro other id hfound
    rw [hsources, List.length_append]
    obtain ⟨-, rfl⟩ | ⟨hid, -⟩ := hslot hfound
    · exact Nat.lt_succ_self _
    · exact Nat.lt_succ_of_lt hid
  · intro one other id hone hother
    obtain ⟨rfl, rfl⟩ | ⟨hid, hold⟩ := hslot hone <;>
      obtain ⟨rfl, hsame⟩ | ⟨hid', hold'⟩ := hslot hother
    · rfl
    · exact absurd hid' (Nat.lt_irrefl _)
    · exact absurd hsame (Nat.ne_of_lt hid)
    · exact htidy.distinct hold hold'

end Tidy

/-- What a world keeps when documents are asked for. -/
structure Kept (before after : World) : Prop where
  root : after.root = before.root
  mainId : after.mainId = before.mainId
  slot : ∀ {path : File.Path} {slot : Slot}, before.slot? path = some slot →
    after.slot? path = some slot

namespace Kept

variable {before between after : World}

theorem refl (world : World) : Kept world world :=
  ⟨rfl, rfl, id⟩

theorem trans (hfirst : Kept before between) (hsecond : Kept between after) :
    Kept before after :=
  ⟨hsecond.root.trans hfirst.root, hsecond.mainId.trans hfirst.mainId,
    fun hslot => hsecond.slot (hfirst.slot hslot)⟩

end Kept

/-- What a request comes to, and the world that it leaves behind. -/
structure Resolved (world : World) (files : File.Tree) (path : File.Path)
    (result : Except Failure Nat) (after : World) : Prop where
  kept : Kept world after
  tidy : after.Tidy
  others : ∀ {other : File.Path}, other ≠ path →
    after.slot? other = world.slot? other ∧
      ∀ tree, after.told tree other = world.told tree other
  asked : (after.slot? path).isSome = true
  told : match world.told files path with
    | .ok content => ∃ id, result = .ok id ∧ after.slot? path = some (.source id) ∧
        after.told files path = .ok content
    | .error (.error error) =>
        result = .error (.load error) ∧ after.told files path = .error (.error error)
    | .error (.failure failure) =>
        result = .error failure ∧ after.told files path = .error (.failure .noOutcome)

/-- A slot for a path that had none. -/
theorem Kept.setSlot (world : World) (hnone : world.slot? path = none) (slot : Slot) :
    Kept world (world.setSlot path slot) := by
  refine ⟨root_setSlot .., mainId_setSlot .., ?_⟩
  intro other found hfound
  have hother : other ≠ path := by
    rintro rfl
    rw [hnone] at hfound
    cases hfound
  rw [slot?_setSlot_of_ne _ _ hother, hfound]

/-- A slot says what a request comes to that finds it, and nothing changes. -/
theorem Tidy.resolved_outcome (htidy : world.Tidy) (files : File.Tree) {slot : Slot}
    (hslot : world.slot? path = some slot) :
    Resolved world files path (Slot.outcome slot) world := by
  refine ⟨.refl world, htidy, fun _ => ⟨rfl, fun _ => rfl⟩, by rw [hslot]; rfl, ?_⟩
  cases slot with
  | pending =>
    rw [told_of_pending hslot]
    exact ⟨rfl, rfl⟩
  | source id =>
    have hsource := List.getElem?_eq_getElem (htidy.within hslot)
    rw [told_of_source hslot hsource]
    exact ⟨id, rfl, hslot, rfl⟩
  | failed error =>
    rw [told_of_failed hslot]
    exact ⟨rfl, rfl⟩

/-- What is loaded becomes a new source, and its slot names it. -/
theorem Tidy.resolved_insert (htidy : world.Tidy) {files : File.Tree} {text : String}
    (hnone : world.slot? path = none) (hload : world.load files path = .ok text) :
    Resolved world files path (.ok world.sources.length)
      ((world.insert path text).2.setSlot path (.source world.sources.length)) := by
  have hkept : Kept world
      ((world.insert path text).2.setSlot path (.source world.sources.length)) :=
    have hslots := Kept.setSlot (world.insert path text).2 hnone _
    ⟨hslots.root, hslots.mainId, hslots.slot⟩
  have hself := slot?_setSlot_self (world.insert path text).2 path (.source world.sources.length)
  refine ⟨hkept, htidy.insert _ _ text, fun hother => ⟨?_, fun tree => ?_⟩, by rw [hself]; rfl, ?_⟩
  · exact slot?_setSlot_of_ne _ _ hother
  · rw [told_setSlot_of_ne _ tree _ hother, htidy.told_insert]
  · have hsource : ((world.insert path text).2.setSlot path
        (.source world.sources.length)).sources[world.sources.length]? =
          some (Source.new world.sources.length path text) := by
      rw [sources_setSlot]
      exact List.getElem?_concat_length
    rw [told_of_none files hnone, hload]
    exact ⟨_, rfl, hself, told_of_source hself hsource⟩

/-- Where nothing is loaded, there is only a slot that says so. -/
theorem Tidy.resolved_setSlot (htidy : world.Tidy) {files : File.Tree} {slot : Slot}
    {result : Except Failure Nat} (hnone : world.slot? path = none)
    (hslot : ∀ id, slot ≠ .source id)
    (htold : match world.told files path with
      | .ok _ => False
      | .error (.error error) => result = .error (.load error) ∧
          (world.setSlot path slot).told files path = .error (.error error)
      | .error (.failure failure) => result = .error failure ∧
          (world.setSlot path slot).told files path = .error (.failure .noOutcome)) :
    Resolved world files path result (world.setSlot path slot) where
  kept := .setSlot world hnone slot
  tidy := htidy.setSlot _ hslot
  others hother :=
    ⟨slot?_setSlot_of_ne _ _ hother, fun tree => told_setSlot_of_ne _ tree _ hother⟩
  asked := by
    rw [slot?_setSlot_self]
    rfl
  told := by
    split at htold
    · exact htold.elim
    · exact htold
    · exact htold

/-- A request answers with what the world tells, and leaves everything else as it is. -/
theorem Tidy.resolved (htidy : world.Tidy) (files : File.Tree) (path : File.Path) :
    Resolved world files (world.normalize path) (world.resolve files path).1
      (world.resolve files path).2 := by
  obtain ⟨slot, hslot, hresolve⟩ | ⟨hnone, ⟨text, hload, hresolve⟩ | ⟨error, hload, hresolve⟩ |
    ⟨failure, hload, hresolve⟩⟩ := resolve_cases world files path <;> rw [hresolve]
  · exact htidy.resolved_outcome files hslot
  · exact htidy.resolved_insert hnone hload
  · refine htidy.resolved_setSlot hnone (fun id => Slot.noConfusion) ?_
    rw [told_of_none files hnone, hload]
    exact ⟨rfl, told_of_failed (slot?_setSlot_self ..)⟩
  · refine htidy.resolved_setSlot hnone (fun id => Slot.noConfusion) ?_
    rw [told_of_none files hnone, hload]
    exact ⟨rfl, told_of_pending (slot?_setSlot_self ..)⟩

/-- What setting a text changes: the path is told about it, and is the main source. -/
structure HasSet (world : World) (path : File.Path) (text : String) (id : Nat) (after : World) :
    Prop where
  root : after.root = world.root
  mainId : after.mainId = some id
  tidy : after.Tidy
  slot : after.slot? path = some (.source id)
  told : ∀ files, after.told files path = .ok (text, parse text)
  others : ∀ {other : File.Path}, other ≠ path →
    after.slot? other = world.slot? other ∧
      ∀ files, after.told files other = world.told files other

theorem Tidy.hasSet_insert (htidy : world.Tidy) (path : File.Path) (text : String) :
    HasSet world (world.normalize path) text world.sources.length
      { (world.insert path text).2.setSlot (world.normalize path)
        (.source world.sources.length) with mainId := some world.sources.length } := by
  have hfilled := htidy.insert path (world.normalize path) text
  have hself := slot?_setSlot_self (world.insert path text).2 (world.normalize path)
    (.source world.sources.length)
  have hsource : ((world.insert path text).2.setSlot (world.normalize path)
      (.source world.sources.length)).sources[world.sources.length]? =
        some (Source.new world.sources.length path text) := by
    rw [sources_setSlot]
    exact List.getElem?_concat_length
  refine ⟨root_setSlot .., rfl,
    ⟨hfilled.numbered, hfilled.faithful, hfilled.within, hfilled.distinct⟩, hself,
    fun files => told_of_source hself hsource, fun hother => ⟨?_, fun files => ?_⟩⟩
  · exact slot?_setSlot_of_ne _ _ hother
  · exact (told_setSlot_of_ne _ files _ hother).trans (htidy.told_insert files path text _)

/-- Another source in the place of one keeps a world tidy. -/
theorem Tidy.putSource (htidy : world.Tidy) {source : Source}
    (htext : source.root.erase = (parse source.text).erase) : (world.putSource source).Tidy := by
  refine ⟨htidy.numbered.set, ?_, ?_, htidy.distinct⟩
  · intro other hother
    obtain hother | rfl := List.mem_or_eq_of_mem_set hother
    · exact htidy.faithful other hother
    · exact htext
  · intro other id hfound
    exact Nat.lt_of_lt_of_eq (htidy.within hfound) List.length_set.symm

/-- Another text for a source changes nothing that is told about other paths. -/
theorem Tidy.told_putSource (htidy : world.Tidy) (files : File.Tree) {source : Source}
    (hslot : world.slot? path = some (.source source.id)) (hother : other ≠ path) :
    (world.putSource source).told files other = world.told files other := by
  have hload : (world.putSource source).load files other = world.load files other :=
    load_eq_of_root rfl files other
  rw [told, told, hload, show (world.putSource source).slot? other = world.slot? other from rfl]
  cases hfound : world.slot? other with
  | none => rfl
  | some slot =>
    cases slot with
    | source id =>
      have hid : source.id ≠ id := fun hsame => hother (htidy.distinct hfound (hsame ▸ hslot))
      have hplace : (world.putSource source).sources[id]? = world.sources[id]? :=
        List.getElem?_set_ne hid
      dsimp only
      rw [hplace]
    | _ => rfl

theorem Tidy.hasSet_replace (htidy : world.Tidy) {id : Nat} {source : Source}
    (hslot : world.slot? path = some (.source id)) (hsource : world.sources[id]? = some source)
    (text : String) :
    HasSet world path text id
      { world.putSource (source.replace text) with mainId := some id } := by
  obtain rfl := htidy.numbered id source hsource
  have hplace : (world.putSource (source.replace text)).sources[source.id]? =
      some (source.replace text) :=
    List.getElem?_set_self (htidy.within hslot)
  have hself : (world.putSource (source.replace text)).slot? path = some (.source source.id) :=
    hslot
  have hput : (world.putSource (source.replace text)).Tidy := htidy.putSource rfl
  exact ⟨rfl, rfl, ⟨hput.numbered, hput.faithful, hput.within, hput.distinct⟩, hslot,
    fun files => told_of_source hself hplace,
    fun hother => ⟨rfl, fun files => htidy.told_putSource files hslot hother⟩⟩

/-- Setting a text leaves what is told about other paths as it is. -/
theorem Tidy.hasSet (htidy : world.Tidy) (path : File.Path) (text : String) :
    HasSet world (world.normalize path) text (world.set path text).1 (world.set path text).2 := by
  rw [set]
  dsimp only
  split
  · rename_i id hslot
    split
    · rename_i source hsource
      exact htidy.hasSet_replace hslot hsource text
    · exact htidy.hasSet_insert path text
  · exact htidy.hasSet_insert path text

/-! ## Reachable worlds -/

/-- What holds of a world, whatever else an evaluation does. -/
def holding (source : Nat) (holds : World → Prop) : Promise source where
  keeps world _ := holds world
  spans _ := True
  fails _ := True
  keeps_report hkeeps _ _ := hkeeps
  fails_of_document _ := trivial

/-- What requests preserve is preserved by evaluation. -/
theorem holds_evaluate {holds : World → Prop} {files : File.Tree}
    (hfaithful : ∀ world, holds world → Faithful world.sources)
    (hresolve : ∀ world path, holds world → holds (world.resolve files path).2)
    (depth : Nat) (route : List Nat) {source : Source} {outside : Surroundings} {text : String}
    (htext : source.root.erase = (parse text).erase) (houtside : holds outside.world) :
    holds (evaluate files depth route source outside).2.world := by
  suffices hadmits : (holding source.id holds).Admits (evaluate files depth route source outside) by
    obtain ⟨_, hafter⟩ := hadmits.exists_keeps
    exact hafter
  induction depth generalizing route source outside text with
  | zero => exact ⟨trivial, [], houtside⟩
  | succ depth ih =>
    rw [evaluate]
    have hload : LoadsAlike (holding source.id holds)
        (loadDocument files (route ++ [source.id]) (evaluate files depth (route ++ [source.id])))
        (loadDocument files (route ++ [source.id])
          (evaluate files depth (route ++ [source.id]))) := by
      intro span path hspan
      refine runs_loadDocument hspan path (fun world _ path hworld => hresolve world path hworld) ?_
      intro world diagnostics id asked printed computations hworld _ hasked
      have hmem := List.mem_of_getElem? (World.source_eq_ok_iff.1 hasked)
      have hadmits : (holding asked.id holds).Admits
          (evaluate files depth (route ++ [source.id]) asked ⟨world, printed, computations⟩) :=
        ih _ (hfaithful world hworld asked hmem) hworld
      exact ⟨rfl, hadmits.absorbs (fun _ _ hafter => ⟨hafter, hafter⟩) fun _ hfails => hfails⟩
    exact (evaluateOn_alike htext hload (fun _ _ => trivial) houtside houtside).2

theorem Reached.tidy {fine : Source → Prop} (hworld : world.Reached fine) : world.Tidy := by
  induction hworld with
  | new root => exact ⟨by simp [Numbered], by simp [Faithful], nofun, nofun⟩
  | @step world next _ hstep _ htidy =>
    cases hstep with
    | set _ path text => exact (htidy.hasSet path text).tidy
    | resolve _ files path => exact (htidy.resolved files path).tidy
    | @edit _ _ edited id start stop replacement hedit =>
      obtain ⟨source, hsource, hedited, rfl⟩ := exists_of_edit hedit
      have hchange : (Change.edit start stop replacement).apply source = .ok edited := hedited
      exact htidy.putSource (Change.erase_root_apply (htidy.faithful source hsource) hchange)
    | replace hsource text => exact htidy.putSource rfl
    | @evaluate outside source files depth route hsource =>
      exact holds_evaluate (fun _ htidy => htidy.faithful)
        (fun _ path htidy => (htidy.resolved files path).tidy) depth route
        (htidy.faithful source hsource) htidy

end World

end Galley.Compile
