import Galley.Proofs.World.Bookkeeping
import Galley.Proofs.World.Memory

/-!
# Worlds as objects

A world is an object with a table of slots and a list of sources, and its slots and its sources are
objects themselves, which change in their cells.  Two worlds that share a slot or a source would see
each other's changes.  Worlds that share none behave as the values that they show, and a clone shares
none, because every slot and every source of it is a copy.
-/

namespace Galley.Compile

open Syntax

/-- What a world knows of its slots and sources is where they lie. -/
structure Body where
  root : File.Path
  slots : List (File.Path × Nat)
  sources : List Nat
  mainId : Option Nat

/-- Where slots lie. -/
def Body.slotRefs (body : Body) : List Nat :=
  body.slots.map Prod.snd

/-- All objects. -/
structure Store where
  bodies : Memory Body
  slots : Memory Slot
  sources : Memory Source

theorem map_zip {α β γ : Type} (view : β → γ) (keys : List α) (values : List β) :
    (keys.zip values).map (fun entry => (entry.1, view entry.2)) = keys.zip (values.map view) :=
  List.zip_map_right.symm

theorem map_getD_range {α : Type} (items : List α) (default : α) :
    (List.range items.length).map (fun place => items.getD place default) = items := by
  refine List.ext_getElem (by simp) fun place hplace hitem => ?_
  simp [hitem]

theorem itemAt?_map {α β : Type} (view : α → β) (items : List α) (index : Int) :
    itemAt? (items.map view) index = (itemAt? items index).map view := by
  simp only [itemAt?, List.length_map, List.getElem?_map]
  split
  · split <;> rfl
  · rfl

namespace World

variable {world : World}

/-- The world in which a path has a slot. -/
def withSlot (world : World) (key : File.Path) : World :=
  if (world.slot? key).isSome then world else world.setSlot key .pending

theorem nodup_keys_withSlot (hkeys : (world.slots.map Prod.fst).Nodup) (key : File.Path) :
    ((world.withSlot key).slots.map Prod.fst).Nodup := by
  rw [withSlot]
  split
  · exact hkeys
  · exact nodup_keys_setSlot hkeys key .pending

theorem slot?_withSlot (key : File.Path) :
    (world.withSlot key).slot? key = some ((world.slot? key).getD .pending) := by
  rw [withSlot]
  split
  · rename_i hsome
    obtain ⟨slot, hslot⟩ := Option.isSome_iff_exists.1 hsome
    rw [hslot, Option.getD_some]
  · rename_i hnone
    rw [slot?_setSlot_self, Option.not_isSome_iff_eq_none.1 hnone, Option.getD_none]

/-- Whatever is stored in the slot replaces what was there. -/
theorem setSlot_withSlot (key : File.Path) (slot : Slot) :
    (world.withSlot key).setSlot key slot = world.setSlot key slot := by
  rw [withSlot]
  split
  · rfl
  · rename_i hnone
    have hothers : ∀ entry ∈ world.slots, ¬ (entry.1 == key) = true := by
      rw [Option.not_isSome_iff_eq_none, World.slot?, Option.map_eq_none_iff,
        List.find?_eq_none] at hnone
      exact hnone
    have hsame : (world.slots.map fun entry => if entry.1 == key then (key, slot) else entry) =
        world.slots :=
      (List.map_congr_left fun entry hentry => if_neg (hothers entry hentry)).trans (List.map_id' _)
    rw [setSlot, slot?_setSlot_self, Option.isSome_some, if_pos rfl, setSlot, setSlot, if_neg hnone,
      if_neg hnone, List.map_append, hsame, List.map_singleton, if_pos BEq.rfl]

theorem sources_withSlot (key : File.Path) : (world.withSlot key).sources = world.sources := by
  rw [withSlot]
  split
  · rfl
  · exact sources_setSlot world key .pending

theorem insert_withSlot (key path : File.Path) (text : String) :
    ((world.withSlot key).insert path text).2 = (world.insert path text).2.withSlot key := by
  have hslot : (world.insert path text).2.slot? key = world.slot? key := rfl
  rw [withSlot, withSlot, hslot]
  split
  · rfl
  · rename_i hnone
    rw [setSlot, if_neg hnone, setSlot, hslot, if_neg hnone]
    rfl

end World

namespace Store

/-- What is seen of the world with a number. -/
def world (store : Store) (ref : Nat) : World where
  root := (store.bodies.cell ref).root
  sources := (store.bodies.cell ref).sources.map store.sources.cell
  slots := (store.bodies.cell ref).slots.map fun entry => (entry.1, store.slots.cell entry.2)
  mainId := (store.bodies.cell ref).mainId

/-! ## What worlds do -/

/-- Adds a slot to a world. -/
def addSlot (store : Store) (ref : Nat) (key : File.Path) (slot : Slot) : Nat × Store :=
  let body := store.bodies.cell ref
  let (place, slots) := store.slots.alloc slot
  (place, { store with
    slots
    bodies := store.bodies.write ref { body with slots := body.slots ++ [(key, place)] } })

/-- The slot of a path, which is added if there is none. -/
def slotFor (store : Store) (ref : Nat) (key : File.Path) : Nat × Store :=
  match (store.bodies.cell ref).slots.find? fun entry => entry.1 == key with
  | some entry => (entry.2, store)
  | none => store.addSlot ref key .pending

/-- Changes a slot. -/
def writeSlot (store : Store) (place : Nat) (slot : Slot) : Store :=
  { store with slots := store.slots.write place slot }

/-- Adds a source to a world. -/
def addSource (store : Store) (ref : Nat) (path : File.Path) (text : String) : Nat × Store :=
  let body := store.bodies.cell ref
  let id := body.sources.length
  let (place, sources) := store.sources.alloc (.new id path text)
  (id, { store with
    sources
    bodies := store.bodies.write ref { body with sources := body.sources ++ [place] } })

/-- Replaces the text of a source. -/
def replaceText (store : Store) (place : Nat) (text : String) : Store :=
  { store with sources := store.sources.write place ((store.sources.cell place).replace text) }

/-- Chooses the main source. -/
def chooseMain (store : Store) (ref : Nat) (id : Nat) : Store :=
  { store with
    bodies := store.bodies.write ref { store.bodies.cell ref with mainId := some id } }

/-- Makes a text the main source under a path. -/
def set (store : Store) (ref : Nat) (path : File.Path) (text : String) : Nat × Store :=
  let (place, store) := store.slotFor ref ((store.world ref).normalize path)
  let (id, store) :=
    match store.slots.cell place with
    | .source id =>
      match (store.bodies.cell ref).sources[id]? with
      | some source => (id, store.replaceText source text)
      | none => (id, store)
    | _ =>
      let (id, store) := store.addSource ref path text
      (id, store.writeSlot place (.source id))
  (id, store.chooseMain ref id)

/-- The source that is compiled. -/
def main (store : Store) (ref : Nat) : Except Failure Source :=
  match (store.bodies.cell ref).mainId with
  | none => throw .noMainSource
  | some id =>
    if id = Source.detachedId then throw .noMainSource
    else
      match itemAt? (store.bodies.cell ref).sources id with
      | some source => return store.sources.cell source
      | none => throw .indexOutOfRange

/-- Makes a world of its own that looks like another one.  Its slots and sources are copies. -/
def clone (store : Store) (ref : Nat) : Nat × Store :=
  let body := store.bodies.cell ref
  let (slotRefs, slots) := store.slots.copyAll body.slotRefs
  let (sourceRefs, sources) := store.sources.copyAll body.sources
  let (copy, bodies) := store.bodies.alloc
    { body with slots := (body.slots.map Prod.fst).zip slotRefs, sources := sourceRefs }
  (copy, { bodies, slots, sources })

/-! ## Worlds that share nothing -/

/-- Worlds share neither slots nor sources. -/
structure Sound (store : Store) : Prop where
  slots : Apart store.bodies.free store.slots.free fun ref => (store.bodies.cell ref).slotRefs
  sources : Apart store.bodies.free store.sources.free fun ref => (store.bodies.cell ref).sources

/-- One world becomes another one, and nothing else is seen to change. -/
structure Turns (store : Store) (ref : Nat) (world : World) (after : Store) : Prop where
  sound : after.Sound
  own : after.world ref = world
  others : ∀ other < store.bodies.free, other ≠ ref → after.world other = store.world other
  free : after.bodies.free = store.bodies.free

variable {store middle after : Store} {ref other : Nat} {world next : World}

theorem Turns.trans (hfirst : Turns store ref world middle) (hnext : Turns middle ref next after) :
    Turns store ref next after where
  sound := hnext.sound
  own := hnext.own
  others other hother hne :=
    (hnext.others other (hfirst.free ▸ hother) hne).trans (hfirst.others other hother hne)
  free := hnext.free.trans hfirst.free

theorem world_congr (hbody : after.bodies.cell ref = store.bodies.cell ref)
    (hslots : ∀ place ∈ (store.bodies.cell ref).slotRefs,
      after.slots.cell place = store.slots.cell place)
    (hsources : ∀ place ∈ (store.bodies.cell ref).sources,
      after.sources.cell place = store.sources.cell place) :
    after.world ref = store.world ref := by
  rw [Store.world, Store.world, hbody, List.map_congr_left hsources]
  congr 1
  exact List.map_congr_left fun entry hentry =>
    congrArg (entry.1, ·) (hslots entry.2 (List.mem_map_of_mem hentry))

/-! ## Steps -/

section Steps

variable (hsound : store.Sound) (href : ref < store.bodies.free)

include hsound href

theorem turns_addSlot (key : File.Path) (slot : Slot) :
    Turns store ref { store.world ref with slots := (store.world ref).slots ++ [(key, slot)] }
      (store.addSlot ref key slot).2 where
  sound := by
    refine ⟨hsound.slots.extend href (fun other _ hne => ?_) ?_,
      hsound.sources.congr (Memory.view_write Body.sources rfl)⟩
    · exact congrArg Body.slotRefs (Memory.write_of_ne _ hne)
    · simp only [addSlot, Memory.write_self, Body.slotRefs, List.map_append]
      rfl
  own := by
    have hold : ∀ entry ∈ (store.bodies.cell ref).slots,
        (store.slots.alloc slot).2.cell entry.2 = store.slots.cell entry.2 := fun entry hentry =>
      Memory.alloc_of_lt _ (hsound.slots.lt ref href _ (List.mem_map_of_mem hentry))
    have hslots : ((store.bodies.cell ref).slots ++ [(key, store.slots.free)]).map
        (fun entry => (entry.1, (store.slots.alloc slot).2.cell entry.2)) =
          (store.world ref).slots ++ [(key, slot)] := by
      rw [List.map_append]
      refine congrArg₂ (· ++ ·) (List.map_congr_left fun entry hentry => ?_) ?_
      · exact congrArg (entry.1, ·) (hold entry hentry)
      · exact congrArg (fun found => [(key, found)]) (Function.update_self ..)
    rw [Store.world, addSlot]
    dsimp only
    rw [Memory.write_self]
    exact congrArg (fun slots => { store.world ref with slots }) hslots
  others other hother hne := by
    refine world_congr (Memory.write_of_ne _ hne) (fun place hplace => ?_) fun _ _ => rfl
    exact Memory.alloc_of_lt _ (hsound.slots.lt other hother place hplace)
  free := rfl

/-- What is written to a slot of a world shows under its path. -/
theorem turns_writeSlot (hkeys : ((store.world ref).slots.map Prod.fst).Nodup) {key : File.Path}
    {place : Nat} (hentry : (key, place) ∈ (store.bodies.cell ref).slots) (slot : Slot) :
    Turns store ref
      { store.world ref with
        slots := (store.world ref).slots.map fun entry =>
          if entry.1 == key then (key, slot) else entry }
      (store.writeSlot place slot) where
  sound := ⟨hsound.slots, hsound.sources⟩
  own := by
    have hplaces : ∀ entry ∈ (store.bodies.cell ref).slots, entry.1 = key ↔ entry.2 = place := by
      rw [Store.world, List.map_map] at hkeys
      refine fun entry hother => ⟨fun hsame => ?_, fun hsame => ?_⟩
      · exact congrArg Prod.snd (List.inj_on_of_nodup_map hkeys hother hentry hsame)
      · exact congrArg Prod.fst
          (List.inj_on_of_nodup_map (hsound.slots.nodup ref href) hother hentry hsame)
    have hslots : (store.bodies.cell ref).slots.map
        (fun entry => (entry.1, (store.slots.write place slot).cell entry.2)) =
          (store.world ref).slots.map fun entry =>
            if entry.1 == key then (key, slot) else entry := by
      rw [Store.world, List.map_map]
      refine List.map_congr_left fun entry hentry => ?_
      by_cases hsame : entry.1 = key
      · simp [hsame, (hplaces entry hentry).1 hsame]
      · have hne : entry.2 ≠ place := fun hplace => hsame ((hplaces entry hentry).2 hplace)
        simp [hsame, Memory.write_of_ne _ hne]
    exact congrArg (fun slots => { store.world ref with slots }) hslots
  others other hother hne := by
    refine world_congr rfl (fun found hfound => ?_) fun _ _ => rfl
    refine Memory.write_of_ne _ ?_
    rintro rfl
    exact hsound.slots.disjoint other hother ref href hne hfound (List.mem_map_of_mem hentry)
  free := rfl

theorem turns_addSource (path : File.Path) (text : String) :
    Turns store ref ((store.world ref).insert path text).2 (store.addSource ref path text).2 where
  sound := by
    refine ⟨hsound.slots.congr (Memory.view_write Body.slotRefs rfl), hsound.sources.extend href
      (fun other _ hne => ?_) ?_⟩
    · exact congrArg Body.sources (Memory.write_of_ne _ hne)
    · simp only [addSource, Memory.write_self]
      rfl
  own := by
    have hold : ∀ place ∈ (store.bodies.cell ref).sources,
        (store.sources.alloc (.new (store.bodies.cell ref).sources.length path text)).2.cell place =
          store.sources.cell place := fun place hplace =>
      Memory.alloc_of_lt _ (hsound.sources.lt ref href place hplace)
    have hsources : ((store.bodies.cell ref).sources ++ [store.sources.free]).map
        (store.sources.alloc (.new (store.bodies.cell ref).sources.length path text)).2.cell =
          ((store.world ref).insert path text).2.sources := by
      rw [List.map_append, List.map_congr_left hold, World.insert, Store.world]
      dsimp only
      rw [List.length_map]
      exact congrArg (_ ++ [·]) (Function.update_self ..)
    rw [Store.world, addSource]
    dsimp only
    rw [Memory.write_self]
    exact congrArg (fun sources => { store.world ref with sources }) hsources
  others other hother hne := by
    refine world_congr (Memory.write_of_ne _ hne) (fun _ _ => rfl) fun place hplace => ?_
    exact Memory.alloc_of_lt _ (hsound.sources.lt other hother place hplace)
  free := rfl

theorem turns_replaceText {id place : Nat}
    (hplace : (store.bodies.cell ref).sources[id]? = some place) (text : String) :
    Turns store ref
      { store.world ref with
        sources := (store.world ref).sources.set id ((store.sources.cell place).replace text) }
      (store.replaceText place text) where
  sound := ⟨hsound.slots, hsound.sources⟩
  own := congrArg (fun sources => { store.world ref with sources })
    (Memory.map_write (hsound.sources.nodup ref href) hplace _)
  others other hother hne := by
    refine world_congr rfl (fun _ _ => rfl) fun found hfound => Memory.write_of_ne _ ?_
    rintro rfl
    exact hsound.sources.disjoint other hother ref href hne hfound (List.mem_of_getElem? hplace)
  free := rfl

omit href in
theorem turns_chooseMain (id : Nat) :
    Turns store ref { store.world ref with mainId := some id } (store.chooseMain ref id) where
  sound := ⟨hsound.slots.congr (Memory.view_write Body.slotRefs rfl),
    hsound.sources.congr (Memory.view_write Body.sources rfl)⟩
  own := by
    rw [Store.world, chooseMain]
    dsimp only
    rw [Memory.write_self]
    rfl
  others other hother hne :=
    world_congr (Memory.write_of_ne _ hne) (fun _ _ => rfl) fun _ _ => rfl
  free := rfl

end Steps

/-! ## Texts that are set -/

/-- The slot that is found or added belongs to the path. -/
theorem turns_slotFor (hsound : store.Sound) (href : ref < store.bodies.free) (key : File.Path) :
    Turns store ref ((store.world ref).withSlot key) (store.slotFor ref key).2 ∧
      (key, (store.slotFor ref key).1) ∈
        ((store.slotFor ref key).2.bodies.cell ref).slots := by
  have hslot : (store.world ref).slot? key =
      ((store.bodies.cell ref).slots.find? fun entry => entry.1 == key).map
        fun entry => store.slots.cell entry.2 := by
    rw [World.slot?, Store.world, List.find?_map, Option.map_map]
    rfl
  rw [slotFor, World.withSlot, hslot, Option.isSome_map]
  cases hfound : (store.bodies.cell ref).slots.find? fun entry => entry.1 == key with
  | some entry =>
    have hkey : entry.1 = key := by simpa using List.find?_some hfound
    refine ⟨⟨hsound, rfl, fun _ _ _ => rfl, rfl⟩, ?_⟩
    rw [← hkey]
    exact List.mem_of_find?_eq_some hfound
  | none =>
    have hnone : (store.world ref).slot? key = none := by rw [hslot, hfound, Option.map_none]
    refine ⟨?_, ?_⟩
    · rw [World.setSlot, hnone]
      exact turns_addSlot hsound href key .pending
    · simp [addSlot, Memory.alloc]

/-- The slot that is found or added holds what the world has under the path. -/
theorem cell_slotFor (hsound : store.Sound) (href : ref < store.bodies.free)
    (hkeys : ((store.world ref).slots.map Prod.fst).Nodup) (key : File.Path) :
    (store.slotFor ref key).2.slots.cell (store.slotFor ref key).1 =
      ((store.world ref).slot? key).getD .pending := by
  obtain ⟨hslotted, hentry⟩ := turns_slotFor hsound href key
  generalize store.slotFor ref key = answer at hslotted hentry ⊢
  obtain ⟨place, middle⟩ := answer
  dsimp only at hslotted hentry ⊢
  have hnodup : ((middle.world ref).slots.map Prod.fst).Nodup :=
    hslotted.own ▸ World.nodup_keys_withSlot hkeys key
  have hfound : (middle.world ref).slot? key = some (middle.slots.cell place) :=
    World.slot?_of_mem hnodup
      (List.mem_map_of_mem (f := fun entry => (entry.1, middle.slots.cell entry.2)) hentry)
  rw [hslotted.own, World.slot?_withSlot] at hfound
  exact (Option.some.inj hfound).symm

/-- The text of a source is replaced in place, and the source becomes the main one. -/
theorem turns_putText (hsound : store.Sound) (href : ref < store.bodies.free) {id place : Nat}
    (hplace : (store.bodies.cell ref).sources[id]? = some place) (text : String) :
    Turns store ref
      { store.world ref with
        sources := (store.world ref).sources.set id ((store.sources.cell place).replace text)
        mainId := some id }
      ((store.replaceText place text).chooseMain ref id) := by
  have hreplaced := turns_replaceText hsound href hplace text
  have hchosen : Turns _ ref _ _ := turns_chooseMain hreplaced.sound id
  rw [hreplaced.own] at hchosen
  exact hreplaced.trans hchosen

/-- A text becomes a source of its own, which its slot names, and the main one. -/
theorem turns_addText (hsound : store.Sound) (href : ref < store.bodies.free)
    (hkeys : ((store.world ref).slots.map Prod.fst).Nodup) {key : File.Path} {place : Nat}
    (hentry : (key, place) ∈ (store.bodies.cell ref).slots) (path : File.Path) (text : String)
    (id : Nat) :
    Turns store ref
      { ((store.world ref).insert path text).2.setSlot key (.source id) with mainId := some id }
      (((store.addSource ref path text).2.writeSlot place (.source id)).chooseMain ref id) := by
  have hslot : ((store.world ref).slot? key).isSome = true := by
    rw [World.slot?_of_mem hkeys
      (List.mem_map_of_mem (f := fun entry => (entry.1, store.slots.cell entry.2)) hentry)]
    rfl
  have hadded := turns_addSource hsound href path text
  have hslots : ((store.addSource ref path text).2.bodies.cell ref).slots =
      (store.bodies.cell ref).slots :=
    (congrArg Body.slots (Memory.write_self _)).trans rfl
  have hwritten := turns_writeSlot hadded.sound (hadded.free ▸ href) (hadded.own ▸ hkeys)
    (hslots ▸ hentry) (.source id)
  have hchosen : Turns _ ref _ _ := turns_chooseMain hwritten.sound id
  rw [hwritten.own, hadded.own] at hchosen
  rw [World.setSlot, if_pos (show (((store.world ref).insert path text).2.slot? key).isSome = true
    from hslot)]
  exact hadded.trans (hwritten.trans hchosen)

/-- Setting a text in one world does there what it does to a value, and nothing elsewhere. -/
theorem turns_set (hsound : store.Sound) (href : ref < store.bodies.free)
    (hbooked : (store.world ref).Booked) (path : File.Path) (text : String) :
    (store.set ref path text).1 = ((store.world ref).set path text).1 ∧
      Turns store ref ((store.world ref).set path text).2 (store.set ref path text).2 := by
  obtain ⟨hslotted, hentry⟩ := turns_slotFor hsound href ((store.world ref).normalize path)
  have hcell := cell_slotFor hsound href hbooked.keys ((store.world ref).normalize path)
  have hcases := hbooked.tidy.set_cases path text
  rw [set]
  generalize (store.world ref).normalize path = key at *
  generalize store.slotFor ref key = answer at hslotted hentry hcell ⊢
  obtain ⟨place, middle⟩ := answer
  dsimp only at hslotted hentry hcell ⊢
  have href' : ref < middle.bodies.free := hslotted.free ▸ href
  obtain ⟨source, hsource, hslot, hset⟩ | ⟨hslot, hset⟩ := hcases
  · have hsame : middle.world ref = store.world ref := by
      rw [hslotted.own, World.withSlot, hslot, Option.isSome_some, if_pos rfl]
    rw [← hsame, Store.world, List.getElem?_map] at hsource
    obtain ⟨found, hfound, hlies⟩ := Option.map_eq_some_iff.1 hsource
    have hput := turns_putText hslotted.sound href' hfound text
    rw [hsame, hlies] at hput
    rw [hslot, Option.getD_some] at hcell
    simp only [hcell, hfound, hset]
    exact ⟨trivial, hslotted.trans hput⟩
  · have hlength : (middle.bodies.cell ref).sources.length = (store.world ref).sources.length := by
      rw [← World.sources_withSlot key, ← hslotted.own, Store.world, List.length_map]
    have hid : (middle.addSource ref path text).1 = (store.world ref).sources.length := hlength
    have hkeys : ((middle.world ref).slots.map Prod.fst).Nodup :=
      hslotted.own ▸ World.nodup_keys_withSlot hbooked.keys key
    have hadded := turns_addText hslotted.sound href' hkeys hentry path text
      (store.world ref).sources.length
    rw [hslotted.own, World.insert_withSlot, World.setSlot_withSlot] at hadded
    rw [hset]
    cases hfound : middle.slots.cell place with
    | source id =>
      rw [hfound] at hcell
      cases hold : (store.world ref).slot? key with
      | none =>
        rw [hold] at hcell
        cases hcell
      | some slot =>
        rw [hold, Option.getD_some] at hcell
        exact absurd (hcell ▸ hold) (hslot id)
    | pending | failed error =>
      dsimp only
      rw [hid]
      exact ⟨rfl, hslotted.trans hadded⟩

theorem main_eq (store : Store) (ref : Nat) : store.main ref = (store.world ref).main := by
  rw [main, World.main]
  change (match (store.bodies.cell ref).mainId with | none => _ | some id => _) =
    (match (store.bodies.cell ref).mainId with | none => _ | some id => _)
  cases (store.bodies.cell ref).mainId with
  | none => rfl
  | some id =>
    dsimp only
    split
    · rfl
    · rw [World.source, Store.world, itemAt?_map]
      cases itemAt? (store.bodies.cell ref).sources (id : Int) <;> rfl

/-! ## Clones -/

/-- A new world looks like the one that it is a clone of, and nothing is seen to change. -/
structure Cloned (store : Store) (ref : Nat) (answer : Nat × Store) : Prop where
  fresh : answer.1 = store.bodies.free
  sound : answer.2.Sound
  same : answer.2.world answer.1 = store.world ref
  others : ∀ other < store.bodies.free, answer.2.world other = store.world other
  free : answer.2.bodies.free = store.bodies.free + 1

theorem cloned_clone (hsound : store.Sound) (href : ref < store.bodies.free) :
    Cloned store ref (store.clone ref) := by
  have hslots := Memory.copied_copyAll (hsound.slots.lt ref href)
  have hsources := Memory.copied_copyAll (hsound.sources.lt ref href)
  rw [clone]
  generalize store.slots.copyAll (store.bodies.cell ref).slotRefs = slotAnswer at hslots ⊢
  generalize store.sources.copyAll (store.bodies.cell ref).sources = sourceAnswer at hsources ⊢
  obtain ⟨slotRefs, slots⟩ := slotAnswer
  obtain ⟨sourceRefs, sources⟩ := sourceAnswer
  obtain ⟨rfl, hslotsFree, hslotsOld, hslotsSame⟩ := hslots
  obtain ⟨rfl, hsourcesFree, hsourcesOld, hsourcesSame⟩ := hsources
  dsimp only at hslotsFree hslotsOld hslotsSame hsourcesFree hsourcesOld hsourcesSame ⊢
  refine ⟨rfl, ⟨?_, ?_⟩, ?_, fun other hother => ?_, rfl⟩
  · rw [hslotsFree]
    refine hsound.slots.add (fun other hother => ?_) ?_
    · exact congrArg Body.slotRefs (Function.update_of_ne (Nat.ne_of_lt hother) ..)
    · refine (congrArg Body.slotRefs (Function.update_self ..)).trans ?_
      exact List.map_snd_zip (by simp [Body.slotRefs])
  · rw [hsourcesFree]
    refine hsound.sources.add (fun other hother => ?_) ?_
    · exact congrArg Body.sources (Function.update_of_ne (Nat.ne_of_lt hother) ..)
    · exact (congrArg Body.sources (Function.update_self ..)).trans rfl
  · have hentries : (((store.bodies.cell ref).slots.map Prod.fst).zip
        (List.range' store.slots.free (store.bodies.cell ref).slotRefs.length)).map
          (fun entry => (entry.1, slots.cell entry.2)) = (store.world ref).slots := by
      rw [map_zip]
      rw [hslotsSame, Body.slotRefs, List.map_map, List.zip_map']
      rfl
    rw [Store.world]
    dsimp only [Memory.alloc]
    rw [Function.update_self, hentries, hsourcesSame]
    rfl
  · refine world_congr (Function.update_of_ne (Nat.ne_of_lt hother) ..) (fun place hplace => ?_)
      fun place hplace => ?_
    · exact hslotsOld place (hsound.slots.lt other hother place hplace)
    · exact hsourcesOld place (hsound.sources.lt other hother place hplace)

/-! ## One world -/

/-- A store in which there is nothing but one world. -/
def holding (world : World) : Store where
  bodies :=
    { free := 1
      cell := fun _ =>
        { root := world.root
          slots := (world.slots.map Prod.fst).zip (List.range world.slots.length)
          sources := List.range world.sources.length
          mainId := world.mainId } }
  slots :=
    { free := world.slots.length
      cell := fun place => (world.slots.map Prod.snd).getD place .pending }
  sources :=
    { free := world.sources.length
      cell := fun place => world.sources.getD place (.detached "") }

theorem world_holding (world : World) : (holding world).world 0 = world := by
  have hslots : ((world.slots.map Prod.fst).zip (List.range world.slots.length)).map
      (fun entry => (entry.1, (world.slots.map Prod.snd).getD entry.2 .pending)) = world.slots := by
    have hsnd := map_getD_range (world.slots.map Prod.snd) .pending
    rw [List.length_map] at hsnd
    refine (map_zip (fun place => (world.slots.map Prod.snd).getD place .pending) ..).trans ?_
    rw [hsnd, List.zip_map']
    exact List.map_id' _
  have hsources := map_getD_range world.sources (.detached "")
  rw [Store.world, holding]
  dsimp only
  rw [hslots, hsources]

theorem sound_holding (world : World) : (holding world).Sound := by
  have hslots : ∀ ref, ((holding world).bodies.cell ref).slotRefs =
      List.range world.slots.length := fun _ => List.map_snd_zip (by simp)
  have hone : ∀ {owner other : Nat}, owner < 1 → other < 1 → owner = other := by omega
  refine ⟨⟨fun owner _ => ?_, fun owner _ ref href => ?_, ?_⟩,
    ⟨fun _ _ => List.nodup_range, fun _ _ _ => List.mem_range.1, ?_⟩⟩
  · exact hslots owner ▸ List.nodup_range
  · exact List.mem_range.1 (hslots owner ▸ href)
  · exact fun _ howner _ hother hne => absurd (hone howner hother) hne
  · exact fun _ howner _ hother hne => absurd (hone howner hother) hne

end Store

end Galley.Compile
