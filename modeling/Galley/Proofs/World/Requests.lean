import Galley.Proofs.Evaluation.Located
import Galley.Proofs.World.Aged

/-!
# Requests to worlds

A world is served one request after another, and it may be cloned in between.
Whatever is asked for, the slot of a path stays as it is until a text is set for
this very path, and every world that comes about is a reachable one.
-/

namespace Galley.Compile

open Syntax

namespace World

/-- One thing that is asked of a world. -/
inductive Request
  | set (path : File.Path) (text : String)
  | resolve (files : File.Tree) (path : File.Path)
  | compile (files : File.Tree)
  | edit (id start stop : Int) (replacement : String)
  | replace (id : Int) (text : String)

/-- The world behind a request. What is refused changes nothing. -/
def serve (world : World) : Request → World
  | .set path text => (world.set path text).2
  | .resolve files path => (world.resolve files path).2
  | .compile files => (Compile.compile files { world }).2.world
  | .edit id start stop replacement =>
    match world.edit id start stop replacement with
    | .ok (_, next) => next
    | .error _ => world
  | .replace id text =>
    match world.source id with
    | .ok source => world.putSource (source.replace text)
    | .error _ => world

def serveAll (world : World) (requests : List Request) : World :=
  requests.foldl serve world

/-- The request sets no text for a normalized path. -/
def Request.Spares (world : World) (path : File.Path) : Request → Prop
  | .set asked _ => world.normalize asked ≠ path
  | _ => True

variable {world : World}

/-! ## Single requests -/

/-- A compilation evaluates one of the sources, if there is a main source. -/
theorem compile_cases (world : World) (files : File.Tree) :
    (Compile.compile files { world }).2.world = world ∨
      ∃ source ∈ world.sources, (Compile.compile files { world }).2.world =
        (evaluateSource files source { world }).2.world := by
  rw [compile]
  dsimp only
  cases hmain : world.main with
  | error failure => exact .inl rfl
  | ok source =>
    refine .inr ⟨source, main_mem_sources hmain, ?_⟩
    dsimp only
    cases (evaluateSource files source { world }).1 <;> rfl

/-- A request does nothing, or it is a step of the world. -/
theorem serve_cases (world : World) (request : Request) :
    world.serve request = world ∨ Step world (world.serve request) := by
  cases request with
  | set path text => exact .inr (.set world path text)
  | resolve files path => exact .inr (.resolve world files path)
  | compile files =>
    rw [serve]
    obtain hsame | ⟨source, hsource, hafter⟩ := world.compile_cases files
    · exact .inl hsame
    · rw [hafter]
      have hstep : Step ({ world } : Surroundings).world
        (evaluateSource files source { world }).2.world := .evaluate files _ [] hsource
      exact .inr hstep
  | edit id start stop replacement =>
    rw [serve]
    split
    · rename_i hedit
      exact .inr (.edit hedit)
    · exact .inl rfl
  | replace id text =>
    rw [serve]
    split
    · rename_i hsource
      exact .inr (.replace (mem_of_source hsource) text)
    · exact .inl rfl

/-- What requests for documents preserve is preserved by a compilation. -/
theorem holds_compile {holds : World → Prop} {files : File.Tree}
    (hfaithful : ∀ world, holds world → Faithful world.sources)
    (hresolve : ∀ world path, holds world → holds (world.resolve files path).2)
    (hworld : holds world) : holds (Compile.compile files { world }).2.world := by
  obtain hsame | ⟨source, hsource, hafter⟩ := world.compile_cases files
  · rwa [hsame]
  · rw [hafter]
    exact holds_evaluate hfaithful hresolve _ [] (hfaithful world hworld source hsource) hworld

/-- A compilation adds slots and sources and changes nothing else. -/
theorem Tidy.extends_compile (htidy : world.Tidy) (files : File.Tree) :
    (Compile.compile files { world }).2.world.Tidy ∧
      Extends world (Compile.compile files { world }).2.world := by
  let kept (after : World) : Prop := after.Tidy ∧ Extends world after
  have hresolve : ∀ after path, kept after → kept (after.resolve files path).2 :=
    fun after path ⟨htidy, hextends⟩ =>
      ⟨(htidy.resolved files path).tidy, hextends.trans (.resolve after files path)⟩
  have hkept : kept world := ⟨htidy, .refl world⟩
  exact holds_compile (fun _ hafter => hafter.1.faithful) hresolve hkept

/-- What a request leaves as it is: the root, and every slot of a path that it spares. -/
structure Spared (request : Request) (world after : World) : Prop where
  tidy : after.Tidy
  root : after.root = world.root
  slot : ∀ {path : File.Path} {slot : Slot}, request.Spares world path →
    world.slot? path = some slot → after.slot? path = some slot

theorem Tidy.spared (htidy : world.Tidy) (request : Request) :
    Spared request world (world.serve request) := by
  cases request with
  | set asked text =>
    have hset := htidy.hasSet asked text
    refine ⟨hset.tidy, hset.root, fun hspares hslot => ?_⟩
    rw [serve, (hset.others (Ne.symm hspares)).1, hslot]
  | resolve files path =>
    have hresolved := htidy.resolved files path
    exact ⟨hresolved.tidy, hresolved.kept.root, fun _ hslot => hresolved.kept.slot hslot⟩
  | compile files =>
    obtain ⟨hafter, hextends⟩ := htidy.extends_compile files
    exact ⟨hafter, hextends.root, fun _ hslot => hextends.kept.slot hslot⟩
  | edit id start stop replacement =>
    rw [serve]
    split
    · rename_i hedit
      obtain ⟨source, hsource, hedited, rfl⟩ := exists_of_edit hedit
      have hchange : (Change.edit start stop replacement).apply source = .ok _ := hedited
      exact ⟨htidy.putSource (Change.erase_root_apply (htidy.faithful source hsource) hchange),
        rfl, fun _ hslot => hslot⟩
    · exact ⟨htidy, rfl, fun _ hslot => hslot⟩
  | replace id text =>
    rw [serve]
    split
    · exact ⟨htidy.putSource rfl, rfl, fun _ hslot => hslot⟩
    · exact ⟨htidy, rfl, fun _ hslot => hslot⟩

/-! ## Requests one after another -/

theorem root_serveAll (htidy : world.Tidy) (requests : List Request) :
    (world.serveAll requests).Tidy ∧ (world.serveAll requests).root = world.root := by
  induction requests generalizing world with
  | nil => exact ⟨htidy, rfl⟩
  | cons request requests ih =>
    have hspared := htidy.spared request
    obtain ⟨hafter, hroot⟩ := ih hspared.tidy
    exact ⟨hafter, hroot.trans hspared.root⟩

/-- A slot outlives all requests that spare its path. -/
theorem slot?_serveAll (htidy : world.Tidy) {requests : List Request} {path : File.Path}
    {slot : Slot} (hspares : ∀ request ∈ requests, request.Spares world path)
    (hslot : world.slot? path = some slot) :
    (world.serveAll requests).slot? path = some slot := by
  induction requests generalizing world with
  | nil => exact hslot
  | cons request requests ih =>
    obtain ⟨hfirst, hrest⟩ := List.forall_mem_cons.1 hspares
    have hspared := htidy.spared request
    refine ih hspared.tidy (fun other hother => ?_) (hspared.slot hfirst hslot)
    have hother := hrest other hother
    cases other with
    | set asked text =>
      rw [Request.Spares, normalize_eq_of_root hspared.root]
      exact hother
    | _ => trivial

/-- The request asks for documents and changes no text. -/
def Request.Reads : Request → Prop
  | .resolve .. | .compile .. => True
  | .set .. | .edit .. | .replace .. => False

/-- Such requests add slots and sources and change nothing else. -/
theorem Tidy.extends_serveAll (htidy : world.Tidy) {requests : List Request}
    (hreads : ∀ request ∈ requests, request.Reads) : Extends world (world.serveAll requests) := by
  induction requests generalizing world with
  | nil => exact .refl world
  | cons request requests ih =>
    obtain ⟨hfirst, hrest⟩ := List.forall_mem_cons.1 hreads
    refine Extends.trans ?_ (ih (htidy.spared request).tidy hrest)
    cases request with
    | resolve files path => exact .resolve world files path
    | compile files => exact (htidy.extends_compile files).2
    | set => exact hfirst.elim
    | edit => exact hfirst.elim
    | replace => exact hfirst.elim

theorem Reached.serve (hworld : world.Reached fun _ => True) (request : Request) :
    (world.serve request).Reached fun _ => True := by
  obtain hsame | hstep := world.serve_cases request
  · rwa [hsame]
  · exact hworld.step hstep fun _ _ => trivial

/-! ## Several worlds -/

/-- One thing that is done with several worlds: one of them is served, or cloned. -/
inductive Errand
  | serve (place : Nat) (request : Request)
  | clone (place : Nat)

/-- The worlds behind an errand. A clone comes behind all others. -/
def Errand.run (worlds : List World) : Errand → List World
  | serve place request => worlds.modify place (World.serve · request)
  | clone place => worlds ++ worlds[place]?.toList

def Errand.runAll (worlds : List World) (errands : List Errand) : List World :=
  errands.foldl run worlds

theorem mem_modify {worlds : List World} {change : World → World} {place : Nat}
    (hworld : world ∈ worlds.modify place change) :
    world ∈ worlds ∨ ∃ before ∈ worlds, world = change before := by
  obtain ⟨index, hindex⟩ := List.mem_iff_getElem?.1 hworld
  rw [List.getElem?_modify] at hindex
  obtain ⟨before, hbefore, rfl⟩ := Option.map_eq_some_iff.1 hindex
  have hmem := List.mem_of_getElem? hbefore
  split
  · exact .inr ⟨before, hmem, rfl⟩
  · exact .inl hmem

/-- An errand leaves reachable worlds only. -/
theorem reached_run {worlds : List World} (hworlds : ∀ world ∈ worlds, world.Reached fun _ => True)
    (errand : Errand) : ∀ world ∈ errand.run worlds, world.Reached fun _ => True := by
  intro world hworld
  cases errand with
  | serve place request =>
    obtain hold | ⟨before, hbefore, rfl⟩ := mem_modify hworld
    · exact hworlds world hold
    · exact (hworlds before hbefore).serve request
  | clone place =>
    obtain hold | hclone := List.mem_append.1 hworld
    · exact hworlds world hold
    · exact hworlds world (List.mem_of_getElem? (Option.mem_toList.1 hclone))

/-- So do errands one after another. -/
theorem reached_runAll {worlds : List World}
    (hworlds : ∀ world ∈ worlds, world.Reached fun _ => True) (errands : List Errand) :
    ∀ world ∈ Errand.runAll worlds errands, world.Reached fun _ => True := by
  induction errands generalizing worlds with
  | nil => exact hworlds
  | cons errand errands ih => exact ih (reached_run hworlds errand)

end World

end Galley.Compile
