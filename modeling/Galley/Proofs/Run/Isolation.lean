import Galley.Proofs.Run.Tasks
import Galley.Proofs.World.Objects
import Mathlib.Data.Finset.Card

/-!
# Workers that do not disturb each other

A pool hands out worlds as objects.  Whatever the workers do with them in whatever order, no two of
them are handed the same object, and nobody is handed the base.  As no two of these objects share
anything, the pool answers as if worlds were values.
-/

namespace Galley.Run

open Compile

/-- A pool of worlds that are objects.  A worker keeps the number of the world that it is handed, and
the pool lists it under the mark of the worker. -/
structure Lending (Worker Mark : Type) where
  base : Nat
  kept : List (Worker × Nat) := []
  listed : List (Mark × Nat) := []
  store : Store

/-- What a worker gets to see, and in which world. -/
structure Reply (Worker : Type) where
  worker : Worker
  world : Nat
  answer : Answer

/-- Lists a number under a mark, in place of what was listed there. -/
def enlist {Mark : Type} [DecidableEq Mark] (listed : List (Mark × Nat)) (mark : Mark)
    (ref : Nat) : List (Mark × Nat) :=
  if (listed.lookup mark).isSome then
    listed.map fun entry => if entry.1 = mark then (mark, ref) else entry
  else listed ++ [(mark, ref)]

namespace Lending

section Definitions

variable {Worker Mark : Type} [DecidableEq Worker] [DecidableEq Mark] (mark : Worker → Mark)

/-- Hands a worker its world, a clone of the base on the first request.  Only one worker at a time
makes a clone, so this is one step. -/
def get (lending : Lending Worker Mark) (worker : Worker) : Nat × Lending Worker Mark :=
  match lending.kept.lookup worker with
  | some ref => (ref, lending)
  | none =>
    let (ref, store) := lending.store.clone lending.base
    (ref, { lending with
      kept := lending.kept ++ [(worker, ref)]
      listed := enlist lending.listed (mark worker) ref
      store })

/-- Serves a worker. -/
def serve (lending : Lending Worker Mark) (worker : Worker) :
    Task → Reply Worker × Lending Worker Mark
  | .get =>
    let (ref, lending) := lending.get mark worker
    (⟨worker, ref, .world (lending.store.world ref)⟩, lending)
  | .set path text =>
    let (ref, lending) := lending.get mark worker
    let (id, store) := lending.store.set ref path text
    (⟨worker, ref, .id id⟩, { lending with store })
  | .main =>
    let (ref, lending) := lending.get mark worker
    (⟨worker, ref, .main (lending.store.main ref)⟩, lending)

/-- Serves workers one after the other. -/
def serveAll (lending : Lending Worker Mark) :
    List (Worker × Task) → List (Reply Worker) × Lending Worker Mark
  | [] => ([], lending)
  | (worker, task) :: turns =>
    let (reply, lending) := lending.serve mark worker task
    let (replies, lending) := lending.serveAll turns
    (reply :: replies, lending)

/-- The number of worlds handed out. -/
def size (lending : Lending Worker Mark) : Nat :=
  lending.listed.length

end Definitions

variable {Worker Mark : Type} {mark : Worker → Mark} {worker : Worker}
  {lending : Lending Worker Mark} {pool : Pool Worker}

/-- A pool of objects shows the worlds of a pool of values. -/
structure Mirrors (mark : Worker → Mark) (lending : Lending Worker Mark) (pool : Pool Worker) :
    Prop where
  sound : lending.store.Sound
  base_lt : lending.base < lending.store.bodies.free
  kept_lt : ∀ entry ∈ lending.kept, entry.2 < lending.store.bodies.free
  refs : (lending.base :: lending.kept.map Prod.snd).Nodup
  workers : (lending.kept.map Prod.fst).Nodup
  listed : lending.listed = lending.kept.map fun entry => (mark entry.1, entry.2)
  base : lending.store.world lending.base = pool.base
  worlds : pool.worlds = lending.kept.map fun entry => (entry.1, lending.store.world entry.2)
  booked : pool.base.Booked ∧ ∀ entry ∈ pool.worlds, entry.2.Booked

/-- A worker keeps the world that it is handed, and nothing else changes hands. -/
structure Keeps (lending : Lending Worker Mark) (worker : Worker) (ref : Nat)
    (after : Lending Worker Mark) : Prop where
  mem : (worker, ref) ∈ after.kept
  base : after.base = lending.base
  kept : after.kept = lending.kept ∨ after.kept = lending.kept ++ [(worker, ref)]

theorem Keeps.isPrefix {after : Lending Worker Mark} {ref : Nat}
    (hkeeps : lending.Keeps worker ref after) : lending.kept <+: after.kept := by
  obtain hsame | hmore := hkeeps.kept
  · exact hsame ▸ List.prefix_rfl
  · exact hmore ▸ List.prefix_append ..

theorem Keeps.mem_workers {after : Lending Worker Mark} {ref : Nat}
    (hkeeps : lending.Keeps worker ref after) (other : Worker) :
    other ∈ after.kept.map Prod.fst ↔ other ∈ lending.kept.map Prod.fst ∨ other = worker := by
  obtain hsame | hmore := hkeeps.kept
  · have hold : worker ∈ lending.kept.map Prod.fst :=
      hsame ▸ List.mem_map_of_mem (f := Prod.fst) hkeeps.mem
    rw [hsame]
    exact ⟨.inl, fun hother => hother.elim id fun hworker => hworker ▸ hold⟩
  · simp [hmore]

/-! ## Lookups -/

theorem lookup_map_snd {Key : Type} [DecidableEq Key] {α β : Type} (view : α → β) (key : Key)
    (entries : List (Key × α)) :
    (entries.map fun entry => (entry.1, view entry.2)).lookup key =
      (entries.lookup key).map view := by
  induction entries with
  | nil => rfl
  | cons entry entries ih =>
    rw [List.map_cons, List.lookup_cons, List.lookup_cons, ih]
    split <;> rfl

theorem not_mem_of_lookup_eq_none {Key α : Type} [DecidableEq Key] {key : Key}
    {entries : List (Key × α)} (hlookup : entries.lookup key = none) :
    key ∉ entries.map Prod.fst := fun hmem => by
  obtain ⟨entry, hentry, rfl⟩ := List.mem_map.1 hmem
  exact absurd (List.lookup_eq_none_iff.1 hlookup entry hentry) (by simp)

/-- A pool over a world before anybody has asked for one. -/
def opened (Worker Mark : Type) (base : World) : Lending Worker Mark where
  base := 0
  store := .holding base

theorem mirrors_opened (mark : Worker → Mark) {base : World} (hbooked : base.Booked) :
    Mirrors mark (opened Worker Mark base) { base } where
  sound := Store.sound_holding base
  base_lt := Nat.one_pos
  kept_lt := nofun
  refs := List.nodup_singleton _
  workers := .nil
  listed := rfl
  base := Store.world_holding base
  worlds := rfl
  booked := ⟨hbooked, nofun⟩

/-! ## Turns -/

theorem Mirrors.world? [DecidableEq Worker] (hmirrors : Mirrors mark lending pool)
    (worker : Worker) :
    pool.world? worker = (lending.kept.lookup worker).map lending.store.world := by
  rw [Pool.world?, hmirrors.worlds, lookup_map_snd]

/-- A clone that nobody has yet is as good as the value of the base. -/
theorem Mirrors.lend [DecidableEq Mark] (hmark : Function.Injective mark)
    (hmirrors : Mirrors mark lending pool) (hnew : worker ∉ lending.kept.map Prod.fst)
    {ref : Nat} {store : Store}
    (hcloned : lending.store.Cloned lending.base (ref, store)) :
    Mirrors mark
      { lending with
        kept := lending.kept ++ [(worker, ref)]
        listed := enlist lending.listed (mark worker) ref
        store }
      { pool with worlds := pool.worlds ++ [(worker, pool.base)] } where
  sound := hcloned.sound
  base_lt := Nat.lt_of_lt_of_eq (Nat.lt_succ_of_lt hmirrors.base_lt) hcloned.free.symm
  kept_lt := by
    have hfree : store.bodies.free = lending.store.bodies.free + 1 := hcloned.free
    have hfresh : ref = lending.store.bodies.free := hcloned.fresh
    refine List.forall_mem_append.2 ⟨fun entry hentry => ?_, List.forall_mem_singleton.2 ?_⟩
    · exact hfree ▸ Nat.lt_succ_of_lt (hmirrors.kept_lt entry hentry)
    · exact hfree ▸ hfresh ▸ Nat.lt_succ_self _
  refs := by
    have hfresh : ref = lending.store.bodies.free := hcloned.fresh
    have hold : ∀ other ∈ lending.base :: lending.kept.map Prod.snd, other ≠ ref := by
      rw [hfresh]
      refine List.forall_mem_cons.2 ⟨Nat.ne_of_lt hmirrors.base_lt, fun other hother => ?_⟩
      obtain ⟨entry, hentry, rfl⟩ := List.mem_map.1 hother
      exact Nat.ne_of_lt (hmirrors.kept_lt entry hentry)
    rw [List.map_append, ← List.cons_append]
    exact hmirrors.refs.append (List.nodup_singleton _)
      (List.disjoint_singleton.2 fun hmem => hold ref hmem rfl)
  workers := by
    rw [List.map_append]
    exact hmirrors.workers.append (List.nodup_singleton _) (List.disjoint_singleton.2 hnew)
  listed := by
    have hlisted : lending.listed.lookup (mark worker) = none := by
      rw [hmirrors.listed, List.lookup_eq_none_iff]
      intro entry hentry
      obtain ⟨owned, howned, rfl⟩ := List.mem_map.1 hentry
      rw [bne_iff_ne]
      refine hmark.ne ?_
      rintro rfl
      exact hnew (List.mem_map_of_mem howned)
    rw [enlist, hlisted, Option.isSome_none, if_neg Bool.false_ne_true, hmirrors.listed,
      List.map_append]
    rfl
  base := (hcloned.others _ hmirrors.base_lt).trans hmirrors.base
  worlds := by
    rw [List.map_append, hmirrors.worlds]
    refine congrArg₂ (· ++ ·) (List.map_congr_left fun entry hentry => ?_) ?_
    · exact congrArg (entry.1, ·) (hcloned.others _ (hmirrors.kept_lt entry hentry)).symm
    · exact congrArg (fun world => [(worker, world)]) (hcloned.same.trans hmirrors.base).symm
  booked := ⟨hmirrors.booked.1,
    List.forall_mem_append.2 ⟨hmirrors.booked.2, List.forall_mem_singleton.2 hmirrors.booked.1⟩⟩

/-- Setting a text in the world of a worker is as good as putting another value into its place. -/
theorem Mirrors.set [DecidableEq Worker] (hmirrors : Mirrors mark lending pool) {ref : Nat}
    (hmem : (worker, ref) ∈ lending.kept) (path : File.Path) (text : String) :
    (lending.store.set ref path text).1 = ((lending.store.world ref).set path text).1 ∧
      Mirrors mark { lending with store := (lending.store.set ref path text).2 }
        (pool.put worker ((lending.store.world ref).set path text).2) := by
  have hvalue : (worker, lending.store.world ref) ∈ pool.worlds :=
    hmirrors.worlds ▸
      List.mem_map_of_mem (f := fun entry => (entry.1, lending.store.world entry.2)) hmem
  have hbooked : (lending.store.world ref).Booked := hmirrors.booked.2 _ hvalue
  obtain ⟨hid, hturns⟩ :=
    Store.turns_set hmirrors.sound (hmirrors.kept_lt _ hmem) hbooked path text
  have hfree := hturns.free
  obtain ⟨hbase, hrefs⟩ := List.nodup_cons.1 hmirrors.refs
  refine ⟨hid, ?_⟩
  exact
    { sound := hturns.sound
      base_lt := hfree ▸ hmirrors.base_lt
      kept_lt := hfree ▸ hmirrors.kept_lt
      refs := hmirrors.refs
      workers := hmirrors.workers
      listed := hmirrors.listed
      base := by
        have hother : lending.base ≠ ref := by
          rintro rfl
          exact hbase (List.mem_map_of_mem hmem)
        exact (hturns.others _ hmirrors.base_lt hother).trans hmirrors.base
      worlds := by
        rw [Pool.put, hmirrors.worlds, List.map_map]
        refine List.map_congr_left fun entry hentry => ?_
        by_cases hsame : entry.1 = worker
        · obtain rfl : entry = (worker, ref) :=
            List.inj_on_of_nodup_map hmirrors.workers hentry hmem hsame
          simp [hturns.own]
        · have hother : entry.2 ≠ ref := fun href => by
            obtain rfl : entry = (worker, ref) :=
              List.inj_on_of_nodup_map hrefs hentry hmem href
            exact hsame rfl
          simp [hsame, hturns.others _ (hmirrors.kept_lt entry hentry) hother]
      booked := by
        refine ⟨hmirrors.booked.1, fun entry hentry => ?_⟩
        obtain ⟨old, hold, rfl⟩ := List.mem_map.1 hentry
        split
        · exact hbooked.set path text
        · exact hmirrors.booked.2 old hold }

variable [DecidableEq Worker] [DecidableEq Mark]

/-- What is handed to a worker shows what a pool of values hands to it. -/
structure Handed (mark : Worker → Mark) (lending : Lending Worker Mark) (pool : Pool Worker)
    (worker : Worker) (answer : Nat × Lending Worker Mark) : Prop where
  mirrors : Mirrors mark answer.2 (pool.get worker).2
  world : answer.2.store.world answer.1 = (pool.get worker).1
  keeps : lending.Keeps worker answer.1 answer.2

theorem Mirrors.handed (hmark : Function.Injective mark) (hmirrors : Mirrors mark lending pool)
    (worker : Worker) : Handed mark lending pool worker (lending.get mark worker) := by
  have hworld := hmirrors.world? worker
  rw [get]
  cases hkept : lending.kept.lookup worker with
  | some ref =>
    rw [hkept, Option.map_some] at hworld
    have hget : pool.get worker = (lending.store.world ref, pool) := by rw [Pool.get, hworld]
    obtain ⟨front, back, hsplit, -⟩ := List.lookup_eq_some_iff.1 hkept
    refine ⟨hget ▸ hmirrors, hget ▸ rfl, ?_, rfl, .inl rfl⟩
    exact hsplit ▸ List.mem_append_right _ List.mem_cons_self
  | none =>
    rw [hkept, Option.map_none] at hworld
    have hcloned := Store.cloned_clone hmirrors.sound hmirrors.base_lt
    have hget : pool.get worker =
        (pool.base, { pool with worlds := pool.worlds ++ [(worker, pool.base)] }) := by
      rw [Pool.get, hworld]
    have hmem : (worker, (lending.store.clone lending.base).1) ∈
        lending.kept ++ [(worker, (lending.store.clone lending.base).1)] :=
      List.mem_append_right _ (List.mem_singleton_self _)
    refine ⟨hget ▸ ?_, hget ▸ hcloned.same.trans hmirrors.base, hmem, rfl, .inr rfl⟩
    exact hmirrors.lend hmark (not_mem_of_lookup_eq_none hkept) hcloned

/-- What a worker sees shows what it sees in a pool of values. -/
structure Served (mark : Worker → Mark) (lending : Lending Worker Mark) (pool : Pool Worker)
    (worker : Worker) (task : Task) (answer : Reply Worker × Lending Worker Mark) : Prop where
  mirrors : Mirrors mark answer.2 (pool.serve worker task).2
  worker_eq : answer.1.worker = worker
  answer_eq : answer.1.answer = (pool.serve worker task).1
  keeps : lending.Keeps worker answer.1.world answer.2

theorem Mirrors.served (hmark : Function.Injective mark) (hmirrors : Mirrors mark lending pool)
    (worker : Worker) (task : Task) :
    Served mark lending pool worker task (lending.serve mark worker task) := by
  have hhanded := hmirrors.handed hmark worker
  cases task with
  | get =>
    exact ⟨hhanded.mirrors, rfl, congrArg Answer.world hhanded.world, hhanded.keeps⟩
  | set path text =>
    obtain ⟨hid, hset⟩ := hhanded.mirrors.set hhanded.keeps.mem path text
    rw [hhanded.world] at hid hset
    exact ⟨hset, rfl, congrArg Answer.id hid, ⟨hhanded.keeps.mem, hhanded.keeps.base,
      hhanded.keeps.kept⟩⟩
  | main =>
    have hmain := (Store.main_eq (lending.get mark worker).2.store (lending.get mark worker).1).trans
      (congrArg World.main hhanded.world)
    exact ⟨hhanded.mirrors, rfl, congrArg Answer.main hmain, hhanded.keeps⟩

/-! ## Runs -/

/-- What workers see shows what they see in a pool of values, and each of them sees it in the world
that it has kept. -/
structure ServedAll (mark : Worker → Mark) (lending : Lending Worker Mark) (pool : Pool Worker)
    (turns : List (Worker × Task)) (answer : List (Reply Worker) × Lending Worker Mark) :
    Prop where
  mirrors : Mirrors mark answer.2 (pool.serveAll turns).2
  answers : answer.1.map (fun reply => (reply.worker, reply.answer)) = (pool.serveAll turns).1
  mem : ∀ reply ∈ answer.1, (reply.worker, reply.world) ∈ answer.2.kept
  base : answer.2.base = lending.base
  kept : lending.kept <+: answer.2.kept
  workers : ∀ worker, worker ∈ answer.2.kept.map Prod.fst ↔
    worker ∈ lending.kept.map Prod.fst ∨ worker ∈ turns.map Prod.fst

theorem serveAll_cons (lending : Lending Worker Mark) (worker : Worker) (task : Task)
    (turns : List (Worker × Task)) :
    lending.serveAll mark ((worker, task) :: turns) =
      ((lending.serve mark worker task).1 ::
          ((lending.serve mark worker task).2.serveAll mark turns).1,
        ((lending.serve mark worker task).2.serveAll mark turns).2) :=
  rfl

theorem Mirrors.servedAll (hmark : Function.Injective mark) (hmirrors : Mirrors mark lending pool)
    (turns : List (Worker × Task)) :
    ServedAll mark lending pool turns (lending.serveAll mark turns) := by
  induction turns generalizing lending pool with
  | nil => exact ⟨hmirrors, rfl, nofun, rfl, List.prefix_rfl, fun _ => by simp [serveAll]⟩
  | cons turn turns ih =>
    obtain ⟨worker, task⟩ := turn
    have hserved := hmirrors.served hmark worker task
    have hrest := ih hserved.mirrors
    rw [serveAll_cons]
    generalize lending.serve mark worker task = answer at hserved hrest ⊢
    refine ⟨hrest.mirrors, ?_, ?_, hrest.base.trans hserved.keeps.base,
      hserved.keeps.isPrefix.trans hrest.kept, ?_⟩
    · refine congrArg₂ List.cons ?_ hrest.answers
      exact Prod.ext hserved.worker_eq hserved.answer_eq
    · refine List.forall_mem_cons.2 ⟨?_, hrest.mem⟩
      rw [hserved.worker_eq]
      exact hrest.kept.subset hserved.keeps.mem
    · intro other
      rw [hrest.workers, hserved.keeps.mem_workers, List.map_cons, List.mem_cons, or_assoc]

end Lending

/-! ## Isolation -/

/-- Workers that take turns on a pool over a world do not disturb each other. -/
structure Isolated {Worker Mark : Type} [DecidableEq Worker] [DecidableEq Mark]
    (mark : Worker → Mark) (base : World) (turns : List (Worker × Task))
    (replies : List (Reply Worker)) (after : Lending Worker Mark) : Prop where
  /-- Every turn is answered. -/
  workers_eq : replies.map Reply.worker = turns.map Prod.fst
  /-- A worker always gets the same world, and no two workers get the same. -/
  world_eq_iff : ∀ reply ∈ replies, ∀ other ∈ replies,
    reply.world = other.world ↔ reply.worker = other.worker
  /-- Nobody gets the base. -/
  ne_base : ∀ reply ∈ replies, reply.world ≠ (Lending.opened Worker Mark base).base
  /-- The base stays as it is. -/
  base_eq : after.store.world (Lending.opened Worker Mark base).base = base
  /-- The size is the number of workers that have asked. -/
  size_eq : after.size = (turns.map Prod.fst).toFinset.card
  /-- What a worker sees is what it sees alone. -/
  alone : ∀ worker, (replies.filter (·.worker = worker)).map Reply.answer =
    ((Lending.opened Worker Mark base).serveAll mark (turns.filter (·.1 = worker))).1.map Reply.answer
  /-- Worlds that are objects show what worlds that are values show. -/
  values : replies.map (fun reply => (reply.worker, reply.answer)) =
      (({ base } : Pool Worker).serveAll turns).1 ∧
    after.size = (({ base } : Pool Worker).serveAll turns).2.size

theorem workers_are_isolated {Worker Mark : Type} [DecidableEq Worker] [DecidableEq Mark]
    (mark : Worker → Mark) (hmark : Function.Injective mark) (base : World)
    (hbase : base.Reached fun _ => True) (turns : List (Worker × Task)) :
    Isolated mark base turns ((Lending.opened Worker Mark base).serveAll mark turns).1
      ((Lending.opened Worker Mark base).serveAll mark turns).2 := by
  have hmirrors := Lending.mirrors_opened mark hbase.booked
  have hserved := hmirrors.servedAll hmark turns
  have halone := fun worker =>
    hmirrors.servedAll hmark (turns.filter fun turn => turn.1 = worker)
  generalize (Lending.opened Worker Mark base).serveAll mark turns = answer at hserved ⊢
  obtain ⟨replies, after⟩ := answer
  have hbaseRef : after.base = (Lending.opened Worker Mark base).base := hserved.base
  have hsize : after.size = after.kept.length := by
    rw [Lending.size, hserved.mirrors.listed, List.length_map]
  exact
    { workers_eq := by
        rw [← Pool.map_fst_serveAll { base } turns, ← hserved.answers, List.map_map]
        rfl
      world_eq_iff := fun reply hreply other hother => by
        have hone := hserved.mem reply hreply
        have htwo := hserved.mem other hother
        refine ⟨fun hworld => ?_, fun hworker => ?_⟩
        · exact congrArg Prod.fst (List.inj_on_of_nodup_map
            (List.nodup_cons.1 hserved.mirrors.refs).2 hone htwo hworld)
        · exact congrArg Prod.snd
            (List.inj_on_of_nodup_map hserved.mirrors.workers hone htwo hworker)
      ne_base := fun reply hreply hworld => by
        have hkept := List.mem_map_of_mem (f := Prod.snd) (hserved.mem reply hreply)
        exact (List.nodup_cons.1 hserved.mirrors.refs).1 (hbaseRef ▸ hworld ▸ hkept)
      base_eq := by
        rw [← hbaseRef, hserved.mirrors.base]
        exact Pool.base_serveAll { base } turns
      size_eq := by
        have hworkers : (after.kept.map Prod.fst).toFinset = (turns.map Prod.fst).toFinset := by
          refine Finset.ext fun worker => ?_
          rw [List.mem_toFinset, List.mem_toFinset, hserved.workers]
          exact or_iff_right List.not_mem_nil
        rw [hsize, ← hworkers, List.toFinset_card_of_nodup hserved.mirrors.workers,
          List.length_map]
      alone := fun worker => by
        have hanswers : ∀ replies : List (Reply Worker),
            (replies.filter (·.worker = worker)).map Reply.answer =
              ((replies.map fun reply => (reply.worker, reply.answer)).filter
                (·.1 = worker)).map Prod.snd := fun replies => by
          rw [List.filter_map, List.map_map]
          rfl
        rw [hanswers, hserved.answers, Pool.filter_serveAll worker rfl rfl,
          ← (halone worker).answers, List.map_map]
        rfl
      values := ⟨hserved.answers, by
        rw [hsize, Pool.size, hserved.mirrors.worlds, List.length_map]⟩ }

/-- Two workers set texts under the same path and read them again. -/
def mineAndTheirs : List (Nat × Task) :=
  [(0, .set (.ofString "a") "mine"), (1, .set (.ofString "a") "theirs"), (0, .main), (1, .main)]

/-- The text of the main source in an answer. -/
def Answer.mainText? : Answer → Option String
  | .main (.ok source) => some source.text
  | _ => none

theorem workers_are_isolated_mineAndTheirs :
    Function.Injective (id : Nat → Nat) ∧
    World.Reached (fun _ => True) { root := .ofString "assets" } ∧
    Isolated id { root := .ofString "assets" } mineAndTheirs
      ((Lending.opened Nat Nat { root := .ofString "assets" }).serveAll id mineAndTheirs).1
      ((Lending.opened Nat Nat { root := .ofString "assets" }).serveAll id mineAndTheirs).2 ∧
    ((Lending.opened Nat Nat { root := .ofString "assets" }).serveAll id mineAndTheirs).1.map
      (fun reply => (reply.world, reply.answer.mainText?)) =
        [(1, none), (2, none), (1, some "mine"), (2, some "theirs")] :=
  ⟨Function.injective_id, .new _,
    workers_are_isolated id Function.injective_id _ (.new _) mineAndTheirs, by decide +kernel⟩

/-- The size would be too small if a mark were used again. -/
example : ((Lending.opened Nat Unit { root := .ofString "assets" }).serveAll (fun _ => ())
    [(0, .get), (1, .get)]).2.size = 1 := by
  decide +kernel

end Galley.Run
