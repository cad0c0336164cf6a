import Galley.Proofs.Evaluation.Call
import Galley.Proofs.Evaluation.Growth

/-!
# What evaluations spend

An evaluation starts with numbers of so many digits in scope and ends with numbers of so many
digits, and as long as there are no more of them than the source allows, it fails for nothing but
the documents that it asks for.  Functions spend nothing, and an operator spends one digit.
-/

namespace Galley.Compile

open Syntax Document Eval

/-- What an evaluation of a source may come to: the worlds that it comes by, how many digits its
numbers may have, and which failures it may end with in which world. -/
structure Allowance where
  holds : World → Prop
  limit : Nat
  fails : World → Failure → Prop
  structural : ∀ {world : World} {failure : Failure}, Structural failure → fails world failure
  unreadable : ∀ {world : World} {count : Nat}, holds world → Number.digitLimit < count →
    count ≤ limit → fails world (.unreadableInteger count)
  unwritable : ∀ {world : World}, holds world → Number.digitLimit < limit →
    fails world .unwritableInteger
  tooLarge : ∀ {world : World}, holds world → 308 < limit → fails world .integerTooLarge

variable {allowance : Allowance} {before middle after spent : Nat} {α β : Type}

namespace Allowance

/-- A machine with numbers of at most so many digits in scope. -/
structure Covers (allowance : Allowance) (spent : Nat) (machine : Machine) : Prop where
  world : allowance.holds machine.world
  scope : ∀ entry ∈ machine.scope, entry.2.Within spent

/-- An outcome that is allowed. -/
def Meets (allowance : Allowance) (spent : Nat) (returns : α → Prop) :
    Except Stop α × Machine → Prop
  | (.ok value, machine) => allowance.Covers spent machine ∧ returns value
  | (.error (.report ..), machine) => allowance.Covers spent machine
  | (.error (.failure failure), machine) => allowance.fails machine.world failure

theorem Covers.mono {machine : Machine} (hcovers : allowance.Covers before machine)
    (hle : before ≤ after) : allowance.Covers after machine :=
  ⟨hcovers.world, fun entry hentry => (hcovers.scope entry hentry).mono hle⟩

/-- Only the world and the scope of a machine matter. -/
theorem Meets.congr {returns : α → Prop} {result : Except Stop α} {machine machine' : Machine}
    (hmeets : allowance.Meets spent returns (result, machine))
    (hworld : machine'.world = machine.world) (hscope : machine'.scope = machine.scope) :
    allowance.Meets spent returns (result, machine') := by
  have hcovers : allowance.Covers spent machine → allowance.Covers spent machine' :=
    fun hcovers => ⟨hworld ▸ hcovers.world, hscope ▸ hcovers.scope⟩
  obtain (⟨span, error⟩ | failure) | value := result
  · exact hcovers hmeets
  · rw [Meets, hworld]
    exact hmeets
  · exact ⟨hcovers hmeets.1, hmeets.2⟩

end Allowance

/-- An evaluation that makes numbers of at most so many digits of numbers of at most so many. -/
structure Spends (allowance : Allowance) (before after : Nat) (action : Eval α)
    (returns : α → Prop) : Prop where
  run : ∀ machine, allowance.Covers before machine →
    allowance.Meets after returns (action machine)

namespace Spends

variable {action : Eval α} {returns returns' : α → Prop}

theorem pure {value : α} (hvalue : returns value) :
    Spends allowance spent spent (pure value) returns :=
  ⟨fun _ hcovers => ⟨hcovers, hvalue⟩⟩

theorem done {value : α} : Spends allowance spent spent (Pure.pure value) fun _ => True :=
  pure trivial

theorem report {span : Int} {error : EvalError} :
    Spends allowance spent spent (report span error : Eval α) returns :=
  ⟨fun _ hcovers => hcovers⟩

theorem fail {failure : Failure} (hfails : ∀ world, allowance.holds world →
    allowance.fails world failure) :
    Spends allowance spent spent (throw (.failure failure) : Eval α) returns :=
  ⟨fun machine hcovers => hfails machine.world hcovers.world⟩

theorem defect {cause : Defect} : Spends allowance spent spent (defect cause : Eval α) returns :=
  fail fun _ _ => allowance.structural trivial

theorem lift {result : Except Failure α} (hvalue : ∀ value, result = .ok value → returns value)
    (hfailure : ∀ failure, result = .error failure →
      ∀ world, allowance.holds world → allowance.fails world failure) :
    Spends allowance spent spent (lift result) returns := by
  cases result with
  | ok value => exact pure (hvalue value rfl)
  | error failure => exact fail (hfailure failure rfl)

theorem bind {next : α → Eval β} {returns' : β → Prop}
    (haction : Spends allowance before middle action returns)
    (hnext : ∀ value, returns value → Spends allowance middle after (next value) returns')
    (hle : middle ≤ after) : Spends allowance before after (action >>= next) returns' := by
  constructor
  intro machine hcovers
  have hmeets := haction.run machine hcovers
  rw [Eval.bind_apply]
  generalize action machine = answer at hmeets ⊢
  obtain ⟨(⟨span, error⟩ | failure) | value, reached⟩ := answer
  · exact Allowance.Covers.mono hmeets hle
  · exact hmeets
  · exact (hnext value hmeets.2).run reached hmeets.1

/-- What comes first spends everything. -/
theorem first {next : α → Eval β} {returns' : β → Prop}
    (haction : Spends allowance before after action returns)
    (hnext : ∀ value, returns value → Spends allowance after after (next value) returns') :
    Spends allowance before after (action >>= next) returns' :=
  haction.bind hnext (Nat.le_refl _)

theorem mono (haction : Spends allowance before middle action returns) (hle : middle ≤ after)
    (himplies : ∀ value, returns value → returns' value) :
    Spends allowance before after action returns' := by
  constructor
  intro machine hcovers
  have hmeets := haction.run machine hcovers
  generalize action machine = answer at hmeets ⊢
  obtain ⟨(⟨span, error⟩ | failure) | value, reached⟩ := answer
  · exact Allowance.Covers.mono hmeets hle
  · exact hmeets
  · exact ⟨hmeets.1.mono hle, himplies value hmeets.2⟩

/-- What spends nothing leaves the rest to be spent in front of it. -/
theorem later (haction : Spends allowance after after action returns) (hle : before ≤ after) :
    Spends allowance before after action returns :=
  ⟨fun machine hcovers => haction.run machine (hcovers.mono hle)⟩

theorem get : Spends allowance spent spent get (allowance.Covers spent) :=
  ⟨fun _ hcovers => ⟨hcovers, hcovers⟩⟩

theorem modify {change : Machine → Machine} (hchange : ∀ machine, allowance.Covers spent machine →
    allowance.Covers spent (change machine)) :
    Spends allowance spent spent (modify change) fun _ => True :=
  ⟨fun machine hcovers => ⟨hchange machine hcovers, trivial⟩⟩

theorem attempt {source : Nat} {action : Eval Content}
    (haction : Spends allowance before after action fun _ => True) :
    Spends allowance before after (attempt source action) fun _ => True := by
  constructor
  intro machine hcovers
  have hmeets := haction.run machine hcovers
  rw [Eval.attempt]
  generalize action machine = answer at hmeets ⊢
  obtain ⟨(⟨span, error⟩ | failure) | value, reached⟩ := answer
  · exact ⟨⟨hmeets.world, hmeets.scope⟩, trivial⟩
  · exact hmeets
  · exact hmeets

theorem withStrong (haction : Spends allowance before after action returns) :
    Spends allowance before after (withStrong action) returns :=
  ⟨fun machine hcovers =>
    (haction.run { machine with strong := true } ⟨hcovers.world, hcovers.scope⟩).congr rfl rfl⟩

theorem withEmph (haction : Spends allowance before after action returns) :
    Spends allowance before after (withEmph action) returns :=
  ⟨fun machine hcovers =>
    (haction.run { machine with emph := true } ⟨hcovers.world, hcovers.scope⟩).congr rfl rfl⟩

theorem withinBlock (haction : Spends allowance before after action returns) :
    Spends allowance before after (withinBlock action) returns :=
  ⟨fun machine hcovers => (haction.run machine hcovers).congr rfl rfl⟩

end Spends

/-! ## Functions -/

variable {value : Value} {args : List Arg} {span : Int}

/-- Functions spend nothing, and so do the steps that they consist of. -/
def Allowance.calculus (allowance : Allowance) (hlimit : spent ≤ allowance.limit) : Calculus where
  Derives := Spends allowance spent spent
  state := allowance.Covers spent
  fits := Value.Within spent
  takes arg := arg.value.Within spent
  fails failure := ∀ world, allowance.holds world → allowance.fails world failure
  pure := .pure
  bind := .first
  report _ _ _ := .report
  lift := .lift
  get _ := .first .get
  newOrigin := ⟨fun _ hcovers => ⟨⟨hcovers.world, hcovers.scope⟩, trivial⟩⟩
  restyle _ _ := .modify fun _ hcovers => ⟨hcovers.world, hcovers.scope⟩
  scope hcovers := hcovers.scope _
  takes_fits harg := harg
  plain _ := .of_ints_eq_nil
  content _ := .of_ints_eq_nil rfl
  linked _ := .of_ints_eq_nil rfl
  string _ := .of_ints_eq_nil rfl
  array := .array
  unwritable hvalue herror world hworld := by
    obtain ⟨rfl, hlong⟩ := hvalue.repr_eq_error herror
    exact allowance.unwritable hworld (hlong.trans_le hlimit)

/-- What holds no integer has as few digits as one likes. -/
theorem spends_plain (hnone : value.ints = []) :
    Spends allowance spent spent (pure value) (Value.Within spent) :=
  .pure (.of_ints_eq_nil hnone)

/-- A way to load documents that spends nothing of the source that asks for them. -/
def Allowance.Loads (allowance : Allowance) (load : Int → String → Eval Content) : Prop :=
  ∀ spent span path, Spends allowance spent spent (load span path) fun _ => True

theorem spends_load {source : Nat} {load : Int → String → Eval Content}
    (hload : allowance.Loads load) (hargs : ∀ arg ∈ args, arg.value.Within spent)
    (hlimit : spent ≤ allowance.limit) :
    Spends allowance spent spent (Native.load ⟨source, load⟩ span args) (Value.Within spent) :=
  .first ((allowance.calculus hlimit).expect trivial (by decide) hargs) fun _ hanswer =>
    .first ((allowance.calculus hlimit).castString trivial) fun _ _ =>
      .first ((allowance.calculus hlimit).finish hanswer.2) fun _ _ =>
        .first (hload ..) fun _ _ => spends_plain rfl

theorem spends_call {source : Nat} {load : Int → String → Eval Content}
    (hload : allowance.Loads load) (native : Document.Native)
    (hargs : ∀ arg ∈ args, arg.value.Within spent) (hlimit : spent ≤ allowance.limit) :
    Spends allowance spent spent (call ⟨source, load⟩ native span args) (Value.Within spent) := by
  refine (allowance.calculus hlimit).call trivial hargs (fun _ => spends_load hload hargs hlimit)
    fun _ => (allowance.calculus hlimit).print hargs fun change => ?_
  exact .modify fun _ hcovers => ⟨hcovers.world, hcovers.scope⟩

/-! ## Names and operators -/

theorem spends_bind (name : String) (hvalue : value.Within spent) :
    Spends allowance spent spent (bind name value) (Value.Within spent) := by
  refine .first (.modify fun machine hcovers => ⟨hcovers.world, ?_⟩) fun _ _ => spends_plain rfl
  exact List.forall_mem_cons.2 ⟨hvalue, hcovers.scope⟩

/-- The value of an operation has one digit more than its operands. -/
theorem spends_combined {result : Except Failure Value} (hresult : Value.Combines spent result)
    (hlimit : spent + 1 ≤ allowance.limit) :
    Spends allowance (spent + 1) (spent + 1) (lift result) (Value.Within (spent + 1)) := by
  refine .lift hresult.value fun failure herror world hworld => ?_
  obtain ⟨rfl, hlarge⟩ := hresult.failure failure herror
  exact allowance.tooLarge hworld (hlarge.trans hlimit)

theorem spends_applyOperator (operator : Kind) {left right : Value} (hleft : left.Within spent)
    (hright : right.Within spent) (hlimit : spent + 1 ≤ allowance.limit) :
    Spends allowance spent (spent + 1) (applyOperator span operator left right)
      (Value.Within (spent + 1)) := by
  refine .later ((allowance.calculus hlimit).applyOperator trivial ?_ ?_) (Nat.le_succ _)
  · exact fun _ _ hsum => spends_combined (.of_add hleft hright hsum) hlimit
  · exact fun _ _ hdifference => spends_combined (.of_sub hleft hright hdifference) hlimit

end Galley.Compile
