import Galley.Proofs.Evaluation.Congruence

/-!
# Evaluations side by side

One tree is evaluated twice, as the tree of two sources and in two worlds.  What
a document brings in from its world it brings in by the documents that it asks
for, so if those come to the same in both worlds, the tree does too.  The first
world may get lost on the way, and nothing is said about the second one then.
-/

namespace Galley.Compile

open Syntax Document Eval

/-- Whether an evaluation has failed, and not only stopped at what it reports. -/
def Failed {α : Type} : Except Stop α → Prop
  | .error (.failure _) => True
  | _ => False

/-- What ties the evaluations of two sources together: what holds of both ledgers, what
holds of the first world unless something has failed, and which first worlds are lost. -/
structure Bond (source source' : Nat) where
  holds : Ledger → Ledger → Prop
  settled : World → Prop
  lost : World → Prop
  holds_report : ∀ {ledger ledger' : Ledger} (span : Int) (message : String),
    holds ledger ledger' →
      holds { ledger with diagnostics := ledger.diagnostics ++ [⟨source, span, message⟩] }
        { ledger' with diagnostics := ledger'.diagnostics ++ [⟨source', span, message⟩] }
  holds_print : ∀ {ledger ledger' : Ledger} (text : String), holds ledger ledger' →
    holds { ledger with printed := ledger.printed ++ text }
      { ledger' with printed := ledger'.printed ++ text }

variable {source source' : Nat} {α β : Type}

/-- The second outcome is the same with a ledger that the bond ties to that of the
first one. -/
structure Bond.Tied (bond : Bond source source') (outcome outcome' : Except Stop α × Machine) :
    Prop where
  settled : ¬ Failed outcome.1 → bond.settled outcome.2.world
  same : ∃ ledger, bond.holds outcome.2.ledger ledger ∧
    outcome' = (outcome.1, outcome.2.moved ledger)

/-- The first outcome leaves a lost world, or it is tied to the second one. -/
def Bond.Ties (bond : Bond source source') (outcome outcome' : Except Stop α × Machine) : Prop :=
  bond.lost outcome.2.world ∨ bond.Tied outcome outcome'

/-- Two evaluations have the same outcome wherever the bond holds, and it holds of
what they leave behind, unless the first one loses its world. -/
structure Twins (bond : Bond source source') (left right : Eval α) : Prop where
  stays : ∀ machine, bond.lost machine.world → bond.lost (left machine).2.world
  run : ∀ (machine : Machine) (ledger : Ledger), bond.holds machine.ledger ledger →
    bond.settled machine.world → bond.Ties (left machine) (right (machine.moved ledger))

namespace Twins

variable {bond : Bond source source'} {left right : Eval α}

theorem of_blind {action : Eval α} (haction : Blind action) : Twins bond action action where
  stays machine hlost := by
    rwa [haction.world_eq machine]
  run machine ledger hholds hsettled := by
    rw [← haction.ledger_eq machine] at hholds
    rw [← haction.world_eq machine] at hsettled
    exact .inr ⟨fun _ => hsettled, ledger, hholds, haction machine ledger⟩

theorem bind {next next' : α → Eval β} (haction : Twins bond left right)
    (hnext : ∀ value, Twins bond (next value) (next' value)) :
    Twins bond (left >>= next) (right >>= next') where
  stays machine hlost := by
    have hafter := haction.stays machine hlost
    rw [bind_apply]
    generalize left machine = answer at hafter ⊢
    obtain ⟨stop | value, after⟩ := answer
    · exact hafter
    · exact (hnext value).stays after hafter
  run machine ledger hholds hsettled := by
    have hrun := haction.run machine ledger hholds hsettled
    rw [bind_apply, bind_apply]
    generalize left machine = answer at hrun ⊢
    obtain ⟨stop | value, after⟩ := answer
    · obtain hlost | ⟨hsettled, _, hafter, hright⟩ := hrun
      · exact .inl hlost
      · rw [hright]
        refine .inr ⟨fun hstop => hsettled ?_, _, hafter, rfl⟩
        cases stop <;> exact hstop
    · obtain hlost | ⟨hsettled, _, hafter, hright⟩ := hrun
      · exact .inl ((hnext value).stays after hlost)
      · rw [hright]
        exact (hnext value).run after _ hafter (hsettled id)

/-- What is printed is added to either ledger. -/
theorem print (args : List Arg) : Twins bond (Native.print args) (Native.print args) := by
  refine (of_blind (.finish _)).bind fun _ => (of_blind (.lift _)).bind fun texts => ?_
  refine bind ⟨fun _ hlost => hlost, fun machine ledger hholds hsettled => ?_⟩
    fun _ => of_blind (.pure _)
  have hprinted := bond.holds_print "\n"
    (bond.holds_print (", ".intercalate texts) (bond.holds_print "> " hholds))
  exact .inr ⟨fun _ => hsettled, _, hprinted, rfl⟩

/-- What is reported becomes a diagnostic of either source. -/
theorem attempt {left right : Eval Content} (haction : Twins bond left right) :
    Twins bond (attempt source left) (attempt source' right) where
  stays machine hlost := by
    have hafter := haction.stays machine hlost
    rw [Eval.attempt]
    generalize left machine = answer at hafter ⊢
    obtain ⟨(⟨span, error⟩ | failure) | value, after⟩ := answer <;> exact hafter
  run machine ledger hholds hsettled := by
    have hrun := haction.run machine ledger hholds hsettled
    rw [Eval.attempt, Eval.attempt]
    generalize left machine = answer at hrun ⊢
    obtain ⟨(⟨span, error⟩ | failure) | value, after⟩ := answer <;>
      obtain hlost | ⟨hsettled, _, hafter, hright⟩ := hrun
    · exact .inl hlost
    · rw [hright]
      exact .inr ⟨fun _ => hsettled id, _, bond.holds_report span error.message hafter, rfl⟩
    · exact .inl hlost
    · rw [hright]
      exact .inr ⟨hsettled, _, hafter, rfl⟩
    · exact .inl hlost
    · rw [hright]
      exact .inr ⟨hsettled, _, hafter, rfl⟩

theorem withStrong (haction : Twins bond left right) :
    Twins bond (withStrong left) (withStrong right) where
  stays machine hlost := haction.stays { machine with strong := true } hlost
  run machine ledger hholds hsettled := by
    obtain hlost | ⟨hsettled, _, hafter, hright⟩ :=
      haction.run { machine with strong := true } ledger hholds hsettled
    · exact .inl hlost
    · refine .inr ⟨hsettled, _, hafter, ?_⟩
      exact congrArg (fun answer : Except Stop α × Machine =>
        (answer.1, { answer.2 with strong := machine.strong })) hright

theorem withEmph (haction : Twins bond left right) :
    Twins bond (withEmph left) (withEmph right) where
  stays machine hlost := haction.stays { machine with emph := true } hlost
  run machine ledger hholds hsettled := by
    obtain hlost | ⟨hsettled, _, hafter, hright⟩ :=
      haction.run { machine with emph := true } ledger hholds hsettled
    · exact .inl hlost
    · refine .inr ⟨hsettled, _, hafter, ?_⟩
      exact congrArg (fun answer : Except Stop α × Machine =>
        (answer.1, { answer.2 with emph := machine.emph })) hright

theorem withinBlock (haction : Twins bond left right) :
    Twins bond (withinBlock left) (withinBlock right) where
  stays machine hlost := haction.stays machine hlost
  run machine ledger hholds hsettled := by
    obtain hlost | ⟨hsettled, _, hafter, hright⟩ := haction.run machine ledger hholds hsettled
    · exact .inl hlost
    · rw [Eval.withinBlock, Eval.withinBlock, hright]
      exact .inr ⟨hsettled, _, hafter, rfl⟩

end Twins

/-! ## Trees -/

variable {bond : Bond source source'} {load load' : Int → String → Eval Content}

/-- What a node comes to is the same in every place, in either evaluation. -/
structure TwinNode (bond : Bond source source') (load load' : Int → String → Eval Content)
    (node : Node) : Prop where
  value : Twins bond (evalNode ⟨source, load⟩ node).value (evalNode ⟨source', load'⟩ node).value
  argument :
    Twins bond (evalNode ⟨source, load⟩ node).argument (evalNode ⟨source', load'⟩ node).argument
  arguments :
    Twins bond (evalNode ⟨source, load⟩ node).arguments (evalNode ⟨source', load'⟩ node).arguments
  content :
    Twins bond (evalNode ⟨source, load⟩ node).content (evalNode ⟨source', load'⟩ node).content

/-- Two ways to load documents that come to the same. -/
def LoadTwins (bond : Bond source source') (load load' : Int → String → Eval Content) : Prop :=
  ∀ span path, Twins bond (load span path) (load' span path)

/-- Evaluations that are twins stay so in whatever an evaluation does with them. -/
def Bond.congruence (bond : Bond source source') : Congruence source source' where
  Rel := Twins bond
  blind := .of_blind
  bind := .bind
  print := .print
  attempt := .attempt
  withStrong := .withStrong
  withEmph := .withEmph
  withinBlock := .withinBlock

/-- A tree comes to the same as that of either source if the documents do that it asks
for. -/
theorem twinNode (hload : LoadTwins bond load load') (node : Node) :
    TwinNode bond load load' node := by
  have hnode : bond.congruence.Holds load load' node := Congruence.Holds.of_loads
    (show bond.congruence.Loads load load' from hload) node
  exact ⟨hnode.value, hnode.argument, hnode.arguments, hnode.content⟩

end Galley.Compile
