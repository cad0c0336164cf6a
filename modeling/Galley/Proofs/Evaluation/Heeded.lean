import Galley.Proofs.Evaluation.Congruence

/-!
# Refusals that are heard of

A document that is asked for at some place may be refused.  Then evaluation either never comes to
that place, so that it does not matter what there would be, or the refusal is among the diagnostics
in the end.
-/

namespace Galley.Compile

open Syntax Document Eval

variable {α β : Type} {holds : World → Prop} {source : Nat} {span : Int} {error : EvalError}

/-- A report at a span is on its way, or it is among the diagnostics already. -/
def Heard (source : Nat) (span : Int) (error : EvalError) (outcome : Except Stop α × Machine) :
    Prop :=
  outcome.1 = .error (.report span error) ∨
    ⟨source, span, error.message⟩ ∈ outcome.2.diagnostics

/-- In the worlds in question, the second evaluation makes itself heard wherever it does not do
what the first one does. -/
structure Heeds (holds : World → Prop) (source : Nat) (span : Int) (error : EvalError)
    (left right : Eval α) : Prop where
  keeps : ∀ machine, holds machine.world → holds (right machine).2.world
  lasts : ∀ machine, ⟨source, span, error.message⟩ ∈ machine.diagnostics →
    ⟨source, span, error.message⟩ ∈ (right machine).2.diagnostics
  run : ∀ machine, holds machine.world →
    left machine = right machine ∨ Heard source span error (right machine)

namespace Heeds

theorem of_blind {action : Eval α} (haction : Blind action) :
    Heeds holds source span error action action where
  keeps machine hholds := by
    rwa [haction.world_eq machine]
  lasts machine hheard := by
    rwa [show (action machine).2.diagnostics = machine.diagnostics from
      congrArg Ledger.diagnostics (haction.ledger_eq machine)]
  run _ _ := .inl rfl

theorem bind {left right : Eval α} {next next' : α → Eval β}
    (haction : Heeds holds source span error left right)
    (hnext : ∀ value, Heeds holds source span error (next value) (next' value)) :
    Heeds holds source span error (left >>= next) (right >>= next') where
  keeps machine hholds := by
    have hafter := haction.keeps machine hholds
    rw [bind_apply]
    generalize right machine = answer at hafter ⊢
    obtain ⟨stop | value, after⟩ := answer
    · exact hafter
    · exact (hnext value).keeps after hafter
  lasts machine hheard := by
    have hafter := haction.lasts machine hheard
    rw [bind_apply]
    generalize right machine = answer at hafter ⊢
    obtain ⟨stop | value, after⟩ := answer
    · exact hafter
    · exact (hnext value).lasts after hafter
  run machine hholds := by
    have hkeeps := haction.keeps machine hholds
    have hrun := haction.run machine hholds
    rw [bind_apply, bind_apply]
    generalize right machine = answer at hkeeps hrun ⊢
    obtain ⟨stop | value, after⟩ := answer
    · obtain hsame | hheard := hrun
      · rw [hsame]
        exact .inl rfl
      · exact .inr (hheard.imp_left fun hstop => congrArg _ (Except.error.inj hstop))
    · obtain hsame | hstop | hheard := hrun
      · rw [hsame]
        exact (hnext value).run after hkeeps
      · cases hstop
      · exact .inr (.inr ((hnext value).lasts after hheard))

theorem print (args : List Arg) :
    Heeds holds source span error (Native.print args) (Native.print args) := by
  refine (of_blind (.finish _)).bind fun _ => (of_blind (.lift _)).bind fun texts => ?_
  exact bind ⟨fun _ hholds => hholds, fun _ hheard => hheard, fun _ _ => .inl rfl⟩
    fun _ => of_blind (.pure _)

/-- What is on its way becomes a diagnostic at the latest here. -/
theorem attempt {left right : Eval Content} (haction : Heeds holds source span error left right) :
    Heeds holds source span error (attempt source left) (attempt source right) where
  keeps machine hholds := by
    have hafter := haction.keeps machine hholds
    rw [Eval.attempt]
    generalize right machine = answer at hafter ⊢
    obtain ⟨(⟨place, other⟩ | failure) | value, after⟩ := answer <;> exact hafter
  lasts machine hheard := by
    have hafter := haction.lasts machine hheard
    rw [Eval.attempt]
    generalize right machine = answer at hafter ⊢
    obtain ⟨(⟨place, other⟩ | failure) | value, after⟩ := answer
    · exact List.mem_append_left _ hafter
    · exact hafter
    · exact hafter
  run machine hholds := by
    have hrun := haction.run machine hholds
    rw [Eval.attempt, Eval.attempt]
    generalize right machine = answer at hrun ⊢
    obtain hsame | hstop | hheard := hrun
    · rw [hsame]
      exact .inl rfl
    · obtain ⟨result, after⟩ := answer
      obtain rfl : result = .error (.report span error) := hstop
      exact .inr (.inr (List.mem_append_right _ (List.mem_singleton_self _)))
    · obtain ⟨(⟨place, other⟩ | failure) | value, after⟩ := answer
      · exact .inr (.inr (List.mem_append_left _ hheard))
      · exact .inr (.inr hheard)
      · exact .inr (.inr hheard)

theorem withStrong {left right : Eval α} (haction : Heeds holds source span error left right) :
    Heeds holds source span error (withStrong left) (withStrong right) where
  keeps machine hholds := haction.keeps { machine with strong := true } hholds
  lasts machine hheard := haction.lasts { machine with strong := true } hheard
  run machine hholds := by
    rw [Eval.withStrong, Eval.withStrong]
    exact (haction.run { machine with strong := true } hholds).imp (fun hsame => by rw [hsame]) id

theorem withEmph {left right : Eval α} (haction : Heeds holds source span error left right) :
    Heeds holds source span error (withEmph left) (withEmph right) where
  keeps machine hholds := haction.keeps { machine with emph := true } hholds
  lasts machine hheard := haction.lasts { machine with emph := true } hheard
  run machine hholds := by
    rw [Eval.withEmph, Eval.withEmph]
    exact (haction.run { machine with emph := true } hholds).imp (fun hsame => by rw [hsame]) id

theorem withinBlock {left right : Eval α} (haction : Heeds holds source span error left right) :
    Heeds holds source span error (withinBlock left) (withinBlock right) where
  keeps machine hholds := haction.keeps machine hholds
  lasts machine hheard := haction.lasts machine hheard
  run machine hholds := by
    rw [Eval.withinBlock, Eval.withinBlock]
    exact (haction.run machine hholds).imp (fun hsame => by rw [hsame]) id

end Heeds

/-- What makes itself heard does so in whatever an evaluation does with it. -/
def heeding (holds : World → Prop) (source : Nat) (span : Int) (error : EvalError) :
    Congruence source source where
  Rel := Heeds holds source span error
  blind := .of_blind
  bind := .bind
  print := .print
  attempt := .attempt
  withStrong := .withStrong
  withEmph := .withEmph
  withinBlock := .withinBlock

/-- An evaluation of a tree may refuse what another one loads.  If that makes any difference, the
refusal is among the diagnostics, unless there is no module in the end. -/
theorem evaluateTree_heeded {source : Source} {load load' : Int → String → Eval Content}
    (hload : (heeding holds source.id span error).Loads load load') {outside : Surroundings}
    (hholds : holds outside.world) :
    evaluateTree ⟨source.id, load⟩ source outside = evaluateTree ⟨source.id, load'⟩ source outside ∨
      ∀ module, (evaluateTree ⟨source.id, load'⟩ source outside).1 = .ok module →
        ⟨source.id, span, error.message⟩ ∈ module.diagnostics := by
  have hnode : Heeds holds source.id span error (evalNode ⟨source.id, load⟩ source.root).content
      (evalNode ⟨source.id, load'⟩ source.root).content :=
    (Congruence.Holds.of_loads hload source.root).content
  have hrun := hnode.run
    { world := outside.world, printed := outside.printed, computations := outside.computations }
    hholds
  rw [evaluateTree, evaluateTree]
  simp only [ExceptT.run, StateT.run]
  generalize (evalNode ⟨source.id, load'⟩ source.root).content _ = answer at hrun ⊢
  obtain hsame | hstop | hheard := hrun
  · rw [hsame]
    exact .inl rfl
  · obtain ⟨result, after⟩ := answer
    obtain rfl : result = .error (.report span error) := hstop
    refine .inr fun module hmodule => ?_
    cases hmodule
    exact List.mem_append_right _ (List.mem_singleton_self _)
  · refine .inr fun module hmodule => ?_
    obtain ⟨(⟨place, other⟩ | failure) | value, after⟩ := answer
    · cases hmodule
      exact List.mem_append_left _ hheard
    · cases hmodule
    · cases hmodule
      exact hheard

end Galley.Compile
