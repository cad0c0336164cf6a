import Galley.Proofs.Evaluation.Tree
import Galley.Proofs.Value.Operations

/-!
# Evaluating sums and differences

The operands of a binary node are evaluated one after the other, and what their values come to is
the value of the node, the report of both types at the node, or a failure.
-/

namespace Galley.Compile

open Syntax Document Eval

variable {left right : Value} {rule : Value → Prop} {span : Int} {error : EvalError}

/-- An operation ends as a rule says: with a value that it allows, with a report where it allows
none, or where an integer is too large for the float beside it. -/
structure Operates (left right : Value) (rule : Value → Prop) (span : Int) (error : EvalError)
    (result : Except Stop Value) : Prop where
  value : ∀ value, result = .ok value → rule value
  report : ∀ place reported, result = .error (.report place reported) ↔
    (¬∃ value, rule value) ∧ place = span ∧ reported = error
  failure : ∀ failure, result = .error (.failure failure) ↔
    failure = .integerTooLarge ∧ left.Overflows right

/-- The evaluation of an operation: its value, or a report if it has none. -/
def settle (span : Int) (error : EvalError) : Option (Except Failure Value) → Eval Value
  | some result => lift result
  | none => Eval.report span error

theorem Operates.of_ruled {outcome : Option (Except Failure Value)}
    (hruled : left.Ruled right rule outcome) (machine : Machine) :
    Operates left right rule span error (settle span error outcome machine).1 := by
  obtain ⟨hnone, hvalue, hfailure⟩ := hruled
  match outcome with
  | none =>
    refine ⟨fun _ hok => (nomatch hok), fun place reported => ?_, fun failure => ?_⟩
    · constructor
      · rintro ⟨⟩
        exact ⟨hnone.1 rfl, rfl, rfl⟩
      · rintro ⟨-, rfl, rfl⟩
        rfl
    · exact iff_of_false nofun fun hlarge => nomatch (hfailure failure).2 hlarge
  | some (.ok value) =>
    refine ⟨fun _ hok => ?_, fun place reported => iff_of_false nofun ?_, fun failure => ?_⟩
    · exact Except.ok.inj hok ▸ hvalue value rfl
    · exact fun hreport => nomatch hnone.2 hreport.1
    · exact iff_of_false nofun fun hlarge => nomatch (hfailure failure).2 hlarge
  | some (.error found) =>
    refine ⟨fun _ hok => (nomatch hok), fun place reported => iff_of_false nofun ?_,
      fun failure => ?_⟩
    · exact fun hreport => nomatch hnone.2 hreport.1
    · rw [← hfailure failure]
      exact ⟨by rintro ⟨⟩; rfl, by rintro ⟨⟩; rfl⟩

theorem applyOperator_plus (span : Int) (left right : Value) (machine : Machine) :
    applyOperator span .plus left right machine =
      settle span (.cannotAdd left.typeName right.typeName)
        (left.add machine.computations right)
        { machine with computations := machine.computations + 1 } := by
  change (match left.add machine.computations right with
    | some sum => lift sum
    | none => report span (.cannotAdd left.typeName right.typeName) : Eval Value) _ = _
  cases left.add machine.computations right <;> rfl

theorem applyOperator_minus (span : Int) (left right : Value) (machine : Machine) :
    applyOperator span .minus left right machine =
      settle span (.cannotSubtract right.typeName left.typeName)
        (left.sub machine.computations right)
        { machine with computations := machine.computations + 1 } := by
  change (match left.sub machine.computations right with
    | some difference => lift difference
    | none => report span (.cannotSubtract right.typeName left.typeName) : Eval Value) _ = _
  cases left.sub machine.computations right <;> rfl

/-- The operands are evaluated from left to right, and then their values meet. -/
theorem value_binary {context : Context} {node first operator second : Node}
    (hkind : node.kind = .binary)
    (hoperands : node.children.filter isMeaningful = [first, operator, second])
    {machine behind after : Machine}
    (hleft : (evalNode context first).value machine = (.ok left, behind))
    (hright : (evalNode context second).value behind = (.ok right, after)) :
    (evalNode context node).value machine =
      applyOperator node.span operator.kind left right after := by
  rw [evalNode_eq, Operand.ofChildren]
  simp only [evalInner, hkind]
  rw [evalBinary, meaningful_map, hoperands]
  simp only [List.map_cons, List.map_nil, node_evalNode, Eval.bind_apply, hleft, hright]

/-- A sum and a difference have a value of the type that is due for the types of their operands,
and otherwise they are reported at the operation with both types.  Of the types that do not go
together, only a colour beside an array or another colour passes as an array. -/
theorem operations_typed {context : Context} {node first operator second : Node}
    (hkind : node.kind = .binary)
    (hoperands : node.children.filter isMeaningful = [first, operator, second])
    {machine behind after : Machine}
    (hleft : (evalNode context first).value machine = (.ok left, behind))
    (hright : (evalNode context second).value behind = (.ok right, after)) :
    (operator.kind = .plus →
      Operates left right (left.Adds right) node.span (.cannotAdd left.typeName right.typeName)
        ((evalNode context node).value machine).1) ∧
    (operator.kind = .minus →
      Operates left right (left.Subtracts right) node.span
        (.cannotSubtract right.typeName left.typeName)
        ((evalNode context node).value machine).1) := by
  rw [value_binary hkind hoperands hleft hright]
  constructor
  · rintro hplus
    rw [hplus, applyOperator_plus]
    exact .of_ruled (Value.ruled_add _ left right) _
  · rintro hminus
    rw [hminus, applyOperator_minus]
    exact .of_ruled (Value.ruled_sub _ left right) _

/-- A colour with the operator and itself. -/
def doubledRed (operator : Kind) : Node :=
  ⟨.binary, "", [⟨.ident, "red", [], 2, none⟩, ⟨operator, "", [], 3, none⟩,
    ⟨.ident, "red", [], 4, none⟩], 1, none⟩

theorem operations_typed_doubledRed :
    let red : Value := .color ⟨255, 65, 54, 255⟩
    let run (operator : Kind) := (evalNode ⟨0, fun _ _ => pure []⟩ (doubledRed operator)).value
      { world := { root := .current } }
    Operates red red (red.Adds red) 1 (.cannotAdd red.typeName red.typeName) (run .plus).1 ∧
      Operates red red (red.Subtracts red) 1 (.cannotSubtract red.typeName red.typeName)
        (run .minus).1 := by
  intro red run
  exact ⟨(@operations_typed red red ⟨0, fun _ _ => pure []⟩ (doubledRed .plus) _ _ _ rfl rfl
      _ _ _ rfl rfl).1 rfl,
    (@operations_typed red red ⟨0, fun _ _ => pure []⟩ (doubledRed .minus) _ _ _ rfl rfl
      _ _ _ rfl rfl).2 rfl⟩

/-- A colour and an array add up, although their types differ. -/
theorem color_joins_array :
    (Value.color ⟨255, 65, 54, 255⟩).typeName ≠ (Value.array [.int 1]).typeName ∧
      (applyOperator 1 .plus (.color ⟨255, 65, 54, 255⟩) (.array [.int 1])
        { world := { root := .current } }).1 =
          .ok (.array [.int 255, .int 65, .int 54, .int 255, .int 1]) ∧
      (compile ⟨[]⟩ ⟨(World.set { root := .current } { names := ["m"] }
        "#repr(red + (1,))").2, "", 0⟩).1.toOption.map Compiled.ok = some true :=
  ⟨by decide, rfl, by decide +kernel⟩

end Galley.Compile
