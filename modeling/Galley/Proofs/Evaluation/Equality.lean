import Galley.Proofs.Evaluation.Promise
import Galley.Proofs.Value.Equality

/-!
# Tests

A test takes two positional arguments and passes if the comparison takes them for equal, which it
does by their types as far as these are not mixed inside.
-/

namespace Galley.Compile

open Syntax Document Eval

variable {left right : Value}

/-- What is taken is missing afterwards, and nothing in front of it was wanted. -/
theorem take_eq_some {wanted : Arg → Bool} {args rest : List Arg} {value : Value}
    (htake : Arg.take wanted args = (some value, rest)) :
    ∃ front arg back, args = front ++ arg :: back ∧ (∀ other ∈ front, wanted other = false) ∧
      wanted arg = true ∧ arg.value = value ∧ rest = front ++ back := by
  induction args generalizing rest with
  | nil => cases htake
  | cons first others ih =>
    rw [Arg.take] at htake
    split at htake
    · rename_i hwanted
      cases htake
      exact ⟨[], first, others, rfl, List.forall_mem_nil _, hwanted, rfl, rfl⟩
    · rename_i hunwanted
      cases hothers : Arg.take wanted others with
      | mk taken kept =>
        rw [hothers] at htake
        cases htake
        obtain ⟨front, arg, back, rfl, hfront, hwanted, hvalue, rfl⟩ := ih hothers
        exact ⟨first :: front, arg, back, rfl,
          List.forall_mem_cons.2 ⟨Bool.eq_false_of_not_eq_true hunwanted, hfront⟩, hwanted, hvalue,
          rfl⟩

/-- Two positional arguments and no others are two of which the second is left when the first has
been taken. -/
theorem two_positional {args rest : List Arg} (hfirst : Arg.next args = (some left, rest))
    (hsecond : Arg.next rest = (some right, [])) :
    ∃ place place', args = [⟨none, left, place⟩, ⟨none, right, place'⟩] := by
  obtain ⟨front, first, back, rfl, hfront, hname, hleft, hrest⟩ := take_eq_some hfirst
  obtain ⟨front', second, back', rfl, -, hname', hright, hnone⟩ := take_eq_some hsecond
  obtain ⟨rfl, rfl⟩ := List.append_eq_nil_iff.1 hnone.symm
  obtain ⟨rfl, rfl⟩ | ⟨rfl, rfl⟩ := List.singleton_eq_append_iff.1 hrest
  · obtain ⟨name, value, place⟩ := first
    obtain ⟨name', value', place'⟩ := second
    obtain rfl := Option.isNone_iff_eq_none.1 hname
    obtain rfl := Option.isNone_iff_eq_none.1 hname'
    exact ⟨place, place', by rw [← hleft, ← hright]; rfl⟩
  · exact absurd hname' (by rw [hfront second List.mem_cons_self]; exact Bool.false_ne_true)

theorem expect_cases (span : Int) (what : String) (args : List Arg) (machine : Machine) :
    (∃ value rest, Arg.next args = (some value, rest) ∧
      Arg.expect span what args machine = (.ok (value, rest), machine)) ∨
      ∃ stop, Arg.expect span what args machine = (.error stop, machine) := by
  rw [Arg.expect]
  rcases Arg.next args with ⟨_ | value, rest⟩
  · exact .inr ⟨_, rfl⟩
  · exact .inl ⟨value, rest, rfl, rfl⟩

theorem test_pair_iff (span place place' : Int) (left right : Value) (machine : Machine) :
    (∃ value, (Native.test span [⟨none, left, place⟩, ⟨none, right, place'⟩] machine).1 =
      .ok value) ↔ left.equal right = true := by
  change (∃ value, ((if left.equal right = true then pure .none else do
    let leftText ← lift left.repr
    let rightText ← lift right.repr
    report span (.assertionFailed leftText rightText) : Eval Value) machine).1 = .ok value) ↔ _
  by_cases hequal : left.equal right = true
  · rw [if_pos hequal]
    exact iff_of_true ⟨.none, rfl⟩ hequal
  · refine iff_of_false ?_ hequal
    rintro ⟨value, hpasses⟩
    rw [if_neg hequal] at hpasses
    cases hleft : left.repr with
    | error failure =>
      rw [hleft] at hpasses
      cases hpasses
    | ok leftText =>
      rw [hleft] at hpasses
      cases hright : right.repr with
      | error failure =>
        rw [hright] at hpasses
        cases hpasses
      | ok rightText =>
        rw [hright] at hpasses
        cases hpasses

/-- A test that passes has been given two positional arguments. -/
theorem pair_of_test_passes {span : Int} {args : List Arg} {machine : Machine} {value : Value}
    (hpasses : (Native.test span args machine).1 = .ok value) :
    ∃ left right place place', args = [⟨none, left, place⟩, ⟨none, right, place'⟩] := by
  rw [Native.test, Eval.bind_apply] at hpasses
  obtain ⟨left, rest, hfirst, hexpect⟩ | ⟨stop, hexpect⟩ :=
    expect_cases span "left-hand side" args machine
  · rw [hexpect] at hpasses
    dsimp only at hpasses
    rw [Eval.bind_apply] at hpasses
    obtain ⟨right, rest', hsecond, hexpect'⟩ | ⟨stop, hexpect'⟩ :=
      expect_cases span "right-hand side" rest machine
    · rw [hexpect'] at hpasses
      cases rest' with
      | cons => cases hpasses
      | nil => exact ⟨left, right, two_positional hfirst hsecond⟩
    · rw [hexpect'] at hpasses
      cases hpasses
  · rw [hexpect] at hpasses
    cases hpasses

/-- A test passes for two values that are taken for equal, and for no other arguments. -/
theorem test_passes_iff (span : Int) (args : List Arg) (machine : Machine) :
    (∃ value, (Native.test span args machine).1 = .ok value) ↔
      ∃ left right place place', args = [⟨none, left, place⟩, ⟨none, right, place'⟩] ∧
        left.equal right = true := by
  constructor
  · rintro ⟨value, hpasses⟩
    obtain ⟨left, right, place, place', rfl⟩ := pair_of_test_passes hpasses
    exact ⟨left, right, place, place', rfl, (test_pair_iff ..).1 ⟨value, hpasses⟩⟩
  · rintro ⟨left, right, place, place', rfl, hequal⟩
    exact (test_pair_iff ..).2 hequal

/-- Values without a float that is no number are compared by their types, except that booleans in
arrays count as numbers and colours as the arrays of their channels, and tests pass for what is
taken for equal. -/
theorem equality_typed {left right : Value} (hleft : left.Defined) (hright : right.Defined) :
    Value.Compared left right ∧ Value.Compared right left ∧
      ∀ (span : Int) (args : List Arg) (machine : Machine), args.map Arg.value = [left, right] →
        ((∃ value, (Native.test span args machine).1 = .ok value) ↔
          args.map Arg.name = [none, none] ∧ left.equal right = true) := by
  refine ⟨Value.compared hleft, Value.compared hright, fun span args machine hvalues => ?_⟩
  rw [test_passes_iff]
  constructor
  · rintro ⟨left', right', place, place', rfl, hequal⟩
    obtain ⟨rfl, rfl⟩ : left' = left ∧ right' = right := by simpa using hvalues
    exact ⟨rfl, hequal⟩
  · rintro ⟨hnames, hequal⟩
    match args, hvalues, hnames with
    | [⟨_, _, place⟩, ⟨_, _, place'⟩], rfl, rfl => exact ⟨left, right, place, place', rfl, hequal⟩

theorem equality_typed_arrays :
    (Value.array [.bool true]).Defined ∧ (Value.array [.int 1]).Defined ∧
      Value.Compared (.array [.bool true]) (.array [.int 1]) := by
  have hleft : (Value.array [.bool true]).Defined := ⟨trivial, trivial⟩
  have hright : (Value.array [.int 1]).Defined := ⟨trivial, trivial⟩
  exact ⟨hleft, hright, (equality_typed hleft hright).1⟩

/-- A boolean in an array equals a number, and a colour equals an array. -/
theorem tests_pass_across_types :
    (Value.array [.bool true]).equal (.array [.int 1]) = true ∧
      ¬Value.Agree (.array [.bool true]) (.array [.int 1]) ∧
      (Value.color ⟨255, 65, 54, 255⟩).equal
        (.array [.int 255, .int 65, .int 54, .int 255]) = true ∧
      ¬Value.Agree (.color ⟨255, 65, 54, 255⟩)
        (.array [.int 255, .int 65, .int 54, .int 255]) ∧
      (compile ⟨[]⟩ ⟨(World.set { root := .current } { names := ["m"] }
        "#test((true,), (1,))").2, "", 0⟩).1.toOption.map Compiled.ok = some true := by
  refine ⟨by decide, fun hagree => ?_, by decide, fun hagree => ?_, by decide +kernel⟩
  · obtain ⟨hitem, -⟩ := List.forall₂_cons.1 (Value.agree_array_iff.1 hagree)
    simpa [Value.typeName, Value.IsNumber] using hitem.typeName
  · simpa [Value.typeName, Value.IsNumber] using hagree.typeName

end Galley.Compile
