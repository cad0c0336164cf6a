import Galley.Document.Value
import Mathlib.Logic.Basic

/-!
# Sums and differences

Which values can be added or subtracted is a matter of their types, as these are named in reports.
The operators know types from what they are stored as, so a colour, which is stored as the list of
its channels, joins with lists.  Apart from that the two views agree for every pair of types, and
what has no sum or difference is reported with both names.
-/

namespace Galley.Document

namespace Value

variable {origin : Nat} {left right value : Value} {rule : Value → Prop}

/-! ## Types -/

/-- Whether a value has the type of a number. -/
def IsNumber (value : Value) : Prop :=
  value.typeName = "integer" ∨ value.typeName = "float"

/-- Whether a value is stored as a list. -/
def IsListed (value : Value) : Prop :=
  value.typeName = "array" ∨ value.typeName = "color"

theorem isSome_arithmetic?_iff : value.arithmetic?.isSome ↔ value.IsNumber := by
  cases value <;> simp [arithmetic?, IsNumber, typeName]

theorem isSome_items?_iff : value.items?.isSome ↔ value.IsListed := by
  cases value <;> simp [items?, IsListed, typeName]

/-- An integer meets a float, for which it is too large. -/
def Overflows (left right : Value) : Prop :=
  ∃ n x origin, Galley.Number.floatOfInt? n = Option.none ∧
    (left = .int n ∧ right = .float x origin ∨ left = .float x origin ∧ right = .int n)

theorem Overflows.numbers (hoverflows : left.Overflows right) :
    left.IsNumber ∧ right.IsNumber := by
  obtain ⟨n, x, origin, -, ⟨rfl, rfl⟩ | ⟨rfl, rfl⟩⟩ := hoverflows
  · exact ⟨.inl rfl, .inr rfl⟩
  · exact ⟨.inr rfl, .inl rfl⟩

/-! ## Rules -/

/-- The types of a sum: numbers add up to a number, and texts, lengths, contents and arrays to one
of their kind.  A colour beside an array or a colour counts as the array of its channels. -/
inductive Adds (left right : Value) : Value → Prop
  | numbers {sum : Value} (hleft : left.IsNumber) (hright : right.IsNumber)
      (hsum : sum.IsNumber) : Adds left right sum
  | alike {sum : Value} (hsame : left.typeName = right.typeName)
      (hjoins : left.typeName ∈ ["string", "length", "content", "array"])
      (hsum : sum.typeName = left.typeName) : Adds left right sum
  | channels {items items' : List Value}
      (hcolor : left.typeName = "color" ∨ right.typeName = "color") (hleft : left.items? = some items)
      (hright : right.items? = some items') : Adds left right (.array (items ++ items'))

/-- The types of a difference: only numbers and lengths have one. -/
inductive Subtracts (left right : Value) : Value → Prop
  | numbers {difference : Value} (hleft : left.IsNumber) (hright : right.IsNumber)
      (hdifference : difference.IsNumber) : Subtracts left right difference
  | lengths {difference : Value} (hleft : left.typeName = "length")
      (hright : right.typeName = "length") (hdifference : difference.typeName = "length") :
      Subtracts left right difference

/-- What an operation comes to is what a rule allows. -/
structure Ruled (left right : Value) (rule : Value → Prop)
    (outcome : Option (Except Failure Value)) : Prop where
  /-- It comes to nothing exactly where the rule allows no value. -/
  eq_none_iff : outcome = Option.none ↔ ¬∃ value, rule value
  value : ∀ value, outcome = some (.ok value) → rule value
  failure : ∀ failure, outcome = some (.error failure) ↔
    failure = .integerTooLarge ∧ left.Overflows right

namespace Ruled

theorem of_ok (hrule : rule value) (hfits : ¬left.Overflows right) :
    Ruled left right rule (some (.ok value)) where
  eq_none_iff := iff_of_false nofun fun hnone => hnone ⟨value, hrule⟩
  value _ hvalue := Except.ok.inj (Option.some.inj hvalue) ▸ hrule
  failure _ := iff_of_false nofun fun hfailure => hfits hfailure.2

theorem of_none (hrule : ¬∃ value, rule value) (hfits : ¬left.Overflows right) :
    Ruled left right rule Option.none where
  eq_none_iff := iff_of_true rfl hrule
  value _ hvalue := nomatch hvalue
  failure _ := iff_of_false nofun fun hfailure => hfits hfailure.2

/-- An integer beside a float becomes a float first, if it can. -/
theorem of_toFloat {n : Int} (hrule : ∀ value, value.IsNumber → rule value)
    (hoverflows : left.Overflows right ↔ Galley.Number.floatOfInt? n = Option.none)
    (onFloat : Float → Float) :
    Ruled left right rule (some do return float (onFloat (← toFloat n)) origin) := by
  have hnotNone (outcome : Except Failure Value) :
      some outcome = Option.none ↔ ¬∃ value, rule value :=
    iff_of_false nofun fun hnone => hnone ⟨.int 0, hrule _ (.inl rfl)⟩
  unfold toFloat
  cases hfloat : Galley.Number.floatOfInt? n with
  | none =>
    refine ⟨hnotNone _, fun _ hvalue => (nomatch hvalue), fun failure => ⟨fun hfailure => ?_, ?_⟩⟩
    · exact ⟨(Except.error.inj (Option.some.inj hfailure)).symm, hoverflows.2 hfloat⟩
    · rintro ⟨rfl, -⟩
      rfl
  | some x =>
    refine ⟨hnotNone _, fun value hvalue => ?_, fun failure => iff_of_false nofun ?_⟩
    · exact Except.ok.inj (Option.some.inj hvalue) ▸ hrule _ (.inr rfl)
    · rintro ⟨-, hlarge⟩
      rw [hoverflows, hfloat] at hlarge
      cases hlarge

/-- Numbers come to a number, unless one of them has to become a float and cannot. -/
theorem of_combine {onInts : Int → Int → Int} {onFloats : Float → Float → Float}
    {number number' : Number} (hleft : left.arithmetic? = some number)
    (hright : right.arithmetic? = some number') (hrule : ∀ value, value.IsNumber → rule value) :
    Ruled left right rule (some (combine origin onInts onFloats number number')) := by
  cases left <;> cases hleft <;> cases right <;> cases hright
  case int.refl.int.refl m n =>
    exact of_ok (hrule _ (.inl rfl)) (by simp [Overflows])
  case float.refl.float.refl x origin y origin' =>
    exact of_ok (hrule _ (.inr rfl)) (by simp [Overflows])
  case int.refl.float.refl n x origin =>
    exact of_toFloat hrule (by simp [Overflows]) fun left => onFloats left x
  case float.refl.int.refl x origin n =>
    exact of_toFloat hrule (by simp [Overflows]) (onFloats x)

end Ruled

theorem not_numbers (hnumbers : ∀ number number', left.arithmetic? = some number →
    right.arithmetic? = some number' → False) : ¬(left.IsNumber ∧ right.IsNumber) := by
  rintro ⟨hleft, hright⟩
  obtain ⟨number, hnumber⟩ := Option.isSome_iff_exists.1 (isSome_arithmetic?_iff.2 hleft)
  obtain ⟨number', hnumber'⟩ := Option.isSome_iff_exists.1 (isSome_arithmetic?_iff.2 hright)
  exact hnumbers number number' hnumber hnumber'

/-- Two values of one type that can be joined. -/
inductive Joined : Value → Value → Prop
  | texts (text text' : String) : Joined (.str text) (.str text')
  | lengths (length length' : Length) : Joined (.length length) (.length length')
  | contents (content content' : Content) : Joined (.content content) (.content content')
  | arrays (items items' : List Value) : Joined (.array items) (.array items')

theorem joined_of_alike (hsame : left.typeName = right.typeName)
    (hjoins : left.typeName ∈ ["string", "length", "content", "array"]) : Joined left right := by
  cases left <;> simp [typeName] at hjoins <;> cases right <;> simp [typeName] at hsame
  · exact .texts ..
  · exact .lengths ..
  · exact .contents ..
  · exact .arrays ..

theorem ruled_add (origin : Nat) (left right : Value) :
    Ruled left right (Adds left right) (left.add origin right) := by
  unfold add
  split
  · rename_i number number' hleft hright
    have hnumbers : left.IsNumber ∧ right.IsNumber :=
      ⟨isSome_arithmetic?_iff.1 (hleft ▸ rfl), isSome_arithmetic?_iff.1 (hright ▸ rfl)⟩
    exact .of_combine hleft hright fun sum hsum => .numbers hnumbers.1 hnumbers.2 hsum
  · -- Without two numbers nothing overflows, and the values join or they do not.
    rename_i hnumbers
    replace hnumbers := not_numbers hnumbers
    have hfits : ¬left.Overflows right := fun hoverflows => hnumbers hoverflows.numbers
    split
    · exact .of_ok (.alike rfl (by simp [typeName]) rfl) hfits
    · exact .of_ok (.alike rfl (by simp [typeName]) rfl) hfits
    · exact .of_ok (.alike rfl (by simp [typeName]) rfl) hfits
    · rename_i htexts hlengths hcontents
      split
      · rename_i items items' hleft hright
        have hlisted := isSome_items?_iff.1 (hleft ▸ rfl : left.items?.isSome)
        have hlisted' := isSome_items?_iff.1 (hright ▸ rfl : right.items?.isSome)
        by_cases hcolor : left.typeName = "color" ∨ right.typeName = "color"
        · exact .of_ok (.channels hcolor hleft hright) hfits
        · obtain ⟨hplain, hplain'⟩ := not_or.1 hcolor
          have harray := hlisted.resolve_right hplain
          have harray' := hlisted'.resolve_right hplain'
          exact .of_ok (.alike (harray.trans harray'.symm) (by simp [harray]) harray.symm) hfits
      · rename_i hlists
        refine .of_none ?_ hfits
        rintro ⟨sum, ⟨hleft, hright, -⟩ | ⟨hsame, hjoins, -⟩ | ⟨-, hleft, hright⟩⟩
        · exact hnumbers ⟨hleft, hright⟩
        · cases joined_of_alike hsame hjoins with
          | texts text text' => exact htexts _ _ rfl rfl
          | lengths length length' => exact hlengths _ _ rfl rfl
          | contents content content' => exact hcontents _ _ rfl rfl
          | arrays items items' => exact hlists _ _ rfl rfl
        · exact hlists _ _ hleft hright

theorem ruled_sub (origin : Nat) (left right : Value) :
    Ruled left right (Subtracts left right) (left.sub origin right) := by
  unfold sub
  split
  · rename_i number number' hleft hright
    have hnumbers : left.IsNumber ∧ right.IsNumber :=
      ⟨isSome_arithmetic?_iff.1 (hleft ▸ rfl), isSome_arithmetic?_iff.1 (hright ▸ rfl)⟩
    exact .of_combine hleft hright fun sum hsum => .numbers hnumbers.1 hnumbers.2 hsum
  · rename_i hnumbers
    replace hnumbers := not_numbers hnumbers
    have hfits : ¬left.Overflows right := fun hoverflows => hnumbers hoverflows.numbers
    split
    · exact .of_ok (.lengths rfl rfl rfl) hfits
    · rename_i hlengths
      refine .of_none ?_ hfits
      rintro ⟨difference, ⟨hleft, hright, -⟩ | ⟨hleft, hright, -⟩⟩
      · exact hnumbers ⟨hleft, hright⟩
      · cases joined_of_alike (hleft.trans hright.symm) (by simp [hleft]) with
        | lengths length length' => exact hlengths _ _ rfl rfl
        | _ => simp [typeName] at hleft

end Value

end Galley.Document
