import Galley.Document.Value
import Galley.Proofs.Number.Magnitude

/-!
# The digits of values

Evaluation comes to larger integers only by adding and subtracting, one digit at a time.  The
integers of arrays come from elsewhere too: a colour has four channels of three digits.
-/

namespace Galley.Compile

open Document

/-! ## Values that cannot be written -/

/-- If a chain of two steps fails, one of them does. -/
theorem eq_error_of_bind {α β : Type} {first : Except Failure α} {next : α → Except Failure β}
    {failure : Failure} (herror : (first >>= next) = .error failure) :
    first = .error failure ∨ ∃ value, first = .ok value ∧ next value = .error failure := by
  cases first with
  | error other => exact .inl (by cases herror; rfl)
  | ok value => exact .inr ⟨value, rfl, herror⟩

/-- If not all values can be written, one of them cannot be. -/
theorem exists_repr_eq_error {failure : Failure} {values : List Value}
    (herror : Value.reprAll values = .error failure) :
    ∃ value ∈ values, value.repr = .error failure := by
  induction values with
  | nil => cases herror
  | cons value values ih =>
    rw [Value.reprAll] at herror
    obtain hvalue | ⟨text, -, hnext⟩ := eq_error_of_bind herror
    · exact ⟨value, List.mem_cons_self, hvalue⟩
    · obtain hvalues | ⟨texts, -, hnext⟩ := eq_error_of_bind hnext
      · obtain ⟨other, hother, hfailed⟩ := ih hvalues
        exact ⟨other, List.mem_cons_of_mem _ hother, hfailed⟩
      · cases hnext

end Galley.Compile

namespace Galley.Document

/-! ## Integers in values -/

namespace Value

mutual

/-- The integers that can be written where a value is. -/
def ints : Value → List Int
  | .int value => [value]
  | .color shade => shade.channels.map fun channel => (channel : Nat)
  | .array items => intsAll items
  | _ => []

def intsAll : List Value → List Int
  | [] => []
  | item :: items => item.ints ++ intsAll items

end

theorem mem_intsAll {n : Int} {items : List Value} :
    n ∈ intsAll items ↔ ∃ item ∈ items, n ∈ item.ints := by
  induction items with
  | nil => simp [intsAll]
  | cons item items ih => simp [intsAll, ih]

theorem intsAll_append (items items' : List Value) :
    intsAll (items ++ items') = intsAll items ++ intsAll items' := by
  induction items with
  | nil => rfl
  | cons item items ih => rw [List.cons_append, intsAll, intsAll, ih, List.append_assoc]

theorem intsAll_items {value : Value} {items : List Value} (hitems : value.items? = some items) :
    intsAll items = value.ints := by
  cases value with
  | array own =>
    obtain rfl := Option.some.inj hitems
    rw [ints]
  | color shade =>
    obtain rfl := Option.some.inj hitems
    simp [ints, intsAll, Color.channels]
  | _ => cases hitems

/-! ## Bounds -/

/-- The number that a value is has at most so many digits, and so has every integer in it that is
not one of a colour. -/
structure Within (digits : Nat) (value : Value) : Prop where
  int : ∀ n, value = .int n → n.natAbs < Galley.Number.tenPow digits
  ints : ∀ n ∈ value.ints, n.natAbs < Galley.Number.tenPow (max 3 digits)

variable {digits digits' origin : Nat} {value left right : Value}

theorem tenPow_le_tenPow (hdigits : digits ≤ digits') :
    Galley.Number.tenPow digits ≤ Galley.Number.tenPow digits' :=
  Nat.pow_le_pow_right (by decide) hdigits

theorem lt_of_tenPow_lt (hdigits : Galley.Number.tenPow digits < Galley.Number.tenPow digits') :
    digits < digits' :=
  (Nat.pow_lt_pow_iff_right (by decide : 1 < 10)).1 hdigits

namespace Within

theorem mono (hvalue : value.Within digits) (hdigits : digits ≤ digits') :
    value.Within digits' where
  int n hn := (hvalue.int n hn).trans_le (tenPow_le_tenPow hdigits)
  ints n hn := (hvalue.ints n hn).trans_le (tenPow_le_tenPow (by omega))

theorem of_ints_eq_nil (hnone : value.ints = []) : value.Within digits where
  int n hn := by
    rw [hn] at hnone
    cases hnone
  ints n hn := by
    rw [hnone] at hn
    cases hn

theorem of_int {n : Int} (hn : n.natAbs < Galley.Number.tenPow digits) :
    (Value.int n).Within digits where
  int m hm := Value.int.inj hm ▸ hn
  ints m hm := by
    obtain rfl := List.mem_singleton.1 hm
    exact hn.trans_le (tenPow_le_tenPow (Nat.le_max_right ..))

theorem array {items : List Value} (hitems : ∀ item ∈ items, item.Within digits) :
    (Value.array items).Within digits where
  int n hn := nomatch hn
  ints n hn := by
    obtain ⟨item, hitem, hn⟩ := mem_intsAll.1 hn
    exact (hitems item hitem).ints n hn

theorem of_mem_globals {entry : String × Value} (hentry : entry ∈ globals) :
    entry.2.Within digits := by
  obtain hentry | hentry := List.mem_append.1 hentry
  · obtain ⟨native, -, rfl⟩ := List.mem_map.1 hentry
    exact of_ints_eq_nil rfl
  · obtain ⟨⟨name, shade⟩, hshade, rfl⟩ := List.mem_map.1 hentry
    have hchannels : ∀ color ∈ colors, ∀ channel ∈ color.2.channels,
        channel < Galley.Number.tenPow 3 := by decide
    refine ⟨nofun, fun n hn => ?_⟩
    obtain ⟨channel, hchannel, rfl⟩ := List.mem_map.1 hn
    exact (hchannels _ hshade channel hchannel).trans_le (tenPow_le_tenPow (Nat.le_max_left ..))

end Within

/-! ## Written values -/

mutual

/-- The only way in which a value cannot be written is to hold an integer that is too long. -/
theorem repr_eq_error {failure : Failure} : ∀ value : Value, value.repr = .error failure →
    failure = .unwritableInteger ∧ ∃ n ∈ value.ints, Galley.Number.tenPow
      Galley.Number.digitLimit ≤ n.natAbs
  | .none | .bool _ | .float .. | .str _ | .length _ | .color _ | .content _ | .func _ => by
    intro herror
    rw [Value.repr] at herror
    cases herror
  | .int value => by
    intro herror
    rw [Value.repr] at herror
    obtain ⟨hfailure, hlong⟩ := Galley.Number.integerText_eq_error herror
    exact ⟨hfailure, value, List.mem_singleton_self _, hlong⟩
  | .array items => by
    intro herror
    rw [Value.repr] at herror
    obtain hitems | ⟨texts, -, hnext⟩ := Compile.eq_error_of_bind herror
    · rw [ints]
      exact reprAll_eq_error items hitems
    · cases hnext

theorem reprAll_eq_error {failure : Failure} : ∀ values : List Value,
    reprAll values = .error failure → failure = .unwritableInteger ∧
      ∃ n ∈ intsAll values, Galley.Number.tenPow Galley.Number.digitLimit ≤ n.natAbs
  | [] => by
    intro herror
    rw [reprAll] at herror
    cases herror
  | value :: values => by
    intro herror
    rw [reprAll] at herror
    rw [intsAll]
    obtain hvalue | ⟨text, -, hnext⟩ := Compile.eq_error_of_bind herror
    · obtain ⟨hfailure, n, hn, hlong⟩ := repr_eq_error value hvalue
      exact ⟨hfailure, n, List.mem_append_left _ hn, hlong⟩
    · obtain hvalues | ⟨texts, -, hnext⟩ := Compile.eq_error_of_bind hnext
      · obtain ⟨hfailure, n, hn, hlong⟩ := reprAll_eq_error values hvalues
        exact ⟨hfailure, n, List.mem_append_right _ hn, hlong⟩
      · cases hnext

end

/-- Values with few digits can be written. -/
theorem Within.repr_eq_error (hvalue : value.Within digits) {failure : Failure}
    (herror : value.repr = .error failure) :
    failure = .unwritableInteger ∧ Galley.Number.digitLimit < digits := by
  obtain ⟨hfailure, n, hn, hlong⟩ := Value.repr_eq_error value herror
  have hless := lt_of_tenPow_lt (hlong.trans_lt (hvalue.ints n hn))
  exact ⟨hfailure, (lt_max_iff.1 hless).resolve_left (by decide)⟩

/-! ## Sums and differences -/

/-- The number that a value is has at most so many digits, if it is an integer. -/
def Number.Within (digits : Nat) : Number → Prop
  | .int n => n.natAbs < Galley.Number.tenPow digits
  | .float .. => True

theorem Within.arithmetic (hvalue : value.Within digits) {number : Number}
    (hnumber : value.arithmetic? = some number) : number.Within digits := by
  cases value with
  | int n =>
    obtain rfl := Option.some.inj hnumber
    exact hvalue.int n rfl
  | float value origin =>
    obtain rfl := Option.some.inj hnumber
    trivial
  | _ => cases hnumber

/-- What an operation comes to: numbers with one more digit, or a number that is no float. -/
structure Combines (digits : Nat) (result : Except Failure Value) : Prop where
  value : ∀ value, result = .ok value → value.Within (digits + 1)
  failure : ∀ failure, result = .error failure → failure = .integerTooLarge ∧ 308 < digits

theorem Combines.of_within (hvalue : value.Within digits) : Combines digits (.ok value) where
  value _ hother := Except.ok.inj hother ▸ hvalue.mono (Nat.le_succ _)
  failure _ hfailure := nomatch hfailure

theorem toFloat_eq_error_of_lt {n : Int} (hn : n.natAbs < Galley.Number.tenPow digits)
    {failure : Failure} (herror : toFloat n = .error failure) :
    failure = .integerTooLarge ∧ 308 < digits := by
  rw [toFloat] at herror
  split at herror
  · cases herror
  · rename_i hlarge
    refine ⟨(Except.error.inj herror).symm, Nat.lt_of_not_le fun hdigits => ?_⟩
    exact Galley.Number.floatOfInt?_ne_none (hn.trans_le (tenPow_le_tenPow hdigits)) hlarge

theorem Combines.of_toFloat {n : Int} (hn : n.natAbs < Galley.Number.tenPow digits)
    (next : Float → Float) :
    Combines digits (do return .float (next (← toFloat n)) origin) := by
  cases hfloat : toFloat n with
  | ok value => exact .of_within (.of_ints_eq_nil rfl)
  | error failure =>
    refine ⟨fun _ hvalue => (nomatch hvalue), fun other hother => ?_⟩
    obtain rfl := Except.error.inj hother
    exact toFloat_eq_error_of_lt hn hfloat

theorem Combines.of_combine {onInts : Int → Int → Int} {onFloats : Float → Float → Float}
    (honInts : ∀ m n, (onInts m n).natAbs ≤ m.natAbs + n.natAbs) {left right : Number}
    (hleft : left.Within digits) (hright : right.Within digits) :
    Combines digits (combine origin onInts onFloats left right) := by
  cases left with
  | int m =>
    cases right with
    | int n =>
      refine ⟨fun value hvalue => ?_, fun _ hfailure => nomatch hfailure⟩
      obtain rfl := Except.ok.inj hvalue
      refine .of_int ((honInts m n).trans_lt ?_)
      calc m.natAbs + n.natAbs
          < Galley.Number.tenPow digits + Galley.Number.tenPow digits := Nat.add_lt_add hleft hright
        _ ≤ Galley.Number.tenPow digits * 10 := by omega
    | float value origin' => exact of_toFloat hleft fun left => onFloats left value
  | float value origin' =>
    cases right with
    | int n => exact of_toFloat hright (onFloats value)
    | float value' origin'' => exact of_within (.of_ints_eq_nil rfl)

variable {result : Except Failure Value}

theorem Combines.of_add (hleft : left.Within digits) (hright : right.Within digits)
    (hadd : left.add origin right = some result) : Combines digits result := by
  unfold add at hadd
  split at hadd
  · rename_i hm hn
    obtain rfl := Option.some.inj hadd
    exact of_combine Int.natAbs_add_le (hleft.arithmetic hm) (hright.arithmetic hn)
  · split at hadd
    · obtain rfl := Option.some.inj hadd
      exact of_within (.of_ints_eq_nil rfl)
    · obtain rfl := Option.some.inj hadd
      exact of_within (.of_ints_eq_nil rfl)
    · obtain rfl := Option.some.inj hadd
      exact of_within (.of_ints_eq_nil rfl)
    · split at hadd
      · rename_i hitems hitems'
        obtain rfl := Option.some.inj hadd
        refine of_within ⟨fun n hn => (by cases hn), fun n hn => ?_⟩
        rw [ints, intsAll_append, intsAll_items hitems, intsAll_items hitems'] at hn
        exact (List.mem_append.1 hn).elim (hleft.ints n) (hright.ints n)
      · cases hadd

theorem Combines.of_sub (hleft : left.Within digits) (hright : right.Within digits)
    (hsub : left.sub origin right = some result) : Combines digits result := by
  unfold sub at hsub
  split at hsub
  · rename_i hm hn
    obtain rfl := Option.some.inj hsub
    exact of_combine Int.natAbs_sub_le (hleft.arithmetic hm) (hright.arithmetic hn)
  · split at hsub
    · obtain rfl := Option.some.inj hsub
      exact of_within (.of_ints_eq_nil rfl)
    · cases hsub

end Value

end Galley.Document
