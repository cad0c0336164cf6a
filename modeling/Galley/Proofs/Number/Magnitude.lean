import Galley.Proofs.Number.Rounding
import Galley.Number.Read

/-!
# How large integers become

An integer has at most as many digits as its text has characters.  Below `10 ^ 308` it is the size
of a double, and up to the limit of digits it can be written.
-/

namespace Galley.Number

open Text

/-! ## Integers that are read -/

theorem decimalValue?_le {c : Char} {value : Nat} (hvalue : decimalValue? c = some value) :
    value ≤ 9 := by
  rw [decimalValue?] at hvalue
  split at hvalue
  · rename_i hdigit
    have hrange : c.toNat ≤ 57 := by
      rw [isAsciiDigit, Bool.and_eq_true, decide_eq_true_iff, decide_eq_true_iff] at hdigit
      exact UInt32.le_iff_toNat_le.1 hdigit.2
    rw [← Option.some.inj hvalue]
    exact Nat.sub_le_sub_right hrange 48
  · split at hvalue
    · cases hvalue
    · obtain ⟨range, -, rfl⟩ := Option.map_eq_some_iff.1 hvalue
      exact Nat.le_of_lt_succ (Nat.mod_lt _ (by decide))

theorem decimalNumber_lt (digits : List Char) : decimalNumber digits < tenPow digits.length := by
  suffices hfold : ∀ total, digits.foldl
      (fun total digit => 10 * total + (decimalValue? digit).getD 0) total <
        (total + 1) * 10 ^ digits.length by
    simpa [decimalNumber, tenPow] using hfold 0
  induction digits with
  | nil => exact fun total => by simp
  | cons digit digits ih =>
    intro total
    have hdigit : (decimalValue? digit).getD 0 ≤ 9 := by
      cases hvalue : decimalValue? digit with
      | none => exact Nat.zero_le _
      | some value => exact decimalValue?_le hvalue
    rw [List.foldl_cons, List.length_cons, Nat.pow_succ']
    calc digits.foldl _ (10 * total + (decimalValue? digit).getD 0)
        < (10 * total + (decimalValue? digit).getD 0 + 1) * 10 ^ digits.length := ih _
      _ ≤ (total + 1) * 10 * 10 ^ digits.length := Nat.mul_le_mul_right _ (by omega)
      _ = (total + 1) * (10 * 10 ^ digits.length) := Nat.mul_assoc ..

theorem splitSign_sublist (chars : List Char) : (splitSign chars).2.Sublist chars := by
  unfold splitSign
  split
  · exact List.sublist_cons_self _ _
  · exact List.sublist_cons_self _ _
  · exact .refl _

theorem trimWhile_sublist (drops : Char → Bool) (chars : List Char) :
    (trimWhile drops chars).Sublist chars := by
  have hback : ∀ text : List Char, (dropWhileEnd drops text).Sublist text := fun text => by
    simpa [dropWhileEnd] using (text.reverse.dropWhile_sublist drops).reverse
  exact (hback _).trans (chars.dropWhile_sublist drops)

/-- What becomes of a text that is read as an integer. -/
theorem readInteger_cases (chars : List Char) :
    (∃ literal, readInteger chars = .error (.invalidInteger literal)) ∨
    (∃ count, digitLimit < count ∧ count ≤ chars.length ∧
      readInteger chars = .error (.unreadableInteger count)) ∨
    ∃ value : Int, value.natAbs < tenPow chars.length ∧ readInteger chars = .ok value := by
  rw [readInteger]
  generalize hsplit : splitSign (trimWhile isPlainSpace chars) = signed
  obtain ⟨negative, body⟩ := signed
  dsimp only
  have hbody : body.Sublist chars :=
    (congrArg Prod.snd hsplit ▸ splitSign_sublist _).trans (trimWhile_sublist _ _)
  have hdigits : ((body.takeWhile fun c => (decimalValue? c).isSome || c == '_').filter
      (· != '_')).length ≤ chars.length :=
    (List.filter_sublist.trans ((List.takeWhile_sublist _).trans hbody)).length_le
  generalize body.takeWhile _ = run at hdigits ⊢
  generalize run.filter (· != '_') = digits at hdigits ⊢
  split
  · exact .inl ⟨_, rfl⟩
  · split
    · exact .inr (.inl ⟨_, ‹_›, hdigits, rfl⟩)
    · split
      · exact .inl ⟨_, rfl⟩
      · refine .inr (.inr ⟨_, ?_, rfl⟩)
        have hvalue : decimalNumber digits < tenPow chars.length :=
          (decimalNumber_lt digits).trans_le (Nat.pow_le_pow_right (by decide) hdigits)
        split
        · rwa [Int.natAbs_neg, Int.natAbs_natCast]
        · rwa [Int.natAbs_natCast]

/-! ## Integers as floats -/

/-- Integers below `10 ^ 308` are not too large. -/
theorem Double.isHuge_ofInt {n : Int} (hn : n.natAbs < tenPow 308) :
    (ofInt n).isHuge = false := by
  have hgreatest : IsDouble ((2 ^ 53 - 1) * twoPow 971 : Nat) :=
    isDouble_mul_twoPow (Nat.sub_le _ 1) 971
  have hsmall : |(n : ℚ)| ≤ ((2 ^ 53 - 1) * twoPow 971 : Nat) := by
    rw [← Int.cast_abs, ← Nat.cast_natAbs]
    exact Nat.cast_le.2 (hn.le.trans (by decide +kernel))
  apply isHuge_eq_false
  calc |(ofInt n).value| ≤ ((2 ^ 53 - 1) * twoPow 971 : Nat) :=
        (nearest_ofInt n).abs_le hgreatest hsmall
    _ < (twoPow 1024 : Nat) := Nat.cast_lt.2 (by decide +kernel)
    _ = 2 ^ 1024 := cast_twoPow 1024

theorem floatOfInt?_ne_none {n : Int} (hn : n.natAbs < tenPow 308) : floatOfInt? n ≠ none := by
  rw [floatOfInt?, Double.isHuge_ofInt hn]
  exact nofun

/-- An integer that cannot be written has more digits than the limit. -/
theorem integerText_eq_error {n : Int} {failure : Failure}
    (herror : integerText n = .error failure) :
    failure = .unwritableInteger ∧ tenPow digitLimit ≤ n.natAbs := by
  rw [integerText] at herror
  split at herror
  · rename_i hlong
    exact ⟨(Except.error.inj herror).symm, of_decide_eq_true hlong⟩
  · cases herror

end Galley.Number
