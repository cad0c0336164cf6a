import Galley.Number.Read
import Mathlib.Data.List.Basic
import Mathlib.Data.List.TakeWhile

/-!
# Written integers

An integer is written as a run of ASCII digits behind a sign.  Whatever is written
like this is read, unless there are too many digits, and the digits of a number give
the number back.
-/

namespace Galley

namespace Text

theorem toNat_of_isAsciiDigit {c : Char} (hdigit : isAsciiDigit c = true) :
    48 ≤ c.toNat ∧ c.toNat ≤ 57 := by
  simpa [isAsciiDigit, Char.le_def, UInt32.le_iff_toNat_le] using hdigit

theorem isSpace_of_isAsciiDigit {c : Char} (hdigit : isAsciiDigit c = true) :
    isSpace c = false := by
  have hrange := toNat_of_isAsciiDigit hdigit
  simp only [isSpace, Bool.and_eq_false_iff, Bool.or_eq_false_iff, beq_eq_false_iff_ne,
    decide_eq_false_iff_not]
  omega

theorem isPlainSpace_of_isAsciiDigit {c : Char} (hdigit : isAsciiDigit c = true) :
    isPlainSpace c = false := by
  rw [isPlainSpace, isSpace_of_isAsciiDigit hdigit, Bool.false_and]

theorem dropWhile_eq_self {drops : Char → Bool} {chars : List Char}
    (hhead : ∀ c ∈ chars.head?, drops c = false) : chars.dropWhile drops = chars := by
  cases chars with
  | nil => rfl
  | cons c chars => rw [List.dropWhile_cons_of_neg (by simpa using hhead c rfl)]

theorem trimWhile_of_forall {drops : Char → Bool} {chars : List Char}
    (hkept : ∀ c ∈ chars, drops c = false) : trimWhile drops chars = chars := by
  have hdrop : ∀ text : List Char, (∀ c ∈ text, c ∈ chars) → text.dropWhile drops = text :=
    fun text htext =>
      dropWhile_eq_self fun c hc => hkept c (htext c (List.mem_of_mem_head? hc))
  rw [trimWhile, dropWhileEnd, hdrop chars fun _ => id, hdrop chars.reverse (by simp),
    List.reverse_reverse]

end Text

namespace Number

open Text

/-! ## Underscores -/

theorem separatesDigits_of_not_mem {digits : List Char} (hdigits : digits ≠ [])
    (hplain : '_' ∉ digits) : separatesDigits digits = true := by
  induction digits using separatesDigits.induct with
  | case1 => exact absurd rfl hdigits
  | case2 => exact absurd List.mem_cons_self hplain
  | case3 => exact absurd List.mem_cons_self hplain
  | case4 c hc => simp [separatesDigits]
  | case5 c rest hlast hdouble hrest ih =>
    have hseparated := ih hrest (List.not_mem_of_not_mem_cons hplain)
    rwa [separatesDigits]
    · exact hlast
    · exact hdouble
    · exact hrest

theorem filter_underscore_of_not_mem {digits : List Char} (hplain : '_' ∉ digits) :
    digits.filter (· != '_') = digits := by
  refine List.filter_eq_self.2 fun c hc => bne_iff_ne.2 ?_
  rintro rfl
  exact hplain hc

/-! ## Signs -/

/-- A sign is split off from the digits behind it, and nothing else is. -/
theorem splitSign_signed {sign digits : List Char} (hsign : sign = [] ∨ sign = ['-'])
    (hdigits : digits ≠ []) (hall : ∀ c ∈ digits, isAsciiDigit c = true) (rest : List Char) :
    splitSign (sign ++ (digits ++ rest)) = (!sign.isEmpty, digits ++ rest) := by
  obtain rfl | rfl := hsign
  · obtain ⟨c, digits, rfl⟩ := List.exists_cons_of_ne_nil hdigits
    rw [List.nil_append, List.cons_append, splitSign]
    · rfl
    · rintro _ ⟨⟩
      cases hall '-' List.mem_cons_self
    · rintro _ ⟨⟩
      cases hall '+' List.mem_cons_self
  · rfl

/-- Of the digits behind a sign only the count is looked at. -/
theorem readInteger_signed {sign digits : List Char} (hsign : sign = [] ∨ sign = ['-'])
    (hdigits : digits ≠ []) (hall : ∀ c ∈ digits, isAsciiDigit c = true) :
    readInteger (sign ++ digits) =
      if digitLimit < digits.length then .error (.unreadableInteger digits.length)
      else .ok (if !sign.isEmpty then -(decimalNumber digits : Int) else decimalNumber digits) := by
  have hkept : ∀ c ∈ sign ++ digits, isPlainSpace c = false := by
    intro c hc
    obtain hc | hc := List.mem_append.1 hc
    · obtain rfl | rfl := hsign
      · cases hc
      · obtain rfl := List.mem_singleton.1 hc
        rfl
    · exact isPlainSpace_of_isAsciiDigit (hall c hc)
  have hsplit : splitSign (sign ++ digits) = (!sign.isEmpty, digits) := by
    simpa using splitSign_signed hsign hdigits hall []
  have hrun : digits.takeWhile (fun c => (decimalValue? c).isSome || c == '_') = digits := by
    refine List.takeWhile_eq_self_iff.2 fun c hc => ?_
    rw [decimalValue?, if_pos (hall c hc)]
    rfl
  have hplain : '_' ∉ digits := fun hmem => by cases hall '_' hmem
  have hhead : digits.head? ≠ some '_' := fun hhead => hplain (List.mem_of_mem_head? hhead)
  rw [readInteger, trimWhile_of_forall hkept]
  simp only [hsplit, hrun, filter_underscore_of_not_mem hplain,
    separatesDigits_of_not_mem hdigits hplain, beq_eq_false_iff_ne.2 hhead, Bool.not_true,
    Bool.or_false, Bool.false_eq_true, if_false, Nat.lt_irrefl]
  rfl

/-! ## Numbers and their digits -/

theorem isAsciiDigit_of_mem_toDigits {n : Nat} {c : Char} (hc : c ∈ Nat.toDigits 10 n) :
    isAsciiDigit c = true := by
  have hdigit := Nat.isDigit_of_mem_toDigits (by decide) (by decide) hc
  simpa [isAsciiDigit, Char.isDigit, Char.le_def] using hdigit

theorem decimalNumber_eq_ofDigitChars {digits : List Char}
    (hall : ∀ c ∈ digits, isAsciiDigit c = true) :
    decimalNumber digits = Nat.ofDigitChars 10 digits 0 := by
  rw [decimalNumber, Nat.ofDigitChars]
  refine List.foldl_ext _ _ 0 fun total c hc => ?_
  rw [decimalValue?, if_pos (hall c hc)]
  rfl

theorem decimalNumber_toDigits (n : Nat) : decimalNumber (Nat.toDigits 10 n) = n := by
  rw [decimalNumber_eq_ofDigitChars fun c => isAsciiDigit_of_mem_toDigits,
    Nat.ofDigitChars_toDigits (by decide) (by decide)]

theorem length_toDigits_le {n limit : Nat} (hlimit : 0 < limit) (hn : n < tenPow limit) :
    (Nat.toDigits 10 n).length ≤ limit :=
  (Nat.length_toDigits_le_iff (by decide) hlimit).2 hn

theorem lt_tenPow {n limit : Nat} (hlimit : limit ≠ 0) (hn : n < 10) : n < tenPow limit :=
  Nat.lt_of_lt_of_le hn (Nat.le_self_pow hlimit 10)

/-- A number that is not too long is read back from its digits. -/
theorem readInteger_toDigits {n : Nat} (hshort : n < tenPow digitLimit) :
    readInteger (Nat.toDigits 10 n) = .ok (n : Int) := by
  have hlength : (Nat.toDigits 10 n).length ≤ digitLimit := length_toDigits_le (by decide) hshort
  have hread := readInteger_signed (.inl rfl) Nat.toDigits_ne_nil
    fun c => isAsciiDigit_of_mem_toDigits (n := n) (c := c)
  rw [List.nil_append, if_neg (Nat.not_lt.2 hlength), decimalNumber_toDigits] at hread
  exact hread

end Number

end Galley
