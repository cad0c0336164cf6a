import Galley.Proofs.Number.Rounding
import Mathlib

/-!
# What machine numbers stand for

Every machine number but the one that is no number stands for a rational number or for an infinity.
Two of them are equal to the machine exactly where they stand for the same, and the comparison with
an integer is exact too.
-/

namespace Galley.Number

open Float.Model

/-- A rational number, or what lies beyond all of them in a direction. -/
inductive Amount
  | rational (value : ℚ)
  | infinite (negative : Bool)
  deriving DecidableEq

/-- A number with a sign. -/
def signed (negative : Bool) (mantissa : Nat) : Int :=
  if negative then -mantissa else mantissa

namespace FloatParts

/-- What a machine number stands for. -/
def amount? : FloatParts → Option Amount
  | .nan => none
  | .infinite negative => some (.infinite negative)
  | .finite negative mantissa exponent =>
    some (.rational (Double.value ⟨signed negative mantissa, exponent⟩))

end FloatParts

/-! ## Unpacked floats -/

/-- The sign of a float in its parts. -/
def signOf (negative : Bool) : UnpackedFloat.Sign :=
  if negative then .negative else .positive

/-- A mantissa with the one exponent that goes with it. -/
def Canonical (mantissa : Nat) (exponent : Int) : Prop :=
  mantissa < 2 ^ 53 ∧ -1074 ≤ exponent ∧ (2 ^ 52 ≤ mantissa ∨ exponent = -1074)

/-- An unpacked float has the given parts. -/
inductive Unpacks : UnpackedFloat → FloatParts → Prop
  | nan : Unpacks .notANumber .nan
  | infinite (negative : Bool) : Unpacks (.infinity (signOf negative)) (.infinite negative)
  | zero (negative : Bool) : Unpacks (.zero (signOf negative)) (.finite negative 0 (-1074))
  | finite (negative : Bool) {mantissa : Nat} {exponent : Int} (hpos : 0 < mantissa)
      (hcanonical : Canonical mantissa exponent) :
      Unpacks (.finite (signOf negative) mantissa exponent hpos)
        (.finite negative mantissa exponent)

section Bits

variable (bits : BitVec Format.binary64.numBits)

theorem toNat_unpackMantissa :
    (UnpackedFloat.unpackMantissa bits).toNat = bits.toNat % twoPow 52 := by
  rw [UnpackedFloat.unpackMantissa, BitVec.toNat_cast, BitVec.extractLsb_toNat]
  rfl

theorem toNat_unpackExponent :
    (UnpackedFloat.unpackExponent bits).toNat = bits.toNat / twoPow 52 % 2048 := by
  rw [UnpackedFloat.unpackExponent, BitVec.toNat_cast, BitVec.extractLsb_toNat,
    Nat.shiftRight_eq_div_pow]
  rfl

theorem ofBitVec_unpackSign :
    UnpackedFloat.Sign.ofBitVec (UnpackedFloat.unpackSign bits) =
      signOf (decide (twoPow 63 ≤ bits.toNat)) := by
  have hbit : (UnpackedFloat.unpackSign bits).toNat = bits.toNat / twoPow 63 % 2 := by
    rw [UnpackedFloat.unpackSign, BitVec.toNat_cast, BitVec.extractLsb_toNat,
      Nat.shiftRight_eq_div_pow]
    rfl
  have hlt : bits.toNat < 2 * twoPow 63 := bits.isLt
  have hpower : twoPow 63 = 9223372036854775808 := rfl
  rw [UnpackedFloat.Sign.ofBitVec, signOf]
  by_cases hzero : UnpackedFloat.unpackSign bits = 0#1
  · rw [if_pos hzero, if_neg]
    rw [hzero, hpower, BitVec.toNat_zero] at hbit
    rw [decide_eq_true_eq, hpower]
    omega
  · rw [if_neg hzero, if_pos]
    rw [← BitVec.toNat_inj, hbit, hpower, BitVec.toNat_zero] at hzero
    rw [decide_eq_true_eq, hpower]
    omega

/-- A fraction behind the digit that is not stored. -/
theorem toNat_one_append (fraction : BitVec 52) :
    (1#1 ++ fraction).toNat = twoPow 52 + fraction.toNat := by
  rw [BitVec.toNat_append, ← Nat.shiftLeft_add_eq_or_of_lt fraction.isLt, Nat.shiftLeft_eq]
  simp [twoPow]

end Bits

theorem Unpacks.of_eq (negative : Bool) {mantissa mantissa' : Nat} {exponent exponent' : Int}
    (hpos : 0 < mantissa) (hmantissa : mantissa = mantissa') (hexponent : exponent = exponent')
    (hcanonical : Canonical mantissa' exponent') :
    Unpacks (.finite (signOf negative) mantissa exponent hpos)
      (.finite negative mantissa' exponent') := by
  subst hmantissa hexponent
  exact .finite negative hpos hcanonical

/-- The parts are read off the bits as the machine reads them. -/
theorem unpacks_of (x : Float) : Unpacks x.toModel.unpack (FloatParts.of x) := by
  have hbits : x.toBits.toNat = x.toModel.toBits.toBitVec.toNat := rfl
  have hnan : x.isNaN = (UnpackedFloat.unpack .binary64 x.toModel.toBits.toBitVec).isNaN := rfl
  rw [FloatParts.of, hnan, hbits, Float.Model.unpack]
  generalize x.toModel.toBits.toBitVec = bits
  rw [UnpackedFloat.unpack]
  dsimp only
  rw [ofBitVec_unpackSign, ← toNat_unpackMantissa, ← toNat_unpackExponent]
  generalize decide (twoPow 63 ≤ bits.toNat) = negative
  have hbias : (Format.binary64.exponentBias : Int) = 1023 := rfl
  have hpower : twoPow 52 = 2 ^ 52 := rfl
  have hfraction : (@UnpackedFloat.unpackMantissa .binary64 bits).toNat < 2 ^ 52 := BitVec.isLt _
  have hfield : (@UnpackedFloat.unpackExponent .binary64 bits).toNat < 2048 := BitVec.isLt _
  -- The exponent is stored as all ones, as all zeros, or as something between.
  split
  · rename_i hspecial
    rw [show (@UnpackedFloat.unpackExponent .binary64 bits).toNat = 2047 by rw [hspecial]; rfl]
    split
    · exact .infinite negative
    · exact .nan
  · rename_i hspecial
    have hlast : (@UnpackedFloat.unpackExponent .binary64 bits).toNat ≠ 2047 :=
      fun hlast => hspecial (BitVec.eq_of_toNat_eq hlast)
    rw [if_neg hlast]
    split
    · rename_i hsmall
      have hfirst : (@UnpackedFloat.unpackExponent .binary64 bits).toNat = 0 := by
        rw [hsmall]
        rfl
      rw [if_pos hfirst]
      split
      · rename_i hzero
        rw [show (@UnpackedFloat.unpackMantissa .binary64 bits).toNat = 0 by rw [hzero]; rfl]
        exact .zero negative
      · refine .of_eq negative _ rfl ?_ ⟨by omega, by omega, .inr rfl⟩
        rw [hfirst, hbias]
        rfl
    · rename_i hlarge
      have hfirst : (@UnpackedFloat.unpackExponent .binary64 bits).toNat ≠ 0 :=
        fun hfirst => hlarge (BitVec.eq_of_toNat_eq hfirst)
      rw [if_neg hfirst]
      refine .of_eq negative _ (toNat_one_append _) ?_ ⟨by omega, by omega, .inl (by omega)⟩
      rw [hbias]
      omega

/-! ## Comparison -/

variable {negative negative' : Bool} {mantissa mantissa' : Nat} {exponent exponent' : Int}

theorem value_signed (negative : Bool) (mantissa : Nat) (exponent : Int) :
    Double.value ⟨signed negative mantissa, exponent⟩ =
      (if negative then -1 else 1) * (mantissa * 2 ^ exponent) := by
  rw [Double.value, signed]
  cases negative <;> simp

theorem value_signed_zero (negative : Bool) (exponent : Int) :
    Double.value ⟨signed negative 0, exponent⟩ = 0 := by
  simp [value_signed]

theorem magnitude_pos (hpos : 0 < mantissa) : 0 < (mantissa * 2 ^ exponent : ℚ) :=
  mul_pos (Nat.cast_pos.2 hpos) (zpow_pos two_pos exponent)

theorem value_signed_ne_zero (hpos : 0 < mantissa) :
    Double.value ⟨signed negative mantissa, exponent⟩ ≠ 0 := by
  have hmagnitude : 0 < (mantissa * 2 ^ exponent : ℚ) := magnitude_pos hpos
  rw [value_signed]
  cases negative <;> simp only [Bool.false_eq_true, if_true, if_false] <;> linarith

/-- A number with a larger exponent has a larger magnitude. -/
theorem Canonical.not_lt_of_magnitude_eq (hcanonical : Canonical mantissa exponent)
    (hcanonical' : Canonical mantissa' exponent')
    (heq : (mantissa * 2 ^ exponent : ℚ) = mantissa' * 2 ^ exponent') : ¬exponent < exponent' := by
  intro hlt
  -- The mantissa of the larger exponent has 53 digits, so the other one would have more.
  obtain ⟨steps, hsteps⟩ := Int.eq_ofNat_of_zero_le (show 0 ≤ exponent' - exponent by omega)
  have hleast := hcanonical.2.1
  have hlarge : 2 ^ 52 ≤ mantissa' := hcanonical'.2.2.resolve_right (by omega)
  have hshifted : mantissa = mantissa' * 2 ^ steps := by
    rw [show exponent' = steps + exponent by omega, zpow_add₀ two_ne_zero, ← mul_assoc,
      zpow_natCast] at heq
    exact_mod_cast mul_right_cancel₀ (zpow_ne_zero exponent two_ne_zero) heq
  have hdouble : 2 ^ 1 ≤ 2 ^ steps := Nat.pow_le_pow_right two_pos (by omega)
  have hover : 2 ^ 52 * 2 ^ 1 ≤ mantissa := hshifted ▸ Nat.mul_le_mul hlarge hdouble
  exact absurd hcanonical.1 (Nat.not_lt.2 hover)

/-- A magnitude has one mantissa and one exponent. -/
theorem Canonical.eq_of_magnitude_eq (hcanonical : Canonical mantissa exponent)
    (hcanonical' : Canonical mantissa' exponent')
    (heq : (mantissa * 2 ^ exponent : ℚ) = mantissa' * 2 ^ exponent') :
    mantissa = mantissa' ∧ exponent = exponent' := by
  obtain rfl : exponent = exponent' :=
    le_antisymm (not_lt.1 (hcanonical'.not_lt_of_magnitude_eq hcanonical heq.symm))
      (not_lt.1 (hcanonical.not_lt_of_magnitude_eq hcanonical' heq))
  exact ⟨Nat.cast_injective (mul_right_cancel₀ (zpow_ne_zero exponent two_ne_zero) heq), rfl⟩

theorem value_signed_inj (hpos : 0 < mantissa) (hpos' : 0 < mantissa')
    (hcanonical : Canonical mantissa exponent) (hcanonical' : Canonical mantissa' exponent') :
    Double.value ⟨signed negative mantissa, exponent⟩ =
        Double.value ⟨signed negative' mantissa', exponent'⟩ ↔
      negative = negative' ∧ mantissa = mantissa' ∧ exponent = exponent' := by
  have hmagnitude : 0 < (mantissa * 2 ^ exponent : ℚ) := magnitude_pos hpos
  have hmagnitude' : 0 < (mantissa' * 2 ^ exponent' : ℚ) := magnitude_pos hpos'
  constructor
  · intro heq
    rw [value_signed, value_signed] at heq
    obtain rfl : negative = negative' := by
      cases negative <;> cases negative' <;> simp at heq ⊢ <;> linarith
    refine ⟨rfl, hcanonical.eq_of_magnitude_eq hcanonical' ?_⟩
    cases negative <;> simpa using heq
  · rintro ⟨rfl, rfl, rfl⟩
    rfl

namespace FloatParts

theorem amount?_zero (negative : Bool) (exponent : Int) :
    (finite negative 0 exponent).amount? = some (.rational 0) := by
  rw [amount?, value_signed_zero]

theorem amount?_ne_zero (hpos : 0 < mantissa) :
    (finite negative mantissa exponent).amount? ≠ some (.rational 0) := fun hzero =>
  value_signed_ne_zero hpos (Amount.rational.inj (Option.some.inj hzero))

theorem amount?_inj (hpos : 0 < mantissa) (hpos' : 0 < mantissa')
    (hcanonical : Canonical mantissa exponent) (hcanonical' : Canonical mantissa' exponent') :
    (finite negative mantissa exponent).amount? = (finite negative' mantissa' exponent').amount? ↔
      negative = negative' ∧ mantissa = mantissa' ∧ exponent = exponent' := by
  rw [amount?, amount?, Option.some_inj, Amount.rational.injEq,
    value_signed_inj hpos hpos' hcanonical hcanonical']

end FloatParts

theorem signOf_inj : signOf negative = signOf negative' ↔ negative = negative' := by
  cases negative <;> cases negative' <;> simp [signOf]

open FloatParts in
/-- Machine numbers are equal where they stand for the same. -/
theorem beq_unpacked_iff {left right : UnpackedFloat} {parts parts' : FloatParts}
    (hleft : Unpacks left parts) (hright : Unpacks right parts') (hnumber : parts ≠ .nan) :
    left.beq right = true ↔ parts.amount? = parts'.amount? := by
  rw [UnpackedFloat.beq_iff_ne_notANumber_and_eq]
  cases hleft with
  | nan => exact absurd rfl hnumber
  | infinite negative => cases hright <;> simp [amount?, signOf_inj]
  | zero negative =>
    cases hright with
    | nan => simp [amount?]
    | infinite negative' => simp [amount?]
    | zero negative' => cases negative <;> cases negative' <;> simp [signOf, amount?_zero]
    | finite negative' hpos' => simp [amount?_zero, (amount?_ne_zero hpos').symm]
  | finite negative hpos hcanonical =>
    cases hright with
    | nan => simp [amount?]
    | infinite negative' => simp [amount?]
    | zero negative' => simp [amount?_zero, amount?_ne_zero hpos]
    | finite negative' hpos' hcanonical' =>
      rw [amount?_inj hpos hpos' hcanonical hcanonical', ← signOf_inj]
      simp

/-- What a float stands for, unless it is no number. -/
def amount? (x : Float) : Option Amount :=
  (FloatParts.of x).amount?

theorem of_ne_nan {x : Float} (hnumber : x.isNaN = false) : FloatParts.of x ≠ .nan := by
  rw [FloatParts.of, hnumber]
  dsimp only
  split
  · exact absurd ‹_› Bool.false_ne_true
  · split
    · nofun
    · split <;> nofun

theorem amount?_ne_none {x : Float} (hnumber : x.isNaN = false) : amount? x ≠ none := by
  have hparts := of_ne_nan hnumber
  rw [amount?]
  cases hx : FloatParts.of x with
  | nan => exact absurd hx hparts
  | infinite negative => nofun
  | finite negative mantissa exponent => nofun

theorem beq_iff_amount?_eq {x y : Float} (hnumber : x.isNaN = false) :
    (x == y) = true ↔ amount? x = amount? y :=
  beq_unpacked_iff (unpacks_of x) (unpacks_of y) (of_ne_nan hnumber)

theorem floatEqualsInt_iff {x : Float} {n : Int} :
    floatEqualsInt x n = true ↔ amount? x = some (.rational n) := by
  rw [floatEqualsInt, amount?]
  cases FloatParts.of x with
  | nan => exact iff_of_false Bool.false_ne_true nofun
  | infinite negative => exact iff_of_false Bool.false_ne_true nofun
  | finite negative mantissa exponent =>
    rw [FloatParts.amount?, Option.some_inj, Amount.rational.injEq, Double.value]
    change (if 0 ≤ exponent then signed negative mantissa * (2 ^ exponent.toNat : Nat) == n
      else signed negative mantissa == n * (2 ^ (-exponent).toNat : Nat)) = true ↔ _
    generalize signed negative mantissa = whole
    split
    · rename_i hexponent
      obtain ⟨power, rfl⟩ := Int.eq_ofNat_of_zero_le hexponent
      rw [beq_iff_eq, Int.toNat_natCast, zpow_natCast]
      exact_mod_cast Iff.rfl
    · rename_i hexponent
      obtain ⟨power, hpower⟩ := Int.eq_ofNat_of_zero_le (show 0 ≤ -exponent by omega)
      obtain rfl : exponent = -power := by omega
      rw [beq_iff_eq, neg_neg, Int.toNat_natCast, zpow_neg, zpow_natCast, ← div_eq_mul_inv,
        div_eq_iff (pow_ne_zero power two_ne_zero)]
      exact_mod_cast Iff.rfl

end Galley.Number
