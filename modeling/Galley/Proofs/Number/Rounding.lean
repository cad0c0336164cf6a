import Mathlib.Algebra.Order.Field.Power
import Mathlib.Algebra.Order.Field.Rat
import Mathlib.Data.Rat.Floor
import Mathlib.Tactic.FieldSimp
import Mathlib.Tactic.Linarith
import Mathlib.Tactic.NormNum
import Mathlib.Tactic.Positivity
import Mathlib.Tactic.Ring
import Galley.Number.Double

/-!
# Rounding to the nearest double

A ratio is scaled to a grid on which it has as many digits as a double can hold, and is rounded
there to the nearest integer.  Doubles with digits behind the grid are too small to be nearer, so
what comes out is the double nearest to the ratio.  Rounding passes no double, and that is all that
places drawn in a text depend on.
-/

namespace Galley.Number

/-! ## Nearest integers -/

/-- A quotient is no further than a half from what it is rounded to, and on a tie that is even. -/
theorem two_mul_abs_sub_roundDiv {den : Nat} (hden : 0 < den) (num : Nat) :
    2 * |(num : Int) - roundDiv num den * den| ≤ den ∧
      (2 * |(num : Int) - roundDiv num den * den| = den → Even (roundDiv num den)) := by
  have hsplit := Nat.div_add_mod' num den
  have hremainder := Nat.mod_lt num hden
  rw [roundDiv]
  generalize num / den = quotient at hsplit ⊢
  generalize num % den = remainder at hsplit hremainder ⊢
  subst hsplit
  split
  · rename_i hbelow
    have hdistance : ((quotient * den + remainder : Nat) : Int) - quotient * den = remainder := by
      push_cast
      ring
    rw [hdistance, Nat.abs_cast]
    exact ⟨by omega, by omega⟩
  · split
    · rename_i habove
      have hdistance : ((quotient * den + remainder : Nat) : Int) - (quotient + 1 : Nat) * den =
          -((den - remainder : Nat) : Int) := by
        push_cast [hremainder.le]
        ring
      rw [hdistance, abs_neg, Nat.abs_cast]
      exact ⟨by omega, by omega⟩
    · have htie : den = 2 * remainder := by omega
      subst htie
      have heven : Even (quotient + quotient % 2) := by
        rw [Nat.even_iff]
        omega
      refine ⟨?_, fun _ => heven⟩
      obtain hzero | hone := Nat.mod_two_eq_zero_or_one quotient
      · have hdistance : ((quotient * (2 * remainder) + remainder : Nat) : Int) -
            (quotient + quotient % 2 : Nat) * (2 * remainder : Nat) = remainder := by
          rw [hzero]
          push_cast
          ring
        rw [hdistance, Nat.abs_cast]
        omega
      · have hdistance : ((quotient * (2 * remainder) + remainder : Nat) : Int) -
            (quotient + quotient % 2 : Nat) * (2 * remainder : Nat) = -(remainder : Int) := by
          rw [hone]
          push_cast
          ring
        rw [hdistance, abs_neg, Nat.abs_cast]
        omega

/-- A number is rounded to an integer: no other one is nearer, and on a tie it is even. -/
structure NearestInt (exact : ℚ) (rounded : Int) : Prop where
  within : |exact - rounded| ≤ 1 / 2
  even : |exact - rounded| = 1 / 2 → Even rounded

theorem nearestInt_roundDiv {den : Nat} (hden : 0 < den) (num : Nat) :
    NearestInt (num / den) (roundDiv num den) := by
  obtain ⟨hwithin, heven⟩ := two_mul_abs_sub_roundDiv hden num
  have hpos : (0 : ℚ) < den := by exact_mod_cast hden
  have hscaled : |(num / den : ℚ) - (roundDiv num den : Int)| * den =
      (|(num : Int) - roundDiv num den * den| : Int) := by
    push_cast
    rw [← abs_of_pos hpos, ← abs_mul, abs_of_pos hpos, sub_mul, div_mul_cancel₀ _ hpos.ne']
  constructor
  · rw [← mul_le_mul_iff_of_pos_right hpos, hscaled]
    have : (2 * |(num : Int) - roundDiv num den * den| : ℚ) ≤ den := by exact_mod_cast hwithin
    push_cast at this ⊢
    linarith
  · intro htie
    rw [htie] at hscaled
    rw [Int.even_coe_nat]
    apply heven
    have : (2 * |(num : Int) - roundDiv num den * den| : ℚ) = den := by
      push_cast at hscaled ⊢
      linarith
    exact_mod_cast this

/-- An integer other than the nearest one is no nearer, and as near only on a tie. -/
theorem NearestInt.le_abs_sub {exact : ℚ} {rounded : Int} (hrounded : NearestInt exact rounded)
    (other : Int) : |exact - rounded| ≤ |exact - other| ∧
      (|exact - other| = |exact - rounded| → other = rounded ∨ Even rounded) := by
  by_cases heq : other = rounded
  · subst heq
    exact ⟨le_rfl, fun _ => .inl rfl⟩
  have hapart : (1 : ℚ) ≤ |(rounded : ℚ) - other| := by
    exact_mod_cast Int.one_le_abs (sub_ne_zero.2 (Ne.symm heq))
  have htriangle : |(rounded : ℚ) - other| ≤ |exact - rounded| + |exact - other| := by
    rw [abs_sub_comm exact rounded]
    exact abs_sub_le _ _ _
  have hwithin := hrounded.within
  refine ⟨by linarith, fun htie => .inr (hrounded.even ?_)⟩
  linarith

/-! ## Doubles -/

theorem cast_twoPow (power : Nat) : ((twoPow power : Nat) : ℚ) = 2 ^ power := by
  rw [twoPow]
  exact Nat.cast_pow 2 power

theorem twoPow_pos (power : Nat) : 0 < twoPow power :=
  Nat.two_pow_pos power

/-- Binary digits hold a number, the last of them at a place from the given one on. -/
def HasDigits (count : Nat) (last : Int) (exact : ℚ) : Prop :=
  ∃ mantissa exponent : Int, |mantissa| ≤ 2 ^ count ∧ last ≤ exponent ∧
    exact = mantissa * 2 ^ exponent

/-- The numbers that doubles stand for, were there no greatest one. -/
def IsDouble (exact : ℚ) : Prop :=
  HasDigits 53 (-1074) exact

/-- The doubles whose last digit is zero. -/
def IsEvenDouble (exact : ℚ) : Prop :=
  HasDigits 52 (-1073) exact

/-- A number is rounded to a double: no other one is nearer, and on a tie its last digit is
zero. -/
structure Nearest (exact rounded : ℚ) : Prop where
  isDouble : IsDouble rounded
  nearest : ∀ other, IsDouble other → |exact - rounded| ≤ |exact - other|
  even : ∀ other, IsDouble other → |exact - other| = |exact - rounded| →
    other = rounded ∨ IsEvenDouble rounded

theorem HasDigits.neg {count : Nat} {last : Int} {exact : ℚ}
    (hdigits : HasDigits count last exact) : HasDigits count last (-exact) := by
  obtain ⟨mantissa, exponent, hmantissa, hexponent, rfl⟩ := hdigits
  exact ⟨-mantissa, exponent, by rwa [abs_neg], hexponent, by push_cast; ring⟩

theorem HasDigits.zero {count : Nat} {last : Int} (hlast : last ≤ 0) : HasDigits count last 0 :=
  ⟨0, 0, by rw [abs_zero]; positivity, hlast, by simp⟩

theorem isDouble_mul_twoPow {n : Nat} (hn : n ≤ 2 ^ 53) (power : Nat) :
    IsDouble (n * twoPow power : Nat) := by
  refine ⟨n, power, ?_, by omega, ?_⟩
  · rw [Nat.abs_cast]
    exact_mod_cast hn
  · rw [Nat.cast_mul, cast_twoPow, Int.cast_natCast, zpow_natCast]

theorem isDouble_natCast {n : Nat} (hn : n ≤ 2 ^ 53) : IsDouble n :=
  Nat.mul_one n ▸ isDouble_mul_twoPow hn 0

namespace Nearest

variable {exact rounded bound : ℚ}

theorem zero : Nearest 0 0 :=
  ⟨.zero (by decide), fun _ _ => by simp, fun _ _ _ => .inr (.zero (by decide))⟩

theorem neg (hrounded : Nearest exact rounded) : Nearest (-exact) (-rounded) := by
  have hdistance : ∀ other, |-exact - other| = |exact - -other| := by
    intro other
    rw [← abs_neg]
    congr 1
    ring
  refine ⟨hrounded.isDouble.neg, ?_, ?_⟩
  · intro other hother
    rw [hdistance, hdistance, neg_neg]
    exact hrounded.nearest _ hother.neg
  · intro other hother htie
    rw [hdistance, hdistance, neg_neg] at htie
    obtain heq | heven := hrounded.even _ hother.neg htie
    · exact .inl (neg_eq_iff_eq_neg.1 heq)
    · exact .inr heven.neg

/-- Nothing is rounded down to a double from beyond the middle between it and a greater one. -/
theorem two_mul_le_add (hrounded : Nearest exact rounded) (hbound : IsDouble bound)
    (hless : rounded < bound) : 2 * exact ≤ rounded + bound := by
  by_contra hbeyond
  have hnearest := hrounded.nearest bound hbound
  rw [abs_of_nonneg (by linarith)] at hnearest
  cases abs_cases (exact - bound) <;> linarith

theorem add_le_two_mul (hrounded : Nearest exact rounded) (hbound : IsDouble bound)
    (hless : bound < rounded) : bound + rounded ≤ 2 * exact := by
  have hneg := hrounded.neg.two_mul_le_add hbound.neg (neg_lt_neg hless)
  linarith

/-- Rounding passes no double. -/
theorem le_of_le (hrounded : Nearest exact rounded) (hbound : IsDouble bound)
    (hexact : exact ≤ bound) : rounded ≤ bound := by
  by_contra hpassed
  have hmiddle := hrounded.add_le_two_mul hbound (not_le.1 hpassed)
  linarith

theorem ge_of_ge (hrounded : Nearest exact rounded) (hbound : IsDouble bound)
    (hexact : bound ≤ exact) : bound ≤ rounded := by
  by_contra hpassed
  have hmiddle := hrounded.two_mul_le_add hbound (not_le.1 hpassed)
  linarith

theorem abs_le (hrounded : Nearest exact rounded) (hbound : IsDouble bound)
    (hexact : |exact| ≤ bound) : |rounded| ≤ bound :=
  abs_le'.2 ⟨hrounded.le_of_le hbound (le_of_abs_le hexact),
    hrounded.neg.le_of_le hbound ((neg_le_abs exact).trans hexact)⟩

theorem eq_of_isDouble (hrounded : Nearest exact rounded) (hexact : IsDouble exact) :
    rounded = exact :=
  le_antisymm (hrounded.le_of_le hexact le_rfl) (hrounded.ge_of_ge hexact le_rfl)

end Nearest

/-! ## Digits on a grid -/

section Grid

variable {exact : ℚ} {exponent mantissa : Int}

theorem abs_sub_mul_two_zpow (exact k : ℚ) (exponent : Int) :
    |exact - k * 2 ^ exponent| = |exact / 2 ^ exponent - k| * 2 ^ exponent := by
  have hpos : (0 : ℚ) < 2 ^ exponent := zpow_pos two_pos exponent
  nth_rewrite 3 [← abs_of_pos hpos]
  rw [← abs_mul, sub_mul, div_mul_cancel₀ _ hpos.ne']

/-- Rounding to an integer rounds to the points of a grid. -/
theorem NearestInt.on_grid (hnearest : NearestInt (exact / 2 ^ exponent) mantissa) (k : Int) :
    |exact - mantissa * 2 ^ exponent| ≤ |exact - k * 2 ^ exponent| ∧
      (|exact - k * 2 ^ exponent| = |exact - mantissa * 2 ^ exponent| →
        k = mantissa ∨ Even mantissa) := by
  have hpos : (0 : ℚ) < 2 ^ exponent := zpow_pos two_pos exponent
  obtain ⟨hle, htie⟩ := hnearest.le_abs_sub k
  rw [abs_sub_mul_two_zpow, abs_sub_mul_two_zpow]
  exact ⟨mul_le_mul_of_nonneg_right hle hpos.le,
    fun heq => htie (mul_right_cancel₀ hpos.ne' heq)⟩

theorem NearestInt.abs_le_two_pow (hnearest : NearestInt (exact / 2 ^ exponent) mantissa)
    (hnonneg : 0 ≤ exact) (hupper : exact < 2 ^ 53 * 2 ^ exponent) : |mantissa| ≤ 2 ^ 53 := by
  have hpos : (0 : ℚ) < 2 ^ exponent := zpow_pos two_pos exponent
  have hquotient : exact / 2 ^ exponent < 2 ^ 53 := (div_lt_iff₀ hpos).2 hupper
  have hquotient' : 0 ≤ exact / 2 ^ exponent := div_nonneg hnonneg hpos.le
  obtain ⟨hbelow, habove⟩ := abs_le.1 hnearest.within
  have hupper : (mantissa : ℚ) < 2 ^ 53 + 1 := by linarith
  have hlower : (-1 : ℚ) < mantissa := by linarith
  have hupper : mantissa < 2 ^ 53 + 1 := by exact_mod_cast hupper
  have hlower : -1 < mantissa := by exact_mod_cast hlower
  rw [abs_of_nonneg (by omega)]
  omega

/-- An even number of steps of a grid is a number of steps of twice the length. -/
theorem isEvenDouble_of_even (hlast : -1074 ≤ exponent) (hmantissa : |mantissa| ≤ 2 ^ 53)
    (heven : Even mantissa) : IsEvenDouble (mantissa * 2 ^ exponent) := by
  obtain ⟨half, rfl⟩ := heven
  refine ⟨half, exponent + 1, ?_, by omega, ?_⟩
  · rw [← two_mul, abs_mul, abs_two] at hmantissa
    omega
  · rw [zpow_add_one₀ two_ne_zero]
    push_cast
    ring

/-- A double lies on a grid, or it has digits behind it and is no greater than the least number
with all its digits on the grid. -/
theorem IsDouble.on_grid_or_le {other : ℚ} (hother : IsDouble other) (exponent : Int) :
    (∃ k : Int, other = k * 2 ^ exponent) ∨
      (exponent ≠ -1074 ∧ other ≤ (2 ^ 52 : Int) * 2 ^ exponent) := by
  obtain ⟨k, place, hk, hplace, rfl⟩ := hother
  obtain hon | hbehind := le_or_gt exponent place
  · obtain ⟨steps, rfl⟩ := Int.le.dest hon
    left
    refine ⟨k * 2 ^ steps, ?_⟩
    rw [zpow_add₀ two_ne_zero, zpow_natCast]
    push_cast
    ring
  · right
    refine ⟨by omega, ?_⟩
    have hk : (k : ℚ) ≤ 2 ^ 53 := by exact_mod_cast (le_abs_self k).trans hk
    have hstep : (2 : ℚ) ^ place * 2 ≤ 2 ^ exponent := by
      rw [← zpow_add_one₀ two_ne_zero]
      exact zpow_le_zpow_right₀ one_le_two hbehind
    calc (k : ℚ) * 2 ^ place ≤ 2 ^ 53 * 2 ^ place := by gcongr
      _ = 2 ^ 52 * (2 ^ place * 2) := by ring
      _ ≤ 2 ^ 52 * 2 ^ exponent := by gcongr
      _ = (2 ^ 52 : Int) * 2 ^ exponent := by push_cast; rfl

/-- On the grid on which a number has all its digits, rounding to an integer is rounding to a
double. -/
theorem Nearest.of_grid (hlast : -1074 ≤ exponent)
    (hnearest : NearestInt (exact / 2 ^ exponent) mantissa) (hnonneg : 0 ≤ exact)
    (hupper : exact < 2 ^ 53 * 2 ^ exponent)
    (hlower : exponent = -1074 ∨ 2 ^ 52 * 2 ^ exponent ≤ exact) :
    Nearest exact (mantissa * 2 ^ exponent) := by
  have hmantissa := hnearest.abs_le_two_pow hnonneg hupper
  have heven := isEvenDouble_of_even hlast hmantissa
  have hleast : exponent ≠ -1074 → ((2 ^ 52 : Int) : ℚ) * 2 ^ exponent ≤ exact := by
    intro hinner
    push_cast
    exact hlower.resolve_left hinner
  refine ⟨⟨mantissa, exponent, hmantissa, hlast, rfl⟩, ?_, ?_⟩
  · intro other hother
    obtain ⟨k, rfl⟩ | ⟨hinner, hle⟩ := hother.on_grid_or_le exponent
    · exact (hnearest.on_grid k).1
    · have hleast := hleast hinner
      refine (hnearest.on_grid (2 ^ 52)).1.trans ?_
      rw [abs_of_nonneg (sub_nonneg.2 hleast), abs_of_nonneg (sub_nonneg.2 (hle.trans hleast))]
      exact sub_le_sub_left hle exact
  · intro other hother htie
    obtain ⟨k, rfl⟩ | ⟨hinner, hle⟩ := hother.on_grid_or_le exponent
    · exact ((hnearest.on_grid k).2 htie).imp (fun heq => by rw [heq]) heven
    · -- It is as near only if it is the least number on the grid itself.
      have hleast := hleast hinner
      have hnear := (hnearest.on_grid (2 ^ 52)).1
      rw [← htie, abs_of_nonneg (sub_nonneg.2 hleast),
        abs_of_nonneg (sub_nonneg.2 (hle.trans hleast)), sub_le_sub_iff_left] at hnear
      obtain rfl := le_antisymm hle hnear
      exact ((hnearest.on_grid _).2 htie).imp (fun heq => by rw [heq]) heven

end Grid

/-! ## The digits of a ratio -/

theorem lt_two_pow_bitLength (n : Nat) : n < 2 ^ bitLength n := by
  rw [bitLength]
  split
  · rename_i hzero
    rw [hzero]
    decide
  · exact Nat.lt_log2_self

theorem two_pow_bitLength_le {n : Nat} (hn : n ≠ 0) : 2 ^ bitLength n ≤ 2 * n := by
  rw [bitLength, if_neg hn, Nat.pow_succ, Nat.mul_comm]
  exact Nat.mul_le_mul_left 2 (Nat.log2_self_le hn)

theorem scaled_ratio {den : Nat} (hden : 0 < den) (num : Nat) (exponent : Int) :
    0 < (scaled num den exponent).2 ∧
      ((scaled num den exponent).1 / (scaled num den exponent).2 : ℚ) =
        num / den / 2 ^ exponent := by
  rw [scaled]
  split
  · rename_i hexponent
    obtain ⟨power, rfl⟩ := Int.eq_ofNat_of_zero_le hexponent
    refine ⟨Nat.mul_pos hden (Nat.two_pow_pos _), ?_⟩
    dsimp only
    rw [Nat.cast_mul, cast_twoPow, Int.toNat_natCast, zpow_natCast, div_div]
  · rename_i hexponent
    obtain ⟨power, hpower⟩ := Int.eq_ofNat_of_zero_le (show 0 ≤ -exponent by omega)
    obtain rfl : exponent = -power := by omega
    refine ⟨hden, ?_⟩
    dsimp only
    rw [Nat.cast_mul, cast_twoPow, neg_neg, Int.toNat_natCast, zpow_neg, zpow_natCast,
      div_inv_eq_mul, mul_div_right_comm]

/-- The lengths of a ratio's terms tell its size but for a factor of two to either side. -/
theorem bitLength_ratio {num den : Nat} (hnum : 0 < num) (hden : 0 < den) :
    (2 ^ ((bitLength num : Int) - bitLength den - 1) : ℚ) ≤ num / den ∧
      (num / den : ℚ) < 2 ^ ((bitLength num : Int) - bitLength den + 1) := by
  have hpos : (0 : ℚ) < den := by exact_mod_cast hden
  have htop : (2 ^ bitLength num : ℚ) ≤ 2 * num := by exact_mod_cast two_pow_bitLength_le hnum.ne'
  have htop' : (num : ℚ) < 2 ^ bitLength num := by exact_mod_cast lt_two_pow_bitLength num
  have hbottom : (2 ^ bitLength den : ℚ) ≤ 2 * den := by
    exact_mod_cast two_pow_bitLength_le hden.ne'
  have hbottom' : (den : ℚ) < 2 ^ bitLength den := by exact_mod_cast lt_two_pow_bitLength den
  have hlength : (0 : ℚ) < 2 ^ bitLength den := by positivity
  rw [zpow_sub_one₀ two_ne_zero, zpow_add_one₀ two_ne_zero, zpow_sub₀ two_ne_zero, zpow_natCast,
    zpow_natCast]
  constructor
  · calc (2 ^ bitLength num / 2 ^ bitLength den * 2⁻¹ : ℚ)
        ≤ 2 * num / 2 ^ bitLength den * 2⁻¹ := by gcongr
      _ = num / 2 ^ bitLength den := by ring
      _ ≤ num / den := by gcongr
  · calc (num / den : ℚ) < 2 ^ bitLength num / den := by gcongr
      _ = 2 ^ bitLength num / (2 * den) * 2 := by field_simp
      _ ≤ 2 ^ bitLength num / 2 ^ bitLength den * 2 := by gcongr

/-- The exponent of a ratio is that at which it has 53 digits in front of the point, unless this is
less than the least one. -/
theorem Double.exponentFor_eq_max {num den : Nat} (hnum : 0 < num) (hden : 0 < den) :
    ∃ exponent, exponentFor num den = max (-1074) exponent ∧
      (2 ^ 52 * 2 ^ exponent : ℚ) ≤ num / den ∧ (num / den : ℚ) < 2 ^ 53 * 2 ^ exponent := by
  obtain ⟨hlower, hupper⟩ := bitLength_ratio hnum hden
  have hshift : ∀ (place : Int) (count : Nat),
      (2 ^ (place + count) : ℚ) = 2 ^ count * 2 ^ place := fun place count => by
    rw [zpow_add₀ two_ne_zero, zpow_natCast, mul_comm]
  generalize hguess : (bitLength num : Int) - bitLength den - 53 = guess
  have hless : (bitLength num : Int) - bitLength den - 1 = guess + (52 : Nat) := by omega
  have hmore : (bitLength num : Int) - bitLength den + 1 = guess + (54 : Nat) := by omega
  rw [hless, hshift] at hlower
  rw [hmore, hshift] at hupper
  obtain ⟨hbottom, hratio⟩ := scaled_ratio hden num guess
  -- The guess is too low by one where the scaled ratio has 54 digits in front of the point.
  have hwide : (scaled num den guess).2 * twoPow 53 ≤ (scaled num den guess).1 ↔
      (2 ^ 53 * 2 ^ guess : ℚ) ≤ num / den := by
    rw [← le_div_iff₀ (by positivity), ← hratio, le_div_iff₀ (by exact_mod_cast hbottom),
      ← cast_twoPow, mul_comm]
    exact_mod_cast Iff.rfl
  rw [exponentFor, hguess]
  by_cases hcarry : (2 ^ 53 * 2 ^ guess : ℚ) ≤ num / den
  · refine ⟨guess + 1, congrArg (max (-1074)) (if_pos (hwide.2 hcarry)), ?_, ?_⟩
    · rw [zpow_add_one₀ two_ne_zero]
      linarith
    · rw [zpow_add_one₀ two_ne_zero]
      linarith
  · exact ⟨guess, congrArg (max (-1074)) (if_neg (mt hwide.1 hcarry)), hlower, not_le.1 hcarry⟩

theorem Double.exponentFor_spec {num den : Nat} (hnum : 0 < num) (hden : 0 < den) :
    -1074 ≤ exponentFor num den ∧ (num / den : ℚ) < 2 ^ 53 * 2 ^ exponentFor num den ∧
      (exponentFor num den = -1074 ∨ (2 ^ 52 * 2 ^ exponentFor num den : ℚ) ≤ num / den) := by
  obtain ⟨exponent, heq, hlower, hupper⟩ := exponentFor_eq_max hnum hden
  rw [heq]
  obtain hsmall | hlarge := le_total exponent (-1074)
  · rw [max_eq_left hsmall]
    refine ⟨le_rfl, hupper.trans_le ?_, .inl rfl⟩
    gcongr
    exact one_le_two
  · rw [max_eq_right hlarge]
    exact ⟨hlarge, hupper, .inr hlower⟩

/-! ## Rounded operations -/

namespace Double

/-- The number that a double stands for. -/
def value (x : Double) : ℚ :=
  x.mantissa * 2 ^ x.exponent

theorem ofRatio_eq {num den top bottom : Nat} {exponent : Int} (hnum : num ≠ 0)
    (hexponent : exponentFor num den = exponent)
    (hscaled : scaled num den exponent = (top, bottom)) :
    ofRatio num den = ⟨(roundDiv top bottom : Nat), exponent⟩ := by
  rw [ofRatio, if_neg hnum, hexponent]
  dsimp only
  rw [hscaled]

theorem nearest_ofRatio {den : Nat} (hden : 0 < den) (num : Nat) :
    Nearest (num / den) (ofRatio num den).value := by
  by_cases hzero : num = 0
  · rw [ofRatio, if_pos hzero]
    simpa [hzero, zero, value] using Nearest.zero
  · obtain ⟨hlast, hupper, hlower⟩ := exponentFor_spec (Nat.pos_of_ne_zero hzero) hden
    generalize hexponent : exponentFor num den = exponent at hlast hupper hlower
    obtain ⟨hbottom, hratio⟩ := scaled_ratio hden num exponent
    rcases hscaled : scaled num den exponent with ⟨top, bottom⟩
    rw [hscaled] at hbottom hratio
    have hround := nearestInt_roundDiv hbottom top
    rw [hratio] at hround
    rw [ofRatio_eq hzero hexponent hscaled, value]
    exact .of_grid hlast hround (by positivity) hupper hlower

theorem value_neg (x : Double) : x.neg.value = -x.value := by
  rw [value, value, neg, Int.cast_neg, neg_mul]

theorem nearest_ofSignedRatio {den : Nat} (hden : 0 < den) (num : Int) :
    Nearest (num / den) (ofSignedRatio num den).value := by
  have hmagnitude := nearest_ofRatio hden num.natAbs
  rw [Nat.cast_natAbs, Int.cast_abs] at hmagnitude
  rw [ofSignedRatio]
  split
  · rename_i hnegative
    rw [abs_of_neg (by exact_mod_cast hnegative), neg_div] at hmagnitude
    rw [value_neg]
    simpa using hmagnitude.neg
  · rename_i hnonneg
    rwa [abs_of_nonneg (by exact_mod_cast not_lt.1 hnonneg)] at hmagnitude

theorem nearest_ofInt (n : Int) : Nearest n (ofInt n).value := by
  simpa [ofInt] using nearest_ofSignedRatio Nat.one_pos n

theorem nearest_ofScaled (mantissa exponent : Int) :
    Nearest (mantissa * 2 ^ exponent) (ofScaled mantissa exponent).value := by
  rw [ofScaled]
  split
  · rename_i hexponent
    obtain ⟨power, rfl⟩ := Int.eq_ofNat_of_zero_le hexponent
    rw [Int.toNat_natCast]
    simpa [cast_twoPow] using nearest_ofSignedRatio Nat.one_pos (mantissa * twoPow power)
  · rename_i hexponent
    obtain ⟨power, hpower⟩ := Int.eq_ofNat_of_zero_le (show 0 ≤ -exponent by omega)
    obtain rfl : exponent = -power := by omega
    rw [neg_neg, Int.toNat_natCast]
    have hrounded := nearest_ofSignedRatio (twoPow_pos power) mantissa
    rwa [cast_twoPow, ← zpow_natCast, div_eq_mul_inv, ← zpow_neg] at hrounded

/-- The exact product is rounded once. -/
theorem nearest_mul (x y : Double) : Nearest (x.value * y.value) (x.mul y).value := by
  have hrounded := nearest_ofScaled (x.mantissa * y.mantissa) (x.exponent + y.exponent)
  rw [zpow_add₀ two_ne_zero, Int.cast_mul, mul_mul_mul_comm] at hrounded
  exact hrounded

/-- So is the exact sum. -/
theorem nearest_add (x y : Double) : Nearest (x.value + y.value) (x.add y).value := by
  have hshift : ∀ z : Double, min x.exponent y.exponent ≤ z.exponent → z.value =
      z.mantissa * twoPow (z.exponent - min x.exponent y.exponent).toNat *
        2 ^ min x.exponent y.exponent := by
    intro z hz
    rw [value, cast_twoPow, mul_assoc, ← zpow_natCast, ← zpow_add₀ two_ne_zero,
      Int.toNat_of_nonneg (Int.sub_nonneg.2 hz), sub_add_cancel]
  rw [hshift x (min_le_left _ _), hshift y (min_le_right _ _), ← add_mul]
  exact_mod_cast nearest_ofScaled _ (min x.exponent y.exponent)

/-! ## Integer parts and sizes -/

/-- The integer part of what is not negative. -/
theorem truncate_eq_floor {x : Double} (hx : 0 ≤ x.value) : x.truncate = ⌊x.value⌋ := by
  rw [value] at hx ⊢
  rw [truncate]
  split
  · rename_i hexponent
    obtain ⟨power, hpower⟩ := Int.eq_ofNat_of_zero_le hexponent
    rw [hpower, Int.toNat_natCast, zpow_natCast, ← cast_twoPow]
    exact_mod_cast (Int.floor_intCast _).symm
  · rename_i hexponent
    obtain ⟨power, hpower⟩ := Int.eq_ofNat_of_zero_le (show 0 ≤ -x.exponent by omega)
    have hexponent : x.exponent = -(power : Int) := by omega
    rw [hexponent, zpow_neg, zpow_natCast, ← div_eq_mul_inv, ← cast_twoPow] at hx ⊢
    have hmantissa : (0 : ℚ) ≤ x.mantissa :=
      nonneg_of_mul_nonneg_left hx (inv_pos.2 (by exact_mod_cast twoPow_pos power))
    have hmantissa : 0 ≤ x.mantissa := by exact_mod_cast hmantissa
    rw [neg_neg, Int.toNat_natCast, Int.tdiv_eq_ediv_of_nonneg hmantissa]
    exact (Rat.floor_intCast_div_natCast _ _).symm

/-- A number that doubles reach is not too large. -/
theorem isHuge_eq_false {x : Double} (hx : |x.value| < 2 ^ 1024) : x.isHuge = false := by
  by_contra hhuge
  rw [Bool.not_eq_false, isHuge, Bool.and_eq_true, decide_eq_true_eq, decide_eq_true_eq] at hhuge
  obtain ⟨hmantissa, hlong⟩ := hhuge
  have hlength : (2 ^ bitLength x.mantissa.natAbs : ℚ) ≤ 2 * |(x.mantissa : ℚ)| := by
    rw [← Int.cast_abs, ← Nat.cast_natAbs]
    exact_mod_cast two_pow_bitLength_le (Int.natAbs_ne_zero.2 hmantissa)
  have hpos : (0 : ℚ) < 2 ^ x.exponent := zpow_pos two_pos _
  refine absurd hx (not_lt.2 ?_)
  rw [value, abs_mul, abs_of_pos hpos]
  have hlarge : (2 : ℚ) ^ ((1024 : Nat) + 1 : Int) ≤
      2 ^ ((bitLength x.mantissa.natAbs : Int) + x.exponent) :=
    zpow_le_zpow_right₀ one_le_two (by omega)
  rw [zpow_add_one₀ two_ne_zero, zpow_natCast, zpow_add₀ two_ne_zero, zpow_natCast] at hlarge
  have hscaled := mul_le_mul_of_nonneg_right hlength hpos.le
  generalize (2 : ℚ) ^ 1024 = bound at hlarge ⊢
  linarith

end Double

end Galley.Number
