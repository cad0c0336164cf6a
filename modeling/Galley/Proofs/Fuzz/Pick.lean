import Galley.Fuzz.Generator
import Galley.Proofs.Number.Rounding

/-!
# Picks stay in their range

A pick rounds three times: the fraction of the greatest state, its product with the width of the
range, and the sum with the start.  Zero and one are doubles, and so are the width and both ends
where they have 53 digits, so no rounding passes them.  The end itself may be reached, by a
fraction that is rounded to one or by the sum, and is taken back.
-/

namespace Galley.Fuzz

open Number

/-! ## Fractions -/

theorem isDouble_one : IsDouble 1 := by
  exact_mod_cast isDouble_natCast (Nat.one_le_two_pow (n := 53))

theorem isDouble_below_one : IsDouble (1 - 2 ^ (-53 : Int)) := by
  refine ⟨2 ^ 53 - 1, -53, ?_, by decide, ?_⟩
  · rw [abs_of_nonneg (by norm_num)]
    norm_num
  · norm_num

/-- It is the greatest double below one. -/
theorem le_of_lt_one {number : ℚ} (hdouble : IsDouble number) (hless : number < 1) :
    number ≤ 1 - 2 ^ (-53 : Int) := by
  obtain ⟨steps, rfl⟩ | ⟨-, hsmall⟩ := hdouble.on_grid_or_le (-53)
  · have hpos : (0 : ℚ) < 2 ^ (-53 : Int) := by positivity
    have hunit : ((2 ^ 53 : Int) : ℚ) * 2 ^ (-53 : Int) = 1 := by norm_num
    rw [← hunit] at hless ⊢
    have hsteps : (steps : ℚ) < (2 ^ 53 : Int) := lt_of_mul_lt_mul_right hless hpos.le
    have hsteps : steps ≤ 2 ^ 53 - 1 := Int.le_sub_one_of_lt (by exact_mod_cast hsteps)
    have hsteps : (steps : ℚ) ≤ (2 ^ 53 : Int) - 1 := by exact_mod_cast hsteps
    calc (steps : ℚ) * 2 ^ (-53 : Int) ≤ ((2 ^ 53 : Int) - 1) * 2 ^ (-53 : Int) := by gcongr
      _ = _ := by rw [sub_mul, one_mul]
  · refine hsmall.trans ?_
    norm_num

namespace Generator

/-- The fraction is rounded once. -/
theorem nearest_fraction (generator : Generator) :
    Nearest (generator.state.toNat / (2 ^ 64 - 1)) generator.fraction.value := by
  have hden : 0 < twoPow 64 - 1 := by decide
  have hrounded := Double.nearest_ofRatio hden generator.state.toNat
  rwa [Nat.cast_pred (twoPow_pos 64), cast_twoPow] at hrounded

theorem fraction_nonneg (generator : Generator) : 0 ≤ generator.fraction.value :=
  generator.nearest_fraction.ge_of_ge (.zero (by decide)) (by positivity)

theorem state_le (generator : Generator) : (generator.state.toNat : ℚ) ≤ 2 ^ 64 - 1 := by
  have hstate : generator.state.toNat + 1 ≤ 2 ^ 64 := generator.state.isLt
  have hstate : (generator.state.toNat + 1 : ℚ) ≤ 2 ^ 64 := by exact_mod_cast hstate
  linarith

theorem fraction_le_one (generator : Generator) : generator.fraction.value ≤ 1 :=
  generator.nearest_fraction.le_of_le isDouble_one
    (div_le_one_of_le₀ generator.state_le (by norm_num))

/-- The fractions of the last states are rounded to one. -/
theorem fraction_eq_one_iff (generator : Generator) :
    generator.fraction.value = 1 ↔ 2 ^ 64 ≤ generator.state.toNat + 2 ^ 10 := by
  have hrounded := generator.nearest_fraction
  have hgreatest : (0 : ℚ) < 2 ^ 64 - 1 := by norm_num
  -- The middle between one and the double below it lies between the fractions of the first of
  -- these states and of the state before.
  constructor
  · intro hone
    rw [hone] at hrounded
    have hmiddle := hrounded.add_le_two_mul isDouble_below_one (by norm_num)
    rw [← div_le_iff₀' two_pos, le_div_iff₀ hgreatest] at hmiddle
    have hstate : (2 ^ 64 : ℚ) < generator.state.toNat + 2 ^ 10 + 1 := by
      norm_num at hmiddle ⊢
      linarith
    have hstate : 2 ^ 64 < generator.state.toNat + 2 ^ 10 + 1 := by exact_mod_cast hstate
    omega
  · intro hstate
    have hstate : (2 ^ 64 : ℚ) ≤ generator.state.toNat + 2 ^ 10 := by exact_mod_cast hstate
    by_contra hone
    have hless := lt_of_le_of_ne generator.fraction_le_one hone
    have hmiddle := hrounded.two_mul_le_add isDouble_one hless
    have hbelow := le_of_lt_one hrounded.isDouble hless
    have hexact : (generator.state.toNat / (2 ^ 64 - 1) : ℚ) ≤ 1 - 2 ^ (-54 : Int) := by
      norm_num at hbelow ⊢
      linarith
    rw [div_le_iff₀ hgreatest] at hexact
    norm_num at hexact hstate
    linarith

/-! ## Points -/

theorem value_ofInt {n : Nat} (hn : n ≤ 2 ^ 53) : (Double.ofInt n).value = n :=
  (Double.nearest_ofInt n).eq_of_isDouble (isDouble_natCast hn)

theorem isHuge_eq_false_of_le {x : Double} {bound : Nat} (hnonneg : 0 ≤ x.value)
    (hle : x.value ≤ bound) (hbound : bound ≤ 2 ^ 53) : x.isHuge = false := by
  apply Double.isHuge_eq_false
  rw [abs_of_nonneg hnonneg]
  have hbound : (bound : ℚ) ≤ 2 ^ 53 := by exact_mod_cast hbound
  exact (hle.trans hbound).trans_lt (pow_lt_pow_right₀ one_lt_two (by decide))

theorem bounded_eq_ok {n : Nat} (hn : n ≤ 2 ^ 53) : bounded n = .ok (.ofInt n) := by
  have hvalue := value_ofInt hn
  rw [bounded, isHuge_eq_false_of_le (hvalue ▸ Nat.cast_nonneg n) hvalue.le hn]
  rfl

section Range

variable {fraction : Double} {start width : Nat}

/-- How far a fraction leads into a range. -/
def offset (fraction : Double) (width : Nat) : Double :=
  fraction.mul (.ofInt width)

/-- The place in a range to which a fraction leads. -/
def point (fraction : Double) (start width : Nat) : Double :=
  (Double.ofInt start).add (offset fraction width)

theorem offset_nonneg (hnonneg : 0 ≤ fraction.value) : 0 ≤ (offset fraction width).value := by
  have hwidth : 0 ≤ (Double.ofInt width).value :=
    (Double.nearest_ofInt width).ge_of_ge (.zero (by decide)) (by positivity)
  exact (fraction.nearest_mul _).ge_of_ge (.zero (by decide)) (mul_nonneg hnonneg hwidth)

theorem nearest_offset (hwidth : width ≤ 2 ^ 53) :
    Nearest (fraction.value * width) (offset fraction width).value := by
  have hrounded := fraction.nearest_mul (.ofInt width)
  rwa [value_ofInt hwidth] at hrounded

theorem nearest_point (hstart : start ≤ 2 ^ 53) :
    Nearest (start + (offset fraction width).value) (point fraction start width).value := by
  have hrounded := (Double.ofInt start).nearest_add (offset fraction width)
  rwa [value_ofInt hstart] at hrounded

/-- No operation is rounded to anything in front of the range. -/
theorem le_value_point (hnonneg : 0 ≤ fraction.value) (hstart : start ≤ 2 ^ 53) :
    start ≤ (point fraction start width).value :=
  (nearest_point hstart).ge_of_ge (isDouble_natCast hstart)
    (le_add_of_nonneg_right (offset_nonneg hnonneg))

/-- Nor to anything behind its end. -/
theorem value_point_le (hone : fraction.value ≤ 1) (hstop : start + width ≤ 2 ^ 53) :
    (point fraction start width).value ≤ (start + width : Nat) := by
  have hoffset : (offset fraction width).value ≤ width :=
    (nearest_offset (by omega)).le_of_le (isDouble_natCast (by omega))
      (mul_le_of_le_one_left (by positivity) hone)
  apply (nearest_point (by omega)).le_of_le (isDouble_natCast hstop)
  rw [Nat.cast_add]
  exact add_le_add_right hoffset _

/-- The whole width leads to the end. -/
theorem value_point_of_one (hone : fraction.value = 1) (hstop : start + width ≤ 2 ^ 53) :
    (point fraction start width).value = (start + width : Nat) := by
  have hoffset : Nearest (fraction.value * width) (offset fraction width).value :=
    nearest_offset (by omega)
  have hpoint : Nearest (start + (offset fraction width).value)
      (point fraction start width).value := nearest_point (by omega)
  rw [hone, one_mul] at hoffset
  rw [hoffset.eq_of_isDouble (isDouble_natCast (by omega)), ← Nat.cast_add] at hpoint
  exact hpoint.eq_of_isDouble (isDouble_natCast hstop)

/-- Where all numbers have 53 digits no operation fails. -/
theorem pointAt_eq_ok (hnonneg : 0 ≤ fraction.value) (hone : fraction.value ≤ 1)
    (hstop : start + width ≤ 2 ^ 53) :
    pointAt fraction start (start + width : Nat) = .ok ⌊(point fraction start width).value⌋ := by
  have hle := value_point_le hone hstop
  have hpoint : 0 ≤ (point fraction start width).value :=
    (Nat.cast_nonneg start).trans (le_value_point hnonneg (by omega))
  have hwidth : ((start + width : Nat) : Int) - start = width := by omega
  rw [pointAt, hwidth, bounded_eq_ok (by omega), bounded_eq_ok (by omega)]
  change (if (point fraction start width).isHuge then throw Failure.infiniteSize
    else return (point fraction start width).truncate : Except Failure Int) = _
  rw [isHuge_eq_false_of_le hpoint hle hstop, Double.truncate_eq_floor hpoint]
  rfl

theorem eq_truncate_of_pointAt {place : Int}
    (hplace : pointAt fraction start (start + width : Nat) = .ok place) :
    place = (point fraction start width).truncate := by
  have hwidth : ((start + width : Nat) : Int) - start = width := by omega
  rw [pointAt, bounded, bounded, hwidth] at hplace
  dsimp only at hplace
  split at hplace
  · cases hplace
  split at hplace
  · cases hplace
  change (if (point fraction start width).isHuge then _ else _) = _ at hplace
  split at hplace
  · cases hplace
  · exact (Except.ok.inj hplace).symm

/-- However far the end is, a place that is found lies behind the start. -/
theorem le_of_pointAt {place : Int} (hnonneg : 0 ≤ fraction.value) (hstart : start ≤ 2 ^ 53)
    (hplace : pointAt fraction start (start + width : Nat) = .ok place) : start ≤ place := by
  have hfront : (start : ℚ) ≤ (point fraction start width).value := le_value_point hnonneg hstart
  rw [eq_truncate_of_pointAt hplace,
    Double.truncate_eq_floor ((Nat.cast_nonneg start).trans hfront)]
  exact Int.le_floor.2 hfront

end Range

end Generator

/-! ## Picks -/

/-- What is picked from a range by a state: the point to which the three rounded operations lead,
or the number in front of the end if they lead there, or the start if the range is empty. -/
structure Picked (start stop : Int) (state : BitVec 64) (value : Int) : Prop where
  rounded : ∃ fraction offset point : ℚ,
    Nearest (state.toNat / (2 ^ 64 - 1)) fraction ∧
    Nearest (fraction * (stop - start : Int)) offset ∧
    Nearest (start + offset) point ∧
    (fraction = 1 ↔ 2 ^ 64 ≤ state.toNat + 2 ^ 10) ∧
    value = if start < stop then min ⌊point⌋ (stop - 1) else start
  inside : start < stop → start ≤ value ∧ value < stop
  empty : start = stop → value = start
  /-- The last states have the fraction one. -/
  last : 2 ^ 64 ≤ state.toNat + 2 ^ 10 → start < stop → value = stop - 1

/-- A pick takes one step, and whatever state this leads to, the value is one of the range, or its
start if the range is empty. -/
theorem picks_stay_in_range {start stop : Int} (hstart : 0 ≤ start) (hle : start ≤ stop)
    (hstop : stop < 2 ^ 53) (generator : Generator) :
    ∃ value, generator.pick start stop = .ok (value, generator.step) ∧
      Picked start stop (advance generator.state) value := by
  obtain ⟨low, rfl⟩ := Int.eq_ofNat_of_zero_le hstart
  obtain ⟨width, hwidth⟩ := Int.le.dest hle
  obtain rfl : stop = (low + width : Nat) := by omega
  have hbound : low + width ≤ 2 ^ 53 := by exact_mod_cast hstop.le
  have hnonneg := generator.step.fraction_nonneg
  have hone := generator.step.fraction_le_one
  have hplace : (low : Int) ≤ ⌊(Generator.point generator.step.fraction low width).value⌋ :=
    Int.le_floor.2 (Generator.le_value_point hnonneg (by omega))
  refine ⟨if (low : Int) < (low + width : Nat) then
      min ⌊(Generator.point generator.step.fraction low width).value⌋ ((low + width : Nat) - 1)
    else low, ?_, ?_⟩
  · rw [Generator.pick, Generator.pointAt_eq_ok hnonneg hone hbound]
    rfl
  constructor
  case rounded =>
    refine ⟨_, _, _, generator.step.nearest_fraction, ?_, Generator.nearest_point (by omega),
      generator.step.fraction_eq_one_iff, rfl⟩
    rw [show ((low + width : Nat) : Int) - low = width by omega]
    exact Generator.nearest_offset (by omega)
  case inside =>
    intro hless
    rw [if_pos hless]
    omega
  case empty =>
    intro hempty
    rw [if_neg hempty.not_lt]
  case last =>
    intro hlast hless
    have hone := generator.step.fraction_eq_one_iff.2 hlast
    rw [if_pos hless, Generator.value_point_of_one hone hbound, Int.floor_natCast]
    omega

/-- The fraction of this state is rounded to one, though the state is not the greatest one. -/
theorem picks_stay_in_range_one :
    (0 : Int) ≤ 0 ∧ (0 : Int) ≤ 5 ∧ (5 : Int) < 2 ^ 53 ∧
      Generator.pick ⟨0x36dbb5b583836d#64⟩ 0 5 = .ok (4, ⟨0xfffffffffffffc00#64⟩) ∧
      Picked 0 5 0xfffffffffffffc00#64 4 := by
  have hstop : (5 : Int) < 2 ^ 53 := by norm_num
  have hstep : advance 0x36dbb5b583836d#64 = 0xfffffffffffffc00#64 := by decide
  obtain ⟨value, hpick, hvalue⟩ :=
    picks_stay_in_range (le_refl 0) (by decide) hstop ⟨0x36dbb5b583836d#64⟩
  rw [Generator.step, hstep] at hpick
  rw [hstep] at hvalue
  obtain rfl : value = 4 := hvalue.last (by decide) (by decide)
  exact ⟨le_refl 0, by decide, hstop, hpick, hvalue⟩

end Galley.Fuzz
