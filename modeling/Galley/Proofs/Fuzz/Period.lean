import Galley.Fuzz.Generator
import Mathlib.Dynamics.PeriodicPts.Lemmas

/-!
# States of the generator

A step mixes shifted copies of the state into it.  A state that is its own copy has been shifted
any number of times, so it is zero, and nothing is lost where a copy is mixed in: a step permutes
the states.  The zero state is left alone, so no other state leads there, and every sequence of
states comes back to where it began.
-/

namespace Galley.Fuzz

open Function

/-! ## Mixing -/

section Mixing

variable {width : Nat}

/-- Mixes a copy of a state into it. -/
def mix (copy : BitVec width → BitVec width) (state : BitVec width) : BitVec width :=
  state ^^^ copy state

/-- Two states that are mixed to the same one differ by a state that is its own copy. -/
theorem mix_injective {copy : BitVec width → BitVec width}
    (hxor : ∀ left right, copy (left ^^^ right) = copy left ^^^ copy right)
    (hvanish : ∀ state, copy^[width] state = BitVec.ofNat width 0) : Injective (mix copy) := by
  intro left right heq
  have hcopy : copy (left ^^^ right) = left ^^^ right := by
    have hcancel : left ^^^ right ^^^ (copy left ^^^ copy right) = BitVec.ofNat width 0 := by
      rw [BitVec.xor_assoc, ← BitVec.xor_assoc right, BitVec.xor_comm right, BitVec.xor_assoc,
        ← BitVec.xor_assoc left]
      exact BitVec.xor_eq_zero_iff.2 heq
    rw [hxor]
    exact (BitVec.xor_eq_zero_iff.1 hcancel).symm
  apply BitVec.xor_eq_zero_iff.1
  calc
    left ^^^ right = copy^[width] (left ^^^ right) := (iterate_fixed hcopy width).symm
    _ = BitVec.ofNat width 0 := hvanish _

theorem iterate_shiftRight (amount count : Nat) (state : BitVec width) :
    (fun state : BitVec width => state >>> amount)^[count] state = state >>> (amount * count) := by
  induction count with
  | zero => rfl
  | succ count ih => rw [iterate_succ_apply', ih, ← BitVec.shiftRight_add, Nat.mul_succ]

theorem iterate_shiftLeft (amount count : Nat) (state : BitVec width) :
    (fun state : BitVec width => state <<< amount)^[count] state = state <<< (amount * count) := by
  induction count with
  | zero => rw [Nat.mul_zero, BitVec.shiftLeft_zero, iterate_zero_apply]
  | succ count ih => rw [iterate_succ_apply', ih, ← BitVec.shiftLeft_add, Nat.mul_succ]

theorem mix_shiftRight_injective {amount : Nat} (hamount : 0 < amount) :
    Injective (mix fun state : BitVec width => state >>> amount) := by
  apply mix_injective
  · intro left right
    exact BitVec.ushiftRight_xor_distrib left right amount
  · intro state
    rw [iterate_shiftRight]
    exact BitVec.ushiftRight_eq_zero (Nat.le_mul_of_pos_left width hamount)

theorem mix_shiftLeft_injective {amount : Nat} (hamount : 0 < amount) :
    Injective (mix fun state : BitVec width => state <<< amount) := by
  apply mix_injective
  · intro left right
    exact BitVec.shiftLeft_xor_distrib left right amount
  · intro state
    rw [iterate_shiftLeft]
    exact BitVec.shiftLeft_eq_zero (Nat.le_mul_of_pos_left width hamount)

end Mixing

/-! ## Steps -/

theorem advance_eq : advance =
    mix (· >>> 52) ∘ mix (· <<< 36) ∘ mix (· >>> 28) ∘ mix (· <<< 14) ∘ mix (· >>> 3) :=
  rfl

theorem advance_injective : Injective advance := by
  rw [advance_eq]
  apply (mix_shiftRight_injective (by decide)).comp
  apply (mix_shiftLeft_injective (by decide)).comp
  apply (mix_shiftRight_injective (by decide)).comp
  apply (mix_shiftLeft_injective (by decide)).comp
  exact mix_shiftRight_injective (by decide)

instance finite_states : Finite (BitVec 64) :=
  Finite.of_injective BitVec.toFin fun _ _ => BitVec.eq_of_toFin_eq

theorem advance_bijective : Bijective advance :=
  Finite.injective_iff_bijective.1 advance_injective

theorem advance_zero : advance 0#64 = 0#64 := by
  decide

/-- A step on numbers.  What a shift to the left moves out of the lowest 64 bits is cut off. -/
def advanceNumber (state : Nat) : Nat :=
  let state := state ^^^ (state >>> 3)
  let state := state ^^^ ((state <<< 14) &&& (2 ^ 64 - 1))
  let state := state ^^^ (state >>> 28)
  let state := state ^^^ ((state <<< 36) &&& (2 ^ 64 - 1))
  state ^^^ (state >>> 52)

/-- There is no need to cut off anything else. -/
theorem toNat_advance (state : BitVec 64) : (advance state).toNat = advanceNumber state.toNat := by
  simp only [advance, advanceNumber, BitVec.toNat_xor, BitVec.toNat_ushiftRight,
    BitVec.toNat_shiftLeft, Nat.and_two_pow_sub_one_eq_mod]

/-! ## Sequences of states -/

namespace Generator

theorem state_iterate_step (count : Nat) (generator : Generator) :
    (step^[count] generator).state = advance^[count] generator.state := by
  induction count with
  | zero => rfl
  | succ count ih => rw [iterate_succ_apply', iterate_succ_apply', step, ih]

theorem ext_state {left right : Generator} (hstate : left.state = right.state) : left = right := by
  cases left
  cases right
  exact congrArg mk hstate

theorem toNat_iterate_step (count : Nat) (generator : Generator) :
    (step^[count] generator).state.toNat = advanceNumber^[count] generator.state.toNat := by
  induction count with
  | zero => rfl
  | succ count ih => rw [iterate_succ_apply', iterate_succ_apply', step, toNat_advance, ih]

/-- Only the zero state ever leads to the zero state. -/
theorem exists_state_eq_zero_iff (generator : Generator) :
    (∃ count, (step^[count] generator).state = 0#64) ↔ generator.state = 0#64 := by
  constructor
  · rintro ⟨count, hzero⟩
    apply advance_injective.iterate count
    rw [iterate_fixed advance_zero, ← hzero, state_iterate_step]
  · intro hzero
    exact ⟨0, hzero⟩

theorem state_ofSeed_eq_zero_iff (seed : Int) : (ofSeed seed).state = 0#64 ↔ 2 ^ 64 ∣ seed := by
  rw [← BitVec.toNat_inj, ofSeed, BitVec.toNat_ofInt, BitVec.toNat_zero, Int.toNat_eq_zero,
    Int.dvd_iff_emod_eq_zero]
  push_cast
  constructor
  · intro hle
    exact le_antisymm hle (Int.emod_nonneg seed (by decide))
  · exact le_of_eq

/-- A generator is back where it was after some steps. -/
theorem exists_period (generator : Generator) :
    ∃ period, 0 < period ∧
      ∀ count, step^[count + period] generator = step^[count] generator := by
  obtain ⟨period, hpositive, hperiod⟩ := advance_injective.mem_periodicPts generator.state
  refine ⟨period, hpositive, fun count => ext_state ?_⟩
  rw [state_iterate_step, state_iterate_step, iterate_add_apply, hperiod]

end Generator

/-- States are numbers of 64 bits, however the seed is chosen and however many steps are taken.
A step permutes them, a generator gets to the zero state only from a seed whose lowest 64 bits
are zero, and the states repeat from the first one on. -/
theorem states_recur :
    (∀ (seed : Int) (count : Nat),
      (Generator.step^[count] (.ofSeed seed)).state.toNat =
          advanceNumber^[count] (seed % 2 ^ 64).toNat ∧
        advanceNumber^[count] (seed % 2 ^ 64).toNat < 2 ^ 64) ∧
    Bijective advance ∧
    (∀ seed : Int,
      (∃ count, (Generator.step^[count] (.ofSeed seed)).state = 0#64) ↔ 2 ^ 64 ∣ seed) ∧
    ∀ seed : Int, ∃ period, 0 < period ∧ ∀ count,
      Generator.step^[count + period] (.ofSeed seed) = Generator.step^[count] (.ofSeed seed) := by
  refine ⟨?_, advance_bijective, ?_, ?_⟩
  · intro seed count
    have hseed : (Generator.ofSeed seed).state.toNat = (seed % 2 ^ 64).toNat :=
      BitVec.toNat_ofInt seed
    have hstate := Generator.toNat_iterate_step count (.ofSeed seed)
    rw [hseed] at hstate
    refine ⟨hstate, ?_⟩
    rw [← hstate]
    exact BitVec.isLt _
  · intro seed
    rw [Generator.exists_state_eq_zero_iff, Generator.state_ofSeed_eq_zero_iff]
  · intro seed
    exact Generator.exists_period _

end Galley.Fuzz
