import Galley.Syntax.Token
import Mathlib.Data.List.Basic
import Mathlib.Tactic.Common

/-!
# How far a step looks

A step of the grammar sees a little of what stands behind its own end: three
characters for the unit of a number, and for a binding any number of blanks
with two characters behind them.  Continuations that agree in three characters
are near, those that agree in all of this are alike, and a step is local if it
reads the same in front of near or of alike continuations.  Locality passes
from the parts of a step to the whole, because continuations stay near or alike
when the same characters are put in front of both.
-/

namespace Galley.Syntax

open Galley.Text Token

/-- Continuations with the same three characters in front. -/
structure Near (left right : List Char) : Prop where
  near : left.take 3 = right.take 3

/-- Continuations that no step can tell apart from in front of them. -/
structure Alike (left right : List Char) : Prop extends Near left right where
  blanks : left.takeWhile isBlank = right.takeWhile isBlank
  behind : (left.dropWhile isBlank).take 2 = (right.dropWhile isBlank).take 2

theorem eq_or_near {left right : List Char} (hnear : left.take 3 = right.take 3) :
    left = right ∨ ∃ a b c afterLeft afterRight,
      left = a :: b :: c :: afterLeft ∧ right = a :: b :: c :: afterRight := by
  rcases left with _ | ⟨a, _ | ⟨b, _ | ⟨c, left⟩⟩⟩ <;>
    rcases right with _ | ⟨a', _ | ⟨b', _ | ⟨c', right⟩⟩⟩ <;> simp_all

namespace Near

variable {left right : List Char}

theorem refl (chars : List Char) : Near chars chars :=
  ⟨rfl⟩

theorem symm (hnear : Near left right) : Near right left :=
  ⟨hnear.near.symm⟩

theorem take_eq_take (hnear : Near left right) {count : Nat} (hcount : count ≤ 3) :
    left.take count = right.take count := by
  have htake := congrArg (List.take count) hnear.near
  rwa [List.take_take, List.take_take, Nat.min_eq_left hcount] at htake

theorem cons (c : Char) (hnear : Near left right) : Near (c :: left) (c :: right) := by
  have htwo := hnear.take_eq_take (show 2 ≤ 3 by decide)
  exact ⟨by simp [htwo]⟩

theorem append (consumed : List Char) (hnear : Near left right) :
    Near (consumed ++ left) (consumed ++ right) := by
  induction consumed with
  | nil => exact hnear
  | cons c consumed ih => exact ih.cons c

theorem eq_nil (hnear : Near [] right) : right = [] := by
  simpa using hnear.near.symm

theorem exists_cons {c : Char} {chars : List Char} (hnear : Near (c :: chars) right) :
    ∃ chars', right = c :: chars' ∧ chars.take 2 = chars'.take 2 := by
  have htake := hnear.near
  cases right with
  | nil => simp at htake
  | cons d chars' =>
    obtain ⟨rfl, htail⟩ := List.cons.inj htake
    exact ⟨chars', rfl, htail⟩

theorem nextIs_eq (hnear : Near left right) (holds : Char → Bool) :
    nextIs holds left = nextIs holds right := by
  obtain rfl | ⟨a, b, c, afterLeft, afterRight, rfl, rfl⟩ := eq_or_near hnear.near
  · rfl
  · rfl

theorem nextIs_tail {c : Char} (hnear : Near (c :: left) (c :: right))
    (holds : Char → Bool) : nextIs holds left = nextIs holds right := by
  obtain htail | ⟨a, b, d, afterLeft, afterRight, hleft, hright⟩ := eq_or_near hnear.near
  · rw [List.cons.inj htail |>.2]
  · rw [(List.cons.inj hleft).2, (List.cons.inj hright).2]
    rfl

/-- The same character stands first in front of both. -/
theorem exists_cons_append {c : Char} {chars consumed : List Char} (hnear : Near left right)
    (hchars : c :: chars = consumed ++ left) : ∃ chars', consumed ++ right = c :: chars' := by
  obtain ⟨chars', hright, -⟩ := exists_cons (hchars ▸ hnear.append consumed)
  exact ⟨chars', hright⟩

theorem ne_cons {c : Char} (hnear : Near left right) (hnext : ¬nextIs (· == c) left = true)
    (chars : List Char) : right ≠ c :: chars := by
  rintro rfl
  rw [hnear.nextIs_eq] at hnext
  exact hnext (beq_self_eq_true c)

end Near

namespace Alike

variable {left right : List Char}

theorem refl (chars : List Char) : Alike chars chars :=
  ⟨.refl chars, rfl, rfl⟩

theorem cons (c : Char) (halike : Alike left right) : Alike (c :: left) (c :: right) := by
  have hone := halike.take_eq_take (show 1 ≤ 3 by decide)
  refine ⟨halike.toNear.cons c, ?_, ?_⟩
  · simp only [List.takeWhile_cons, halike.blanks]
  · by_cases hblank : isBlank c = true
    · simpa [hblank] using halike.behind
    · simp [hblank, hone]

theorem append (consumed : List Char) (halike : Alike left right) :
    Alike (consumed ++ left) (consumed ++ right) := by
  induction consumed with
  | nil => exact halike
  | cons c consumed ih => exact ih.cons c

theorem near_append (consumed : List Char) (halike : Alike left right) :
    Near (consumed ++ left) (consumed ++ right) :=
  halike.toNear.append consumed

end Alike

/-- A run of characters of one class is empty where the next one is of another. -/
theorem run_of_stop {holds : Char → Bool} {chars : List Char} (hstop : nextIs holds chars = false) :
    chars.takeWhile holds = [] ∧ chars.dropWhile holds = chars := by
  cases chars with
  | nil => exact ⟨rfl, rfl⟩
  | cons c chars =>
    have hc : holds c = false := hstop
    simp [hc]

/-- Where no blank comes next there are no blanks to look past. -/
theorem Near.alike {left right : List Char} (hnear : Near left right)
    (hstop : nextIs isBlank left = false) : Alike left right := by
  have hstop' := hstop
  rw [hnear.nextIs_eq] at hstop'
  obtain ⟨hleft, hleft'⟩ := run_of_stop hstop
  obtain ⟨hright, hright'⟩ := run_of_stop hstop'
  refine ⟨hnear, by rw [hleft, hright], ?_⟩
  rw [hleft', hright']
  exact hnear.take_eq_take (by decide)

/-! ## Local steps -/

section Local

variable {α β : Type} {alike sight : List Char → List Char → Prop}
variable {step step' : List Char → Option (α × List Char)} {chars : List Char}

/-- What a step reads here, another one reads in front of every continuation
that is alike. -/
def LocalAt (alike : List Char → List Char → Prop)
    (step step' : List Char → Option (α × List Char)) (chars : List Char) : Prop :=
  ∀ value rest, step chars = some (value, rest) → ∃ consumed, chars = consumed ++ rest ∧
    ∀ rest', alike rest rest' → step' (consumed ++ rest') = some (value, rest')

/-- What a step reads anywhere, another one reads in front of every continuation
that is alike. -/
def Local (alike : List Char → List Char → Prop)
    (step step' : List Char → Option (α × List Char)) : Prop :=
  ∀ chars, LocalAt alike step step' chars

/-- A token is local if it reads the same in front of continuations that are
near. -/
def LocalToken (token : List Char → α × List Char) : Prop :=
  Local Near (fun chars => some (token chars)) fun chars => some (token chars)

namespace LocalAt

/-- A step whose answer is known. -/
theorem of_answer (consumed : List Char) (value : α) {rest : List Char}
    (hstep : step (consumed ++ rest) = some (value, rest))
    (hstep' : ∀ rest', alike rest rest' → step' (consumed ++ rest') = some (value, rest')) :
    LocalAt alike step step' (consumed ++ rest) := by
  intro found last hfound
  rw [hstep] at hfound
  obtain ⟨rfl, rfl⟩ := Prod.mk.inj (Option.some.inj hfound)
  exact ⟨consumed, rfl, hstep'⟩

theorem of_token {token : List Char → α × List Char} (consumed : List Char) (value : α)
    {rest : List Char} (htoken : token (consumed ++ rest) = (value, rest))
    (htoken' : ∀ rest', Near rest rest' → token (consumed ++ rest') = (value, rest')) :
    LocalAt Near (fun chars => some (token chars)) (fun chars => some (token chars))
      (consumed ++ rest) :=
  of_answer consumed value (congrArg some htoken)
    fun rest' hnear => congrArg some (htoken' rest' hnear)

/-- Both steps answer the same on the same characters. -/
theorem same {answer : α × List Char} (hstep : LocalAt alike step step' chars)
    (hrefl : ∀ rest, alike rest rest) (hanswer : step chars = some answer) :
    step' chars = some answer := by
  obtain ⟨consumed, rfl, hrepeat⟩ := hstep _ _ hanswer
  exact hrepeat _ (hrefl _)

/-- A step sees no more than what tells fewer continuations apart. -/
theorem mono (hstep : LocalAt sight step step' chars)
    (hsight : ∀ {left right}, alike left right → sight left right) :
    LocalAt alike step step' chars := by
  intro value rest hvalue
  obtain ⟨consumed, rfl, hrepeat⟩ := hstep value rest hvalue
  exact ⟨consumed, rfl, fun rest' halike => hrepeat rest' (hsight halike)⟩

/-- A step that never stops in front of a blank looks past no blanks. -/
theorem near (hstep : LocalAt Alike step step' chars)
    (hstop : ∀ value rest, step chars = some (value, rest) → nextIs isBlank rest = false) :
    LocalAt Near step step' chars := by
  intro value rest hvalue
  obtain ⟨consumed, rfl, hrepeat⟩ := hstep value rest hvalue
  exact ⟨consumed, rfl, fun rest' hnear => hrepeat rest' (hnear.alike (hstop value rest hvalue))⟩

/-- A step that reads nothing. -/
theorem stay {value : α} (hstep : step chars = some (value, chars))
    (hstep' : ∀ chars', alike chars chars' → step' chars' = some (value, chars')) :
    LocalAt alike step step' chars := by
  rw [← List.nil_append chars]
  exact of_answer [] value hstep hstep'

/-- A step that reads up to the end. -/
theorem whole {value : α} (hnear : ∀ {left right}, alike left right → Near left right)
    (hstep : step chars = some (value, [])) (hstep' : step' chars = some (value, [])) :
    LocalAt alike step step' chars := by
  rw [← List.append_nil chars] at hstep ⊢
  apply of_answer chars value hstep
  intro rest' hrest
  rw [(hnear hrest).eq_nil, List.append_nil]
  exact hstep'

/-- A step that goes on behind the next characters. -/
theorem prepend (front : List Char) {next next' : List Char → Option (α × List Char)}
    (hnext : LocalAt alike next next' chars) (hstep : step (front ++ chars) = next chars)
    (hstep' : ∀ rest rest' consumed, alike rest rest' → chars = consumed ++ rest →
      step' (front ++ (consumed ++ rest')) = next' (consumed ++ rest')) :
    LocalAt alike step step' (front ++ chars) := by
  intro value rest hvalue
  rw [hstep] at hvalue
  obtain ⟨consumed, rfl, hrepeat⟩ := hnext value rest hvalue
  refine ⟨front ++ consumed, (List.append_assoc _ _ _).symm, ?_⟩
  intro rest' halike
  rw [List.append_assoc, hstep' rest rest' consumed halike rfl]
  exact hrepeat rest' halike

theorem cons {c : Char} {next next' : List Char → Option (α × List Char)}
    (hnext : LocalAt alike next next' chars) (hstep : step (c :: chars) = next chars)
    (hstep' : ∀ rest rest' consumed, alike rest rest' → chars = consumed ++ rest →
      step' (c :: (consumed ++ rest')) = next' (consumed ++ rest')) :
    LocalAt alike step step' (c :: chars) :=
  hnext.prepend [c] hstep hstep'

/-- A step that does the same as another one here and wherever it is alike. -/
theorem of_eq {next next' : List Char → Option (α × List Char)}
    (hnext : LocalAt alike next next' chars) (hstep : step chars = next chars)
    (hstep' : ∀ rest rest' consumed, alike rest rest' → chars = consumed ++ rest →
      step' (consumed ++ rest') = next' (consumed ++ rest')) :
    LocalAt alike step step' chars := by
  intro value rest hvalue
  rw [hstep] at hvalue
  obtain ⟨consumed, rfl, hrepeat⟩ := hnext value rest hvalue
  refine ⟨consumed, rfl, ?_⟩
  intro rest' halike
  rw [hstep' rest rest' consumed halike rfl]
  exact hrepeat rest' halike

/-- A step that does the same as another one here and whenever that one
answers. -/
theorem extend {next next' : List Char → Option (α × List Char)}
    (hnext : LocalAt alike next next' chars) (hstep : step chars = next chars)
    (hstep' : ∀ chars answer, next' chars = some answer → step' chars = some answer) :
    LocalAt alike step step' chars := by
  intro value rest hvalue
  rw [hstep] at hvalue
  obtain ⟨consumed, rfl, hrepeat⟩ := hnext value rest hvalue
  exact ⟨consumed, rfl, fun rest' halike => hstep' _ _ (hrepeat rest' halike)⟩

/-- Steps one behind the other.  What the second one looks at has to show in
front of the first one only as far as that one looks. -/
theorem bindAt {next next' : α → List Char → Option (β × List Char)}
    (hstep : LocalAt sight step step' chars)
    (hsight : ∀ {left right} consumed, alike left right →
      sight (consumed ++ left) (consumed ++ right))
    (hnext : ∀ value rest, step chars = some (value, rest) →
      LocalAt alike (next value) (next' value) rest) :
    LocalAt alike (fun chars => step chars >>= fun (value, rest) => next value rest)
      (fun chars => step' chars >>= fun (value, rest) => next' value rest) chars := by
  intro found last hfound
  obtain ⟨⟨value, rest⟩, hvalue, hlast⟩ := Option.bind_eq_some_iff.1 hfound
  obtain ⟨front, rfl, hfront⟩ := hstep value rest hvalue
  obtain ⟨back, rfl, hback⟩ := hnext value rest hvalue found last hlast
  refine ⟨front ++ back, (List.append_assoc _ _ _).symm, ?_⟩
  intro rest' hrest
  dsimp only
  rw [List.append_assoc, hfront (back ++ rest') (hsight back hrest)]
  exact hback rest' hrest

theorem bind {next next' : α → List Char → Option (β × List Char)}
    (hstep : LocalAt sight step step' chars)
    (hsight : ∀ {left right} consumed, alike left right →
      sight (consumed ++ left) (consumed ++ right))
    (hnext : ∀ value, Local alike (next value) (next' value)) :
    LocalAt alike (fun chars => step chars >>= fun (value, rest) => next value rest)
      (fun chars => step' chars >>= fun (value, rest) => next' value rest) chars :=
  hstep.bindAt hsight fun value rest _ => hnext value rest

/-- Nothing more is read behind a step. -/
theorem map (change : α → β) (hstep : LocalAt alike step step' chars) :
    LocalAt alike (fun chars => (step chars).map fun (value, rest) => (change value, rest))
      (fun chars => (step' chars).map fun (value, rest) => (change value, rest)) chars := by
  intro found last hfound
  obtain ⟨⟨value, rest⟩, hvalue, hlast⟩ := Option.map_eq_some_iff.1 hfound
  obtain ⟨rfl, rfl⟩ := Prod.mk.inj hlast
  obtain ⟨consumed, rfl, hrepeat⟩ := hstep value rest hvalue
  refine ⟨consumed, rfl, ?_⟩
  intro rest' halike
  dsimp only
  rw [hrepeat rest' halike]
  rfl

end LocalAt

theorem Local.pure (value : α) :
    Local alike (fun chars => some (value, chars)) fun chars => some (value, chars) :=
  fun _ => .stay rfl fun _ _ => rfl

theorem Local.mono (hstep : Local sight step step')
    (hsight : ∀ {left right}, alike left right → sight left right) : Local alike step step' :=
  fun chars => (hstep chars).mono hsight

section Choice

variable {holds : List Char → Bool} {other other' : List Char → Option (α × List Char)}

/-- A choice between steps by what no continuation hides is the same in front of
all of them. -/
theorem LocalAt.ite_pos (hstep : LocalAt alike step step' chars)
    (hsight : ∀ {left right} consumed, alike left right →
      sight (consumed ++ left) (consumed ++ right))
    (hholds : ∀ left right, sight left right → holds left = holds right)
    (hchars : holds chars = true) :
    LocalAt alike (fun chars => if holds chars then step chars else other chars)
      (fun chars => if holds chars then step' chars else other' chars) chars := by
  refine hstep.of_eq (if_pos hchars) ?_
  rintro rest rest' consumed hrest rfl
  rw [hholds _ _ (hsight consumed hrest)] at hchars
  exact if_pos hchars

theorem LocalAt.ite_neg (hother : LocalAt alike other other' chars)
    (hsight : ∀ {left right} consumed, alike left right →
      sight (consumed ++ left) (consumed ++ right))
    (hholds : ∀ left right, sight left right → holds left = holds right)
    (hchars : ¬holds chars = true) :
    LocalAt alike (fun chars => if holds chars then step chars else other chars)
      (fun chars => if holds chars then step' chars else other' chars) chars := by
  refine hother.of_eq (if_neg hchars) ?_
  rintro rest rest' consumed hrest rfl
  rw [hholds _ _ (hsight consumed hrest)] at hchars
  exact if_neg hchars

theorem Local.ite
    (hsight : ∀ {left right} consumed, alike left right →
      sight (consumed ++ left) (consumed ++ right))
    (hholds : ∀ left right, sight left right → holds left = holds right)
    (hstep : Local alike step step') (hother : Local alike other other') :
    Local alike (fun chars => if holds chars then step chars else other chars)
      fun chars => if holds chars then step' chars else other' chars := by
  intro chars
  by_cases hchars : holds chars = true
  · exact (hstep chars).ite_pos hsight hholds hchars
  · exact (hother chars).ite_neg hsight hholds hchars

end Choice

end Local

end Galley.Syntax
