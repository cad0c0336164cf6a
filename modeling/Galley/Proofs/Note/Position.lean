import Galley.Proofs.Fixture.Lines
import Mathlib.Data.List.Induction

/-!
# Lines and columns

The line of a position is the number of newlines in front of it, and its column is the
number of characters behind the last of these.  The two lead back to the position.
-/

namespace Galley

namespace Text

/-- How many characters a text has behind its last newline. -/
def column (before : List Char) : Nat :=
  (before.reverse.takeWhile (· != '\n')).length

/-- A text ends with a complete line, or it has none at all. -/
def EndsLine (chars : List Char) : Prop :=
  ∀ last ∈ chars.getLast?, last = '\n'

theorem column_concat (before : List Char) (c : Char) :
    column (before ++ [c]) = if c = '\n' then 0 else column before + 1 := by
  rw [column, List.reverse_append, List.reverse_singleton, List.singleton_append,
    List.takeWhile_cons]
  by_cases hnewline : c = '\n'
  · simp [hnewline]
  · simp [hnewline, column]

/-- Complete lines in front of a text move no column in it. -/
theorem column_append {front : List Char} (hfront : EndsLine front) (before : List Char) :
    column (front ++ before) = column before := by
  induction before using List.reverseRecOn with
  | nil =>
    rw [List.append_nil]
    obtain rfl | ⟨init, last, rfl⟩ := List.eq_nil_or_concat' front
    · rfl
    · obtain rfl : last = '\n' := hfront last (by simp)
      rw [column_concat, if_pos rfl]
      rfl
  | append_singleton before c ih => rw [← List.append_assoc, column_concat, column_concat, ih]

theorem flatten_consPiece (c : Char) (pieces : List (List Char)) :
    (consPiece c pieces).flatten = c :: pieces.flatten := by
  cases pieces <;> rfl

theorem flatten_segments (chars : List Char) : (segments chars).flatten = chars := by
  induction chars with
  | nil => rfl
  | cons c chars ih =>
    rw [segments]
    split
    · rw [List.flatten_cons, ih, List.singleton_append]
    · rw [flatten_consPiece, ih]

theorem column_le_length (before : List Char) : column before ≤ before.length := by
  exact Nat.le_trans (List.takeWhile_sublist _).length_le (Nat.le_of_eq List.length_reverse)

/-- A text in front of a position consists of complete lines and of what there is of the line of
the position, which goes on behind it. -/
theorem exists_segments (before : List Char) :
    ∃ (full : List (List Char)) (line : List Char), full.flatten ++ line = before ∧
      full.length = before.count '\n' ∧ line.length = column before ∧
      ∀ after, ∃ tail rest, tail ++ rest.flatten = after ∧
        segments (before ++ after) = full ++ (line ++ tail) :: rest := by
  -- The text grows at its end, where a newline completes a line and any other character
  -- belongs to the last one.
  suffices hsegments : ∃ (full : List (List Char)) (line : List Char),
      full.flatten ++ line = before ∧ full.length = before.count '\n' ∧
      line.length = column before ∧ ∀ after tail rest, segments after = tail :: rest →
        segments (before ++ after) = full ++ (line ++ tail) :: rest by
    obtain ⟨full, line, hbefore, hfull, hline, hgrow⟩ := hsegments
    refine ⟨full, line, hbefore, hfull, hline, fun after => ?_⟩
    obtain ⟨tail, rest, hafter⟩ := List.exists_cons_of_ne_nil (segments_ne_nil after)
    have hflatten := flatten_segments after
    rw [hafter, List.flatten_cons] at hflatten
    exact ⟨tail, rest, hflatten, hgrow after tail rest hafter⟩
  induction before using List.reverseRecOn with
  | nil => exact ⟨[], [], rfl, rfl, rfl, fun _ _ _ hafter => hafter⟩
  | append_singleton before c ih =>
    obtain ⟨full, line, hbefore, hfull, hline, hgrow⟩ := ih
    rw [column_concat, List.count_append]
    by_cases hnewline : c = '\n'
    · subst hnewline
      refine ⟨full ++ [line ++ ['\n']], [], ?_, ?_, rfl, fun after tail rest hafter => ?_⟩
      · simp [← hbefore]
      · simp [hfull]
      · rw [List.append_assoc, List.singleton_append,
          hgrow ('\n' :: after) ['\n'] (tail :: rest) (by rw [segments, hafter]; rfl)]
        simp
    · refine ⟨full, line ++ [c], ?_, ?_, ?_, fun after tail rest hafter => ?_⟩
      · rw [← List.append_assoc, hbefore]
      · rw [hfull, List.count_singleton, if_neg (by simpa using hnewline), Nat.add_zero]
      · rw [List.length_append, hline, if_neg hnewline, List.length_singleton]
      · have hother : segments (c :: after) = (c :: tail) :: rest := by
          rw [segments, if_neg (by simpa using hnewline), hafter]
          rfl
        rw [List.append_assoc, List.singleton_append, hgrow (c :: after) (c :: tail) rest hother]
        simp

end Text

namespace Syntax.Source

open Text

variable {source : Source} {before after : List Char}

theorem byteToColumn_byteLength (hchars : source.chars = before ++ after) :
    source.byteToColumn (byteLength before) = some (column before) := by
  obtain ⟨full, line, rfl, hfull, hline, hgrow⟩ := exists_segments before
  obtain ⟨tail, rest, rfl, hsegments⟩ := hgrow after
  have hposition : byteLength (full.flatten ++ line) - byteLength full.flatten =
      byteLength line := by
    rw [byteLength_append, Nat.add_sub_cancel_left]
  rw [byteToColumn, byteToLine_byteLength hchars]
  dsimp only
  rw [hchars, hsegments, ← hfull, List.take_left, List.drop_left, Int.toNat_natCast, hposition,
    List.flatten_cons, List.append_assoc, splitAtByte_append, ← hline]
  rfl

/-- The line and the column of a position lead back to it. -/
theorem lineColumnToByte_column (hchars : source.chars = before ++ after) :
    source.lineColumnToByte (before.count '\n' : Nat) (column before : Nat) =
      some (byteLength before) := by
  obtain ⟨full, line, rfl, hfull, hline, hgrow⟩ := exists_segments before
  obtain ⟨tail, rest, rfl, hsegments⟩ := hgrow after
  rw [lineColumnToByte, if_neg (by omega)]
  dsimp only
  rw [hchars, hsegments, Int.toNat_natCast, Int.toNat_natCast, ← hfull, ← hline,
    List.getElem?_append_right (Nat.le_refl _), Nat.sub_self, List.getElem?_cons_zero]
  dsimp only
  rw [if_neg (by simp), List.take_left, List.take_left, byteLength_append]

end Syntax.Source

end Galley
