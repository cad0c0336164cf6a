import Galley.Note.Metadata
import Mathlib.Algebra.GroupWithZero.Nat
import Mathlib.Data.List.Basic

/-!
# Reported lines

A fixture is its parts with a separator behind each but the last.  The lines in
front of a part are counted part by part, and every part is taken to end with
the line that it stops in.  The separator begins with a newline of its own, so a
part that breaks off within a line moves all lines behind it by one.
-/

namespace Galley

namespace Text

/-! ## Cutting a text into pieces -/

theorem consPiece_ne_nil (c : Char) (pieces : List (List Char)) : consPiece c pieces ≠ [] := by
  cases pieces <;> exact List.cons_ne_nil _ _

theorem splitOnAux_ne_nil (separator : List Char) (skip : Nat) (chars : List Char) :
    splitOnAux separator skip chars ≠ [] := by
  fun_induction splitOnAux separator skip chars with
  | case1 => exact List.cons_ne_nil _ _
  | case2 skip c chars ih => exact ih
  | case3 c chars hfound ih => exact List.cons_ne_nil _ _
  | case4 c chars hother ih => exact consPiece_ne_nil _ _

theorem joinWith_cons (separator piece : List Char) (rest : List (List Char)) :
    joinWith separator (piece :: rest) = piece ++ rest.flatMap (separator ++ ·) := by
  induction rest generalizing piece with
  | nil => simp [joinWith]
  | cons next rest ih =>
    have hnext : joinWith separator (piece :: next :: rest) =
        piece ++ (separator ++ joinWith separator (next :: rest)) := by
      simp [joinWith]
    rw [hnext, ih, List.flatMap_cons, List.append_assoc]

theorem joinWith_cons_of_ne_nil (separator piece : List Char) {rest : List (List Char)}
    (hrest : rest ≠ []) :
    joinWith separator (piece :: rest) = piece ++ (separator ++ joinWith separator rest) := by
  obtain ⟨next, rest, rfl⟩ := List.exists_cons_of_ne_nil hrest
  rw [joinWith_cons, joinWith_cons, List.flatMap_cons, List.append_assoc]

theorem joinWith_consPiece (separator : List Char) (c : Char) {pieces : List (List Char)}
    (hpieces : pieces ≠ []) :
    joinWith separator (consPiece c pieces) = c :: joinWith separator pieces := by
  obtain ⟨piece, rest, rfl⟩ := List.exists_cons_of_ne_nil hpieces
  rw [consPiece, joinWith_cons, joinWith_cons, List.cons_append]

theorem splitWhen_ne_nil (separates : Char → Bool) (chars : List Char) :
    splitWhen separates chars ≠ [] := by
  cases chars with
  | nil => exact List.cons_ne_nil _ _
  | cons c chars =>
    rw [splitWhen]
    split
    · exact List.cons_ne_nil _ _
    · exact consPiece_ne_nil _ _

/-- A text is its pieces with the character in between that separates them. -/
theorem joinWith_splitWhen (separator : Char) (chars : List Char) :
    joinWith [separator] (splitWhen (· == separator) chars) = chars := by
  induction chars with
  | nil => rfl
  | cons c chars ih =>
    rw [splitWhen]
    split
    · rename_i hsame
      rw [joinWith_cons_of_ne_nil _ _ (splitWhen_ne_nil _ _), ih, beq_iff_eq.1 hsame]
      rfl
    · rw [joinWith_consPiece _ _ (splitWhen_ne_nil _ _), ih]

/-! ## Counting lines -/

/-- Whether a text breaks off within a line. -/
def breaksOff (chars : List Char) : Bool :=
  chars.getLast?.any (· != '\n')

theorem lineCount_eq (chars : List Char) :
    lineCount chars = chars.count '\n' + (breaksOff chars).toNat := by
  cases hlast : chars.getLast? with
  | none =>
    obtain rfl := List.getLast?_eq_none_iff.1 hlast
    rfl
  | some last =>
    have hchars : chars ≠ [] := by
      rintro rfl
      cases hlast
    rw [lineCount, breaksOff, hlast, List.isEmpty_eq_false_iff.2 hchars]
    by_cases hnewline : last = '\n'
    · simp [hnewline]
    · simp [hnewline, bne_iff_ne.2 hnewline]

theorem segments_ne_nil (chars : List Char) : segments chars ≠ [] := by
  cases chars with
  | nil => exact List.cons_ne_nil _ _
  | cons c chars =>
    rw [segments]
    split
    · exact List.cons_ne_nil _ _
    · exact consPiece_ne_nil _ _

end Text

namespace Syntax.Source

open Text

theorem le_of_mem_startsFrom {position start : Nat} {segments : List (List Char)}
    (hstart : start ∈ startsFrom position segments) : position ≤ start := by
  induction segments generalizing position with
  | nil => cases hstart
  | cons segment segments ih =>
    rw [startsFrom] at hstart
    obtain rfl | hstart := List.mem_cons.1 hstart
    · exact Nat.le_refl _
    · exact Nat.le_trans (Nat.le_add_right ..) (ih hstart)

/-- The lines that start behind a position are none of those up to it. -/
theorem countP_startsFrom_eq_zero {position bound : Nat} (hbound : bound < position)
    (segments : List (List Char)) :
    (startsFrom position segments).countP (fun start => decide (start ≤ bound)) = 0 := by
  refine List.countP_eq_zero.2 fun start hstart => ?_
  have hle := le_of_mem_startsFrom hstart
  simp only [decide_eq_true_eq]
  omega

/-- A line starts at the beginning of a text and behind each newline. -/
theorem countP_startsFrom_segments (position : Nat) (before after : List Char) :
    (startsFrom position (segments (before ++ after))).countP
      (fun start => decide (start ≤ position + byteLength before)) = before.count '\n' + 1 := by
  induction before generalizing position with
  | nil =>
    rw [List.nil_append]
    cases after with
    | nil => simp [segments, startsFrom]
    | cons c after =>
      have hpos : 0 < c.utf8Size := c.utf8Size_pos
      rw [segments]
      split
      · rw [startsFrom, List.countP_cons, countP_startsFrom_eq_zero (by simp; omega)]
        simp
      · obtain ⟨segment, rest, hrest⟩ := List.exists_cons_of_ne_nil (segments_ne_nil after)
        rw [hrest, consPiece, startsFrom, List.countP_cons,
          countP_startsFrom_eq_zero (by simp; omega)]
        simp
  | cons c before ih =>
    rw [List.cons_append, segments]
    have hinner := ih (position + c.utf8Size)
    rw [Nat.add_assoc] at hinner
    split
    · rename_i hnewline
      obtain rfl := beq_iff_eq.1 hnewline
      rw [startsFrom, List.countP_cons, byteLength_cons, byteLength_cons, byteLength_nil,
        Nat.add_zero, hinner]
      simp
    · rename_i hother
      obtain ⟨segment, rest, hrest⟩ :=
        List.exists_cons_of_ne_nil (segments_ne_nil (before ++ after))
      rw [hrest, startsFrom, List.countP_cons, if_pos (by simp), Nat.add_assoc] at hinner
      rw [hrest, consPiece, startsFrom, List.countP_cons, if_pos (by simp), byteLength_cons,
        byteLength_cons, List.count_cons_of_ne (by simpa using hother)]
      exact hinner

/-- The line of a position is the number of newlines in front of it. -/
theorem byteToLine_byteLength {source : Source} {before after : List Char}
    (hchars : source.chars = before ++ after) :
    source.byteToLine (byteLength before) = some (before.count '\n') := by
  have hinside : byteLength before ≤ source.byteLen := by
    rw [byteLen, hchars, byteLength_append]
    exact Nat.le_add_right _ _
  have hcount := countP_startsFrom_segments 0 before after
  rw [Nat.zero_add] at hcount
  rw [byteToLine, if_pos ⟨Int.natCast_nonneg _, Int.ofNat_le.2 hinside⟩, lineStarts, hchars,
    Int.toNat_natCast, hcount, Nat.add_sub_cancel]

end Syntax.Source

namespace Fixture

open Text Syntax

/-! ## The place of a part -/

variable {path : File.Path} {text : String} {index : Nat}

theorem parts_read (path : File.Path) (text : String) :
    (read path text).parts =
      ((splitOn separator text.toList).map dropReturn).map String.ofList := rfl

end Fixture

end Galley
