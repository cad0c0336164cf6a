import Galley.Proofs.Note.Position

/-!
# Bytes, lines and columns

A text falls into lines, each with its newline, and every place between two of its characters has
a byte offset, a line and a column.  The offset gives line and column wherever it splits no
character, and they give it back.  Only the place behind a newline has two names, since it is also
the start of the next line.
-/

namespace Galley

namespace Text

/-- An offset inside a character of a text. -/
def SplitsCharacter (chars : List Char) (offset : Nat) : Prop :=
  ∃ before c after, chars = before ++ c :: after ∧
    byteLength before < offset ∧ offset < byteLength before + c.utf8Size

/-- A line of a text, counted from zero and with its newline, behind all lines in front of it.
Only the last line has no newline. -/
structure IsLine (chars : List Char) (number : Nat) (front line : List Char) : Prop where
  endsLine : EndsLine front
  number : front.count '\n' = number
  not_mem : '\n' ∉ line.dropLast
  append : ∃ after, chars = front ++ line ++ after ∧ (line.getLast? = some '\n' ∨ after = [])

/-- A line and a column of a text.  The newline of a line is part of it. -/
def HasPlace (chars : List Char) (line column : Int) : Prop :=
  ∃ (number place : Nat) (front body : List Char), line = number ∧ column = place ∧
    IsLine chars number front body ∧ place ≤ body.length

/-! ## Offsets -/

/-- An offset within a text falls between two characters or into one. -/
theorem splitsCharacter_or_exists {chars : List Char} {offset : Nat}
    (hoffset : offset ≤ byteLength chars) :
    SplitsCharacter chars offset ∨
      ∃ before after, chars = before ++ after ∧ byteLength before = offset := by
  induction chars generalizing offset with
  | nil => exact .inr ⟨[], [], rfl, (Nat.le_zero.1 hoffset).symm⟩
  | cons c chars ih =>
    rw [byteLength_cons] at hoffset
    obtain rfl | hpos := Nat.eq_zero_or_pos offset
    · exact .inr ⟨[], c :: chars, rfl, rfl⟩
    obtain hinside | hbehind := Nat.lt_or_ge offset c.utf8Size
    · exact .inl ⟨[], c, chars, rfl, hpos, by rwa [byteLength_nil, Nat.zero_add]⟩
    obtain ⟨rest, rfl⟩ := Nat.exists_eq_add_of_le hbehind
    obtain ⟨before, d, after, rfl, hlow, hhigh⟩ | ⟨before, after, rfl, rfl⟩ :=
      ih (Nat.le_of_add_le_add_left hoffset)
    · exact .inl ⟨c :: before, d, after, rfl, by rw [byteLength_cons]; omega,
        by rw [byteLength_cons]; omega⟩
    · exact .inr ⟨c :: before, after, rfl, rfl⟩

/-- What stands in front of a place ends outside of every character. -/
theorem not_splitsCharacter {chars before after : List Char} (hchars : chars = before ++ after) :
    ¬SplitsCharacter chars (byteLength before) := by
  subst hchars
  rintro ⟨front, c, behind, hchars, hlow, hhigh⟩
  obtain ⟨extra, rfl, -⟩ | ⟨extra, rfl, hextra⟩ := List.append_eq_append_iff.1 hchars
  · rw [byteLength_append] at hlow
    omega
  · cases extra with
    | nil => simp at hlow
    | cons d extra =>
      obtain ⟨rfl, -⟩ := List.cons_eq_cons.1 hextra
      rw [byteLength_append, byteLength_cons] at hhigh
      omega

/-! ## Lines -/

/-- A line that ends with its newline and holds no other. -/
def IsClosed (line : List Char) : Prop :=
  ∃ body, line = body ++ ['\n'] ∧ '\n' ∉ body

/-- All pieces of a text but the last one are closed. -/
theorem exists_segments_concat (chars : List Char) :
    ∃ full last, segments chars = full ++ [last] ∧ (∀ line ∈ full, IsClosed line) ∧
      '\n' ∉ last := by
  induction chars with
  | nil => exact ⟨[], [], rfl, List.forall_mem_nil _, List.not_mem_nil⟩
  | cons c chars ih =>
    obtain ⟨full, last, hsegments, hfull, hlast⟩ := ih
    rw [segments, hsegments]
    split
    · rename_i hnewline
      obtain rfl := beq_iff_eq.1 hnewline
      have hfirst : IsClosed ['\n'] := ⟨[], rfl, List.not_mem_nil⟩
      exact ⟨['\n'] :: full, last, rfl, List.forall_mem_cons.2 ⟨hfirst, hfull⟩, hlast⟩
    · rename_i hother
      have hc : '\n' ≠ c := fun heq => hother (beq_iff_eq.2 heq.symm)
      cases full with
      | nil => exact ⟨[], c :: last, rfl, hfull, List.not_mem_cons_of_ne_of_not_mem hc hlast⟩
      | cons line full =>
        obtain ⟨⟨body, rfl, hbody⟩, hrest⟩ := List.forall_mem_cons.1 hfull
        have hfirst : IsClosed (c :: (body ++ ['\n'])) :=
          ⟨c :: body, rfl, List.not_mem_cons_of_ne_of_not_mem hc hbody⟩
        exact ⟨(c :: (body ++ ['\n'])) :: full, last, rfl,
          List.forall_mem_cons.2 ⟨hfirst, hrest⟩, hlast⟩

theorem endsLine_flatten {full : List (List Char)} (hfull : ∀ line ∈ full, IsClosed line) :
    EndsLine full.flatten := by
  obtain rfl | ⟨init, last, rfl⟩ := List.eq_nil_or_concat' full
  · exact nofun
  · obtain ⟨body, rfl, -⟩ := hfull last (by simp)
    intro c hc
    simpa using hc.symm

theorem count_flatten {full : List (List Char)} (hfull : ∀ line ∈ full, IsClosed line) :
    full.flatten.count '\n' = full.length := by
  induction full with
  | nil => rfl
  | cons line full ih =>
    obtain ⟨⟨body, rfl, hbody⟩, hrest⟩ := List.forall_mem_cons.1 hfull
    rw [List.flatten_cons, List.count_append, List.count_append, List.count_eq_zero.2 hbody,
      ih hrest, List.length_cons]
    exact Nat.add_comm _ _

/-- The piece of a text at an index is the line with that number. -/
theorem isLine_of_segments {chars line : List Char} {full rest : List (List Char)}
    (hsegments : segments chars = full ++ line :: rest) :
    IsLine chars full.length full.flatten line := by
  have hchars := flatten_segments chars
  obtain ⟨pieces, last, hpieces, hclosed, hlast⟩ := exists_segments_concat chars
  rw [hsegments, List.flatten_append, List.flatten_cons, ← List.append_assoc] at hchars
  rw [hsegments] at hpieces
  obtain rfl | ⟨others, final, rfl⟩ := List.eq_nil_or_concat' rest
  · obtain ⟨rfl, hline⟩ := List.append_inj' hpieces rfl
    obtain rfl := List.head_eq_of_cons_eq hline
    exact ⟨endsLine_flatten hclosed, count_flatten hclosed,
      fun hmem => hlast (List.dropLast_subset _ hmem), [], hchars.symm, .inr rfl⟩
  · rw [← List.cons_append, ← List.append_assoc] at hpieces
    obtain ⟨rfl, -⟩ := List.append_inj' hpieces rfl
    obtain ⟨hfull, hline⟩ := List.forall_mem_append.1 hclosed
    obtain ⟨body, rfl, hbody⟩ := hline line List.mem_cons_self
    refine ⟨endsLine_flatten hfull, count_flatten hfull, ?_, _, hchars.symm, .inl (by simp)⟩
    rwa [List.dropLast_concat]

/-- Of two first lines of a text none goes on behind the other. -/
theorem eq_nil_of_append {line extra rest after : List Char}
    (hmem : '\n' ∉ (line ++ extra).dropLast) (hrest : rest = extra ++ after)
    (hend : line.getLast? = some '\n' ∨ rest = []) : extra = [] := by
  cases extra with
  | nil => rfl
  | cons c extra =>
    rw [List.dropLast_append_of_ne_nil (List.cons_ne_nil c extra)] at hmem
    obtain hlast | rfl := hend
    · exact absurd (List.mem_append_left _ (List.mem_of_getLast? hlast)) hmem
    · cases hrest

/-- The line with a number is the piece at that index. -/
theorem IsLine.exists_segments {chars front line : List Char} {number : Nat}
    (hline : IsLine chars number front line) :
    ∃ full rest, segments chars = full ++ line :: rest ∧ full.length = number ∧
      full.flatten = front := by
  obtain ⟨after, rfl, hend⟩ := hline.append
  obtain ⟨full, inner, hfront, hlength, hinner, hgrow⟩ := Text.exists_segments front
  have hcolumn := column_append hline.endsLine []
  rw [List.append_nil] at hcolumn
  obtain rfl : inner = [] := List.eq_nil_of_length_eq_zero (hinner.trans hcolumn)
  obtain ⟨tail, rest, hafter, hsegments⟩ := hgrow (line ++ after)
  rw [← List.append_assoc, List.nil_append] at hsegments
  obtain ⟨-, -, hmem, behind, hbehind, hclosed⟩ := isLine_of_segments hsegments
  have htail : tail = line := by
    rw [List.append_nil] at hfront
    rw [List.append_assoc, List.append_assoc, hfront, List.append_cancel_left_eq, ← hafter,
      List.append_cancel_left_eq] at hbehind
    subst hbehind
    obtain ⟨extra, rfl, hextra⟩ | ⟨extra, rfl, hextra⟩ := List.append_eq_append_iff.1 hafter
    · rw [eq_nil_of_append hline.not_mem hextra hclosed, List.append_nil]
    · rw [eq_nil_of_append hmem hextra hend, List.append_nil]
  exact ⟨full, rest, htail ▸ hsegments, hlength.trans hline.number,
    by rwa [List.append_nil] at hfront⟩

theorem column_of_not_mem {before : List Char} (hbefore : '\n' ∉ before) :
    column before = before.length := by
  induction before using List.reverseRecOn with
  | nil => rfl
  | append_singleton before c ih =>
    obtain ⟨hbefore, hc⟩ := not_or.1 (List.mem_append.not.1 hbefore)
    rw [column_concat, if_neg fun heq : c = '\n' => hc (heq ▸ List.mem_singleton_self c),
      ih hbefore, List.length_append, List.length_singleton]

/-- Only behind the newline of a line there is a newline of the line in front. -/
theorem IsLine.not_mem_take {chars front line : List Char} {number place : Nat}
    (hline : IsLine chars number front line) (hplace : place ≤ line.length)
    (hinside : ¬(line.getLast? = some '\n' ∧ place = line.length)) : '\n' ∉ line.take place := by
  obtain rfl | ⟨body, last, rfl⟩ := List.eq_nil_or_concat' line
  · rw [List.take_nil]
    exact List.not_mem_nil
  · have hbody := hline.not_mem
    rw [List.dropLast_concat] at hbody
    rw [List.length_append, List.length_singleton] at hplace hinside
    rw [List.getLast?_concat, Option.some_inj] at hinside
    obtain hshort | rfl := Nat.le_succ_iff.1 hplace
    · rw [List.take_append_of_le_length hshort]
      exact fun hmem => hbody (List.mem_of_mem_take hmem)
    · rw [List.take_of_length_le (by simp)]
      intro hmem
      obtain hmem | hmem := List.mem_append.1 hmem
      · exact hbody hmem
      · exact hinside ⟨(List.mem_singleton.1 hmem).symm, rfl⟩

end Text

namespace Syntax.Source

open Text

variable {source : Source}

/-! ## Lines and columns of offsets -/

/-- The line of a position starts no later than the position. -/
theorem byteLength_flatten_take_le {position bound : Nat} (hposition : position ≤ bound)
    (segments : List (List Char)) :
    position + byteLength (segments.take ((startsFrom position segments).countP
      (fun start => decide (start ≤ bound)) - 1)).flatten ≤ bound := by
  induction segments generalizing position with
  | nil => simpa using hposition
  | cons segment segments ih =>
    rw [startsFrom, List.countP_cons, if_pos (decide_eq_true hposition), Nat.add_sub_cancel]
    cases hcount : (startsFrom (position + byteLength segment) segments).countP
      (fun start => decide (start ≤ bound)) with
    | zero => simpa using hposition
    | succ count =>
      obtain ⟨start, hstart, hle⟩ := List.countP_pos_iff.1
        (Nat.lt_of_lt_of_eq (Nat.succ_pos count) hcount.symm)
      have hnext := Nat.le_trans (le_of_mem_startsFrom hstart) (of_decide_eq_true hle)
      have hinner := ih hnext
      rw [hcount, Nat.add_sub_cancel] at hinner
      rw [List.take_succ_cons, List.flatten_cons, byteLength_append, ← Nat.add_assoc]
      exact hinner

/-- Inside a character there is no column. -/
theorem byteToColumn_of_splits {offset : Nat} (hsplits : SplitsCharacter source.chars offset) :
    source.byteToColumn offset = none := by
  rw [byteToColumn]
  cases hline : source.byteToLine offset with
  | none => rfl
  | some line =>
    rw [byteToLine] at hline
    split at hline
    · obtain rfl := Option.some.inj hline
      have hstart := byteLength_flatten_take_le (Nat.zero_le offset) (segments source.chars)
      rw [Nat.zero_add] at hstart
      dsimp only
      rw [lineStarts, Int.toNat_natCast]
      generalize (startsFrom 0 (segments source.chars)).countP _ - 1 = line at hstart ⊢
      rw [Option.map_eq_none_iff]
      cases hcut : splitAtByte (offset - byteLength ((segments source.chars).take line).flatten)
        ((segments source.chars).drop line).flatten with
      | none => rfl
      | some cut =>
        -- A cut behind the start of the line would be one of the whole text.
        obtain ⟨before, after⟩ := cut
        obtain ⟨happend, hlength⟩ := splitAtByte_eq_some hcut
        have hchars : source.chars =
            ((segments source.chars).take line).flatten ++ before ++ after := by
          rw [List.append_assoc, happend, ← List.flatten_append, List.take_append_drop,
            flatten_segments]
        have hoffset : byteLength (((segments source.chars).take line).flatten ++ before) =
            offset := by
          rw [byteLength_append, hlength, Nat.add_sub_cancel' hstart]
        exact absurd (hoffset ▸ hsplits) (not_splitsCharacter hchars)
    · cases hline

/-- The place of an offset that splits no character. -/
theorem exists_place {offset : Nat} (hoffset : offset ≤ source.byteLen)
    (hsplits : ¬SplitsCharacter source.chars offset) :
    ∃ line column : Nat, source.byteToLine offset = some line ∧
      source.byteToColumn offset = some column ∧
      source.lineColumnToByte line column = some offset := by
  obtain hinside | ⟨before, after, hchars, rfl⟩ := splitsCharacter_or_exists hoffset
  · exact absurd hinside hsplits
  · exact ⟨_, _, byteToLine_byteLength hchars, byteToColumn_byteLength hchars,
      lineColumnToByte_column hchars⟩

/-- A line and a column that the text has have an offset. -/
theorem lineColumnToByte_of_isLine {number place : Nat} {front body : List Char}
    (hline : IsLine source.chars number front body) (hplace : place ≤ body.length) :
    source.lineColumnToByte number place = some (byteLength (front ++ body.take place)) := by
  obtain ⟨full, rest, hsegments, rfl, rfl⟩ := hline.exists_segments
  rw [lineColumnToByte, if_neg (by omega)]
  dsimp only
  rw [hsegments, Int.toNat_natCast, Int.toNat_natCast, List.getElem?_append_right (Nat.le_refl _),
    Nat.sub_self, List.getElem?_cons_zero]
  dsimp only
  rw [if_neg (Nat.not_lt.2 hplace), List.take_left, byteLength_append]

/-- No others have one. -/
theorem hasPlace_of_lineColumnToByte {line column : Int} {offset : Nat}
    (hoffset : source.lineColumnToByte line column = some offset) :
    HasPlace source.chars line column := by
  rw [lineColumnToByte] at hoffset
  split at hoffset
  · cases hoffset
  · rename_i hsigns
    obtain ⟨number, rfl⟩ := Int.eq_ofNat_of_zero_le (show 0 ≤ line by omega)
    obtain ⟨place, rfl⟩ := Int.eq_ofNat_of_zero_le (show 0 ≤ column by omega)
    dsimp only at hoffset
    rw [Int.toNat_natCast, Int.toNat_natCast] at hoffset
    split at hoffset
    · cases hoffset
    · rename_i body hbody
      split at hoffset
      · cases hoffset
      · rename_i hplace
        obtain ⟨hnumber, hbody⟩ := List.getElem?_eq_some_iff.1 hbody
        have hsegments : segments source.chars =
            (segments source.chars).take number ++
              body :: (segments source.chars).drop (number + 1) := by
          rw [← hbody, List.getElem_cons_drop, List.take_append_drop]
        have hline := isLine_of_segments hsegments
        rw [List.length_take_of_le (Nat.le_of_lt hnumber)] at hline
        exact ⟨number, place, _, body, rfl, rfl, hline, Nat.not_lt.1 hplace⟩

/-- The offset of a line and a column has that line and column, but behind a newline it has the
next line and no column in front. -/
theorem place_of_isLine {number place : Nat} {front body : List Char}
    (hline : IsLine source.chars number front body) (hplace : place ≤ body.length) :
    (source.byteToLine (byteLength (front ++ body.take place)),
      source.byteToColumn (byteLength (front ++ body.take place))) =
      if body.getLast? = some '\n' ∧ place = body.length then (some (number + 1), some 0)
      else (some number, some place) := by
  obtain ⟨after, hchars, -⟩ := hline.append
  rw [← List.take_append_drop place body, ← List.append_assoc, List.append_assoc] at hchars
  rw [byteToLine_byteLength hchars, byteToColumn_byteLength hchars, column_append hline.endsLine,
    List.count_append, hline.number]
  split
  · rename_i hbehind
    obtain ⟨line, rfl⟩ := List.getLast?_eq_some_iff.1 hbehind.1
    have hnewline := hline.not_mem
    rw [List.dropLast_concat] at hnewline
    rw [hbehind.2, List.take_length, column_concat, if_pos rfl, List.count_append,
      List.count_eq_zero.2 hnewline]
    rfl
  · rename_i hinside
    have hnewline := hline.not_mem_take hplace hinside
    rw [column_of_not_mem hnewline, List.count_eq_zero.2 hnewline, List.length_take_of_le hplace,
      Nat.add_zero]

/-! ## Offsets and places -/

/-- Byte offsets name the places of a source, and lines with columns do. -/
structure NamesPlaces (source : Source) : Prop where
  /-- A column is missing exactly inside a character. -/
  column_eq_none : ∀ offset ≤ source.byteLen,
    source.byteToColumn offset = none ↔ SplitsCharacter source.chars offset
  /-- Elsewhere the line and the column of an offset give it back. -/
  returns : ∀ offset ≤ source.byteLen, ¬SplitsCharacter source.chars offset →
    ∃ line column : Nat, source.byteToLine offset = some line ∧
      source.byteToColumn offset = some column ∧
      source.lineColumnToByte line column = some offset
  /-- The offset of a line and a column splits no character and has that line and column.  Just
  behind the newline of the line it has the start of the next one. -/
  places : ∀ (line column : Int) (offset : Nat),
    source.lineColumnToByte line column = some offset →
      ∃ (number place : Nat) (front body : List Char), line = number ∧ column = place ∧
        IsLine source.chars number front body ∧ place ≤ body.length ∧
        offset ≤ source.byteLen ∧ ¬SplitsCharacter source.chars offset ∧
        (source.byteToLine offset, source.byteToColumn offset) =
          if body.getLast? = some '\n' ∧ place = body.length then (some (number + 1), some 0)
          else (some number, some place)
  /-- What is no line and column of the text has no offset. -/
  eq_none_iff : ∀ line column : Int,
    source.lineColumnToByte line column = none ↔ ¬HasPlace source.chars line column

/-- Byte offsets and lines with columns correspond in every source, whatever changes led to it. -/
theorem positions_correspond (source : Source) : NamesPlaces source where
  column_eq_none offset hoffset := by
    refine ⟨fun hnone => ?_, byteToColumn_of_splits⟩
    by_contra hsplits
    obtain ⟨line, column, -, hcolumn, -⟩ := exists_place hoffset hsplits
    cases hnone.symm.trans hcolumn
  returns _ hoffset hsplits := exists_place hoffset hsplits
  places line column offset hoffset := by
    obtain ⟨number, place, front, body, rfl, rfl, hline, hplace⟩ :=
      hasPlace_of_lineColumnToByte hoffset
    obtain rfl := Option.some.inj ((lineColumnToByte_of_isLine hline hplace).symm.trans hoffset)
    obtain ⟨after, hchars, -⟩ := hline.append
    rw [← List.take_append_drop place body, ← List.append_assoc, List.append_assoc] at hchars
    refine ⟨number, place, front, body, rfl, rfl, hline, hplace, ?_, not_splitsCharacter hchars,
      place_of_isLine hline hplace⟩
    rw [byteLen, hchars, byteLength_append (front ++ body.take place)]
    exact Nat.le_add_right _ _
  eq_none_iff line column := by
    constructor
    · rintro hnone ⟨number, place, front, body, rfl, rfl, hline, hplace⟩
      cases hnone.symm.trans (lineColumnToByte_of_isLine hline hplace)
    · intro hplace
      cases hoffset : source.lineColumnToByte line column with
      | none => rfl
      | some offset => exact absurd (hasPlace_of_lineColumnToByte hoffset) hplace

/-- Behind the newline of the first line, inside the character behind it, and behind the end of the
last line. -/
example : (Source.detached "b\né").lineColumnToByte 0 2 = some 2 ∧
    (Source.detached "b\né").byteToLine 2 = some 1 ∧
    (Source.detached "b\né").byteToColumn 3 = none ∧
    (Source.detached "b\né").lineColumnToByte 1 2 = none := by
  decide

end Syntax.Source

end Galley
