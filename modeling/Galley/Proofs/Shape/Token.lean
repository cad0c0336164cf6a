import Galley.Proofs.Coverage.Token
import Galley.Proofs.Shape.Basic
import Mathlib.Data.List.TakeWhile

/-!
# Tokens have the texts of their kinds

A token without an error is a leaf, and its text is what its value is read from:
escapes hold one character or a hexadecimal number, raw text stands between two
equal runs of backticks, and numbers keep to their decimal form.
-/

namespace Galley.Syntax

open Galley.Text Node

/-! ## Leaves and errors -/

/-- A leaf, or an error with one of the given messages. -/
inductive Lexeme (messages : List String) : Node → Prop
  | leaf {kind : Kind} (hkind : kind ≠ .error) (chars : List Char) :
    Lexeme messages (Node.leaf kind chars)
  | error {message : String} (hmessage : message ∈ messages) (chars : List Char) :
    Lexeme messages (Node.error chars message)

theorem Lexeme.children_eq {messages : List String} {node : Node}
    (hlexeme : Lexeme messages node) : node.children = [] := by
  cases hlexeme <;> rfl

namespace Token

theorem lexeme_text (first : Char) (chars : List Char) : Lexeme [] (text first chars).1 :=
  .leaf (by decide) _

theorem lexeme_blank (chars : List Char) : Lexeme [] (blank chars).1 := by
  rw [blank]
  split <;> exact .leaf (by decide) _

theorem lexeme_lineComment (chars : List Char) : Lexeme [] (lineComment chars).1 :=
  .leaf (by decide) _

theorem lexeme_blockComment (chars : List Char) :
    Lexeme ["unclosed comment"] (blockComment chars).1 := by
  rw [blockComment]
  split
  · exact .leaf (by decide) _
  · exact .error (by decide) _

theorem lexeme_escape (chars : List Char) :
    Lexeme ["invalid unicode escape sequence"] (escape chars).1 := by
  unfold escape
  split
  · exact .leaf (by decide) _
  · rw [escapedNumber]
    split
    · exact .leaf (by decide) _
    · exact .error (by decide) _
  · split <;> exact .leaf (by decide) _

theorem lexeme_raw (chars : List Char) : Lexeme ["unclosed raw text"] (raw chars).1 := by
  rw [raw]
  split
  · exact .leaf (by decide) _
  · split
    · exact .leaf (by decide) _
    · exact .error (by decide) _

theorem lexeme_math (chars : List Char) : Lexeme ["unclosed equation"] (math chars).1 := by
  rw [math]
  split
  · exact .leaf (by decide) _
  · exact .error (by decide) _

theorem lexeme_word (chars : List Char) : Lexeme [] (word chars) := by
  rw [word]
  split_ifs <;> exact .leaf (by decide) _

theorem lexeme_number (chars : List Char) : Lexeme [] (number chars).1 := by
  rw [number]
  dsimp only
  split
  · exact .leaf (by decide) _
  · split <;> exact .leaf (by decide) _

theorem lexeme_string (chars : List Char) : Lexeme ["unclosed string"] (string chars).1 := by
  rw [string]
  dsimp only
  split
  · exact .leaf (by decide) _
  · exact .error (by decide) _

theorem lexeme_spaces (chars : List Char) : ∀ node ∈ (spaces chars).1, Lexeme [] node := by
  intro node hnode
  rw [(eq_of_mem_spaces hnode).1]
  exact .leaf (by decide) _

theorem lexeme_triviaToken {chars rest : List Char} {node : Node}
    (htoken : triviaToken chars = some (node, rest)) : Lexeme ["unclosed comment"] node := by
  obtain ⟨inside, rfl, rfl, -⟩ | ⟨inside, rfl, rfl, -⟩ | ⟨-, rfl, -⟩ := triviaToken_cases htoken
  · exact .leaf (by decide) _
  · exact lexeme_blockComment _
  · exact .leaf (by decide) _

theorem lexeme_binaryOperator {chars rest : List Char} {operator : Node}
    (hoperator : binaryOperator chars = some (operator, rest)) : Lexeme [] operator := by
  obtain rfl | rfl | rfl | rfl := (binaryOperator_cases hoperator).1 <;>
    exact .leaf (by decide) _

/-! ## Markup -/

theorem proper_text (first : Char) (chars : List Char) :
    Proper (·.isMarkup) (text first chars).1 :=
  .leaf rfl ⟨rfl, trivial⟩

theorem proper_blank (chars : List Char) : Proper (·.isMarkup) (blank chars).1 := by
  rw [blank]
  dsimp only
  split
  · exact .leaf rfl ⟨rfl, trivial⟩
  · exact .leaf rfl ⟨rfl, trivial⟩

theorem proper_lineComment (chars : List Char) :
    Proper (· = .lineComment) (lineComment chars).1 :=
  .leaf rfl ⟨rfl, trivial⟩

theorem proper_blockComment (chars : List Char) :
    Proper (· = .blockComment) (blockComment chars).1 := by
  rw [blockComment]
  split
  · exact .leaf rfl ⟨rfl, trivial⟩
  · exact .error _ _

theorem proper_escapedNumber (chars : List Char) :
    Proper (·.isMarkup) (escapedNumber chars).1 := by
  rw [escapedNumber]
  split
  · rename_i hclosed
    refine .leaf rfl ⟨rfl, .inr ⟨chars.takeWhile isHexDigit, ?_, ?_, ?_⟩⟩
    · simp only [Bool.and_eq_true, Bool.not_eq_true', List.isEmpty_eq_false_iff] at hclosed
      exact hclosed.1
    · exact fun c hc => List.mem_takeWhile_imp hc
    · simp [leaf]
  · exact .error _ _

theorem proper_escape (chars : List Char) : Proper (·.isMarkup) (escape chars).1 := by
  unfold escape
  split
  · exact .leaf rfl ⟨rfl, trivial⟩
  · exact proper_escapedNumber _
  · rename_i c rest _
    split
    · exact .leaf rfl ⟨rfl, trivial⟩
    · exact .leaf rfl ⟨rfl, .inl ⟨c, by simp [leaf]⟩⟩

/-- The first occurrence of a pattern stands behind none. -/
theorem not_infix_of_breakOn {pattern chars before after : List Char} (hpattern : pattern ≠ [])
    (hbreak : breakOn pattern chars = some (before, after)) : ¬pattern <:+: before := by
  induction chars generalizing before after with
  | nil =>
    rw [breakOn, if_neg (by simpa using hpattern)] at hbreak
    cases hbreak
  | cons c chars ih =>
    have happend := breakOn_append hbreak
    rw [breakOn] at hbreak
    split at hbreak
    · obtain ⟨rfl, -⟩ := Prod.mk.inj (Option.some.inj hbreak)
      rwa [List.infix_nil]
    · rename_i hstarts
      simp only [Option.map_eq_some_iff, Prod.exists, Prod.mk.injEq] at hbreak
      obtain ⟨front, behind, hinner, rfl, rfl⟩ := hbreak
      rw [List.infix_cons_iff, not_or]
      refine ⟨?_, ih hinner⟩
      intro hbegins
      rw [← happend, List.append_assoc] at hstarts
      exact hstarts (List.isPrefixOf_iff_prefix.2 (hbegins.trans (List.prefix_append _ _)))

/-- Raw text is empty, stands between two equal runs of backticks, or is not closed.  What stands
between the runs does not start with a backtick: the first run is as long as it can be. -/
theorem raw_cases (chars : List Char) :
    (raw ('\x60' :: chars)).1 = leaf .raw ['\x60', '\x60'] ∨
    (∃ count body, count ≠ 0 ∧ body ≠ [] ∧ body.head? ≠ some '\x60' ∧
      ¬List.replicate count '\x60' <:+: body ∧
      (raw ('\x60' :: chars)).1 =
        leaf .raw (List.replicate count '\x60' ++ body ++ List.replicate count '\x60')) ∨
    ∃ unclosed, (raw ('\x60' :: chars)).1 = error unclosed "unclosed raw text" := by
  have hticks : ('\x60' :: chars).takeWhile (· == '\x60') =
      List.replicate (('\x60' :: chars).takeWhile (· == '\x60')).length '\x60' :=
    List.eq_replicate_of_mem fun c hc => by simpa using List.mem_takeWhile_imp hc
  have hpos : (('\x60' :: chars).takeWhile (· == '\x60')).length ≠ 0 := by simp
  have hstop := nextIs_dropWhile (· == '\x60') ('\x60' :: chars)
  rw [raw]
  generalize ('\x60' :: chars).takeWhile (· == '\x60') = ticks at hticks hpos ⊢
  generalize ('\x60' :: chars).dropWhile (· == '\x60') = rest at hstop ⊢
  split
  · rename_i htwo
    left
    rw [hticks, htwo]
    rfl
  · right
    split
    · rename_i body after hbreak
      have happend := breakOn_append hbreak
      have hsome : ticks ≠ [] := List.ne_nil_of_length_pos (Nat.pos_of_ne_zero hpos)
      have hfirst := not_infix_of_breakOn hsome hbreak
      have hhead : (body ++ ticks ++ after).head? ≠ some '\x60' := by
        rw [happend]
        cases rest with
        | nil => simp
        | cons c rest => simpa [nextIs] using hstop
      refine .inl ⟨ticks.length, body, hpos, ?_, ?_, by rwa [← hticks], by rw [← hticks]⟩
      · rintro rfl
        obtain ⟨count, hcount⟩ := Nat.exists_eq_succ_of_ne_zero hpos
        rw [hcount] at hticks
        simp [hticks, List.replicate_succ] at hhead
      · intro hbody
        cases body with
        | nil => cases hbody
        | cons c body => exact hhead hbody
    · exact .inr ⟨_, rfl⟩

theorem proper_raw (chars : List Char) : Proper (·.isMarkup) (raw ('\x60' :: chars)).1 := by
  obtain hempty | ⟨count, body, hcount, hbody, hhead, -, hraw⟩ | ⟨unclosed, hraw⟩ :=
    raw_cases chars
  · rw [hempty]
    exact .leaf rfl ⟨rfl, .inl (by simp [leaf])⟩
  · rw [hraw]
    exact .leaf rfl ⟨rfl, .inr ⟨count, body, Nat.pos_of_ne_zero hcount, hbody, hhead,
      by simp [leaf]⟩⟩
  · rw [hraw]
    exact .error _ _

theorem proper_math (chars : List Char) : Proper (·.isMarkup) (math chars).1 := by
  rw [math]
  split
  · rename_i body after _
    exact .leaf rfl ⟨rfl, body, by simp [leaf]⟩
  · exact .error _ _

theorem proper_word (chars : List Char) : Proper (·.isValue) (word chars) := by
  rw [word]
  split_ifs
  · exact .leaf rfl ⟨rfl, trivial⟩
  · exact .leaf rfl ⟨rfl, trivial⟩
  · exact .leaf rfl ⟨rfl, trivial⟩

/-! ## Numbers -/

/-- Where a number starts: at a digit, or at a minus in front of one. -/
def StartsNumber (chars : List Char) : Prop :=
  nextIs isAsciiDigit chars = true ∨
    ∃ rest, chars = '-' :: rest ∧ nextIs isAsciiDigit rest = true

theorem wholeText_wholePart {chars : List Char} (hstarts : StartsNumber chars) :
    WholeText (wholePart chars).1 := by
  unfold wholePart
  split
  · rename_i rest
    refine ⟨['-'], rest.takeWhile isAsciiDigit, .inr rfl, ?_, ?_, rfl⟩
    · obtain hdigit | ⟨rest, hrest, hnext⟩ := hstarts
      · simp [nextIs, isAsciiDigit] at hdigit
      · obtain ⟨-, rfl⟩ := List.cons.inj hrest
        exact takeWhile_ne_nil hnext
    · exact fun c hc => List.mem_takeWhile_imp hc
  · rename_i hunsigned
    refine ⟨[], chars.takeWhile isAsciiDigit, .inl rfl, ?_, ?_, rfl⟩
    · obtain hnext | ⟨rest, rfl, -⟩ := hstarts
      · exact takeWhile_ne_nil hnext
      · exact absurd rfl (hunsigned rest)
    · exact fun c hc => List.mem_takeWhile_imp hc

theorem decimals_cases (chars : List Char) :
    (decimals chars).1 = [] ∨ ∃ places, (decimals chars).1 = '.' :: places ∧ places ≠ [] ∧
      ∀ c ∈ places, isAsciiDigit c = true := by
  unfold decimals
  split
  · split
    · rename_i rest hnext
      exact .inr ⟨_, rfl, takeWhile_ne_nil hnext, fun c hc => List.mem_takeWhile_imp hc⟩
    · exact .inl rfl
  · exact .inl rfl

theorem proper_number {chars : List Char} (hstarts : StartsNumber chars) :
    Proper (·.isValue) (number chars).1 := by
  have hwhole := wholeText_wholePart hstarts
  have hplaces := decimals_cases (wholePart chars).2
  rw [number]
  dsimp only
  generalize (wholePart chars).1 = whole at hwhole ⊢
  generalize decimals (wholePart chars).2 = places at hplaces ⊢
  have hnumber : WholeText (whole ++ places.1) ∧ places.1 = [] ∨
      PointText (whole ++ places.1) ∧ places.1 ≠ [] := by
    obtain hnone | ⟨digits, hdigits, hfull, hall⟩ := hplaces
    · rw [hnone, List.append_nil]
      exact .inl ⟨hwhole, rfl⟩
    · rw [hdigits]
      exact .inr ⟨⟨whole, digits, hwhole, hfull, hall, rfl⟩, List.cons_ne_nil _ _⟩
  split
  · rename_i unit hunit
    refine .leaf rfl ⟨rfl, whole ++ places.1, unit, ?_, List.mem_of_find?_eq_some hunit, ?_⟩
    · exact hnumber.imp And.left And.left
    · simp [leaf]
  · obtain ⟨htext, hnone⟩ | ⟨htext, hsome⟩ := hnumber
    · rw [hnone, List.append_nil] at htext ⊢
      exact .leaf rfl ⟨rfl, by simpa [leaf, LeafText] using htext⟩
    · rw [List.isEmpty_eq_false_iff.2 hsome]
      exact .leaf rfl ⟨rfl, by simpa [leaf, LeafText] using htext⟩

/-! ## Strings -/

theorem stringBody_closed {chars : List Char} (hclosed : (stringBody chars).1.2 = true) :
    ∃ body, (stringBody chars).1.1 = body ++ ['"'] := by
  induction chars using stringBody.induct with
  | case1 => cases hclosed
  | case2 => cases hclosed
  | case3 => exact ⟨[], rfl⟩
  | case4 => cases hclosed
  | case5 c chars body closed rest hrest ih =>
    simp only [stringBody, hrest] at hclosed ih ⊢
    obtain ⟨body, rfl⟩ := ih hclosed
    exact ⟨'\\' :: c :: body, rfl⟩
  | case6 c chars hnewline hquote hlast hescape body closed rest hrest ih =>
    simp only [stringBody, hrest] at hclosed ih ⊢
    obtain ⟨body, rfl⟩ := ih hclosed
    exact ⟨c :: body, rfl⟩

theorem proper_string (chars : List Char) : Proper (·.isValue) (string chars).1 := by
  rw [string]
  dsimp only
  split
  · rename_i hclosed
    obtain ⟨body, hbody⟩ := stringBody_closed hclosed
    exact .leaf rfl ⟨rfl, body, by simp [leaf, hbody]⟩
  · exact .error _ _

/-! ## Trivia -/

theorem proper_spaces (chars : List Char) :
    ∀ node ∈ (spaces chars).1, Proper (·.isTrivia) node := by
  intro node hnode
  rw [(eq_of_mem_spaces hnode).1]
  exact .leaf rfl ⟨rfl, trivial⟩

theorem proper_triviaToken {chars rest : List Char} {node : Node}
    (htoken : triviaToken chars = some (node, rest)) : Proper (·.isTrivia) node := by
  obtain ⟨inside, rfl, rfl, -⟩ | ⟨inside, rfl, rfl, -⟩ | ⟨-, rfl, -⟩ := triviaToken_cases htoken
  · exact (proper_lineComment _).mono (by rintro _ rfl; rfl)
  · exact (proper_blockComment _).mono (by rintro _ rfl; rfl)
  · exact .leaf rfl ⟨rfl, trivial⟩

theorem proper_trivia (chars : List Char) :
    ∀ node ∈ (trivia chars).1, Proper (·.isTrivia) node :=
  forall_mem_trivia proper_triviaToken chars

theorem proper_binaryOperator {chars rest : List Char} {operator : Node}
    (hoperator : binaryOperator chars = some (operator, rest)) :
    Proper (·.isOperator) operator := by
  obtain rfl | rfl | rfl | rfl := (binaryOperator_cases hoperator).1 <;>
    exact .leaf rfl ⟨rfl, trivial⟩

end Token

end Galley.Syntax
