import Galley.Proofs.Coverage.Tree
import Galley.Syntax.Token
import Mathlib.Data.List.Basic
import Mathlib.Tactic.Common

/-!
# Tokens cover what they pass over

Each token answers with a leaf and the characters behind it, and the two
together are the characters that it was given.  Trivia never stop in front of
white space, which is what makes an argument list move on.
-/

namespace Galley.Syntax

/-- A node covers the characters in front and those of the given ones that do
not stand behind it. -/
def Covers (front chars : List Char) (node : Node) (rest : List Char) : Prop :=
  ∃ inside, node.chars = front ++ inside ∧ inside ++ rest = chars

namespace Covers

variable {front chars rest : List Char} {node : Node}

theorem chars_append (hcovers : Covers front chars node rest) :
    node.chars ++ rest = front ++ chars := by
  obtain ⟨inside, hnode, rfl⟩ := hcovers
  rw [hnode, List.append_assoc]

theorem chars_ne_nil (hcovers : Covers front chars node rest) (hfront : front ≠ []) :
    node.chars ≠ [] := by
  obtain ⟨inside, hnode, -⟩ := hcovers
  rw [hnode]
  exact List.append_ne_nil_of_left_ne_nil hfront inside

theorem length_le (hcovers : Covers front chars node rest) : rest.length ≤ chars.length := by
  obtain ⟨inside, -, rfl⟩ := hcovers
  simp

theorem of_append (happend : node.chars ++ rest = chars) : Covers [] chars node rest :=
  ⟨node.chars, rfl, happend⟩

/-- What is known to stand in front may also be counted as given. -/
theorem shift (front behind : List Char) (hcovers : Covers (front ++ behind) chars node rest) :
    Covers front (behind ++ chars) node rest := by
  obtain ⟨inside, hnode, rfl⟩ := hcovers
  exact ⟨behind ++ inside, by rw [hnode, List.append_assoc], List.append_assoc _ _ _⟩

end Covers

namespace Token

open Galley.Text Node

theorem nextIs_eq {c : Char} {chars : List Char} (hnext : nextIs (· == c) chars = true) :
    ∃ rest, chars = c :: rest := by
  cases chars with
  | nil => simp [nextIs] at hnext
  | cons next rest =>
    obtain rfl : next = c := by simpa [nextIs] using hnext
    exact ⟨rest, rfl⟩

theorem nextIs_dropWhile (holds : Char → Bool) (chars : List Char) :
    nextIs holds (chars.dropWhile holds) = false := by
  cases hrest : chars.dropWhile holds with
  | nil => rfl
  | cons c rest =>
    have hhead := List.head_dropWhile_not holds (show chars.dropWhile holds ≠ [] by simp [hrest])
    simpa [hrest, nextIs] using hhead

theorem plainRun_append (chars : List Char) :
    (plainRun chars).1 ++ (plainRun chars).2 = chars := by
  induction chars with
  | nil => rfl
  | cons c chars ih =>
    rw [plainRun]
    split
    · rfl
    · simpa using ih

theorem text_covers (first : Char) (chars : List Char) :
    Covers [first] chars (text first chars).1 (text first chars).2 :=
  ⟨(plainRun chars).1, by simp [text], plainRun_append chars⟩

theorem blank_covers {first : Char} (hspace : isSpace first = true) (chars : List Char) :
    Covers [first] chars (blank (first :: chars)).1 (blank (first :: chars)).2 :=
  ⟨chars.takeWhile isSpace, by simp [blank, hspace], by
    simp [blank, hspace, List.takeWhile_append_dropWhile]⟩

theorem lineComment_covers (chars : List Char) :
    Covers ['/', '/'] chars (lineComment ('/' :: '/' :: chars)).1
      (lineComment ('/' :: '/' :: chars)).2 :=
  ⟨chars.takeWhile (· != '\n'), by simp [lineComment], by
    simp [lineComment, List.takeWhile_append_dropWhile]⟩

theorem commentBody_append {depth : Nat} {chars body rest : List Char}
    (hbody : commentBody depth chars = some (body, rest)) : body ++ rest = chars := by
  induction depth, chars using commentBody.induct generalizing body rest with
  | case1 chars =>
    simp only [commentBody, Option.some.injEq, Prod.mk.injEq] at hbody
    obtain ⟨rfl, rfl⟩ := hbody
    rfl
  | case2 depth => simp [commentBody] at hbody
  | case3 depth chars ih | case4 depth chars ih | case5 depth c chars _ _ ih =>
    simp only [commentBody, Option.map_eq_some_iff, Prod.exists, Prod.mk.injEq] at hbody
    obtain ⟨inner, behind, hinner, rfl, rfl⟩ := hbody
    simp [ih hinner]

theorem blockComment_covers (chars : List Char) :
    Covers ['/', '*'] chars (blockComment chars).1 (blockComment chars).2 := by
  rw [blockComment]
  split
  · rename_i body rest hbody
    exact ⟨body, by simp, commentBody_append hbody⟩
  · exact ⟨chars, by simp, by simp⟩

theorem escapedNumber_covers (chars : List Char) :
    Covers ['\\', 'u', '\x7b'] chars (escapedNumber chars).1 (escapedNumber chars).2 := by
  have hchars := List.takeWhile_append_dropWhile (p := isHexDigit) (l := chars)
  rw [escapedNumber]
  split
  · rename_i hclosed
    obtain ⟨after, hafter⟩ := nextIs_eq (Bool.and_eq_true_iff.1 hclosed).2
    refine ⟨chars.takeWhile isHexDigit ++ ['\x7d'], by simp, ?_⟩
    rw [hafter] at hchars ⊢
    simpa using hchars
  · exact ⟨chars.takeWhile isHexDigit, by simp, hchars⟩

theorem escape_covers (chars : List Char) :
    Covers ['\\'] chars (escape chars).1 (escape chars).2 := by
  unfold escape
  split
  · exact ⟨[], by simp, rfl⟩
  · rename_i rest
    exact (escapedNumber_covers rest).shift ['\\'] ['u', '\x7b']
  · rename_i c rest _
    split
    · exact ⟨[], by simp, rfl⟩
    · exact ⟨[c], by simp, rfl⟩

theorem breakOn_append {pattern chars before after : List Char}
    (hbreak : breakOn pattern chars = some (before, after)) :
    before ++ pattern ++ after = chars := by
  induction chars generalizing before after with
  | nil =>
    simp only [breakOn, List.isEmpty_iff, Option.ite_none_right_eq_some, Option.some.injEq,
      Prod.mk.injEq] at hbreak
    obtain ⟨rfl, rfl, rfl⟩ := hbreak
    rfl
  | cons c chars ih =>
    rw [breakOn] at hbreak
    split at hbreak
    · rename_i hstarts
      simp only [Option.some.injEq, Prod.mk.injEq] at hbreak
      obtain ⟨rfl, rfl⟩ := hbreak
      obtain ⟨after, hafter⟩ := List.isPrefixOf_iff_prefix.1 hstarts
      simp [← hafter]
    · simp only [Option.map_eq_some_iff, Prod.exists, Prod.mk.injEq] at hbreak
      obtain ⟨front, behind, hinner, rfl, rfl⟩ := hbreak
      simpa using ih hinner

theorem raw_covers (chars : List Char) :
    Covers ['\x60'] chars (raw ('\x60' :: chars)).1 (raw ('\x60' :: chars)).2 := by
  have hchars := List.takeWhile_append_dropWhile (p := (· == '\x60')) (l := chars)
  simp only [raw, List.takeWhile_cons, List.dropWhile_cons, beq_self_eq_true, if_true]
  split
  · exact ⟨chars.takeWhile (· == '\x60'), by simp, hchars⟩
  · split
    · rename_i body after hbreak
      refine ⟨chars.takeWhile (· == '\x60') ++ (body ++ ('\x60' ::
        chars.takeWhile (· == '\x60'))), by simp, ?_⟩
      rw [List.append_assoc, breakOn_append hbreak, hchars]
    · exact ⟨chars, by simp, by simp⟩

theorem math_covers (chars : List Char) :
    Covers ['$'] chars (math chars).1 (math chars).2 := by
  rw [math]
  split
  · rename_i body after hbreak
    exact ⟨body ++ ['$'], by simp, breakOn_append hbreak⟩
  · exact ⟨chars, by simp, by simp⟩

theorem name_append (chars : List Char) : (name chars).1 ++ (name chars).2 = chars :=
  List.takeWhile_append_dropWhile

@[simp]
theorem chars_word (chars : List Char) : (word chars).chars = chars := by
  rw [word]
  split_ifs <;> exact chars_leaf _ chars

/-- A name may go on with any character that it may start with. -/
theorem continuesName_of_startsName {c : Char} (hstarts : startsName c = true) :
    continuesName c = true := by
  simp only [startsName, continuesName, isAlphanumeric, Bool.or_eq_true] at hstarts ⊢
  tauto

/-- A name that starts here holds at least one character. -/
theorem name_ne_nil {chars : List Char} (hstarts : nextIs startsName chars = true) :
    (name chars).1 ≠ [] := by
  cases chars with
  | nil => simp [nextIs] at hstarts
  | cons c chars =>
    have hcontinues := continuesName_of_startsName (c := c) hstarts
    simp [name, hcontinues]

theorem wholePart_append (chars : List Char) :
    (wholePart chars).1 ++ (wholePart chars).2 = chars := by
  unfold wholePart
  split <;> simp [List.takeWhile_append_dropWhile]

theorem decimals_append (chars : List Char) :
    (decimals chars).1 ++ (decimals chars).2 = chars := by
  unfold decimals
  split
  · split <;> simp [List.takeWhile_append_dropWhile]
  · rfl

theorem unitAt_append {chars unit : List Char} (hunit : unitAt chars = some unit) :
    unit ++ chars.drop unit.length = chars := by
  have hholds := List.find?_some hunit
  simp only [Bool.and_eq_true, List.isPrefixOf_iff_prefix] at hholds
  obtain ⟨rest, rfl⟩ := hholds.1
  simp

theorem number_covers (chars : List Char) :
    Covers [] chars (number chars).1 (number chars).2 := by
  have hwhole := wholePart_append chars
  have hplaces := decimals_append (wholePart chars).2
  simp only [number]
  split
  · rename_i unit hunit
    apply Covers.of_append
    rw [chars_leaf, List.append_assoc, unitAt_append hunit, List.append_assoc, hplaces]
    exact hwhole
  · apply Covers.of_append
    rw [chars_leaf, List.append_assoc, hplaces]
    exact hwhole

/-- A number starts with a digit or with its sign. -/
theorem number_ne_nil {c : Char} (hstarts : isAsciiDigit c = true ∨ c = '-')
    (chars : List Char) : (number (c :: chars)).1.chars ≠ [] := by
  have hwhole : (wholePart (c :: chars)).1 ≠ [] := by
    unfold wholePart
    split
    · exact List.cons_ne_nil _ _
    · rename_i hsign
      rcases hstarts with hdigit | rfl
      · simp [hdigit]
      · exact absurd rfl (hsign chars)
  simp only [number]
  split <;> simp [hwhole]

theorem stringBody_append (chars : List Char) :
    (stringBody chars).1.1 ++ (stringBody chars).2 = chars := by
  induction chars using stringBody.induct <;> simp_all [stringBody]

theorem string_covers (chars : List Char) :
    Covers ['"'] chars (string chars).1 (string chars).2 := by
  have hbody := stringBody_append chars
  simp only [string]
  split
  · exact ⟨(stringBody chars).1.1, by simp, hbody⟩
  · exact ⟨(stringBody chars).1.1, by simp, hbody⟩

theorem spaces_covers (chars : List Char) :
    charsOf (spaces chars).1 ++ (spaces chars).2 = chars := by
  have hchars := List.takeWhile_append_dropWhile (p := isBlank) (l := chars)
  simp only [spaces]
  split
  · rename_i hempty
    rw [List.isEmpty_iff.1 hempty] at hchars
    exact hchars
  · simp

/-- Spaces are a single leaf, and only where there are some. -/
theorem eq_of_mem_spaces {chars : List Char} {node : Node} (hnode : node ∈ (spaces chars).1) :
    node = leaf .space (chars.takeWhile isBlank) ∧ chars.takeWhile isBlank ≠ [] := by
  rw [spaces] at hnode
  dsimp only at hnode
  split at hnode
  · cases hnode
  · rename_i hrun
    exact ⟨List.mem_singleton.1 hnode, by simpa using hrun⟩

/-- An operator is one of four leaves. -/
theorem binaryOperator_cases {chars rest : List Char} {operator : Node}
    (hoperator : binaryOperator chars = some (operator, rest)) :
    (operator = leaf .eqEq ['=', '='] ∨ operator = leaf .exclEq ['!', '='] ∨
      operator = leaf .plus ['+'] ∨ operator = leaf .minus ['-']) ∧
      operator.chars ++ rest = chars := by
  unfold binaryOperator at hoperator
  split at hoperator
  case h_4 =>
    split at hoperator
    · cases hoperator
    · obtain ⟨rfl, rfl⟩ := Prod.mk.inj (Option.some.inj hoperator)
      exact ⟨by simp, rfl⟩
  case h_5 => cases hoperator
  all_goals
    obtain ⟨rfl, rfl⟩ := Prod.mk.inj (Option.some.inj hoperator)
    exact ⟨by simp, rfl⟩

theorem binaryOperator_covers {chars rest : List Char} {operator : Node}
    (hoperator : binaryOperator chars = some (operator, rest)) :
    Covers [] chars operator rest ∧ operator.chars ≠ [] := by
  obtain ⟨hcases, happend⟩ := binaryOperator_cases hoperator
  refine ⟨.of_append happend, ?_⟩
  obtain rfl | rfl | rfl | rfl := hcases <;> exact List.cons_ne_nil _ _

/-! ## Trivia -/

/-- Trivia are line comments, block comments and runs of white space. -/
theorem triviaToken_cases {chars rest : List Char} {node : Node}
    (htoken : triviaToken chars = some (node, rest)) :
    (∃ inside, chars = '/' :: '/' :: inside ∧ node = (lineComment chars).1 ∧
      rest = (lineComment chars).2) ∨
    (∃ inside, chars = '/' :: '*' :: inside ∧ node = (blockComment inside).1 ∧
      rest = (blockComment inside).2) ∨
    nextIs isSpace chars = true ∧ node = leaf .space (chars.takeWhile isSpace) ∧
      rest = chars.dropWhile isSpace := by
  unfold triviaToken at htoken
  split at htoken
  · obtain ⟨rfl, rfl⟩ := Prod.mk.inj (Option.some.inj htoken)
    exact .inl ⟨_, rfl, rfl, rfl⟩
  · obtain ⟨rfl, rfl⟩ := Prod.mk.inj (Option.some.inj htoken)
    exact .inr (.inl ⟨_, rfl, rfl, rfl⟩)
  · split at htoken
    · rename_i hspace
      obtain ⟨rfl, rfl⟩ := Prod.mk.inj (Option.some.inj htoken)
      exact .inr (.inr ⟨hspace, rfl, rfl⟩)
    · cases htoken
  · cases htoken

theorem takeWhile_ne_nil {holds : Char → Bool} {chars : List Char}
    (hnext : nextIs holds chars = true) : chars.takeWhile holds ≠ [] := by
  cases chars with
  | nil => cases hnext
  | cons c chars =>
    rw [nextIs] at hnext
    simp [hnext]

theorem triviaToken_covers {chars rest : List Char} {node : Node}
    (htoken : triviaToken chars = some (node, rest)) :
    Covers [] chars node rest ∧ node.chars ≠ [] := by
  obtain ⟨inside, rfl, rfl, rfl⟩ | ⟨inside, rfl, rfl, rfl⟩ | ⟨hspace, rfl, rfl⟩ :=
    triviaToken_cases htoken
  · have hcovers := lineComment_covers inside
    exact ⟨.of_append hcovers.chars_append, hcovers.chars_ne_nil (by simp)⟩
  · have hcovers := blockComment_covers inside
    exact ⟨.of_append hcovers.chars_append, hcovers.chars_ne_nil (by simp)⟩
  · rw [chars_leaf]
    exact ⟨.of_append (by simp [List.takeWhile_append_dropWhile]), takeWhile_ne_nil hspace⟩

theorem triviaToken_shorter {chars rest : List Char} {node : Node}
    (htoken : triviaToken chars = some (node, rest)) : rest.length < chars.length := by
  obtain ⟨hcovers, hfull⟩ := triviaToken_covers htoken
  have hpos : 0 < node.chars.length := List.length_pos_iff.2 hfull
  have hlength : node.chars.length + rest.length = chars.length := by
    rw [← List.length_append, hcovers.chars_append, List.nil_append]
  omega

/-- A bound of one for each character is never reached. -/
theorem triviaWithin_eq (length : Nat) : ∀ chars : List Char, chars.length ≤ length →
    ∀ bound, length ≤ bound → triviaWithin bound chars = triviaWithin length chars := by
  induction length with
  | zero =>
    intro chars hlength bound _
    obtain rfl := List.length_eq_zero_iff.1 (Nat.le_zero.1 hlength)
    cases bound <;> rfl
  | succ length ih =>
    intro chars hlength bound hbound
    obtain ⟨bound, rfl⟩ := Nat.exists_eq_add_of_le' (Nat.le_trans (Nat.le_add_left 1 length) hbound)
    rw [triviaWithin, triviaWithin]
    cases htoken : triviaToken chars with
    | none => rfl
    | some token =>
      have hshorter := triviaToken_shorter htoken
      dsimp only
      rw [ih token.2 (by omega) bound (by omega)]

theorem triviaWithin_eq_trivia {bound : Nat} {chars : List Char}
    (hbound : chars.length ≤ bound) : triviaWithin bound chars = trivia chars :=
  triviaWithin_eq chars.length chars (Nat.le_refl _) bound hbound

theorem trivia_of_token_eq_none {chars : List Char} (htoken : triviaToken chars = none) :
    trivia chars = ([], chars) := by
  rw [← triviaWithin_eq_trivia (Nat.le_succ _), triviaWithin, htoken]

theorem trivia_of_token_eq_some {chars rest : List Char} {node : Node}
    (htoken : triviaToken chars = some (node, rest)) :
    trivia chars = (node :: (trivia rest).1, (trivia rest).2) := by
  have hshorter := triviaToken_shorter htoken
  rw [← triviaWithin_eq_trivia (Nat.le_succ _), triviaWithin, htoken]
  simp only [triviaWithin_eq_trivia (Nat.le_of_lt hshorter)]

/-- Reasoning about trivia goes from one of them to the next. -/
theorem trivia_induction {motive : List Char → Prop}
    (stop : ∀ chars, triviaToken chars = none → motive chars)
    (next : ∀ chars node rest, triviaToken chars = some (node, rest) → motive rest →
      motive chars)
    (chars : List Char) : motive chars := by
  induction hlength : chars.length using Nat.strongRecOn generalizing chars with
  | _ length ih =>
    subst hlength
    cases htoken : triviaToken chars with
    | none => exact stop chars htoken
    | some token =>
      exact next chars token.1 token.2 htoken
        (ih _ (triviaToken_shorter htoken) token.2 rfl)

/-- What holds of each of them holds of all trivia. -/
theorem forall_mem_trivia {holds : Node → Prop}
    (htoken : ∀ {chars node rest}, triviaToken chars = some (node, rest) → holds node)
    (chars : List Char) : ∀ node ∈ (trivia chars).1, holds node := by
  induction chars using trivia_induction with
  | stop chars hnone =>
    rw [trivia_of_token_eq_none hnone]
    exact List.forall_mem_nil _
  | next chars node rest hsome ih =>
    rw [trivia_of_token_eq_some hsome]
    exact List.forall_mem_cons.2 ⟨htoken hsome, ih⟩

theorem trivia_covers (chars : List Char) :
    charsOf (trivia chars).1 ++ (trivia chars).2 = chars := by
  induction chars using trivia_induction with
  | stop chars htoken => simp [trivia_of_token_eq_none htoken]
  | next chars node rest htoken ih =>
    rw [trivia_of_token_eq_some htoken, charsOf_cons, List.append_assoc, ih]
    exact (triviaToken_covers htoken).1.chars_append

/-- What follows trivia is no trivia. -/
theorem triviaToken_trivia (chars : List Char) : triviaToken (trivia chars).2 = none := by
  induction chars using trivia_induction with
  | stop chars htoken => simpa [trivia_of_token_eq_none htoken] using htoken
  | next chars node rest htoken ih => simpa [trivia_of_token_eq_some htoken] using ih

theorem triviaToken_eq_none_iff {chars : List Char} : triviaToken chars = none ↔
    nextIs isSpace chars = false ∧ startsComment chars = false := by
  unfold triviaToken startsComment
  split <;> simp_all [nextIs]

theorem nextIs_isSpace_trivia (chars : List Char) :
    nextIs isSpace (trivia chars).2 = false :=
  (triviaToken_eq_none_iff.1 (triviaToken_trivia chars)).1

end Token

end Galley.Syntax
