import Galley.Proofs.Coverage.Token
import Galley.Proofs.Locality.Alike
import Mathlib.Data.List.TakeWhile

/-!
# Tokens are local

No token depends on more than near continuations have in common: most end in
front of a character that they only look at, text looks for the start of a
comment and a number for a unit as a whole word.  Delimited tokens look at
nothing behind their end, and unclosed ones have nothing behind it.
-/

namespace Galley.Syntax

open Galley.Text Token Node

variable {α β : Type}

theorem LocalToken.at {token : List Char → α × List Char} (hlocal : LocalToken token)
    (chars : List Char) : ∃ consumed, chars = consumed ++ (token chars).2 ∧
      ∀ rest', Near (token chars).2 rest' →
        token (consumed ++ rest') = ((token chars).1, rest') := by
  obtain ⟨consumed, hchars, hrepeat⟩ := hlocal chars (token chars).1 (token chars).2 rfl
  exact ⟨consumed, hchars, fun rest' hnear => Option.some.inj (hrepeat rest' hnear)⟩

/-- Tokens one behind the other. -/
theorem LocalToken.bind {token : List Char → α × List Char}
    (next : α → List Char → β × List Char) (htoken : LocalToken token)
    (hnext : ∀ value, LocalToken (next value)) :
    LocalToken fun chars => next (token chars).1 (token chars).2 := by
  intro chars
  exact (htoken chars).bind Near.append hnext

/-- A run of characters of one class ends where the next one is of another. -/
theorem run_append_of_stop {holds : Char → Bool} {run rest : List Char}
    (hrun : ∀ c ∈ run, holds c = true) (hstop : nextIs holds rest = false) :
    (run ++ rest).takeWhile holds = run ∧ (run ++ rest).dropWhile holds = rest := by
  obtain ⟨htake, hdrop⟩ := run_of_stop hstop
  rw [List.takeWhile_append_of_pos hrun, List.dropWhile_append_of_pos hrun, htake, hdrop,
    List.append_nil]
  exact ⟨rfl, rfl⟩

theorem takeWhile_append_of_near {holds : Char → Bool} {chars rest' : List Char}
    (hnear : Near (chars.dropWhile holds) rest') :
    (chars.takeWhile holds ++ rest').takeWhile holds = chars.takeWhile holds ∧
      (chars.takeWhile holds ++ rest').dropWhile holds = rest' := by
  apply run_append_of_stop fun c hc => List.mem_takeWhile_imp hc
  rw [← hnear.nextIs_eq]
  exact nextIs_dropWhile holds chars

/-- A run of characters of one class and what follows it. -/
theorem exists_run (holds : Char → Bool) (chars : List Char) :
    ∃ run after, chars = run ++ after ∧
      (chars.takeWhile holds = run ∧ chars.dropWhile holds = after) ∧
      ∀ after', Near after after' →
        (run ++ after').takeWhile holds = run ∧ (run ++ after').dropWhile holds = after' :=
  ⟨chars.takeWhile holds, chars.dropWhile holds, List.takeWhile_append_dropWhile.symm,
    ⟨rfl, rfl⟩, fun _ hnear => takeWhile_append_of_near hnear⟩

theorem localToken_span (holds : Char → Bool) (make : List Char → α) :
    LocalToken fun chars => (make (chars.takeWhile holds), chars.dropWhile holds) := by
  intro chars
  obtain ⟨run, after, rfl, ⟨hrun, hafter⟩, hsame⟩ := exists_run holds chars
  apply LocalAt.of_token run (make run)
  · rw [hrun, hafter]
  · intro rest' hnear
    obtain ⟨htake, hdrop⟩ := hsame rest' hnear
    rw [htake, hdrop]

namespace Token

theorem startsComment_eq {left right : List Char} (hnear : Near left right) :
    startsComment left = startsComment right := by
  obtain rfl | ⟨a, b, c, afterLeft, afterRight, rfl, rfl⟩ := eq_or_near hnear.near
  · rfl
  · unfold startsComment
    split <;> simp_all

theorem localToken_plainRun : LocalToken plainRun := by
  intro chars
  induction chars with
  | nil => exact .stay rfl fun _ hnear => by rw [hnear.eq_nil]; rfl
  | cons c chars ih =>
    by_cases hstop : (isSpace c || special.contains c || startsComment (c :: chars)) = true
    · apply LocalAt.stay
      · rw [plainRun, if_pos hstop]
      · intro chars' hnear
        obtain ⟨rest', rfl, -⟩ := hnear.exists_cons
        rw [startsComment_eq hnear] at hstop
        rw [plainRun, if_pos hstop]
    · refine (ih.map (c :: ·)).cons ?_ ?_
      · rw [plainRun, if_neg hstop]
        rfl
      · rintro rest rest' consumed hnear rfl
        rw [startsComment_eq ((hnear.append consumed).cons c)] at hstop
        rw [plainRun, if_neg hstop]
        rfl

theorem localToken_text (first : Char) : LocalToken (text first) :=
  fun chars => (localToken_plainRun chars).map fun run => leaf .text (first :: run)

theorem localToken_blank {first : Char} (hspace : isSpace first = true) :
    LocalToken fun chars => blank (first :: chars) := by
  have hspan := localToken_span isSpace fun run =>
    leaf (if 2 ≤ (first :: run).count '\n' then Kind.parbreak else Kind.space) (first :: run)
  simpa [blank, hspace] using hspan

theorem localToken_lineComment :
    LocalToken fun chars => lineComment ('/' :: '/' :: chars) :=
  localToken_span (· != '\n') fun run => leaf .lineComment ('/' :: '/' :: run)

theorem local_commentBody (depth : Nat) : Local Near (commentBody depth) (commentBody depth) := by
  intro chars
  induction depth, chars using commentBody.induct with
  | case1 chars => exact .stay (by rw [commentBody]) fun _ _ => by rw [commentBody]
  | case2 depth => exact fun _ _ hbody => by simp [commentBody] at hbody
  | case3 depth chars ih =>
    refine (ih.map ('/' :: '*' :: ·)).prepend ['/', '*'] ?_ ?_
    · exact commentBody.eq_3 depth chars
    · intro _ _ _ _ _
      exact commentBody.eq_3 depth _
  | case4 depth chars ih =>
    refine (ih.map ('*' :: '/' :: ·)).prepend ['*', '/'] ?_ ?_
    · exact commentBody.eq_4 depth chars
    · intro _ _ _ _ _
      exact commentBody.eq_4 depth _
  | case5 depth c chars hopen hclose ih =>
    refine (ih.map (c :: ·)).cons ?_ ?_
    · exact commentBody.eq_5 depth c chars hopen hclose
    · rintro rest rest' consumed hnear rfl
      have hback := (hnear.append consumed).symm
      apply commentBody.eq_5 depth c
      · intro after hc hafter
        obtain ⟨after', hafter', -⟩ := (hafter ▸ hback).exists_cons
        exact hopen after' hc hafter'
      · intro after hc hafter
        obtain ⟨after', hafter', -⟩ := (hafter ▸ hback).exists_cons
        exact hclose after' hc hafter'

theorem localToken_blockComment : LocalToken blockComment := by
  intro chars
  cases hbody : commentBody 1 chars with
  | none =>
    have hwhole : blockComment chars = (error ('/' :: '*' :: chars) "unclosed comment", []) := by
      rw [blockComment, hbody]
    exact .whole id (congrArg some hwhole) (congrArg some hwhole)
  | some found =>
    obtain ⟨consumed, rfl, hrepeat⟩ := local_commentBody 1 chars found.1 found.2 hbody
    apply LocalAt.of_token consumed (leaf .blockComment ('/' :: '*' :: found.1))
    · rw [blockComment, hbody]
    · intro rest' hnear
      rw [blockComment, hrepeat rest' hnear]

theorem escape_character {c : Char} {chars : List Char}
    (hnumber : ¬(c = 'u' ∧ nextIs (· == '\x7b') chars = true)) :
    escape (c :: chars) = if isSpace c then (leaf .linebreak ['\\'], c :: chars)
      else (leaf .escape ['\\', c], chars) := by
  unfold escape
  split
  · rename_i hnil
    exact absurd hnil (List.cons_ne_nil _ _)
  · rename_i rest hu
    obtain ⟨rfl, rfl⟩ := List.cons.inj hu
    exact absurd ⟨rfl, rfl⟩ hnumber
  · rename_i hcons
    obtain ⟨rfl, rfl⟩ := List.cons.inj hcons
    rfl

theorem localToken_escapedNumber : LocalToken escapedNumber := by
  intro chars
  obtain ⟨digits, after, rfl, ⟨hdigits, hafter⟩, hsame⟩ := exists_run isHexDigit chars
  by_cases hclosed : (!digits.isEmpty && nextIs (· == '\x7d') after) = true
  · obtain ⟨behind, rfl⟩ := nextIs_eq (Bool.and_eq_true_iff.1 hclosed).2
    have hclosed' : ∀ rest', (!digits.isEmpty && nextIs (· == '\x7d') ('\x7d' :: rest')) = true :=
      fun _ => hclosed
    rw [← List.singleton_append, ← List.append_assoc] at hdigits hafter ⊢
    apply LocalAt.of_token _
      (leaf .escape ('\\' :: 'u' :: '\x7b' :: digits ++ ['\x7d']))
    · rw [escapedNumber, hdigits, hafter]
      exact if_pos hclosed
    · intro rest' hnear
      obtain ⟨htake, hdrop⟩ := hsame _ (hnear.cons '\x7d')
      rw [List.append_assoc, List.singleton_append, escapedNumber, htake, hdrop,
        if_pos (hclosed' rest')]
      rfl
  · apply LocalAt.of_token _
      (error ('\\' :: 'u' :: '\x7b' :: digits) "invalid unicode escape sequence")
    · rw [escapedNumber, hdigits, hafter, if_neg hclosed]
    · intro rest' hnear
      obtain ⟨htake, hdrop⟩ := hsame rest' hnear
      rw [hnear.nextIs_eq] at hclosed
      rw [escapedNumber, htake, hdrop, if_neg hclosed]

theorem localToken_escape : LocalToken escape := by
  intro chars
  rcases chars with _ | ⟨c, chars⟩
  · exact .whole id rfl rfl
  · by_cases hnumber : c = 'u' ∧ nextIs (· == '\x7b') chars = true
    · obtain ⟨rfl, hnext⟩ := hnumber
      obtain ⟨rest, rfl⟩ := nextIs_eq hnext
      exact (localToken_escapedNumber rest).prepend ['u', '\x7b'] rfl fun _ _ _ _ _ => rfl
    · by_cases hspace : isSpace c = true
      · apply LocalAt.of_token [] (leaf .linebreak ['\\'])
        · rw [List.nil_append, escape_character hnumber, if_pos hspace]
        · intro chars' hnear
          obtain ⟨rest, rfl, -⟩ := hnear.exists_cons
          rw [List.nil_append, escape_character (by rintro ⟨rfl, -⟩; simp [isSpace] at hspace),
            if_pos hspace]
      · apply LocalAt.of_token [c] (leaf .escape ['\\', c])
        · rw [List.singleton_append, escape_character hnumber, if_neg hspace]
        · intro rest' hnear
          rw [hnear.nextIs_eq] at hnumber
          rw [List.singleton_append, escape_character hnumber, if_neg hspace]

theorem breakOn_self (pattern after : List Char) :
    breakOn pattern (pattern ++ after) = some ([], after) := by
  cases pattern with
  | nil => cases after <;> simp [breakOn]
  | cons c pattern => simp [breakOn]

/-- The first occurrence stays the first one whatever stands behind it. -/
theorem breakOn_append_of_eq_some {pattern chars before after : List Char}
    (hbreak : breakOn pattern chars = some (before, after)) (after' : List Char) :
    breakOn pattern (before ++ pattern ++ after') = some (before, after') := by
  induction chars generalizing before after with
  | nil =>
    simp only [breakOn, List.isEmpty_iff, Option.ite_none_right_eq_some, Option.some.injEq,
      Prod.mk.injEq] at hbreak
    obtain ⟨rfl, rfl, rfl⟩ := hbreak
    exact breakOn_self [] after'
  | cons c chars ih =>
    rw [breakOn] at hbreak
    split at hbreak
    · simp only [Option.some.injEq, Prod.mk.injEq] at hbreak
      obtain ⟨rfl, rfl⟩ := hbreak
      exact breakOn_self pattern after'
    · rename_i hstarts
      simp only [Option.map_eq_some_iff, Prod.exists, Prod.mk.injEq] at hbreak
      obtain ⟨front, behind, hinner, rfl, rfl⟩ := hbreak
      have hlater : ¬pattern <+: c :: (front ++ pattern ++ after') := by
        intro hfound
        apply hstarts
        have hown : pattern <+: c :: (front ++ pattern) :=
          List.prefix_of_prefix_length_le hfound ⟨after', by simp⟩ (by simp; omega)
        rw [List.isPrefixOf_iff_prefix, ← breakOn_append hinner]
        exact hown.trans ⟨behind, by simp⟩
      rw [List.cons_append, List.cons_append, breakOn, if_neg (by
        rwa [List.isPrefixOf_iff_prefix]), ih hinner]
      rfl

theorem raw_tick (chars : List Char) : raw ('\x60' :: chars) =
    if ('\x60' :: chars.takeWhile (· == '\x60')).length = 2 then
      (leaf .raw ('\x60' :: chars.takeWhile (· == '\x60')), chars.dropWhile (· == '\x60'))
    else
      match breakOn ('\x60' :: chars.takeWhile (· == '\x60'))
        (chars.dropWhile (· == '\x60')) with
      | some (body, after) =>
        (leaf .raw ('\x60' :: chars.takeWhile (· == '\x60') ++ body ++
          '\x60' :: chars.takeWhile (· == '\x60')), after)
      | none => (error ('\x60' :: chars) "unclosed raw text", []) := by
  have htake : ('\x60' :: chars).takeWhile (· == '\x60') =
      '\x60' :: chars.takeWhile (· == '\x60') := by simp
  have hdrop : ('\x60' :: chars).dropWhile (· == '\x60') = chars.dropWhile (· == '\x60') := by
    simp
  rw [← htake, ← hdrop]
  rfl

theorem localToken_raw : LocalToken fun chars => raw ('\x60' :: chars) := by
  intro chars
  obtain ⟨run, after, hchars, ⟨hrun, hafter⟩, hsame⟩ := exists_run (· == '\x60') chars
  by_cases htwo : ('\x60' :: run).length = 2
  · subst hchars
    apply LocalAt.of_token run (leaf .raw ('\x60' :: run))
    · rw [raw_tick, hrun, hafter, if_pos htwo]
    · intro rest' hnear
      obtain ⟨htake, hdrop⟩ := hsame rest' hnear
      rw [raw_tick, htake, hdrop, if_pos htwo]
  · cases hbreak : breakOn ('\x60' :: run) after with
    | none =>
      have hwhole : raw ('\x60' :: chars) = (error ('\x60' :: chars) "unclosed raw text", []) := by
        rw [raw_tick, hrun, hafter, if_neg htwo, hbreak]
      exact .whole id (congrArg some hwhole) (congrArg some hwhole)
    | some found =>
      obtain ⟨body, behind⟩ := found
      obtain rfl := breakOn_append hbreak
      obtain rfl : (run ++ (body ++ '\x60' :: run)) ++ behind = chars := by
        rw [List.append_assoc, hchars]
      apply LocalAt.of_token _ (leaf .raw ('\x60' :: run ++ body ++ '\x60' :: run))
      · rw [raw_tick, hrun, hafter, if_neg htwo, hbreak]
      · intro rest' hnear
        obtain ⟨htake, hdrop⟩ := hsame _ (hnear.append (body ++ '\x60' :: run))
        rw [List.append_assoc, raw_tick, htake, hdrop, if_neg htwo,
          breakOn_append_of_eq_some hbreak]

theorem localToken_math : LocalToken math := by
  intro chars
  cases hbreak : breakOn ['$'] chars with
  | none =>
    have hwhole : math chars = (error ('$' :: chars) "unclosed equation", []) := by
      rw [math, hbreak]
    exact .whole id (congrArg some hwhole) (congrArg some hwhole)
  | some found =>
    obtain ⟨body, after⟩ := found
    obtain rfl := breakOn_append hbreak
    apply LocalAt.of_token (body ++ ['$']) (leaf .math ('$' :: body ++ ['$']))
    · rw [math, hbreak]
    · intro rest' _
      rw [math, breakOn_append_of_eq_some hbreak]

theorem localToken_name : LocalToken name :=
  localToken_span continuesName fun run => run

theorem localToken_spaces : LocalToken spaces :=
  localToken_span isBlank fun run => if run.isEmpty then [] else [leaf .space run]

/-! ## Numbers -/

theorem wholePart_of_unsigned {chars : List Char} (hsign : nextIs (· == '-') chars = false) :
    wholePart chars = (chars.takeWhile isAsciiDigit, chars.dropWhile isAsciiDigit) := by
  apply wholePart.eq_2
  rintro rest rfl
  simp [nextIs] at hsign

theorem localToken_wholePart : LocalToken wholePart := by
  intro chars
  by_cases hsign : nextIs (· == '-') chars = true
  · obtain ⟨rest, rfl⟩ := nextIs_eq hsign
    exact (localToken_span isAsciiDigit ('-' :: ·) rest).cons rfl fun _ _ _ _ _ => rfl
  · rw [Bool.not_eq_true] at hsign
    refine (localToken_span isAsciiDigit id chars).of_eq ?_ ?_
    · rw [wholePart_of_unsigned hsign]
      rfl
    · rintro rest rest' consumed hnear rfl
      rw [(hnear.append consumed).nextIs_eq] at hsign
      rw [wholePart_of_unsigned hsign]
      rfl

/-- Whether a point with a digit behind it stands here. -/
def startsDecimals (chars : List Char) : Bool :=
  nextIs (· == '.') chars && nextIs isAsciiDigit (chars.drop 1)

theorem startsDecimals_eq {left right : List Char} (hnear : Near left right) :
    startsDecimals left = startsDecimals right := by
  obtain rfl | ⟨a, b, c, afterLeft, afterRight, rfl, rfl⟩ := eq_or_near hnear.near
  · rfl
  · rfl

theorem decimals_of_starts {rest : List Char} (hstarts : startsDecimals ('.' :: rest) = true) :
    decimals ('.' :: rest) =
      ('.' :: rest.takeWhile isAsciiDigit, rest.dropWhile isAsciiDigit) := by
  have hdigit : nextIs isAsciiDigit rest = true := hstarts
  rw [decimals, if_pos hdigit]

theorem decimals_of_not_starts {chars : List Char} (hstarts : startsDecimals chars = false) :
    decimals chars = ([], chars) := by
  unfold decimals
  split
  · rename_i rest
    have hdigit : nextIs isAsciiDigit rest = false := hstarts
    simp [hdigit]
  · rfl

theorem localToken_decimals : LocalToken decimals := by
  intro chars
  by_cases hstarts : startsDecimals chars = true
  · obtain ⟨rest, rfl⟩ := nextIs_eq (Bool.and_eq_true_iff.1 hstarts).1
    refine (localToken_span isAsciiDigit ('.' :: ·) rest).cons ?_ ?_
    · rw [decimals_of_starts hstarts]
    · rintro rest rest' consumed hnear rfl
      rw [startsDecimals_eq ((hnear.append consumed).cons '.')] at hstarts
      rw [decimals_of_starts hstarts]
  · rw [Bool.not_eq_true] at hstarts
    apply LocalAt.of_token [] []
    · exact decimals_of_not_starts hstarts
    · intro rest' hnear
      rw [startsDecimals_eq hnear] at hstarts
      exact decimals_of_not_starts hstarts

theorem unitAt_eq {left right : List Char} (hnear : Near left right) :
    unitAt left = unitAt right := by
  obtain rfl | ⟨a, b, c, afterLeft, afterRight, rfl, rfl⟩ := eq_or_near hnear.near
  · rfl
  · rfl

/-- The unit of a number and with it the number. -/
def withUnit (whole places chars : List Char) : Step :=
  match unitAt chars with
  | some unit => (leaf .numeric (whole ++ places ++ unit), chars.drop unit.length)
  | none => (leaf (if places.isEmpty then .int else .float) (whole ++ places), chars)

theorem localToken_withUnit (whole places : List Char) :
    LocalToken (withUnit whole places) := by
  intro chars
  cases hunit : unitAt chars with
  | none =>
    apply LocalAt.of_token [] (leaf (if places.isEmpty then .int else .float) (whole ++ places))
    · rw [List.nil_append, withUnit, hunit]
    · intro rest' hnear
      rw [List.nil_append, withUnit, ← unitAt_eq hnear, hunit]
  | some unit =>
    have hchars := unitAt_append hunit
    generalize chars.drop unit.length = rest at hchars
    subst hchars
    apply LocalAt.of_token unit (leaf .numeric (whole ++ places ++ unit))
    · rw [withUnit, hunit]
      simp
    · intro rest' hnear
      rw [withUnit, ← unitAt_eq (hnear.append unit), hunit]
      simp

theorem localToken_number : LocalToken number := by
  have hrest := fun whole => localToken_decimals.bind (withUnit whole) (localToken_withUnit whole)
  exact localToken_wholePart.bind
    (fun whole rest => withUnit whole (decimals rest).1 (decimals rest).2) hrest

/-! ## Strings, operators and trivia -/

theorem localToken_stringBody : LocalToken stringBody := by
  intro chars
  induction chars using stringBody.induct with
  | case1 => exact .whole id rfl rfl
  | case2 chars =>
    apply LocalAt.of_token [] ([], false)
    · rfl
    · intro rest' hnear
      obtain ⟨rest', rfl, -⟩ := hnear.exists_cons
      rfl
  | case3 chars => exact .of_token ['"'] (['"'], true) rfl fun _ _ => rfl
  | case4 => exact .whole id rfl rfl
  | case5 c chars _ _ _ _ ih =>
    refine LocalAt.prepend ['\\', c] (ih.map fun body => ('\\' :: c :: body.1, body.2)) rfl ?_
    intro _ _ _ _ _
    rfl
  | case6 c chars hnewline hquote hend hescape _ _ _ _ ih =>
    have hescaped : c ≠ '\\' := by
      rintro rfl
      cases chars with
      | nil => exact hend rfl rfl
      | cons next rest => exact hescape next rest rfl rfl
    have hbody : ∀ chars', stringBody (c :: chars') =
        ((c :: (stringBody chars').1.1, (stringBody chars').1.2), (stringBody chars').2) :=
      fun chars' => stringBody.eq_6 c chars' hnewline hquote (fun hc _ => hescaped hc)
        (fun _ _ hc _ => hescaped hc)
    refine LocalAt.cons (ih.map fun body => (c :: body.1, body.2)) ?_ ?_
    · exact congrArg some (hbody chars)
    · intro _ rest' consumed _ _
      exact congrArg some (hbody (consumed ++ rest'))

theorem localToken_string : LocalToken string := by
  intro chars
  have hbody := (localToken_stringBody chars).map fun body =>
    if body.2 then leaf .str ('"' :: body.1) else error ('"' :: body.1) "unclosed string"
  have hstring : ∀ chars, string chars =
      (if (stringBody chars).1.2 then leaf .str ('"' :: (stringBody chars).1.1)
        else error ('"' :: (stringBody chars).1.1) "unclosed string", (stringBody chars).2) := by
    intro chars
    simp only [string]
    split <;> rfl
  refine hbody.of_eq (congrArg some (hstring chars)) ?_
  intro _ rest' consumed _ _
  exact congrArg some (hstring (consumed ++ rest'))

theorem local_binaryOperator : Local Near binaryOperator binaryOperator := by
  intro chars operator rest hoperator
  unfold binaryOperator at hoperator
  split at hoperator
  · obtain ⟨rfl, rfl⟩ := Prod.mk.inj (Option.some.inj hoperator)
    exact ⟨['=', '='], rfl, fun _ _ => rfl⟩
  · obtain ⟨rfl, rfl⟩ := Prod.mk.inj (Option.some.inj hoperator)
    exact ⟨['!', '='], rfl, fun _ _ => rfl⟩
  · obtain ⟨rfl, rfl⟩ := Prod.mk.inj (Option.some.inj hoperator)
    exact ⟨['+'], rfl, fun _ _ => rfl⟩
  · split at hoperator
    · cases hoperator
    · rename_i hdigit
      obtain ⟨rfl, rfl⟩ := Prod.mk.inj (Option.some.inj hoperator)
      refine ⟨['-'], rfl, ?_⟩
      intro rest' hnear
      rw [hnear.nextIs_eq] at hdigit
      exact if_neg hdigit
  · cases hoperator

theorem binaryOperator_eq_none {left right : List Char} (hnear : Near left right)
    (hnone : binaryOperator left = none) : binaryOperator right = none := by
  obtain rfl | ⟨a, b, c, afterLeft, afterRight, rfl, rfl⟩ := eq_or_near hnear.near
  · exact hnone
  · unfold binaryOperator at hnone ⊢
    split at hnone
    · cases hnone
    · cases hnone
    · cases hnone
    · rename_i rest hminus
      obtain ⟨rfl, rfl⟩ := List.cons.inj hminus
      by_cases hdigit : isAsciiDigit b = true
      · exact if_pos hdigit
      · simp [nextIs, hdigit] at hnone
    · simp_all

theorem triviaToken_eq_none {left right : List Char} (hnear : Near left right)
    (hnone : triviaToken left = none) : triviaToken right = none := by
  rw [triviaToken_eq_none_iff] at hnone ⊢
  rwa [← hnear.nextIs_eq, ← startsComment_eq hnear]

theorem triviaToken_space {c : Char} (hspace : isSpace c = true) (chars : List Char) :
    triviaToken (c :: chars) =
      some (leaf .space (c :: chars.takeWhile isSpace), chars.dropWhile isSpace) := by
  have hslash : c ≠ '/' := by
    rintro rfl
    simp [isSpace] at hspace
  unfold triviaToken
  split <;> simp_all

theorem local_triviaToken : Local Near triviaToken triviaToken := by
  intro chars
  by_cases hstart : startsComment chars = true
  · unfold startsComment at hstart
    split at hstart
    · exact (localToken_lineComment _).prepend ['/', '/'] rfl fun _ _ _ _ _ => rfl
    · exact (localToken_blockComment _).prepend ['/', '*'] rfl fun _ _ _ _ _ => rfl
    · cases hstart
  · by_cases hspace : nextIs isSpace chars = true
    · obtain ⟨c, chars, rfl⟩ : ∃ c rest, chars = c :: rest := by
        cases chars with
        | nil => cases hspace
        | cons c rest => exact ⟨c, rest, rfl⟩
      refine (localToken_span isSpace (fun run => leaf .space (c :: run)) chars).cons ?_ ?_
      · exact triviaToken_space hspace chars
      · intro _ rest' consumed _ _
        exact triviaToken_space hspace (consumed ++ rest')
    · intro value rest hvalue
      have hnone : triviaToken chars = none :=
        triviaToken_eq_none_iff.2 (by simp_all)
      rw [hnone] at hvalue
      cases hvalue

theorem localToken_trivia : LocalToken trivia := by
  intro chars
  induction chars using trivia_induction with
  | stop chars hnone =>
    apply LocalAt.of_token [] []
    · exact trivia_of_token_eq_none hnone
    · intro rest' hnear
      exact trivia_of_token_eq_none (triviaToken_eq_none hnear hnone)
  | next chars node rest htoken ih =>
    obtain ⟨front, rfl, hrepeat⟩ := local_triviaToken chars node rest htoken
    refine (ih.map (node :: ·)).prepend front ?_ ?_
    · exact congrArg some (trivia_of_token_eq_some htoken)
    · rintro behind behind' consumed hnear rfl
      exact congrArg some (trivia_of_token_eq_some (hrepeat _ (hnear.append consumed)))

theorem isBlank_of_not_isSpace {c : Char} (hspace : isSpace c = false) : isBlank c = false := by
  cases hblank : isBlank c with
  | false => rfl
  | true =>
    simp only [isBlank, Bool.or_eq_true, beq_iff_eq] at hblank
    obtain rfl | rfl := hblank
    · simp [isSpace] at hspace
    · simp [isSpace] at hspace

theorem nextIs_isBlank_of_not_isSpace {chars : List Char} (hspace : nextIs isSpace chars = false) :
    nextIs isBlank chars = false := by
  cases chars with
  | nil => rfl
  | cons c chars => exact isBlank_of_not_isSpace hspace

end Token

end Galley.Syntax
