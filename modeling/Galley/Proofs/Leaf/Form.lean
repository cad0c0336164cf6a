import Galley.Proofs.Shape.Token

/-!
# The texts of leaves

Each kind of leaf has its own form: plain text keeps clear of everything that starts another token,
comments and strings end where they close for the first time, and between the two runs of backticks
around raw text there is no such run.  Every token has the form of its kind or is an error.
-/

namespace Galley.Syntax

open Galley.Text Node

/-! ## Forms -/

/-- By how much the openings of comments outnumber their ends, counted from left to right. -/
def openComments : List Char → Int
  | '/' :: '*' :: chars => openComments chars + 1
  | '*' :: '/' :: chars => openComments chars - 1
  | _ :: chars => openComments chars
  | [] => 0

/-- The characters that no backslash takes with it. -/
def unescaped : List Char → List Char
  | '\\' :: _ :: chars => unescaped chars
  | c :: chars => c :: unescaped chars
  | [] => []

/-- The texts that a leaf of a kind has. -/
def Kind.Form (kind : Kind) (chars : List Char) : Prop :=
  match kind with
  | .text => chars ≠ [] ∧ (∀ c ∈ chars, isSpace c = false ∧ c ∉ Token.special) ∧
      ¬['/', '/'] <:+: chars ∧ ¬['/', '*'] <:+: chars
  | .space => chars ≠ [] ∧ ∀ c ∈ chars, isSpace c = true
  | .parbreak => (∀ c ∈ chars, isSpace c = true) ∧ 2 ≤ chars.count '\n'
  | .linebreak => chars = ['\\']
  | .escape => (∃ c, isSpace c = false ∧ chars = ['\\', c]) ∨
      ∃ digits, digits ≠ [] ∧ (∀ c ∈ digits, isHexDigit c = true) ∧
        chars = '\\' :: 'u' :: '\x7b' :: digits ++ ['\x7d']
  | .raw => chars = ['\x60', '\x60'] ∨
      ∃ count body, count ≠ 0 ∧ body ≠ [] ∧ ¬List.replicate count '\x60' <:+: body ∧
        chars = List.replicate count '\x60' ++ body ++ List.replicate count '\x60'
  | .math => ∃ body, '$' ∉ body ∧ chars = '$' :: body ++ ['$']
  | .lineComment => ∃ body, '\n' ∉ body ∧ chars = '/' :: '/' :: body
  | .blockComment => (∃ body, chars = '/' :: '*' :: body) ∧ openComments chars = 0 ∧
      ∀ front back, chars = front ++ back → back ≠ [] → 2 ≤ front.length → 0 < openComments front
  | .ident => ∃ first rest, (isLetter first = true ∨ first = '_') ∧
      (∀ c ∈ rest, isAlphanumeric c = true ∨ c = '_') ∧ chars = first :: rest
  | .int => WholeText chars
  | .float => PointText chars
  | .numeric => ∃ number unit, (WholeText number ∨ PointText number) ∧ unit ∈ Token.units ∧
      chars = number ++ unit
  | .str => ∃ body, (∀ c ∈ unescaped body, c ≠ '"' ∧ c ≠ '\n' ∧ c ≠ '\\') ∧
      chars = '"' :: body ++ ['"']
  | .bool => chars = "true".toList ∨ chars = "false".toList
  | .noneWord => chars = "none".toList
  | .setWord => chars = "set".toList
  | .letWord => chars = "let".toList
  | .star => chars = ['*']
  | .underscore => chars = ['_']
  | .hash => chars = ['#']
  | .leftParen => chars = ['(']
  | .rightParen => chars = [')']
  | .leftBracket => chars = ['[']
  | .rightBracket => chars = [']']
  | .comma => chars = [',']
  | .colon => chars = [':']
  | .eq => chars = ['=']
  | .eqEq => chars = ['=', '=']
  | .exclEq => chars = ['!', '=']
  | .plus => chars = ['+']
  | .minus => chars = ['-']
  | .markup => chars = []
  | .strong | .emph | .contentBlock | .args | .named | .funcCall | .embedded | .setRule
  | .letBinding | .binary => False
  | .error => True

/-- A leaf with the form of its kind. -/
structure Formed (node : Node) : Prop where
  children_eq : node.children = []
  form : node.kind.Form node.text.toList

theorem formed_leaf {kind : Kind} {chars : List Char} (hform : kind.Form chars) :
    Formed (leaf kind chars) := by
  refine ⟨rfl, ?_⟩
  rwa [leaf, String.toList_ofList]

theorem formed_error (chars : List Char) (message : String) : Formed (error chars message) :=
  ⟨rfl, trivial⟩

/-! ## Text and white space -/

namespace Token

theorem startsComment_cons_cons (first second : Char) (chars : List Char) :
    startsComment (first :: second :: chars) =
      (first == '/' && (second == '/' || second == '*')) := by
  unfold startsComment
  split <;> simp_all

theorem startsComment_of_suffix_singleton {c : Char} {suffix : List Char}
    (hsuffix : suffix <:+ [c]) : startsComment suffix = false := by
  obtain rfl | hnil := List.suffix_cons_iff.1 hsuffix
  · unfold startsComment
    split <;> simp_all
  · rw [List.suffix_nil.1 hnil]
    rfl

/-- Nowhere in a run of text does a comment start, if none starts in front of it. -/
theorem startsComment_of_suffix {first : Char} {chars suffix : List Char}
    (hfirst : startsComment (first :: chars) = false)
    (hsuffix : suffix <:+ first :: (plainRun chars).1) : startsComment suffix = false := by
  induction chars generalizing first with
  | nil => exact startsComment_of_suffix_singleton hsuffix
  | cons second chars ih =>
    rw [plainRun] at hsuffix
    split at hsuffix
    · exact startsComment_of_suffix_singleton hsuffix
    · rename_i hstop
      obtain rfl | hlater := List.suffix_cons_iff.1 hsuffix
      · rwa [startsComment_cons_cons] at hfirst ⊢
      · simp only [Bool.or_eq_true, not_or, Bool.not_eq_true] at hstop
        exact ih hstop.2 hlater

theorem formed_text {first : Char} {chars : List Char} (hspace : isSpace first = false)
    (hspecial : first ∉ special) (hcomment : startsComment (first :: chars) = false) :
    Formed (text first chars).1 := by
  have hrun : ∀ chars, ∀ c ∈ (plainRun chars).1, isSpace c = false ∧ c ∉ special := by
    intro chars
    induction chars with
    | nil => exact List.forall_mem_nil _
    | cons c chars ih =>
      rw [plainRun]
      split
      · exact List.forall_mem_nil _
      · rename_i hstop
        exact List.forall_mem_cons.2 ⟨by simp_all, ih⟩
  refine formed_leaf ⟨List.cons_ne_nil _ _, List.forall_mem_cons.2 ⟨⟨hspace, hspecial⟩, hrun _⟩,
    ?_, ?_⟩
  · rintro ⟨front, back, hinside⟩
    rw [List.append_assoc] at hinside
    cases startsComment_of_suffix hcomment ⟨front, hinside⟩
  · rintro ⟨front, back, hinside⟩
    rw [List.append_assoc] at hinside
    cases startsComment_of_suffix hcomment ⟨front, hinside⟩

theorem formed_blank {first : Char} (hspace : isSpace first = true) (chars : List Char) :
    Formed (blank (first :: chars)).1 := by
  have hrun : ∀ c ∈ (first :: chars).takeWhile isSpace, isSpace c = true :=
    fun c hc => List.mem_takeWhile_imp hc
  rw [blank]
  dsimp only
  split
  · rename_i hbreak
    exact formed_leaf ⟨hrun, hbreak⟩
  · exact formed_leaf ⟨takeWhile_ne_nil hspace, hrun⟩

/-! ## Comments -/

theorem formed_lineComment (chars : List Char) :
    Formed (lineComment ('/' :: '/' :: chars)).1 := by
  refine formed_leaf ⟨chars.takeWhile (· != '\n'), ?_, by simp⟩
  intro hnewline
  simpa using List.mem_takeWhile_imp hnewline

theorem openComments_singleton (c : Char) : openComments [c] = 0 := by
  rw [openComments]
  · rfl
  · simp
  · simp

/-- A character that starts no mark of a comment does not count. -/
theorem openComments_cons {c : Char} {chars front : List Char}
    (hopen : ∀ rest, c = '/' → chars = '*' :: rest → False)
    (hclose : ∀ rest, c = '*' → chars = '/' :: rest → False) (hfront : front <+: chars) :
    openComments (c :: front) = openComments front := by
  obtain ⟨behind, rfl⟩ := hfront
  rw [openComments]
  · rintro rest rfl rfl
    exact hopen _ rfl rfl
  · rintro rest rfl rfl
    exact hclose _ rfl rfl

/-- What stands in front of a place behind a mark of two characters. -/
theorem forall_front_of_mark {a b : Char} {inside : List Char} {holds : List Char → Prop}
    (hnone : holds []) (hhalf : holds [a])
    (hmark : ∀ front back, inside = front ++ back → back ≠ [] → holds (a :: b :: front)) :
    ∀ front back, a :: b :: inside = front ++ back → back ≠ [] → holds front := by
  rintro (_ | ⟨_, _ | ⟨_, front⟩⟩) back hsplit hback
  · exact hnone
  · obtain ⟨rfl, -⟩ := List.cons.inj hsplit
    exact hhalf
  · simp only [List.cons_append, List.cons.injEq] at hsplit
    obtain ⟨rfl, rfl, hsplit⟩ := hsplit
    exact hmark front back hsplit hback

/-- What follows the opening of a comment closes all that are open, and not before its end. -/
theorem openComments_commentBody {depth : Nat} {chars body rest : List Char}
    (hbody : commentBody depth chars = some (body, rest)) :
    openComments body = -depth ∧
      ∀ front back, body = front ++ back → back ≠ [] → 0 < depth + openComments front := by
  induction depth, chars using commentBody.induct generalizing body rest with
  | case1 chars =>
    rw [commentBody] at hbody
    obtain ⟨rfl, rfl⟩ := Prod.mk.inj (Option.some.inj hbody)
    refine ⟨rfl, ?_⟩
    intro front back hnil hback
    exact absurd (List.append_eq_nil_iff.1 hnil.symm).2 hback
  | case2 depth => cases hbody
  | case3 depth chars ih | case4 depth chars ih =>
    simp only [commentBody, Option.map_eq_some_iff, Prod.exists, Prod.mk.injEq] at hbody
    obtain ⟨inside, behind, hinside, rfl, rfl⟩ := hbody
    obtain ⟨hall, hfront⟩ := ih hinside
    refine ⟨by rw [openComments, hall]; omega, forall_front_of_mark ?_ ?_ ?_⟩
    · rw [openComments]
      omega
    · rw [openComments_singleton]
      omega
    · intro front back hsplit hback
      have hpos := hfront front back hsplit hback
      rw [openComments]
      omega
  | case5 depth c chars hopen hclose ih =>
    simp only [commentBody, Option.map_eq_some_iff, Prod.exists, Prod.mk.injEq] at hbody
    obtain ⟨inside, behind, hinside, rfl, rfl⟩ := hbody
    obtain ⟨hall, hfront⟩ := ih hinside
    have hbegins : inside <+: chars := ⟨behind, commentBody_append hinside⟩
    refine ⟨by rw [openComments_cons hopen hclose hbegins, hall], ?_⟩
    rintro (_ | ⟨first, front⟩) back hsplit hback
    · simp only [openComments]
      omega
    · obtain ⟨rfl, rfl⟩ := List.cons.inj hsplit
      rw [openComments_cons hopen hclose ((List.prefix_append front back).trans hbegins)]
      exact hfront front back rfl hback

theorem formed_blockComment (chars : List Char) : Formed (blockComment chars).1 := by
  rw [blockComment]
  split
  · rename_i body rest hbody
    obtain ⟨hall, hfront⟩ := openComments_commentBody hbody
    refine formed_leaf ⟨⟨body, rfl⟩, by rw [openComments, hall]; rfl, ?_⟩
    refine forall_front_of_mark (fun hlong => by cases hlong)
      (fun hlong => by cases Nat.le_of_succ_le_succ hlong) ?_
    intro front back hsplit hback _
    have hpos := hfront front back hsplit hback
    rw [openComments]
    omega
  · exact formed_error _ _

/-! ## Escapes, raw text and equations -/

theorem formed_escape (chars : List Char) : Formed (escape chars).1 := by
  unfold escape
  split
  · exact formed_leaf rfl
  · rename_i rest
    rw [escapedNumber]
    split
    · rename_i hclosed
      simp only [Bool.and_eq_true, Bool.not_eq_true', List.isEmpty_eq_false_iff] at hclosed
      exact formed_leaf (.inr ⟨_, hclosed.1, fun c hc => List.mem_takeWhile_imp hc, rfl⟩)
    · exact formed_error _ _
  · rename_i c rest _
    split
    · exact formed_leaf rfl
    · rename_i hspace
      exact formed_leaf (.inl ⟨c, by simpa using hspace, rfl⟩)

theorem formed_raw (chars : List Char) : Formed (raw ('\x60' :: chars)).1 := by
  obtain hempty | ⟨count, body, hcount, hbody, -, hfirst, hraw⟩ | ⟨unclosed, hraw⟩ :=
    raw_cases chars
  · rw [hempty]
    exact formed_leaf (.inl rfl)
  · rw [hraw]
    exact formed_leaf (.inr ⟨count, body, hcount, hbody, hfirst, rfl⟩)
  · rw [hraw]
    exact formed_error _ _

theorem formed_math (chars : List Char) : Formed (math chars).1 := by
  rw [math]
  split
  · rename_i body after hbreak
    have hfirst := not_infix_of_breakOn (List.cons_ne_nil '$' []) hbreak
    refine formed_leaf ⟨body, ?_, rfl⟩
    intro hdollar
    obtain ⟨front, back, rfl⟩ := List.append_of_mem hdollar
    exact hfirst ⟨front, back, by simp⟩
  · exact formed_error _ _

/-! ## Words, numbers and strings -/

/-- A name has the form of an identifier. -/
theorem form_name {chars : List Char} (hstarts : nextIs startsName chars = true) :
    Kind.Form .ident (name chars).1 := by
  cases chars with
  | nil => cases hstarts
  | cons first chars =>
    have hcontinues := continuesName_of_startsName (show startsName first = true from hstarts)
    refine ⟨first, chars.takeWhile continuesName, ?_, ?_, by simp [name, hcontinues]⟩
    · simpa [startsName, nextIs] using hstarts
    · intro c hc
      simpa [continuesName] using List.mem_takeWhile_imp hc

theorem formed_word {chars : List Char} (hname : Kind.Form .ident chars) :
    Formed (word chars) := by
  rw [word]
  split_ifs with hbool hnone
  · exact formed_leaf (by simpa [Kind.Form] using hbool)
  · exact formed_leaf hnone
  · exact formed_leaf hname

theorem formed_number {chars : List Char} (hstarts : StartsNumber chars) :
    Formed (number chars).1 := by
  have hleaf : (number chars).1.children = [] ∧ ((number chars).1.kind = .int ∨
      (number chars).1.kind = .float ∨ (number chars).1.kind = .numeric) := by
    rw [number]
    dsimp only
    split
    · exact ⟨rfl, .inr (.inr rfl)⟩
    · split
      · exact ⟨rfl, .inl rfl⟩
      · exact ⟨rfl, .inr (.inl rfl)⟩
  obtain ⟨hchildren, hkind⟩ := hleaf
  have hclean : (number chars).1.errors = [] := by
    rw [errors_eq_nil_iff, hchildren]
    refine ⟨?_, List.forall_mem_nil _⟩
    rintro herror
    rw [herror] at hkind
    simp at hkind
  have hshaped := (everywhere_iff.1 (proper_number hstarts hclean).2).1
  refine ⟨hchildren, ?_⟩
  rw [Shaped] at hshaped
  obtain hkind | hkind | hkind := hkind <;>
    · rw [hkind] at hshaped ⊢
      exact hshaped.2

/-- A closed string ends at the first quote that no backslash takes with it. -/
theorem unescaped_stringBody {chars : List Char} (hclosed : (stringBody chars).1.2 = true) :
    ∃ body, (stringBody chars).1.1 = body ++ ['"'] ∧
      ∀ c ∈ unescaped body, c ≠ '"' ∧ c ≠ '\n' ∧ c ≠ '\\' := by
  induction chars using stringBody.induct with
  | case1 => cases hclosed
  | case2 => cases hclosed
  | case3 => exact ⟨[], rfl, List.forall_mem_nil _⟩
  | case4 => cases hclosed
  | case5 c chars body closed rest hrest ih =>
    simp only [stringBody, hrest] at hclosed ih ⊢
    obtain ⟨body, rfl, hinside⟩ := ih hclosed
    exact ⟨'\\' :: c :: body, rfl, hinside⟩
  | case6 c chars hnewline hquote hlast hescape body closed rest hrest ih =>
    simp only [stringBody, hrest] at hclosed ih ⊢
    obtain ⟨body, rfl, hinside⟩ := ih hclosed
    have hbackslash : c ≠ '\\' := by
      rintro rfl
      cases chars with
      | nil => exact hlast rfl rfl
      | cons next chars => exact hescape next chars rfl rfl
    refine ⟨c :: body, rfl, ?_⟩
    rw [unescaped]
    · exact List.forall_mem_cons.2 ⟨⟨hquote, hnewline, hbackslash⟩, hinside⟩
    · rintro next behind rfl
      exact absurd rfl hbackslash

theorem formed_string (chars : List Char) : Formed (string chars).1 := by
  rw [string]
  dsimp only
  split
  · rename_i hclosed
    obtain ⟨body, hbody, hinside⟩ := unescaped_stringBody hclosed
    exact formed_leaf ⟨body, hinside, by rw [hbody]; rfl⟩
  · exact formed_error _ _

/-! ## Trivia and operators -/

theorem formed_spaces (chars : List Char) : ∀ node ∈ (spaces chars).1, Formed node := by
  intro node hnode
  obtain ⟨rfl, hrun⟩ := eq_of_mem_spaces hnode
  refine formed_leaf ⟨hrun, ?_⟩
  intro c hc
  have hblank := List.mem_takeWhile_imp hc
  simp only [isBlank, Bool.or_eq_true, beq_iff_eq] at hblank
  obtain rfl | rfl := hblank
  · rfl
  · rfl

theorem formed_triviaToken {chars rest : List Char} {node : Node}
    (htoken : triviaToken chars = some (node, rest)) : Formed node := by
  obtain ⟨inside, rfl, rfl, -⟩ | ⟨inside, rfl, rfl, -⟩ | ⟨hspace, rfl, -⟩ :=
    triviaToken_cases htoken
  · exact formed_lineComment _
  · exact formed_blockComment _
  · exact formed_leaf ⟨takeWhile_ne_nil hspace, fun c hc => List.mem_takeWhile_imp hc⟩

theorem formed_trivia (chars : List Char) : ∀ node ∈ (trivia chars).1, Formed node :=
  forall_mem_trivia formed_triviaToken chars

theorem formed_binaryOperator {chars rest : List Char} {operator : Node}
    (hoperator : binaryOperator chars = some (operator, rest)) : Formed operator := by
  obtain rfl | rfl | rfl | rfl := (binaryOperator_cases hoperator).1 <;> exact formed_leaf rfl

end Token

end Galley.Syntax
