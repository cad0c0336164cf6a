import Galley.Proofs.Locality.Grammar

/-!
# Every step moves on

Seen from a place in a text, a step of the grammar stops at a later place or stays where it is, and
what it reads covers the characters between.  A step that a loop takes once more has passed at least
one of them, so all loops end, and more fuel than the budget of the text changes nothing.
-/

namespace Galley.Syntax.Grammar

open Galley.Text Node Token

variable {α : Type} {chars : List Char} {cursor : Nat}

/-- With the budget of a text and with all more, a step from a place in it stops at one and the same
place, which is no earlier one, and under a condition a later one.  What it answers covers what it
was given as read already and the characters that it passed over. -/
def Advances (chars : List Char) (cursor : Nat) (moves : Prop) (front : List Char)
    (view : α → List Char) (step : Nat → Option (α × List Char)) : Prop :=
  ∃ value stop, (∀ fuel, budget chars ≤ fuel → step fuel = some (value, chars.drop stop)) ∧
    cursor ≤ stop ∧ stop ≤ chars.length ∧ (moves → cursor < stop) ∧
      view value = front ++ (chars.drop cursor).take (stop - cursor)

/-- What the steps of the grammar do at a place in a text.  Those that read one construct only are
taken where it starts, a rule or a binding behind its keyword, and what goes on with a node behind
it. -/
structure StepsAdvance (chars : List Char) (cursor : Nat) : Prop where
  markup : ∀ stops, Advances chars cursor False [] charsOf fun fuel =>
    Grammar.markup fuel stops (chars.drop cursor)
  markupNode : ∀ stops first rest, chars.drop cursor = first :: rest →
    Advances chars cursor True [] Node.chars fun fuel => Grammar.markupNode fuel stops first rest
  text : ∀ first rest, chars.drop cursor = first :: rest →
    Advances chars cursor True [] Node.chars fun _ => some (Token.text first rest)
  lineComment : ∀ rest, chars.drop cursor = '/' :: '/' :: rest →
    Advances chars cursor True [] Node.chars fun _ =>
      some (Token.lineComment ('/' :: '/' :: rest))
  blockComment : ∀ rest, chars.drop cursor = '/' :: '*' :: rest →
    Advances chars cursor True [] Node.chars fun _ => some (Token.blockComment rest)
  escape : ∀ rest, chars.drop cursor = '\\' :: rest →
    Advances chars cursor True [] Node.chars fun _ => some (Token.escape rest)
  raw : ∀ rest, chars.drop cursor = '\x60' :: rest →
    Advances chars cursor True [] Node.chars fun _ => some (Token.raw ('\x60' :: rest))
  math : ∀ rest, chars.drop cursor = '$' :: rest →
    Advances chars cursor True [] Node.chars fun _ => some (Token.math rest)
  delimited : ∀ kind marker delimiter stops rest, chars.drop cursor = delimiter :: rest →
    Advances chars cursor True [] Node.chars fun fuel =>
      Grammar.delimited fuel kind marker delimiter stops rest
  embedded : ∀ rest, chars.drop cursor = '#' :: rest →
    Advances chars cursor True [] Node.chars fun fuel => Grammar.embedded fuel rest
  setRule : Advances chars cursor False ['s', 'e', 't'] Node.chars fun fuel =>
    Grammar.setRule fuel (chars.drop cursor)
  letBinding : Advances chars cursor False ['l', 'e', 't'] Node.chars fun fuel =>
    Grammar.letBinding fuel (chars.drop cursor)
  spaces : Advances chars cursor False [] charsOf fun _ => some (Token.spaces (chars.drop cursor))
  triviaToken : ∀ token, Token.triviaToken (chars.drop cursor) = some token →
    Advances chars cursor True [] Node.chars fun _ => some token
  trivia : Advances chars cursor False [] charsOf fun bound =>
    some (triviaWithin bound (chars.drop cursor))
  word : ∀ name, Advances chars cursor False name Node.chars fun _ =>
    some (Token.word name, chars.drop cursor)
  applications : ∀ node, CallsHaveChildren node →
    Advances chars cursor False node.chars Node.chars fun fuel =>
      Grammar.applications fuel node (chars.drop cursor)
  args : ∀ rest, chars.drop cursor = '(' :: rest →
    Advances chars cursor True [] Node.chars fun fuel => Grammar.args fuel rest
  arg : Advances chars cursor (StartsValue (chars.drop cursor)) [] Node.chars fun fuel =>
    Grammar.arg fuel (chars.drop cursor)
  codeExpr : Advances chars cursor (StartsValue (chars.drop cursor)) [] Node.chars fun fuel =>
    Grammar.codeExpr fuel (chars.drop cursor)
  operations : ∀ left, Advances chars cursor False left.chars Node.chars fun fuel =>
    Grammar.operations fuel left (chars.drop cursor)
  binaryOperator : ∀ operator, Token.binaryOperator (chars.drop cursor) = some operator →
    Advances chars cursor True [] Node.chars fun _ => some operator
  codeAtom : Advances chars cursor (StartsValue (chars.drop cursor)) [] Node.chars fun fuel =>
    Grammar.codeAtom fuel (chars.drop cursor)
  number : Advances chars cursor False [] Node.chars fun _ =>
    some (Token.number (chars.drop cursor))
  string : ∀ rest, chars.drop cursor = '"' :: rest →
    Advances chars cursor True [] Node.chars fun _ => some (Token.string rest)
  contentBlock : ∀ rest, chars.drop cursor = '[' :: rest →
    Advances chars cursor True [] Node.chars fun fuel => Grammar.contentBlock fuel rest

/-! ## From what is covered to places in the text -/

namespace Advances

variable {moves : Prop} {front entry here : List Char} {view : α → List Char}
variable {step : Nat → Option (α × List Char)} {nodeStep : Nat → Option (Node × List Char)}

theorem of_answers (hcursor : cursor ≤ chars.length) (hhere : chars.drop cursor = entry ++ here)
    (hmore : ∀ extra answer, step (budget chars) = some answer →
      step (extra + budget chars) = some answer)
    (hanswers : Answers (step (budget chars)) fun value rest =>
      ∃ inside, view value = front ++ (entry ++ inside) ∧ inside ++ rest = here ∧
        (moves → entry ++ inside ≠ [])) :
    Advances chars cursor moves front view step := by
  obtain ⟨value, rest, hanswer, inside, hvalue, rfl, hmoves⟩ := hanswers
  rw [← List.append_assoc] at hhere
  have hlength := congrArg List.length hhere
  rw [List.length_drop, List.length_append] at hlength
  refine ⟨value, cursor + (entry ++ inside).length, ?_, Nat.le_add_right _ _, by omega, ?_, ?_⟩
  · intro fuel hfuel
    obtain ⟨extra, rfl⟩ := Nat.exists_eq_add_of_le' hfuel
    rw [hmore extra _ hanswer, ← List.drop_drop, hhere, List.drop_left]
  · intro hholds
    have hpos := List.length_pos_iff.2 (hmoves hholds)
    omega
  · rw [hvalue, hhere, Nat.add_sub_cancel_left, List.take_left]

/-- A step at the start of its construct moves on, because its first character is known. -/
theorem of_start {first : Char} (hcursor : cursor ≤ chars.length)
    (hhere : chars.drop cursor = first :: entry ++ here)
    (hmore : ∀ extra answer, nodeStep (budget chars) = some answer →
      nodeStep (extra + budget chars) = some answer)
    (hanswers : Answers (nodeStep (budget chars)) (Covers (first :: entry) here)) :
    Advances chars cursor True [] Node.chars nodeStep := by
  apply of_answers hcursor hhere hmore
  apply hanswers.mono
  rintro node rest ⟨inside, hnode, hinside⟩
  exact ⟨inside, hnode, hinside, fun _ => List.cons_ne_nil _ _⟩

theorem of_token {first : Char} {token : Token.Step} (hcursor : cursor ≤ chars.length)
    (hhere : chars.drop cursor = first :: entry ++ here)
    (hcovers : Covers (first :: entry) here token.1 token.2) :
    Advances chars cursor True [] Node.chars fun _ => some token :=
  of_start hcursor hhere (fun _ _ => id) (.of_some hcovers)

/-- A step that is given what stands in front of its place may stay. -/
theorem of_front (hcursor : cursor ≤ chars.length)
    (hmore : ∀ extra answer, nodeStep (budget chars) = some answer →
      nodeStep (extra + budget chars) = some answer)
    (hanswers : Answers (nodeStep (budget chars)) (Covers front (chars.drop cursor))) :
    Advances chars cursor False front Node.chars nodeStep := by
  apply of_answers hcursor (List.nil_append _).symm hmore
  apply hanswers.mono
  rintro node rest ⟨inside, hnode, hinside⟩
  exact ⟨inside, hnode, hinside, False.elim⟩

theorem of_run {nodesStep : Nat → Option (List Node × List Char)} (hcursor : cursor ≤ chars.length)
    (hmore : ∀ extra answer, nodesStep (budget chars) = some answer →
      nodesStep (extra + budget chars) = some answer)
    (hanswers : Answers (nodesStep (budget chars)) fun nodes rest =>
      charsOf nodes ++ rest = chars.drop cursor) :
    Advances chars cursor False [] charsOf nodesStep := by
  apply of_answers hcursor (List.nil_append _).symm hmore
  apply hanswers.mono
  intro nodes rest happend
  exact ⟨charsOf nodes, rfl, happend, False.elim⟩

/-- A step that reads something where a condition holds moves on there. -/
theorem of_value (hcursor : cursor ≤ chars.length)
    (hmore : ∀ extra answer, nodeStep (budget chars) = some answer →
      nodeStep (extra + budget chars) = some answer)
    (hanswers : Answers (nodeStep (budget chars)) fun node rest =>
      Covers [] (chars.drop cursor) node rest ∧ (moves → node.chars ≠ [])) :
    Advances chars cursor moves [] Node.chars nodeStep := by
  apply of_answers hcursor (List.nil_append _).symm hmore
  apply hanswers.mono
  rintro node rest ⟨⟨inside, hnode, hinside⟩, hprogress⟩
  exact ⟨inside, hnode, hinside, fun hmoves => hnode ▸ hprogress hmoves⟩

theorem congr {other : Nat → Option (α × List Char)}
    (hstep : Advances chars cursor moves front view step)
    (hother : ∀ fuel, budget chars ≤ fuel → other fuel = step fuel) :
    Advances chars cursor moves front view other := by
  obtain ⟨value, stop, hsame, hstop⟩ := hstep
  exact ⟨value, stop, fun fuel hfuel => (hother fuel hfuel).trans (hsame fuel hfuel), hstop⟩

end Advances

/-- Each step of the grammar, from each place in a text, stops between this place and the end of the
text, covers what it passed over, and has passed something where a loop relies on it, so that all
loops end. -/
theorem steps_advance (text : String) (cursor : Nat) (hcursor : cursor ≤ text.length) :
    StepsAdvance text.toList cursor := by
  rw [← String.length_toList] at hcursor
  generalize text.toList = chars at hcursor ⊢
  have hcovering := covering (budget chars)
  have hlocality := locality (budget chars)
  have henough : ∀ {count}, count ≤ 8 → 8 * (chars.drop cursor).length + count ≤ budget chars := by
    intro count hcount
    rw [budget, List.length_drop]
    omega
  have hbehind : ∀ {first here count}, chars.drop cursor = first :: here → count ≤ 16 →
      8 * here.length + count ≤ budget chars := by
    intro first here count hhere hcount
    have hlength := henough (Nat.le_refl 8)
    rw [hhere, List.length_cons] at hlength
    omega
  exact {
    markup := fun stops => .of_run hcursor
      (fun extra _ => (hlocality.markup extra stops _).same .refl)
      ((hcovering.markup stops _ (henough (by decide))).mono fun _ _ hnodes => hnodes.append)
    markupNode := fun stops first rest hhere => .of_start hcursor hhere
      (fun extra _ => (hlocality.markupNode extra stops first rest).same .refl)
      (hcovering.markupNode stops first rest (hbehind hhere (by decide)))
    text := fun first rest hhere => .of_token hcursor hhere (text_covers first rest)
    lineComment := fun rest hhere => .of_token hcursor hhere (lineComment_covers rest)
    blockComment := fun rest hhere => .of_token hcursor hhere (blockComment_covers rest)
    escape := fun rest hhere => .of_token hcursor hhere (escape_covers rest)
    raw := fun rest hhere => .of_token hcursor hhere (raw_covers rest)
    math := fun rest hhere => .of_token hcursor hhere (math_covers rest)
    delimited := fun kind marker delimiter stops rest hhere => .of_start hcursor hhere
      (fun extra _ => (hlocality.delimited extra kind marker delimiter stops rest).same .refl)
      (hcovering.delimited kind marker delimiter stops rest (hbehind hhere (by decide)))
    embedded := fun rest hhere => .of_start hcursor hhere
      (fun extra _ => (hlocality.embedded extra rest).same .refl)
      (hcovering.embedded rest (hbehind hhere (by decide)))
    setRule := .of_front hcursor (fun extra _ => (hlocality.setRule extra _).same .refl)
      (hcovering.setRule _ (henough (by decide)))
    letBinding := .of_front hcursor (fun extra _ => (hlocality.letBinding extra _).same .refl)
      (hcovering.letBinding _ (henough (by decide)))
    spaces := .of_run hcursor (fun _ _ => id) (.of_some (spaces_covers _))
    triviaToken := fun token htoken => .of_value hcursor (fun _ _ => id)
      (.of_some ((triviaToken_covers htoken).imp_right fun hfull _ => hfull))
    trivia := (Advances.of_run hcursor (fun _ _ => id) (.of_some (trivia_covers _))).congr
      fun bound hbound => congrArg some (triviaWithin_eq_trivia
        (Nat.le_trans (Nat.le_trans (by omega) (henough (Nat.zero_le 8))) hbound))
    word := fun name => .of_front hcursor (fun _ _ => id) (.of_some ⟨[], by simp, rfl⟩)
    applications := fun node hcall => .of_front hcursor
      (fun extra _ => (hlocality.applications extra node _).same .refl)
      (hcovering.applications node _ hcall (henough (by decide)))
    args := fun rest hhere => .of_start hcursor hhere
      (fun extra _ => (hlocality.args extra rest).same .refl)
      ((hcovering.args rest (hbehind hhere (by decide))).mono fun _ _ hnode => hnode.1)
    arg := .of_value hcursor (fun extra _ => (hlocality.arg extra _).same .refl)
      (hcovering.arg _ (henough (by decide)))
    codeExpr := .of_value hcursor (fun extra _ => (hlocality.codeExpr extra _).same .refl)
      (hcovering.codeExpr _ (henough (by decide)))
    operations := fun left => .of_front hcursor
      (fun extra _ => (hlocality.operations extra left _).same .refl)
      (hcovering.operations left _ (henough (by decide)))
    binaryOperator := fun operator hoperator => .of_value hcursor (fun _ _ => id)
      (.of_some ((binaryOperator_covers hoperator).imp_right fun hfull _ => hfull))
    codeAtom := .of_value hcursor (fun extra _ => (hlocality.codeAtom extra _).same .refl)
      (hcovering.codeAtom _ (henough (by decide)))
    number := .of_front hcursor (fun _ _ => id) (.of_some (number_covers _))
    string := fun rest hhere => .of_token hcursor hhere (string_covers rest)
    contentBlock := fun rest hhere => .of_start hcursor hhere
      (fun extra _ => (hlocality.contentBlock extra rest).same .refl)
      (hcovering.contentBlock rest (hbehind hhere (by decide))) }

theorem steps_advance_argument :
    3 ≤ "#f(x, y)".length ∧ StepsAdvance "#f(x, y)".toList 3 :=
  have hcursor : 3 ≤ "#f(x, y)".length := by decide
  ⟨hcursor, steps_advance "#f(x, y)" 3 hcursor⟩

-- Where no value starts an argument is an empty error, which would keep its loop in place.
example : arg 8 [',', 'y'] = some (error [] "expected expression", [',', 'y']) := by decide

end Galley.Syntax.Grammar
