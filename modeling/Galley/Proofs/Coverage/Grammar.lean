import Galley.Proofs.Coverage.Token
import Galley.Syntax.Grammar

/-!
# The grammar reads every text

With fuel in proportion to the characters in front of it, every step of the
grammar answers, and its node together with the characters behind it is what
the step was given.  One unit of fuel is used up from call to call and eight
are set free by each character, so it is enough that no cycle of calls comes
back without having consumed one.  The constants of `Covering` order the steps
that call each other on the same characters.
-/

namespace Galley.Syntax.Grammar

open Galley.Text Node Token

variable {α β : Type}

/-- A step answers, and the predicate holds of its answer. -/
def Answers (step : Option (α × List Char)) (holds : α → List Char → Prop) : Prop :=
  ∃ value rest, step = some (value, rest) ∧ holds value rest

namespace Answers

variable {holds : α → List Char → Prop}

theorem of_some {answer : α × List Char} (hholds : holds answer.1 answer.2) :
    Answers (some answer) holds :=
  ⟨answer.1, answer.2, rfl, hholds⟩

theorem bind {step : Option (α × List Char)} {holds' : β → List Char → Prop}
    {next : α × List Char → Option (β × List Char)} (hstep : Answers step holds)
    (hnext : ∀ value rest, holds value rest → Answers (next (value, rest)) holds') :
    Answers (step >>= next) holds' := by
  obtain ⟨value, rest, rfl, hholds⟩ := hstep
  exact hnext value rest hholds

theorem map {step : Option (α × List Char)} {holds' : β → List Char → Prop}
    {change : α × List Char → β × List Char} (hstep : Answers step holds)
    (hchange : ∀ value rest, holds value rest →
      holds' (change (value, rest)).1 (change (value, rest)).2) :
    Answers (step.map change) holds' := by
  obtain ⟨value, rest, rfl, hholds⟩ := hstep
  exact of_some (hchange value rest hholds)

theorem mono {step : Option (α × List Char)} {holds' : α → List Char → Prop}
    (hstep : Answers step holds)
    (himplies : ∀ value rest, holds value rest → holds' value rest) : Answers step holds' := by
  obtain ⟨value, rest, hanswer, hholds⟩ := hstep
  exact ⟨value, rest, hanswer, himplies value rest hholds⟩

end Answers

/-! ## Parts of nodes -/

theorem closing_append (kind : Kind) (delimiter : Char) (message : String)
    (chars : List Char) :
    (closing kind delimiter message chars).1.chars ++
      (closing kind delimiter message chars).2 = chars := by
  unfold closing
  split
  · simp
  · split <;> simp

@[simp]
theorem chars_attachHash (node : Node) : (attachHash node).chars = '#' :: node.chars := by
  unfold attachHash
  by_cases hempty : node.children.isEmpty = true
  · simp [hempty]
  · have hchildren : node.children ≠ [] := by simpa using hempty
    simp only [hempty, Bool.false_eq_true, if_false]
    rw [chars_of_children (List.cons_ne_nil _ _), chars_of_children hchildren]
    simp

/-- Every call has the function among its children. -/
def CallsHaveChildren (node : Node) : Prop :=
  node.kind = .funcCall → node.children ≠ []

theorem chars_applyBlock {node : Node} (hcall : CallsHaveChildren node) (block : Node) :
    (applyBlock node block).chars = node.chars ++ block.chars := by
  rw [applyBlock]
  split
  · rename_i hkind
    rw [chars_of_children (hcall hkind), chars_of_children (by simp)]
    simp
  · simp

/-- What takes a content block is a call. -/
theorem called_applyBlock (node block : Node) :
    (applyBlock node block).kind = .funcCall ∧ (applyBlock node block).children ≠ [] := by
  rw [applyBlock]
  split
  · rename_i hcall
    exact ⟨hcall, by simp⟩
  · exact ⟨rfl, List.cons_ne_nil _ _⟩

theorem callsHaveChildren_applyBlock (node block : Node) :
    CallsHaveChildren (applyBlock node block) :=
  fun _ => (called_applyBlock node block).2

theorem callsHaveChildren_word (chars : List Char) : CallsHaveChildren (word chars) := by
  rw [word]
  split_ifs <;> simp [CallsHaveChildren, leaf]

/-- A run of markup covers what it passed over, every node of it something, and
it goes on up to a stop character or the end. -/
structure CoversRun (stops chars : List Char) (nodes : List Node) (rest : List Char) :
    Prop where
  append : charsOf nodes ++ rest = chars
  full : ∀ node ∈ nodes, node.chars ≠ []
  stopped : ∀ c after, rest = c :: after → stops.contains c = true

/-- The characters start with one that begins an argument. -/
def StartsValue (chars : List Char) : Prop :=
  ∃ c rest, chars = c :: rest ∧ isSpace c = false ∧ c ≠ ')' ∧ c ≠ ',' ∧ c ≠ ']'

/-- A value covers what it passed over, and something where a value begins. -/
def CoversValue (chars : List Char) (node : Node) (rest : List Char) : Prop :=
  Covers [] chars node rest ∧ (StartsValue chars → node.chars ≠ [])

/-- What every step does with enough fuel. -/
structure Covering (fuel : Nat) : Prop where
  markup : ∀ stops chars, 8 * chars.length + 2 ≤ fuel →
    Answers (Grammar.markup fuel stops chars) (CoversRun stops chars)
  markupNode : ∀ stops first chars, 8 * chars.length + 9 ≤ fuel →
    Answers (Grammar.markupNode fuel stops first chars) (Covers [first] chars)
  delimited : ∀ kind marker delimiter stops chars, 8 * chars.length + 3 ≤ fuel →
    Answers (Grammar.delimited fuel kind marker delimiter stops chars)
      (Covers [delimiter] chars)
  embedded : ∀ chars, 8 * chars.length + 1 ≤ fuel →
    Answers (Grammar.embedded fuel chars) (Covers ['#'] chars)
  setRule : ∀ chars, 8 * chars.length + 1 ≤ fuel →
    Answers (Grammar.setRule fuel chars) (Covers ['s', 'e', 't'] chars)
  letBinding : ∀ chars, 8 * chars.length + 1 ≤ fuel →
    Answers (Grammar.letBinding fuel chars) (Covers ['l', 'e', 't'] chars)
  applications : ∀ node chars, CallsHaveChildren node → 8 * chars.length + 1 ≤ fuel →
    Answers (Grammar.applications fuel node chars) (Covers node.chars chars)
  args : ∀ chars, 8 * chars.length + 6 ≤ fuel →
    Answers (Grammar.args fuel chars) fun node rest =>
      Covers ['('] chars node rest ∧ CallsHaveChildren node
  argItems : ∀ chars, nextIs isSpace chars = false → 8 * chars.length + 5 ≤ fuel →
    Answers (Grammar.argItems fuel chars) fun nodes rest => charsOf nodes ++ rest = chars
  arg : ∀ chars, 8 * chars.length + 4 ≤ fuel →
    Answers (Grammar.arg fuel chars) (CoversValue chars)
  codeExpr : ∀ chars, 8 * chars.length + 3 ≤ fuel →
    Answers (Grammar.codeExpr fuel chars) (CoversValue chars)
  operations : ∀ left chars, 8 * chars.length + 2 ≤ fuel →
    Answers (Grammar.operations fuel left chars) (Covers left.chars chars)
  codeAtom : ∀ chars, 8 * chars.length + 1 ≤ fuel →
    Answers (Grammar.codeAtom fuel chars) (CoversValue chars)
  contentBlock : ∀ chars, 8 * chars.length + 3 ≤ fuel →
    Answers (Grammar.contentBlock fuel chars) (Covers ['['] chars)

theorem length_rest {consumed rest chars : List Char} (happend : consumed ++ rest = chars) :
    consumed.length + rest.length = chars.length := by
  rw [← happend, List.length_append]

namespace Covering

variable {fuel : Nat}

theorem markup_succ (hsteps : Covering fuel) (stops chars : List Char)
    (hfuel : 8 * chars.length + 2 ≤ fuel + 1) :
    Answers (Grammar.markup (fuel + 1) stops chars) (CoversRun stops chars) := by
  cases chars with
  | nil => exact .of_some ⟨rfl, by simp, by simp⟩
  | cons c chars =>
    rw [List.length_cons] at hfuel
    rw [Grammar.markup]
    split
    · rename_i hstop
      refine .of_some ⟨rfl, by simp, ?_⟩
      rintro first after hfirst
      obtain ⟨rfl, -⟩ := List.cons.inj hfirst
      exact hstop
    · apply (hsteps.markupNode stops c chars (by omega)).bind
      intro node rest hnode
      have hlength := hnode.length_le
      apply (hsteps.markup stops rest (by omega)).bind
      intro nodes after hnodes
      refine .of_some ⟨?_, ?_, hnodes.stopped⟩
      · rw [charsOf_cons, List.append_assoc, hnodes.append]
        exact hnode.chars_append
      · simpa using ⟨hnode.chars_ne_nil (by simp), hnodes.full⟩

theorem markupNode_succ (hsteps : Covering fuel) (stops : List Char) (first : Char)
    (chars : List Char) (hfuel : 8 * chars.length + 9 ≤ fuel + 1) :
    Answers (Grammar.markupNode (fuel + 1) stops first chars) (Covers [first] chars) := by
  rw [Grammar.markupNode]
  split_ifs with hspace hline hblock hescape hraw hmath hstrong hemph hhash hbracket
  · exact .of_some (blank_covers hspace chars)
  · obtain ⟨rfl, hnext⟩ : first = '/' ∧ nextIs (· == '/') chars = true := by simpa using hline
    obtain ⟨rest, rfl⟩ := nextIs_eq hnext
    have hcovers := lineComment_covers rest
    exact .of_some (hcovers.shift ['/'] ['/'])
  · obtain ⟨rfl, hnext⟩ : first = '/' ∧ nextIs (· == '*') chars = true := by simpa using hblock
    obtain ⟨rest, rfl⟩ := nextIs_eq hnext
    have hcovers := blockComment_covers rest
    exact .of_some (hcovers.shift ['/'] ['*'])
  · subst hescape
    exact .of_some (escape_covers chars)
  · subst hraw
    exact .of_some (raw_covers chars)
  · subst hmath
    exact .of_some (math_covers chars)
  · subst hstrong
    exact hsteps.delimited .strong .star '*' stops chars (by omega)
  · subst hemph
    exact hsteps.delimited .emph .underscore '_' stops chars (by omega)
  · subst hhash
    exact hsteps.embedded chars (by omega)
  · subst hbracket
    exact .of_some ⟨[], by simp, rfl⟩
  · exact .of_some (text_covers first chars)

theorem delimited_succ (hsteps : Covering fuel) (kind marker : Kind) (delimiter : Char)
    (stops chars : List Char) (hfuel : 8 * chars.length + 3 ≤ fuel + 1) :
    Answers (Grammar.delimited (fuel + 1) kind marker delimiter stops chars)
      (Covers [delimiter] chars) := by
  rw [Grammar.delimited]
  apply (hsteps.markup (delimiter :: stops) chars (by omega)).bind
  intro nodes rest hnodes
  dsimp only
  have hclose := closing_append marker delimiter ("unclosed " ++ kind.name) rest
  generalize closing marker delimiter ("unclosed " ++ kind.name) rest = close at hclose ⊢
  refine .of_some ⟨charsOf nodes ++ close.1.chars, by simp, ?_⟩
  rw [List.append_assoc, hclose, hnodes.append]

theorem embedded_succ (hsteps : Covering fuel) (chars : List Char)
    (hfuel : 8 * chars.length + 1 ≤ fuel + 1) :
    Answers (Grammar.embedded (fuel + 1) chars) (Covers ['#'] chars) := by
  rw [Grammar.embedded]
  split
  · rename_i hstarts
    have hname := name_append chars
    have hpos := List.length_pos_iff.2 (name_ne_nil hstarts)
    have hlength := length_rest hname
    -- Each of the three readings starts with the name that is already known.
    have hnode : Answers
        (if (name chars).1 = ['s', 'e', 't'] then Grammar.setRule fuel (name chars).2
          else if (name chars).1 = ['l', 'e', 't'] then Grammar.letBinding fuel (name chars).2
          else Grammar.applications fuel (word (name chars).1) (name chars).2)
        (Covers (name chars).1 (name chars).2) := by
      split_ifs with hset hlet
      · rw [hset]
        exact hsteps.setRule _ (by omega)
      · rw [hlet]
        exact hsteps.letBinding _ (by omega)
      · simpa using hsteps.applications (word (name chars).1) (name chars).2
          (callsHaveChildren_word _) (by omega)
    apply hnode.map
    intro node rest hcovers
    refine ⟨node.chars, by simp, ?_⟩
    rw [hcovers.chars_append, hname]
  · exact .of_some ⟨[], by simp, rfl⟩

theorem setRule_succ (hsteps : Covering fuel) (chars : List Char)
    (hfuel : 8 * chars.length + 1 ≤ fuel + 1) :
    Answers (Grammar.setRule (fuel + 1) chars) (Covers ['s', 'e', 't'] chars) := by
  have hgap := spaces_covers chars
  have hshorter := length_rest hgap
  rw [Grammar.setRule]
  generalize spaces chars = gap at hgap hshorter ⊢
  dsimp only
  split
  · rename_i hstarts
    have hname := name_append gap.2
    have hpos := List.length_pos_iff.2 (name_ne_nil hstarts)
    have hlength := length_rest hname
    generalize name gap.2 = target at hname hpos hlength ⊢
    obtain ⟨target, behind⟩ := target
    dsimp only at hname hpos hlength ⊢
    split
    · rename_i rest
      rw [List.length_cons] at hlength
      apply (hsteps.args rest (by omega)).bind
      rintro arguments after ⟨hcovers, -⟩
      refine .of_some ⟨charsOf gap.1 ++ (target ++ arguments.chars), by simp, ?_⟩
      rw [List.append_assoc, List.append_assoc, hcovers.chars_append]
      simpa [hname] using hgap
    · exact .of_some ⟨charsOf gap.1 ++ target, by simp, by simp [hname, hgap]⟩
  · exact .of_some ⟨charsOf gap.1, by simp, hgap⟩

theorem letBinding_succ (hsteps : Covering fuel) (chars : List Char)
    (hfuel : 8 * chars.length + 1 ≤ fuel + 1) :
    Answers (Grammar.letBinding (fuel + 1) chars) (Covers ['l', 'e', 't'] chars) := by
  have hgap := spaces_covers chars
  have hshorter := length_rest hgap
  rw [Grammar.letBinding]
  generalize spaces chars = gap at hgap hshorter ⊢
  dsimp only
  split
  · rename_i hstarts
    have hname := name_append gap.2
    have hpos := List.length_pos_iff.2 (name_ne_nil hstarts)
    have hlength := length_rest hname
    generalize name gap.2 = bound at hname hpos hlength ⊢
    obtain ⟨bound, afterName⟩ := bound
    dsimp only at hname hpos hlength ⊢
    have hbefore := spaces_covers afterName
    generalize spaces afterName = before at hbefore ⊢
    obtain ⟨before, behind⟩ := before
    dsimp only at hbefore ⊢
    -- Without a value the spaces behind the name are left where they are.
    have hbare : Covers ['l', 'e', 't'] chars
        (inner .letBinding (leaf .letWord ['l', 'e', 't'] :: gap.1 ++ [leaf .ident bound]))
        afterName :=
      ⟨charsOf gap.1 ++ bound, by simp, by simp [hname, hgap]⟩
    split
    · rename_i rest
      split
      · exact .of_some hbare
      · have hspaces := spaces_covers rest
        have hbehind := length_rest hbefore
        have hrest := length_rest hspaces
        rw [List.length_cons] at hbehind
        apply (hsteps.codeAtom (spaces rest).2 (by omega)).bind
        rintro value after ⟨hvalue, -⟩
        refine .of_some ⟨charsOf gap.1 ++ (bound ++ (charsOf before ++
          ('=' :: (charsOf (spaces rest).1 ++ value.chars)))), by simp, ?_⟩
        have happend := hvalue.chars_append
        rw [List.nil_append] at happend
        simp [happend, hspaces, hbefore, hname, hgap]
    · exact .of_some hbare
  · exact .of_some ⟨charsOf gap.1, by simp, hgap⟩

theorem applications_succ (hsteps : Covering fuel) (node : Node) (chars : List Char)
    (hcall : CallsHaveChildren node) (hfuel : 8 * chars.length + 1 ≤ fuel + 1) :
    Answers (Grammar.applications (fuel + 1) node chars) (Covers node.chars chars) := by
  unfold Grammar.applications
  split
  · rename_i rest
    rw [List.length_cons] at hfuel
    apply (hsteps.args rest (by omega)).bind
    rintro arguments after ⟨⟨inside, harguments, rfl⟩, -⟩
    rw [List.length_append] at hfuel
    apply (hsteps.applications _ after (by simp [CallsHaveChildren, Node.inner]) (by omega)).mono
    rintro applied last ⟨behind, happlied, rfl⟩
    exact ⟨'(' :: (inside ++ behind), by simp [happlied, harguments], by simp⟩
  · rename_i rest
    rw [List.length_cons] at hfuel
    apply (hsteps.contentBlock rest (by omega)).bind
    rintro block after ⟨inside, hblock, rfl⟩
    rw [List.length_append] at hfuel
    apply (hsteps.applications _ after (callsHaveChildren_applyBlock node block)
      (by omega)).mono
    rintro applied last ⟨behind, happlied, rfl⟩
    exact ⟨'[' :: (inside ++ behind), by
      simp [happlied, chars_applyBlock hcall, hblock], by simp⟩
  · exact .of_some ⟨[], by simp, rfl⟩

theorem args_succ (hsteps : Covering fuel) (chars : List Char)
    (hfuel : 8 * chars.length + 6 ≤ fuel + 1) :
    Answers (Grammar.args (fuel + 1) chars) fun node rest =>
      Covers ['('] chars node rest ∧ CallsHaveChildren node := by
  have hgap := trivia_covers chars
  have hlength := length_rest hgap
  have hspace := nextIs_isSpace_trivia chars
  rw [Grammar.args]
  generalize trivia chars = gap at hgap hlength hspace ⊢
  apply (hsteps.argItems gap.2 hspace (by omega)).bind
  intro items rest hitems
  refine .of_some ⟨⟨charsOf gap.1 ++ charsOf items, by simp, ?_⟩, ?_⟩
  · rw [List.append_assoc, hitems, hgap]
  · simp [CallsHaveChildren, Node.inner]

theorem argItems_succ (hsteps : Covering fuel) (chars : List Char)
    (hspace : nextIs isSpace chars = false) (hfuel : 8 * chars.length + 5 ≤ fuel + 1) :
    Answers (Grammar.argItems (fuel + 1) chars) fun nodes rest =>
      charsOf nodes ++ rest = chars := by
  cases chars with
  | nil => exact .of_some rfl
  | cons c after =>
    rw [List.length_cons] at hfuel
    rw [Grammar.argItems]
    split_ifs with hbracket hparen hcomma
    · exact .of_some rfl
    · exact .of_some (by simp [hparen])
    · have hgap := trivia_covers after
      have hlength := length_rest hgap
      have hstop := nextIs_isSpace_trivia after
      generalize trivia after = gap at hgap hlength hstop ⊢
      apply (hsteps.argItems gap.2 hstop (by omega)).bind
      intro items rest hitems
      exact .of_some (by simp [hitems, hgap, hcomma])
    · have hvalue : StartsValue (c :: after) :=
        ⟨c, after, rfl, hspace, hparen, hcomma, hbracket⟩
      apply (hsteps.arg (c :: after) (by rw [List.length_cons]; omega)).bind
      rintro item behind ⟨hitem, hprogress⟩
      have hpos := List.length_pos_iff.2 (hprogress hvalue)
      have happend := hitem.chars_append
      have hshorter := length_rest happend
      have hgap := trivia_covers behind
      have hlength := length_rest hgap
      have hstop := nextIs_isSpace_trivia behind
      rw [List.nil_append, List.length_cons] at hshorter
      dsimp only
      generalize trivia behind = gap at hgap hlength hstop ⊢
      apply (hsteps.argItems gap.2 hstop (by omega)).bind
      intro items rest hitems
      rw [List.nil_append] at happend
      exact .of_some (by simp [hitems, hgap, happend])

theorem arg_succ (hsteps : Covering fuel) (chars : List Char)
    (hfuel : 8 * chars.length + 4 ≤ fuel + 1) :
    Answers (Grammar.arg (fuel + 1) chars) (CoversValue chars) := by
  rw [Grammar.arg]
  split
  · rename_i hstarts
    have hname := name_append chars
    have hfull := name_ne_nil hstarts
    have hlength := length_rest hname
    generalize name chars = key at hname hfull hlength ⊢
    obtain ⟨key, behind⟩ := key
    dsimp only at hname hfull hlength ⊢
    split
    · rename_i rest
      have hgap := trivia_covers rest
      have hshorter := length_rest hgap
      rw [List.length_cons] at hlength
      generalize trivia rest = gap at hgap hshorter ⊢
      obtain ⟨gap, after⟩ := gap
      dsimp only at hgap hshorter ⊢
      apply (hsteps.codeExpr after (by omega)).bind
      rintro value last ⟨hvalue, -⟩
      have happend := hvalue.chars_append
      rw [List.nil_append] at happend
      refine .of_some ⟨.of_append ?_, by simp [hfull]⟩
      simpa [happend, hgap] using hname
    · exact hsteps.codeExpr chars (by omega)
  · exact hsteps.codeExpr chars (by omega)

theorem codeExpr_succ (hsteps : Covering fuel) (chars : List Char)
    (hfuel : 8 * chars.length + 3 ≤ fuel + 1) :
    Answers (Grammar.codeExpr (fuel + 1) chars) (CoversValue chars) := by
  rw [Grammar.codeExpr]
  apply (hsteps.codeAtom chars (by omega)).bind
  rintro left rest ⟨hleft, hprogress⟩
  have hlength := hleft.length_le
  apply (hsteps.operations left rest (by omega)).mono
  rintro node last ⟨behind, hnode, rfl⟩
  refine ⟨.of_append ?_, ?_⟩
  · rw [hnode, List.append_assoc]
    exact hleft.chars_append
  · intro hvalue
    rw [hnode]
    exact List.append_ne_nil_of_left_ne_nil (hprogress hvalue) behind

theorem operations_succ (hsteps : Covering fuel) (left : Node) (chars : List Char)
    (hfuel : 8 * chars.length + 2 ≤ fuel + 1) :
    Answers (Grammar.operations (fuel + 1) left chars) (Covers left.chars chars) := by
  have hbefore := trivia_covers chars
  have hlength := length_rest hbefore
  rw [Grammar.operations]
  generalize trivia chars = before at hbefore hlength ⊢
  obtain ⟨before, rest⟩ := before
  dsimp only at hbefore hlength ⊢
  split
  · exact .of_some ⟨[], by simp, rfl⟩
  · rename_i operator after hoperator
    obtain ⟨hcovers, hfull⟩ := binaryOperator_covers hoperator
    have hpos := List.length_pos_iff.2 hfull
    have hshorter := length_rest hcovers.chars_append
    have hbehind := trivia_covers after
    have hrest := length_rest hbehind
    rw [List.nil_append] at hshorter
    generalize trivia after = behind at hbehind hrest ⊢
    obtain ⟨behind, start⟩ := behind
    dsimp only at hbehind hrest ⊢
    apply (hsteps.codeAtom start (by omega)).bind
    rintro right last ⟨hright, -⟩
    have hlast := hright.length_le
    apply (hsteps.operations _ last (by omega)).mono
    rintro node final ⟨inside, hnode, rfl⟩
    have happend := hright.chars_append
    have hoperands := hcovers.chars_append
    rw [List.nil_append] at happend hoperands
    refine ⟨charsOf before ++ (operator.chars ++ (charsOf behind ++
      (right.chars ++ inside))), by simp [hnode], ?_⟩
    simp [happend, hbehind, hoperands, hbefore]

theorem codeAtom_succ (hsteps : Covering fuel) (chars : List Char)
    (hfuel : 8 * chars.length + 1 ≤ fuel + 1) :
    Answers (Grammar.codeAtom (fuel + 1) chars) (CoversValue chars) := by
  unfold Grammar.codeAtom
  split
  · exact .of_some ⟨.of_append rfl, by simp [StartsValue]⟩
  · rename_i c rest
    rw [List.length_cons] at hfuel
    split_ifs with hname hnumber hquote hbracket hparen hstop
    · have hstarts : nextIs startsName (c :: rest) = true := hname
      have happend := name_append (c :: rest)
      have hfull := name_ne_nil hstarts
      have hpos := List.length_pos_iff.2 hfull
      have hlength := length_rest happend
      rw [List.length_cons] at hlength
      apply (hsteps.applications (word (name (c :: rest)).1) (name (c :: rest)).2
        (callsHaveChildren_word _) (by omega)).mono
      rintro node last hcovers
      rw [chars_word] at hcovers
      exact ⟨.of_append (hcovers.chars_append.trans happend),
        fun _ => hcovers.chars_ne_nil hfull⟩
    · have hdigits : isAsciiDigit c = true ∨ c = '-' := by
        simp only [Bool.or_eq_true, Bool.and_eq_true, decide_eq_true_eq] at hnumber
        exact hnumber.imp_right And.left
      exact .of_some ⟨number_covers (c :: rest), fun _ => number_ne_nil hdigits rest⟩
    · subst hquote
      have hcovers := string_covers rest
      exact .of_some ⟨hcovers.shift [] ['"'], fun _ =>
        hcovers.chars_ne_nil (by simp)⟩
    · subst hbracket
      apply (hsteps.contentBlock rest (by omega)).mono
      intro node last hcovers
      exact ⟨hcovers.shift [] ['['], fun _ =>
        hcovers.chars_ne_nil (by simp)⟩
    · subst hparen
      apply (hsteps.args rest (by omega)).bind
      rintro group after ⟨hgroup, hcall⟩
      have hlength := hgroup.length_le
      apply (hsteps.applications group after hcall (by omega)).mono
      rintro node last ⟨behind, hnode, rfl⟩
      have hfull := hgroup.chars_ne_nil (by simp)
      refine ⟨.of_append ?_, fun _ => ?_⟩
      · rw [hnode, List.append_assoc]
        exact hgroup.chars_append
      · rw [hnode]
        exact List.append_ne_nil_of_left_ne_nil hfull behind
    · refine .of_some ⟨.of_append rfl, ?_⟩
      rintro ⟨first, after, hchars, hspace, hparen, hcomma, hclosing⟩
      obtain ⟨rfl, rfl⟩ := List.cons.inj hchars
      simp [hspace, hparen, hcomma, hclosing] at hstop
    · exact .of_some ⟨.of_append (by simp), by simp⟩

theorem contentBlock_succ (hsteps : Covering fuel) (chars : List Char)
    (hfuel : 8 * chars.length + 3 ≤ fuel + 1) :
    Answers (Grammar.contentBlock (fuel + 1) chars) (Covers ['['] chars) := by
  rw [Grammar.contentBlock]
  apply (hsteps.markup [']'] chars (by omega)).bind
  intro nodes rest hnodes
  have hclose := closing_append .rightBracket ']' "unclosed delimiter" rest
  dsimp only
  generalize closing .rightBracket ']' "unclosed delimiter" rest = close at hclose ⊢
  refine .of_some ⟨charsOf nodes ++ close.1.chars, by simp, ?_⟩
  rw [List.append_assoc, hclose, hnodes.append]

end Covering

/-- Every step answers with enough fuel, by induction on it: a step uses up one
unit and calls others with what is left. -/
theorem covering (fuel : Nat) : Covering fuel := by
  induction fuel with
  | zero =>
    constructor <;> intros <;> omega
  | succ fuel ih =>
    exact {
      markup := ih.markup_succ
      markupNode := ih.markupNode_succ
      delimited := ih.delimited_succ
      embedded := ih.embedded_succ
      setRule := ih.setRule_succ
      letBinding := ih.letBinding_succ
      applications := ih.applications_succ
      args := ih.args_succ
      argItems := ih.argItems_succ
      arg := ih.arg_succ
      codeExpr := ih.codeExpr_succ
      operations := ih.operations_succ
      codeAtom := ih.codeAtom_succ
      contentBlock := ih.contentBlock_succ }

end Galley.Syntax.Grammar
