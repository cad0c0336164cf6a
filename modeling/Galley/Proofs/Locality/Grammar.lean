import Galley.Proofs.Coverage.Grammar
import Galley.Proofs.Locality.Token

/-!
# The grammar is local

Every step of the grammar answers the same in front of alike continuations, and
more fuel does not change what it answers.  Markup has to look past blanks for
the value of a binding; what ends in front of a closing delimiter looks no
further than near continuations agree.  An expression looks past trivia for
an operator and goes back if there is none, so the continuations it cannot tell
apart are those with the same trivia and alike text behind them.
-/

namespace Galley.Syntax

open Galley.Text Node Token

variable {α β : Type}

/-- Continuations with the same trivia and alike text behind them. -/
structure AlikeBehindTrivia (left right : List Char) : Prop where
  gap : (trivia left).1 = (trivia right).1
  behind : Alike (trivia left).2 (trivia right).2

theorem AlikeBehindTrivia.alike {left right : List Char}
    (halike : AlikeBehindTrivia left right) : Alike left right := by
  rw [← trivia_covers left, ← trivia_covers right, halike.gap]
  exact halike.behind.append _

theorem AlikeBehindTrivia.refl (chars : List Char) : AlikeBehindTrivia chars chars :=
  ⟨rfl, .refl _⟩

theorem AlikeBehindTrivia.near_append {left right : List Char} (consumed : List Char)
    (halike : AlikeBehindTrivia left right) : Near (consumed ++ left) (consumed ++ right) :=
  halike.alike.near_append consumed

/-- A token with a step behind it. -/
theorem LocalToken.andThenAt {alike : List Char → List Char → Prop}
    {token : List Char → α × List Char} (next next' : α → List Char → Option (β × List Char))
    (htoken : LocalToken token)
    (hnear : ∀ {left right} consumed, alike left right →
      Near (consumed ++ left) (consumed ++ right))
    {chars : List Char}
    (hnext : LocalAt alike (next (token chars).1) (next' (token chars).1) (token chars).2) :
    LocalAt alike (fun chars => next (token chars).1 (token chars).2)
      (fun chars => next' (token chars).1 (token chars).2) chars := by
  apply (htoken chars).bindAt hnear
  intro value rest hrest
  obtain ⟨rfl, rfl⟩ := Prod.mk.inj (Option.some.inj hrest)
  exact hnext

theorem LocalToken.andThen {alike : List Char → List Char → Prop}
    {token : List Char → α × List Char} {next next' : α → List Char → Option (β × List Char)}
    (htoken : LocalToken token)
    (hnear : ∀ {left right} consumed, alike left right →
      Near (consumed ++ left) (consumed ++ right))
    (hnext : ∀ value, Local alike (next value) (next' value)) :
    Local alike (fun chars => next (token chars).1 (token chars).2)
      fun chars => next' (token chars).1 (token chars).2 :=
  fun chars => htoken.andThenAt next next' hnear (hnext (token chars).1 (token chars).2)

/-- A step that is asked to look past trivia is local once they are read, and
no blank follows them. -/
theorem LocalAt.trivia {step step' : List Char → Option (α × List Char)} {chars : List Char}
    (hstep : LocalAt AlikeBehindTrivia step step' chars) :
    LocalAt Near
      (fun chars => step chars >>= fun (value, rest) =>
        some ((value, (Token.trivia rest).1), (Token.trivia rest).2))
      (fun chars => step' chars >>= fun (value, rest) =>
        some ((value, (Token.trivia rest).1), (Token.trivia rest).2)) chars := by
  intro found last hfound
  obtain ⟨⟨value, rest⟩, hvalue, hlast⟩ := Option.bind_eq_some_iff.1 hfound
  obtain ⟨rfl, rfl⟩ := Prod.mk.inj (Option.some.inj hlast)
  obtain ⟨front, rfl, hfront⟩ := hstep value rest hvalue
  obtain ⟨gap, hgap, hrepeat⟩ := localToken_trivia.at rest
  refine ⟨front ++ gap, by rw [List.append_assoc, ← hgap], ?_⟩
  intro rest' hnear
  have htrivia := hrepeat rest' hnear
  have hrest : AlikeBehindTrivia rest (gap ++ rest') := by
    constructor
    · rw [htrivia]
    · rw [htrivia]
      exact hnear.alike (nextIs_isBlank_of_not_isSpace (nextIs_isSpace_trivia rest))
  dsimp only
  rw [List.append_assoc, hfront _ hrest]
  dsimp only [Option.bind_eq_bind, Option.bind_some]
  rw [htrivia]

namespace Grammar

theorem localToken_closing (kind : Kind) (delimiter : Char) (message : String) :
    LocalToken (closing kind delimiter message) := by
  intro chars
  cases chars with
  | nil => exact .whole id rfl rfl
  | cons c rest =>
    by_cases hclose : c = delimiter
    · apply LocalAt.of_token [c] (leaf kind [c])
      · exact if_pos hclose
      · intro rest' _
        exact if_pos hclose
    · apply LocalAt.of_token [] (error [] message)
      · exact if_neg hclose
      · intro rest' hnear
        obtain ⟨after, rfl, -⟩ := hnear.exists_cons
        exact if_neg hclose

/-- What every step answers with some fuel, it answers with more, and in front
of every continuation that it cannot tell apart. -/
structure Locality (fuel : Nat) : Prop where
  markup : ∀ extra stops,
    Local Alike (Grammar.markup fuel stops) (Grammar.markup (extra + fuel) stops)
  markupNode : ∀ extra stops first,
    Local Alike (Grammar.markupNode fuel stops first)
      (Grammar.markupNode (extra + fuel) stops first)
  delimited : ∀ extra kind marker delimiter stops,
    Local Alike (Grammar.delimited fuel kind marker delimiter stops)
      (Grammar.delimited (extra + fuel) kind marker delimiter stops)
  embedded : ∀ extra,
    Local Alike (Grammar.embedded fuel) (Grammar.embedded (extra + fuel))
  setRule : ∀ extra,
    Local Near (Grammar.setRule fuel) (Grammar.setRule (extra + fuel))
  letBinding : ∀ extra,
    Local Alike (Grammar.letBinding fuel) (Grammar.letBinding (extra + fuel))
  applications : ∀ extra node,
    Local Near (Grammar.applications fuel node) (Grammar.applications (extra + fuel) node)
  args : ∀ extra, Local Near (Grammar.args fuel) (Grammar.args (extra + fuel))
  argItems : ∀ extra,
    Local Near (Grammar.argItems fuel) (Grammar.argItems (extra + fuel))
  arg : ∀ extra,
    Local AlikeBehindTrivia (Grammar.arg fuel) (Grammar.arg (extra + fuel))
  codeExpr : ∀ extra,
    Local AlikeBehindTrivia (Grammar.codeExpr fuel) (Grammar.codeExpr (extra + fuel))
  operations : ∀ extra left,
    Local AlikeBehindTrivia (Grammar.operations fuel left) (Grammar.operations (extra + fuel) left)
  codeAtom : ∀ extra,
    Local Near (Grammar.codeAtom fuel) (Grammar.codeAtom (extra + fuel))
  contentBlock : ∀ extra,
    Local Near (Grammar.contentBlock fuel) (Grammar.contentBlock (extra + fuel))
  atomName : ∀ {chars node rest}, nextIs startsName chars = true →
    Grammar.codeAtom fuel chars = some (node, rest) →
      ∃ inside, (name chars).2 = inside ++ rest
  exprName : ∀ {chars node rest}, nextIs startsName chars = true →
    Grammar.codeExpr fuel chars = some (node, rest) →
      ∃ inside, (name chars).2 = inside ++ rest

namespace Locality

variable {fuel : Nat}

/-- Up to delimiters that are no blanks markup looks past none. -/
theorem nextIs_isBlank_of_markup (hsteps : Locality fuel) {stops chars rest : List Char}
    {nodes : List Node} (hstops : ∀ c ∈ stops, isBlank c = false)
    (hmarkup : Grammar.markup fuel stops chars = some (nodes, rest)) :
    nextIs isBlank rest = false := by
  have hmore := (hsteps.markup (8 * chars.length + 2) stops chars).same .refl hmarkup
  obtain ⟨nodes', rest', hanswer, hcovers⟩ :=
    (covering _).markup stops chars (Nat.le_add_right _ fuel)
  obtain ⟨rfl, rfl⟩ := Prod.mk.inj (Option.some.inj (hmore.symm.trans hanswer))
  cases rest with
  | nil => rfl
  | cons c after => exact hstops c (List.contains_iff_mem.1 (hcovers.stopped c after rfl))

theorem markup_succ (hsteps : Locality fuel) (extra : Nat) (stops : List Char) :
    Local Alike (Grammar.markup (fuel + 1) stops) (Grammar.markup (extra + fuel + 1) stops) := by
  intro chars
  cases chars with
  | nil => exact .whole Alike.toNear rfl rfl
  | cons c chars =>
    by_cases hstop : stops.contains c = true
    · apply LocalAt.stay
      · rw [Grammar.markup, if_pos hstop]
      · intro chars' halike
        obtain ⟨rest, rfl, -⟩ := halike.exists_cons
        rw [Grammar.markup, if_pos hstop]
    · have hnodes := (hsteps.markupNode extra stops c chars).bind Alike.append fun node rest =>
        (hsteps.markup extra stops rest).bind Alike.append fun nodes => Local.pure (node :: nodes)
      refine hnodes.cons ?_ ?_
      · rw [Grammar.markup, if_neg hstop]
        rfl
      · intro _ _ _ _ _
        rw [Grammar.markup, if_neg hstop]
        rfl

/-- A markup node is as local as its parts between delimiters and behind a hash. -/
theorem local_markupNode {alike : List Char → List Char → Prop} {extra : Nat} {first : Char}
    {stops chars : List Char} (hnear : ∀ {left right}, alike left right → Near left right)
    (hdelimited : ∀ kind marker delimiter, isBlank delimiter = false →
      LocalAt alike (Grammar.delimited fuel kind marker delimiter stops)
        (Grammar.delimited (extra + fuel) kind marker delimiter stops) chars)
    (hembedded : first = '#' →
      LocalAt alike (Grammar.embedded fuel) (Grammar.embedded (extra + fuel)) chars) :
    LocalAt alike (Grammar.markupNode (fuel + 1) stops first)
      (Grammar.markupNode (extra + fuel + 1) stops first) chars := by
  intro node rest hnode
  rw [Grammar.markupNode] at hnode
  split_ifs at hnode with hspace hline hblock hescape hraw hmath hstrong hemph hhash hbracket
  · obtain ⟨consumed, rfl, hrepeat⟩ := localToken_blank hspace chars node rest hnode
    refine ⟨consumed, rfl, ?_⟩
    intro rest' halike
    rw [Grammar.markupNode, if_pos hspace]
    exact hrepeat rest' (hnear halike)
  · obtain ⟨rfl, hnext⟩ : first = '/' ∧ nextIs (· == '/') chars = true := by simpa using hline
    obtain ⟨behind, rfl⟩ := nextIs_eq hnext
    have hcomment : LocalAt Near (Grammar.markupNode (fuel + 1) stops '/')
        (Grammar.markupNode (extra + fuel + 1) stops '/') ('/' :: behind) :=
      (localToken_lineComment behind).cons rfl fun _ _ _ _ _ => rfl
    exact hcomment.mono hnear node rest hnode
  · obtain ⟨rfl, hnext⟩ : first = '/' ∧ nextIs (· == '*') chars = true := by simpa using hblock
    obtain ⟨behind, rfl⟩ := nextIs_eq hnext
    have hcomment : LocalAt Near (Grammar.markupNode (fuel + 1) stops '/')
        (Grammar.markupNode (extra + fuel + 1) stops '/') ('*' :: behind) :=
      (localToken_blockComment behind).cons rfl fun _ _ _ _ _ => rfl
    exact hcomment.mono hnear node rest hnode
  · subst hescape
    exact (localToken_escape chars).mono hnear node rest hnode
  · subst hraw
    exact (localToken_raw chars).mono hnear node rest hnode
  · subst hmath
    exact (localToken_math chars).mono hnear node rest hnode
  · subst hstrong
    exact hdelimited .strong .star '*' rfl node rest hnode
  · subst hemph
    exact hdelimited .emph .underscore '_' rfl node rest hnode
  · subst hhash
    exact hembedded rfl node rest hnode
  · subst hbracket
    exact Local.pure (error [']'] "unexpected closing bracket") chars node rest hnode
  · obtain ⟨consumed, rfl, hrepeat⟩ := localToken_text first chars node rest hnode
    refine ⟨consumed, rfl, ?_⟩
    intro rest' halike
    rw [((hnear halike).append consumed).nextIs_eq] at hline hblock
    rw [Grammar.markupNode, if_neg hspace, if_neg hline, if_neg hblock, if_neg hescape,
      if_neg hraw, if_neg hmath, if_neg hstrong, if_neg hemph, if_neg hhash, if_neg hbracket]
    exact hrepeat rest' (hnear halike)

theorem markupNode_succ (hsteps : Locality fuel) (extra : Nat) (stops : List Char)
    (first : Char) :
    Local Alike (Grammar.markupNode (fuel + 1) stops first)
      (Grammar.markupNode (extra + fuel + 1) stops first) := by
  intro chars
  apply local_markupNode Alike.toNear
  · intro kind marker delimiter _
    exact hsteps.delimited extra kind marker delimiter stops chars
  · intro _
    exact hsteps.embedded extra chars

theorem delimited_succ (hsteps : Locality fuel) (extra : Nat) (kind marker : Kind)
    (delimiter : Char) (stops : List Char) :
    Local Alike (Grammar.delimited (fuel + 1) kind marker delimiter stops)
      (Grammar.delimited (extra + fuel + 1) kind marker delimiter stops) := by
  intro chars
  exact (hsteps.markup extra (delimiter :: stops) chars).bind Alike.append fun nodes rest =>
    ((localToken_closing marker delimiter ("unclosed " ++ kind.name) rest).mono Alike.toNear).map
      fun close => inner kind (leaf marker [delimiter] :: nodes ++ [close])

theorem contentBlock_succ (hsteps : Locality fuel) (extra : Nat) :
    Local Near (Grammar.contentBlock (fuel + 1)) (Grammar.contentBlock (extra + fuel + 1)) := by
  intro chars
  have hmarkup := (hsteps.markup extra [']'] chars).near fun _ _ =>
    hsteps.nextIs_isBlank_of_markup (List.forall_mem_singleton.2 rfl)
  exact hmarkup.bind Near.append fun nodes rest =>
    (localToken_closing .rightBracket ']' "unclosed delimiter" rest).map fun close =>
      inner .contentBlock [leaf .leftBracket ['['], inner .markup nodes, close]

/-- What embedded code reads behind its first word. -/
def embeddedRest (fuel : Nat) (word chars : List Char) : NodeStep :=
  if word = ['s', 'e', 't'] then Grammar.setRule fuel chars
  else if word = ['l', 'e', 't'] then Grammar.letBinding fuel chars
  else Grammar.applications fuel (Token.word word) chars

theorem local_embeddedRest (hsteps : Locality fuel) (extra : Nat) (word : List Char) :
    Local Alike (embeddedRest fuel word) (embeddedRest (extra + fuel) word) := by
  intro chars
  unfold embeddedRest
  by_cases hset : word = ['s', 'e', 't']
  · simp only [if_pos hset]
    exact (hsteps.setRule extra chars).mono Alike.toNear
  · by_cases hlet : word = ['l', 'e', 't']
    · simp only [if_neg hset, if_pos hlet]
      exact hsteps.letBinding extra chars
    · simp only [if_neg hset, if_neg hlet]
      exact (hsteps.applications extra (Token.word word) chars).mono Alike.toNear

theorem embedded_succ (hsteps : Locality fuel) (extra : Nat) :
    Local Alike (Grammar.embedded (fuel + 1)) (Grammar.embedded (extra + fuel + 1)) :=
  .ite Alike.near_append (fun _ _ hnear => hnear.nextIs_eq startsName)
    (localToken_name.andThen Alike.near_append fun word chars =>
      (hsteps.local_embeddedRest extra word chars).map attachHash)
    (.pure (error ['#'] "expected expression"))

/-- What a set rule reads behind its target, given what stands in front. -/
def afterTarget (fuel : Nat) (start : List Node) (chars : List Char) : NodeStep :=
  match chars with
  | '(' :: rest => Grammar.args fuel rest >>= fun (arguments, last) =>
    some (inner .setRule (start ++ [arguments]), last)
  | _ => some (inner .setRule (start ++ [error [] "expected arguments"]), chars)

theorem local_afterTarget (hsteps : Locality fuel) (extra : Nat) (start : List Node) :
    Local Near (afterTarget fuel start) (afterTarget (extra + fuel) start) := by
  intro chars
  by_cases hparen : nextIs (· == '(') chars = true
  · obtain ⟨rest, rfl⟩ := nextIs_eq hparen
    have hrest := (hsteps.args extra rest).bind Near.append fun arguments =>
      Local.pure (inner .setRule (start ++ [arguments]))
    exact hrest.cons rfl fun _ _ _ _ _ => rfl
  · have hstay : ∀ fuel chars', Near chars chars' → afterTarget fuel start chars' =
        some (inner .setRule (start ++ [error [] "expected arguments"]), chars') := by
      intro fuel chars' hnear
      unfold afterTarget
      split
      · exact absurd rfl (hnear.ne_cons hparen _)
      · rfl
    exact .stay (hstay fuel chars (.refl _)) (hstay (extra + fuel))

theorem setRule_succ (hsteps : Locality fuel) (extra : Nat) :
    Local Near (Grammar.setRule (fuel + 1)) (Grammar.setRule (extra + fuel + 1)) :=
  localToken_spaces.andThen Near.append fun gap =>
    .ite Near.append (fun _ _ hnear => hnear.nextIs_eq startsName)
      (localToken_name.andThen Near.append fun target => hsteps.local_afterTarget extra
        (leaf .setWord ['s', 'e', 't'] :: gap ++ [leaf .ident target]))
      (.pure (inner .setRule
        (leaf .setWord ['s', 'e', 't'] :: gap ++ [error [] "expected identifier"])))

/-- Whether a single equals sign follows, perhaps behind blanks. -/
def binds (chars : List Char) : Bool :=
  nextIs (· == '=') (chars.dropWhile isBlank) &&
    !nextIs (· == '=') ((chars.dropWhile isBlank).drop 1)

theorem binds_eq {left right : List Char} (halike : Alike left right) :
    binds left = binds right := by
  have hbehind := halike.behind
  unfold binds
  generalize left.dropWhile isBlank = left at hbehind ⊢
  generalize right.dropWhile isBlank = right at hbehind ⊢
  rcases left with _ | ⟨a, _ | ⟨b, left⟩⟩ <;> rcases right with _ | ⟨a', _ | ⟨b', right⟩⟩ <;>
    simp_all [nextIs]

/-- The equals sign and the value of a binding, given what stands in front of
the sign and the characters from there on. -/
def boundValue (fuel : Nat) (start : List Node) : List Char → NodeStep
  | '=' :: rest =>
    Grammar.codeAtom fuel (spaces rest).2 >>= fun (value, last) =>
      some (inner .letBinding (start ++ leaf .eq ['='] :: (spaces rest).1 ++ [value]), last)
  | _ => none

/-- What a binding reads behind its name. -/
def afterBound (fuel : Nat) (start : List Node) (chars : List Char) : NodeStep :=
  if binds chars then boundValue fuel (start ++ (spaces chars).1) (spaces chars).2
  else some (inner .letBinding start, chars)

theorem binds_spaces (chars : List Char) : binds chars =
    (nextIs (· == '=') (spaces chars).2 && !nextIs (· == '=') ((spaces chars).2.drop 1)) := rfl

/-- What a binding reads behind the blanks that follow its keyword. -/
def afterGap (fuel : Nat) (gap : List Node) (chars : List Char) : NodeStep :=
  if nextIs startsName chars then
    afterBound fuel (leaf .letWord ['l', 'e', 't'] :: gap ++ [leaf .ident (name chars).1])
      (name chars).2
  else some (inner .letBinding
    (leaf .letWord ['l', 'e', 't'] :: gap ++ [error [] "expected identifier"]), chars)

theorem letBinding_eq (fuel : Nat) (chars : List Char) :
    Grammar.letBinding (fuel + 1) chars = afterGap fuel (spaces chars).1 (spaces chars).2 := by
  rw [Grammar.letBinding, afterGap]
  dsimp only
  split
  · rw [afterBound, binds_spaces]
    split
    · rename_i rest hrest
      rw [hrest]
      by_cases hdouble : nextIs (· == '=') rest = true
      · rw [if_pos hdouble, if_neg (by simp [hdouble])]
      · rw [if_neg hdouble, if_pos (by simpa [nextIs] using hdouble)]
        simp [boundValue]
    · rename_i hother
      rw [if_neg]
      intro hnext
      obtain ⟨rest, hrest⟩ := nextIs_eq (Bool.and_eq_true_iff.1 hnext).1
      exact hother rest hrest
  · rfl

theorem local_behindEquals (hsteps : Locality fuel) (extra : Nat) (start : List Node) :
    Local Near (fun rest => boundValue fuel start ('=' :: rest))
      fun rest => boundValue (extra + fuel) start ('=' :: rest) :=
  localToken_spaces.andThen Near.append fun gap rest =>
    (hsteps.codeAtom extra rest).bind Near.append fun value =>
      Local.pure (inner .letBinding (start ++ leaf .eq ['='] :: gap ++ [value]))

theorem local_boundValue (hsteps : Locality fuel) (extra : Nat) (start : List Node) :
    Local Near (boundValue fuel start) (boundValue (extra + fuel) start) := by
  intro chars
  by_cases hequals : nextIs (· == '=') chars = true
  · obtain ⟨rest, rfl⟩ := nextIs_eq hequals
    exact (hsteps.local_behindEquals extra start rest).cons rfl fun _ _ _ _ _ => rfl
  · intro value rest hvalue
    unfold boundValue at hvalue
    split at hvalue
    · exact absurd rfl hequals
    · cases hvalue

theorem local_afterBound (hsteps : Locality fuel) (extra : Nat) (start : List Node) :
    Local Alike (afterBound fuel start) (afterBound (extra + fuel) start) :=
  .ite Alike.append (fun _ _ => binds_eq)
    (localToken_spaces.andThen Alike.near_append fun before =>
      (hsteps.local_boundValue extra (start ++ before)).mono Alike.toNear)
    (.pure (inner .letBinding start))

theorem letBinding_succ (hsteps : Locality fuel) (extra : Nat) :
    Local Alike (Grammar.letBinding (fuel + 1)) (Grammar.letBinding (extra + fuel + 1)) := by
  rw [funext (letBinding_eq fuel), funext (letBinding_eq (extra + fuel))]
  exact localToken_spaces.andThen Alike.near_append fun gap =>
    .ite Alike.near_append (fun _ _ hnear => hnear.nextIs_eq startsName)
      (localToken_name.andThen Alike.near_append fun bound => hsteps.local_afterBound extra
        (leaf .letWord ['l', 'e', 't'] :: gap ++ [leaf .ident bound]))
      (.pure (inner .letBinding
        (leaf .letWord ['l', 'e', 't'] :: gap ++ [error [] "expected identifier"])))

theorem applications_succ (hsteps : Locality fuel) (extra : Nat) (node : Node) :
    Local Near (Grammar.applications (fuel + 1) node)
      (Grammar.applications (extra + fuel + 1) node) := by
  intro chars
  by_cases hparen : nextIs (· == '(') chars = true
  · obtain ⟨rest, rfl⟩ := nextIs_eq hparen
    have hrest := (hsteps.args extra rest).bind Near.append fun arguments =>
      hsteps.applications extra (inner .funcCall [node, arguments])
    exact hrest.cons rfl fun _ _ _ _ _ => rfl
  · by_cases hbracket : nextIs (· == '[') chars = true
    · obtain ⟨rest, rfl⟩ := nextIs_eq hbracket
      have hrest := (hsteps.contentBlock extra rest).bind Near.append fun block =>
        hsteps.applications extra (applyBlock node block)
      exact hrest.cons rfl fun _ _ _ _ _ => rfl
    · have hstay : ∀ fuel chars', Near chars chars' →
          Grammar.applications (fuel + 1) node chars' = some (node, chars') := by
        intro fuel chars' hnear
        unfold Grammar.applications
        split
        · exact absurd rfl (hnear.ne_cons hparen _)
        · exact absurd rfl (hnear.ne_cons hbracket _)
        · rfl
      exact .stay (hstay fuel chars (.refl _)) (hstay (extra + fuel))

theorem args_succ (hsteps : Locality fuel) (extra : Nat) :
    Local Near (Grammar.args (fuel + 1)) (Grammar.args (extra + fuel + 1)) :=
  localToken_trivia.andThen Near.append fun gap rest =>
    (hsteps.argItems extra rest).bind Near.append fun items =>
      Local.pure (inner .args (leaf .leftParen ['('] :: gap ++ items))

theorem argItems_succ (hsteps : Locality fuel) (extra : Nat) :
    Local Near (Grammar.argItems (fuel + 1)) (Grammar.argItems (extra + fuel + 1)) := by
  intro chars
  cases chars with
  | nil => exact .whole id rfl rfl
  | cons c after =>
    by_cases hbracket : c = ']'
    · subst hbracket
      apply LocalAt.stay
      · rfl
      · intro chars' hnear
        obtain ⟨rest, rfl, -⟩ := hnear.exists_cons
        rfl
    · by_cases hparen : c = ')'
      · subst hparen
        exact (Local.pure [leaf .rightParen [')']] after).cons rfl fun _ _ _ _ _ => rfl
      · by_cases hcomma : c = ','
        · subst hcomma
          have hitems := localToken_trivia.andThen Near.append fun gap rest =>
            (hsteps.argItems extra rest).bind Near.append fun items =>
              Local.pure (leaf .comma [','] :: gap ++ items)
          exact (hitems after).cons rfl fun _ _ _ _ _ => rfl
        · have hitems := (hsteps.arg extra (c :: after)).trivia.bind Near.append fun item rest =>
            (hsteps.argItems extra rest).bind Near.append fun items =>
              Local.pure (item.1 :: item.2 ++ items)
          have hstep : ∀ fuel after, Grammar.argItems (fuel + 1) (c :: after) =
              Grammar.arg fuel (c :: after) >>= fun item =>
                Grammar.argItems fuel (trivia item.2).2 >>= fun items =>
                  some (item.1 :: (trivia item.2).1 ++ items.1, items.2) := by
            intro fuel after
            rw [Grammar.argItems, if_neg hbracket, if_neg hparen, if_neg hcomma]
            rfl
          refine hitems.of_eq ?_ ?_
          · rw [hstep, bind_assoc]
            rfl
          · intro rest rest' consumed hnear hchars
            obtain ⟨after', hafter⟩ := hnear.exists_cons_append hchars
            rw [hafter, hstep, bind_assoc]
            rfl

theorem arg_of_named {chars key rest : List Char} (hstarts : nextIs startsName chars = true)
    (hname : name chars = (key, ':' :: rest)) (fuel : Nat) :
    Grammar.arg (fuel + 1) chars =
      (Grammar.codeExpr fuel (trivia rest).2).map fun (value, last) =>
        (inner .named
          (leaf .ident key :: leaf .colon [':'] :: (trivia rest).1 ++ [value]), last) := by
  rw [Grammar.arg, if_pos hstarts, hname, Option.map_eq_bind]
  rfl

theorem arg_of_unnamed {chars : List Char}
    (hunnamed : nextIs startsName chars = true → ¬nextIs (· == ':') (name chars).2 = true)
    (fuel : Nat) : Grammar.arg (fuel + 1) chars = Grammar.codeExpr fuel chars := by
  rw [Grammar.arg]
  split
  · rename_i hstarts
    dsimp only
    split
    · rename_i rest hrest
      exact absurd (by rw [hrest]; rfl) (hunnamed hstarts)
    · rfl
  · rfl

theorem arg_succ (hsteps : Locality fuel) (extra : Nat) :
    Local AlikeBehindTrivia (Grammar.arg (fuel + 1)) (Grammar.arg (extra + fuel + 1)) := by
  intro chars
  by_cases hnamed : nextIs startsName chars = true ∧ nextIs (· == ':') (name chars).2 = true
  · obtain ⟨hstarts, hcolon⟩ := hnamed
    obtain ⟨rest, hrest⟩ := nextIs_eq hcolon
    obtain ⟨key, hchars, hrepeat⟩ := localToken_name.at chars
    rw [hrest] at hchars hrepeat
    have hvalue := localToken_trivia.andThen AlikeBehindTrivia.near_append fun gap rest =>
      (hsteps.codeExpr extra rest).map fun value =>
        inner .named (leaf .ident (name chars).1 :: leaf .colon [':'] :: gap ++ [value])
    have hfront : (key ++ [':']) ++ rest = chars := by simp [hchars]
    rw [← hfront]
    refine (hvalue rest).prepend (key ++ [':']) ?_ ?_
    · rw [hfront]
      exact arg_of_named hstarts (Prod.ext rfl hrest) fuel
    · rintro last last' consumed halike rfl
      have hbehind := (halike.near_append consumed).cons ':'
      have hname := hrepeat _ hbehind
      rw [hchars, (hbehind.append key).nextIs_eq] at hstarts
      rw [List.append_assoc, List.singleton_append]
      exact arg_of_named hstarts hname (extra + fuel)
  · have hunnamed := not_and.1 hnamed
    intro value rest hvalue
    rw [arg_of_unnamed hunnamed] at hvalue
    obtain ⟨consumed, rfl, hrepeat⟩ := hsteps.codeExpr extra chars value rest hvalue
    refine ⟨consumed, rfl, ?_⟩
    intro rest' halike
    rw [arg_of_unnamed, hrepeat rest' halike]
    intro hstarts
    rw [← (halike.near_append consumed).nextIs_eq] at hstarts
    -- The expression starts with the name, so the name ends in front of what differs.
    obtain ⟨inside, hinside⟩ := hsteps.exprName hstarts hvalue
    obtain ⟨key, hkey, hname⟩ := localToken_name.at (consumed ++ rest)
    have hcolon := hunnamed hstarts
    rw [hinside] at hkey hname hcolon
    have hbehind := halike.near_append inside
    obtain rfl : consumed = key ++ inside := by
      rw [← List.append_assoc] at hkey
      exact List.append_cancel_right hkey
    rw [hbehind.nextIs_eq] at hcolon
    rw [List.append_assoc, hname _ hbehind]
    exact hcolon

theorem codeExpr_succ (hsteps : Locality fuel) (extra : Nat) :
    Local AlikeBehindTrivia (Grammar.codeExpr (fuel + 1))
      (Grammar.codeExpr (extra + fuel + 1)) := by
  intro chars
  exact (hsteps.codeAtom extra chars).bind AlikeBehindTrivia.near_append
    fun left => hsteps.operations extra left

/-- The next operator and value behind a value, given the trivia in front. -/
def operation (fuel : Nat) (left : Node) (before : List Node) (chars : List Char) : NodeStep :=
  binaryOperator chars >>= fun (operator, rest) =>
    Grammar.codeAtom fuel (trivia rest).2 >>= fun (right, last) =>
      Grammar.operations fuel
        (inner .binary (left :: before ++ operator :: (trivia rest).1 ++ [right])) last

theorem operations_of_none {chars : List Char} (hnone : binaryOperator (trivia chars).2 = none)
    (fuel : Nat) (left : Node) :
    Grammar.operations (fuel + 1) left chars = some (left, chars) := by
  rw [Grammar.operations]
  dsimp only
  rw [hnone]

theorem operations_of_some {chars : List Char} {operator : Step}
    (hsome : binaryOperator (trivia chars).2 = some operator) (fuel : Nat) (left : Node) :
    Grammar.operations (fuel + 1) left chars =
      operation fuel left (trivia chars).1 (trivia chars).2 := by
  rw [Grammar.operations, operation]
  dsimp only
  rw [hsome]
  rfl

theorem local_operation (hsteps : Locality fuel) (extra : Nat) (left : Node)
    (before : List Node) :
    Local AlikeBehindTrivia (operation fuel left before)
      (operation (extra + fuel) left before) := by
  intro chars
  exact (local_binaryOperator chars).bind AlikeBehindTrivia.near_append fun operator =>
    localToken_trivia.andThen AlikeBehindTrivia.near_append fun behind rest =>
      (hsteps.codeAtom extra rest).bind AlikeBehindTrivia.near_append fun right =>
        hsteps.operations extra (inner .binary (left :: before ++ operator :: behind ++ [right]))

theorem operations_succ (hsteps : Locality fuel) (extra : Nat) (left : Node) :
    Local AlikeBehindTrivia (Grammar.operations (fuel + 1) left)
      (Grammar.operations (extra + fuel + 1) left) := by
  intro chars
  cases hoperator : binaryOperator (trivia chars).2 with
  | none =>
    apply LocalAt.stay
    · exact operations_of_none hoperator fuel left
    · intro chars' halike
      exact operations_of_none (binaryOperator_eq_none halike.behind.toNear hoperator)
        (extra + fuel) left
  | some operator =>
    have hoperation := localToken_trivia.andThen AlikeBehindTrivia.near_append fun before =>
      hsteps.local_operation extra left before
    refine (hoperation chars).extend (operations_of_some hoperator fuel left) ?_
    intro chars' answer hanswer
    obtain ⟨operator', hsome, -⟩ := Option.bind_eq_some_iff.1 hanswer
    rw [operations_of_some hsome]
    exact hanswer

theorem codeAtom_succ (hsteps : Locality fuel) (extra : Nat) :
    Local Near (Grammar.codeAtom (fuel + 1)) (Grammar.codeAtom (extra + fuel + 1)) := by
  intro chars
  cases chars with
  | nil => exact .whole id rfl rfl
  | cons c rest =>
    by_cases hstarts : startsName c = true
    · have hword := localToken_name.andThen Near.append fun word =>
        hsteps.applications extra (Token.word word)
      refine (hword (c :: rest)).of_eq ?_ ?_
      · rw [Grammar.codeAtom, if_pos hstarts]
      · intro last last' consumed hnear hchars
        obtain ⟨after, hafter⟩ := hnear.exists_cons_append hchars
        rw [hafter, Grammar.codeAtom, if_pos hstarts]
    by_cases hnumber : (isAsciiDigit c || (c = '-' && nextIs isAsciiDigit rest)) = true
    · refine (localToken_number (c :: rest)).of_eq ?_ ?_
      · rw [Grammar.codeAtom, if_neg hstarts, if_pos hnumber]
      · intro last last' consumed hnear hchars
        have hsame := hnear.append consumed
        obtain ⟨after, hafter⟩ := hnear.exists_cons_append hchars
        rw [← hchars, hafter] at hsame
        rw [hsame.nextIs_tail] at hnumber
        rw [hafter, Grammar.codeAtom, if_neg hstarts, if_pos hnumber]
    by_cases hquote : c = '"'
    · subst hquote
      exact (localToken_string rest).cons rfl fun _ _ _ _ _ => rfl
    by_cases hbracket : c = '['
    · subst hbracket
      exact (hsteps.contentBlock extra rest).cons rfl fun _ _ _ _ _ => rfl
    by_cases hparen : c = '('
    · subst hparen
      have hgroup := (hsteps.args extra rest).bind Near.append fun group =>
        hsteps.applications extra group
      exact hgroup.cons rfl fun _ _ _ _ _ => rfl
    have hother : ∀ fuel rest', nextIs isAsciiDigit rest = nextIs isAsciiDigit rest' →
        Grammar.codeAtom (fuel + 1) (c :: rest') =
          if isSpace c || c = ')' || c = ',' || c = ']' then
            some (error [] "expected expression", c :: rest')
          else some (error [c] "unexpected character", rest') := by
      intro fuel rest' hsame
      rw [hsame] at hnumber
      rw [Grammar.codeAtom, if_neg hstarts, if_neg hnumber, if_neg hquote, if_neg hbracket,
        if_neg hparen]
    by_cases hstop : (isSpace c || c = ')' || c = ',' || c = ']') = true
    · apply LocalAt.stay
      · rw [hother fuel rest rfl, if_pos hstop]
      · intro chars' hnear
        obtain ⟨rest', rfl, -⟩ := hnear.exists_cons
        rw [hother (extra + fuel) rest' (hnear.nextIs_tail _), if_pos hstop]
    · apply LocalAt.of_answer [c] (error [c] "unexpected character")
      · rw [List.singleton_append, hother fuel rest rfl, if_neg hstop]
      · intro rest' hnear
        rw [List.singleton_append, hother (extra + fuel) rest' (hnear.nextIs_eq _), if_neg hstop]

theorem atomName_succ (hsteps : Locality fuel) {chars rest : List Char} {node : Node}
    (hstarts : nextIs startsName chars = true)
    (hatom : Grammar.codeAtom (fuel + 1) chars = some (node, rest)) :
    ∃ inside, (name chars).2 = inside ++ rest := by
  cases chars with
  | nil => cases hstarts
  | cons c after =>
    have hfirst : startsName c = true := hstarts
    rw [Grammar.codeAtom, if_pos hfirst] at hatom
    obtain ⟨inside, hinside, -⟩ := hsteps.applications 0 _ _ node rest hatom
    exact ⟨inside, hinside⟩

theorem exprName_succ (hsteps : Locality fuel) {chars rest : List Char} {node : Node}
    (hstarts : nextIs startsName chars = true)
    (hexpr : Grammar.codeExpr (fuel + 1) chars = some (node, rest)) :
    ∃ inside, (name chars).2 = inside ++ rest := by
  rw [Grammar.codeExpr] at hexpr
  obtain ⟨⟨left, behind⟩, hatom, hoperations⟩ := Option.bind_eq_some_iff.1 hexpr
  obtain ⟨front, hfront⟩ := hsteps.atomName hstarts hatom
  obtain ⟨inside, rfl, -⟩ := hsteps.operations 0 left behind node rest hoperations
  exact ⟨front ++ inside, by rw [hfront, List.append_assoc]⟩

end Locality

/-- Every step is local, by induction on its fuel. -/
theorem locality (fuel : Nat) : Locality fuel := by
  induction fuel with
  | zero =>
    have hnone : ∀ {alike : List Char → List Char → Prop} {step' : List Char → NodeStep},
        Local alike (fun _ => none) step' := fun _ _ _ hnone => by cases hnone
    have hnones : ∀ {alike : List Char → List Char → Prop} {step' : List Char → NodesStep},
        Local alike (fun _ => none) step' := fun _ _ _ hnone => by cases hnone
    exact {
      markup := fun _ _ => hnones
      markupNode := fun _ _ _ => hnone
      delimited := fun _ _ _ _ _ => hnone
      embedded := fun _ => hnone
      setRule := fun _ => hnone
      letBinding := fun _ => hnone
      applications := fun _ _ => hnone
      args := fun _ => hnone
      argItems := fun _ => hnones
      arg := fun _ => hnone
      codeExpr := fun _ => hnone
      operations := fun _ _ => hnone
      codeAtom := fun _ => hnone
      contentBlock := fun _ => hnone
      atomName := fun _ hatom => by cases hatom
      exprName := fun _ hexpr => by cases hexpr }
  | succ fuel ih =>
    exact {
      markup := ih.markup_succ
      markupNode := ih.markupNode_succ
      delimited := ih.delimited_succ
      embedded := ih.embedded_succ
      setRule := ih.setRule_succ
      letBinding := ih.letBinding_succ
      applications := ih.applications_succ
      args := ih.args_succ
      argItems := ih.argItems_succ
      arg := ih.arg_succ
      codeExpr := ih.codeExpr_succ
      operations := ih.operations_succ
      codeAtom := ih.codeAtom_succ
      contentBlock := ih.contentBlock_succ
      atomName := ih.atomName_succ
      exprName := ih.exprName_succ }

end Grammar

end Galley.Syntax
