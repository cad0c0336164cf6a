import Galley.Proofs.Locality.TopLevel
import Galley.Syntax.Reparse

/-!
# How far a top-level node looks

A top-level node sees three characters behind its own end, and only one construct sees more: a
binding without a value has looked past all blanks behind it for an equals sign, and past the sign
for a second one.  Further in front nothing of this shows, because a run of blanks is a node of its
own.
-/

namespace Galley.Syntax

open Galley.Text Node Token

/-- Whether a node is a binding without an equals sign. -/
def Node.isUnbound (node : Node) : Bool :=
  node.kind == .letBinding && node.children.all fun child => child.kind != .eq

/-- How many of the characters behind a top-level node it depends on: three, or all blanks and two
more if it is a binding without an equals sign. -/
def Node.reach (node : Node) (behind : List Char) : Nat :=
  if node.isUnbound then max 3 ((behind.takeWhile isBlank).length + 2) else 3

theorem three_le_reach (node : Node) (behind : List Char) : 3 ≤ node.reach behind := by
  rw [Node.reach]
  split <;> omega

@[simp]
theorem isUnbound_erase (node : Node) : node.erase.isUnbound = node.isUnbound := by
  have hkind : (fun child : Node => child.kind != .eq) ∘ erase =
      fun child : Node => child.kind != .eq :=
    funext fun child => congrArg (· != Kind.eq) (kind_withSpan detached child)
  rw [Node.isUnbound, Node.isUnbound, children_erase, List.all_map, hkind]
  exact congrArg (fun kind => kind == Kind.letBinding && _) (kind_withSpan detached node)

theorem reach_eq_of_erase_eq {left right : Node} (herase : left.erase = right.erase)
    (behind : List Char) : left.reach behind = right.reach behind := by
  rw [Node.reach, Node.reach, ← isUnbound_erase left, herase, isUnbound_erase]

/-- Continuations that agree up to two characters behind the blanks are alike. -/
theorem Alike.of_take {left right : List Char} {count : Nat}
    (htake : left.take count = right.take count) (hnear : 3 ≤ count)
    (hblanks : (left.takeWhile isBlank).length + 2 ≤ count) : Alike left right := by
  have hshorter : ∀ {fewer : Nat}, fewer ≤ count → left.take fewer = right.take fewer := by
    intro fewer hfewer
    have hless := congrArg (List.take fewer) htake
    rwa [List.take_take, List.take_take, Nat.min_eq_left hfewer] at hless
  have hstart : Near left right := ⟨hshorter hnear⟩
  obtain ⟨gap, after, rfl, ⟨hgap, hafter⟩, -⟩ := exists_run isBlank left
  rw [hgap] at hblanks
  have htwo := hshorter hblanks
  rw [List.take_length_add_append] at htwo
  obtain ⟨after', rfl⟩ : gap <+: right :=
    (List.prefix_append gap _).trans (htwo ▸ List.take_prefix _ right)
  rw [List.take_length_add_append] at htwo
  have hbehind := List.append_cancel_left htwo
  have hrun : ∀ c ∈ gap, isBlank c = true := by
    intro c hc
    rw [← hgap] at hc
    exact List.mem_takeWhile_imp hc
  have hstop : nextIs isBlank after = false := hafter ▸ nextIs_dropWhile isBlank (gap ++ after)
  have hstop' : nextIs isBlank after' = false := by
    rcases after with _ | ⟨c, after⟩ <;> rcases after' with _ | ⟨c', after'⟩ <;>
      simp_all [nextIs]
  obtain ⟨hleft, hleft'⟩ := run_append_of_stop hrun hstop
  obtain ⟨hright, hright'⟩ := run_append_of_stop hrun hstop'
  exact ⟨hstart, by rw [hleft, hright], by rw [hleft', hright', hbehind]⟩

namespace Grammar

open Locality

theorem kind_of_mem_spaces {chars : List Char} {node : Node} (hnode : node ∈ (spaces chars).1) :
    node.kind = .space := by
  simp only [spaces] at hnode
  split at hnode
  · cases hnode
  · rw [List.mem_singleton.1 hnode]
    rfl

/-- A binding with an equals sign looks no further than its value. -/
theorem near_afterBound (fuel extra : Nat) (start : List Node) {chars : List Char}
    (hbinds : binds chars = true) :
    LocalAt Near (afterBound fuel start) (afterBound (extra + fuel) start)
      chars := by
  obtain ⟨gap, hchars, hrepeat⟩ := localToken_spaces.at chars
  obtain ⟨hequals, hsingle⟩ := Bool.and_eq_true_iff.1 (binds_spaces chars ▸ hbinds)
  obtain ⟨rest, hrest⟩ := nextIs_eq hequals
  rw [hrest] at hchars hrepeat hsingle
  obtain rfl : (gap ++ ['=']) ++ rest = chars := by simp [hchars]
  have hstep : ∀ fuel rest', Near ('=' :: rest) ('=' :: rest') →
      afterBound fuel start ((gap ++ ['=']) ++ rest') =
        boundValue fuel (start ++ (spaces ((gap ++ ['=']) ++ rest)).1) ('=' :: rest') := by
    intro fuel rest' hnear
    have hgap := hrepeat _ hnear
    have hsingle' : (!nextIs (· == '=') rest') = true := by
      rw [← hnear.nextIs_tail]
      exact hsingle
    rw [List.append_assoc, List.singleton_append, afterBound, binds_spaces, hgap]
    exact if_pos hsingle'
  exact ((locality fuel).local_behindEquals extra _ rest).prepend (gap ++ ['='])
    (hstep fuel rest ⟨rfl⟩) fun last last' consumed hnear hconsumed =>
      hstep _ _ (hconsumed ▸ (hnear.append consumed).cons '=')

/-- A binding that looks further has no equals sign. -/
theorem near_letBinding (fuel extra : Nat) (chars : List Char) :
    LocalAt Near (letBinding fuel) (letBinding (extra + fuel)) chars ∨
      ∃ children rest, letBinding fuel chars =
        some (inner .letBinding (leaf .letWord ['l', 'e', 't'] :: children), rest) ∧
        ∀ child ∈ children, child.kind ≠ .eq := by
  cases fuel with
  | zero => exact .inl fun _ _ hnone => by cases hnone
  | succ fuel =>
    have hgap : ∀ node ∈ (spaces chars).1, node.kind ≠ .eq := by
      intro node hnode
      rw [kind_of_mem_spaces hnode]
      decide
    rw [funext (letBinding_eq fuel), ← Nat.add_assoc, funext (letBinding_eq (extra + fuel))]
    by_cases hstarts : nextIs startsName (spaces chars).2 = true
    · by_cases hbinds : binds (name (spaces chars).2).2 = true
      · left
        apply localToken_spaces.andThenAt (afterGap fuel) (afterGap (extra + fuel)) Near.append
        refine LocalAt.ite_pos ?_ Near.append (fun _ _ hnear => hnear.nextIs_eq startsName) hstarts
        exact localToken_name.andThenAt
          (fun bound => afterBound fuel
            (leaf .letWord ['l', 'e', 't'] :: (spaces chars).1 ++ [leaf .ident bound]))
          (fun bound => afterBound (extra + fuel)
            (leaf .letWord ['l', 'e', 't'] :: (spaces chars).1 ++ [leaf .ident bound]))
          Near.append (near_afterBound fuel extra _ hbinds)
      · right
        refine ⟨(spaces chars).1 ++ [leaf .ident (name (spaces chars).2).1],
          (name (spaces chars).2).2, ?_, ?_⟩
        · dsimp only
          rw [afterGap, if_pos hstarts, afterBound, if_neg hbinds]
          rfl
        · rw [List.forall_mem_append]
          exact ⟨hgap, by simp [leaf]⟩
    · right
      refine ⟨(spaces chars).1 ++ [error [] "expected identifier"], _, if_neg hstarts, ?_⟩
      rw [List.forall_mem_append]
      exact ⟨hgap, by simp [error]⟩

theorem near_embeddedRest (fuel extra : Nat) (word chars : List Char) :
    LocalAt Near (embeddedRest fuel word) (embeddedRest (extra + fuel) word) chars ∨
      ∃ children rest, embeddedRest fuel word chars =
        some (inner .letBinding (leaf .letWord ['l', 'e', 't'] :: children), rest) ∧
        ∀ child ∈ children, child.kind ≠ .eq := by
  unfold embeddedRest
  by_cases hset : word = ['s', 'e', 't']
  · simp only [if_pos hset]
    exact .inl ((locality fuel).setRule extra chars)
  · by_cases hlet : word = ['l', 'e', 't']
    · simp only [if_neg hset, if_pos hlet]
      exact near_letBinding fuel extra chars
    · simp only [if_neg hset, if_neg hlet]
      exact .inl ((locality fuel).applications extra (Token.word word) chars)

theorem near_embedded (fuel extra : Nat) (chars : List Char) :
    LocalAt Near (embedded fuel) (embedded (extra + fuel)) chars ∨
      ∃ node rest, embedded fuel chars = some (node, rest) ∧ node.isUnbound = true := by
  cases fuel with
  | zero => exact .inl fun _ _ hnone => by cases hnone
  | succ fuel =>
    have hword : ∀ left right, Near left right → nextIs startsName left = nextIs startsName right :=
      fun _ _ hnear => hnear.nextIs_eq startsName
    by_cases hstarts : nextIs startsName chars = true
    · obtain hnear | ⟨children, rest, hanswer, hequals⟩ :=
        near_embeddedRest fuel extra (name chars).1 (name chars).2
      · left
        have hnode := localToken_name.andThenAt
          (fun word chars => (embeddedRest fuel word chars).map (Prod.map attachHash id))
          (fun word chars => (embeddedRest (extra + fuel) word chars).map (Prod.map attachHash id))
          Near.append (hnear.map attachHash)
        exact hnode.ite_pos Near.append hword hstarts
      · right
        refine ⟨attachHash (inner .letBinding (leaf .letWord ['l', 'e', 't'] :: children)), rest,
          ?_, ?_⟩
        · rw [embedded, if_pos hstarts]
          exact congrArg (Option.map _) hanswer
        · simpa [attachHash, Node.inner, Node.isUnbound, leaf] using hequals
    · exact .inl (LocalAt.ite_neg (Local.pure (error ['#'] "expected expression") chars)
        Near.append hword hstarts)

/-- Between delimiters that are no blanks nothing behind them is looked at. -/
theorem near_delimited (fuel extra : Nat) (kind marker : Kind) (delimiter : Char)
    (hdelimiter : isBlank delimiter = false) (chars : List Char) :
    LocalAt Near (delimited fuel kind marker delimiter [])
      (delimited (extra + fuel) kind marker delimiter []) chars := by
  cases fuel with
  | zero => exact fun _ _ hnone => by cases hnone
  | succ fuel =>
    have hmarkup := ((locality fuel).markup extra [delimiter] chars).near fun _ _ =>
      (locality fuel).nextIs_isBlank_of_markup (by simpa using hdelimiter)
    exact hmarkup.bind Near.append fun nodes rest =>
      (localToken_closing marker delimiter ("unclosed " ++ kind.name) rest).map fun close =>
        inner kind (leaf marker [delimiter] :: nodes ++ [close])

/-- A markup node at the top level looks no further than near continuations agree, unless it is a
binding without an equals sign. -/
theorem near_markupNode (fuel extra : Nat) (first : Char) (chars : List Char) :
    LocalAt Near (markupNode fuel [] first) (markupNode (extra + fuel) [] first) chars ∨
      ∃ node rest, markupNode fuel [] first chars = some (node, rest) ∧
        node.isUnbound = true := by
  cases fuel with
  | zero => exact .inl fun _ _ hnone => by cases hnone
  | succ fuel =>
    have hdelimited := fun kind marker delimiter hdelimiter =>
      near_delimited fuel extra kind marker delimiter hdelimiter chars
    by_cases hhash : first = '#'
    · subst hhash
      obtain hnear | ⟨node, rest, hanswer, hunbound⟩ := near_embedded fuel extra chars
      · exact .inl (local_markupNode id hdelimited fun _ => hnear)
      · exact .inr ⟨node, rest, hanswer, hunbound⟩
    · exact .inl (local_markupNode id hdelimited fun hfirst => absurd hfirst hhash)

/-- A top-level node is the same in front of all that agrees with what it depends on. -/
theorem topNode_of_reach {first : Char} {chars rest' : List Char}
    (hreach : (topNode first chars).2.take ((topNode first chars).1.reach (topNode first chars).2) =
      rest'.take ((topNode first chars).1.reach (topNode first chars).2)) :
    ∃ chars', (topNode first chars).1.chars ++ rest' = first :: chars' ∧
      topNode first chars' = ((topNode first chars).1, rest') := by
  by_cases hunbound : (topNode first chars).1.isUnbound = true
  · rw [reach, if_pos hunbound] at hreach
    exact topNode_of_alike (.of_take hreach (by omega) (by omega))
  · rw [reach, if_neg hunbound] at hreach
    refine topNode_of_local (fun extra => ?_) (Near.mk hreach)
    refine (near_markupNode _ extra first chars).resolve_right ?_
    rintro ⟨node, rest, hanswer, hunbound'⟩
    rw [(markupNode_eq_topNode first (Nat.le_refl _)).1] at hanswer
    obtain ⟨rfl, -⟩ := Prod.mk.inj (Option.some.inj hanswer)
    exact hunbound hunbound'

/-- In front of a top-level node nothing behind it shows but the three next characters: blanks
behind the one in front are all in it. -/
theorem alike_of_run {chars right : List Char} {run later : List Node}
    (hnodes : topLevel chars = run ++ later) (hrun : run ≠ [])
    (hnear : Near (charsOf later) right) :
    Alike (charsOf run ++ charsOf later) (charsOf run ++ right) := by
  have hchars := charsOf_topLevel chars
  rw [hnodes, charsOf_append] at hchars
  obtain ⟨node, run, rfl⟩ := List.exists_cons_of_ne_nil hrun
  cases chars with
  | nil => cases hnodes
  | cons first chars =>
    by_cases hspace : isSpace first = true
    · rw [topLevel_cons, List.cons_append] at hnodes
      obtain ⟨rfl, hbehind⟩ := List.cons.inj hnodes
      have hstop := nextIs_isSpace_topNode hspace chars
      rw [← charsOf_topLevel (topNode first chars).2, hbehind, charsOf_append] at hstop
      rw [charsOf_cons, List.append_assoc, List.append_assoc]
      exact ((hnear.append (charsOf run)).alike (nextIs_isBlank_of_not_isSpace hstop)).append _
    · refine (hnear.append _).alike ?_
      rw [hchars]
      exact isBlank_of_not_isSpace (Bool.eq_false_iff.2 hspace)

/-- Top-level nodes up to a boundary are the same in all texts that agree up to there and as far
behind as the last of them looks. -/
theorem topLevel_of_reach {front later : List Node} {node : Node} {chars right : List Char}
    (hnodes : topLevel chars = front ++ node :: later)
    (hreach : (charsOf later).take (node.reach (charsOf later)) =
      right.take (node.reach (charsOf later))) :
    topLevel (charsOf (front ++ [node]) ++ right) = front ++ node :: topLevel right := by
  have hnear : Near (charsOf later) right := by
    have hthree := congrArg (List.take 3) hreach
    rw [List.take_take, List.take_take, Nat.min_eq_left (three_le_reach _ _)] at hthree
    exact ⟨hthree⟩
  induction front generalizing chars with
  | nil =>
    cases chars with
    | nil => cases hnodes
    | cons first chars =>
      rw [topLevel_cons] at hnodes
      obtain ⟨rfl, hbehind⟩ := List.cons.inj hnodes
      rw [← hbehind, charsOf_topLevel] at hreach
      obtain ⟨chars', hchars', htop⟩ := topNode_of_reach hreach
      rw [List.nil_append, charsOf_cons, charsOf_nil, List.append_nil, hchars', topLevel_cons, htop]
      rfl
  | cons earlier front ih =>
    cases chars with
    | nil => cases hnodes
    | cons first chars =>
      rw [topLevel_cons] at hnodes
      obtain ⟨rfl, hbehind⟩ := List.cons.inj hnodes
      have hsplit : topLevel (topNode first chars).2 = (front ++ [node]) ++ later := by
        simpa using hbehind
      have halike := alike_of_run hsplit (by simp) hnear
      rw [← charsOf_append, ← hsplit, charsOf_topLevel] at halike
      obtain ⟨chars', hchars', htop⟩ := topNode_of_alike halike
      rw [List.cons_append, charsOf_cons, List.append_assoc, hchars', topLevel_cons, htop]
      exact congrArg _ (ih hbehind)

theorem topLevel_of_agree {front later : List Node} {node : Node} {chars chars' : List Char}
    {stop : Nat} (hnodes : topLevel chars = front ++ node :: later)
    (hstop : (charsOf (front ++ [node])).length = stop)
    (hagree : chars.take (stop + node.reach (chars.drop stop)) =
      chars'.take (stop + node.reach (chars.drop stop))) :
    ∃ behind, topLevel chars' = front ++ node :: behind := by
  have hchars := charsOf_topLevel chars
  rw [hnodes, ← List.singleton_append, ← List.append_assoc, charsOf_append] at hchars
  rw [← hstop, ← hchars, List.drop_left, List.take_length_add_append] at hagree
  obtain ⟨right, rfl⟩ : charsOf (front ++ [node]) <+: chars' :=
    (List.prefix_append _ _).trans (hagree ▸ List.take_prefix _ chars')
  rw [List.take_length_add_append] at hagree
  exact ⟨_, topLevel_of_reach hnodes (List.append_cancel_left hagree)⟩

end Grammar

/-! ## The nodes of two texts -/

theorem map_erase_take_children_parse (text : String) (count : Nat) :
    ((parse text).children.take count).map erase =
      ((Grammar.topLevel text.toList).take count).map erase := by
  rw [List.map_take, map_erase_children_parse, List.map_take]

/-- Where a top-level node ends. -/
theorem charLenOf_take_children_parse (text : String) (count : Nat) :
    charLenOf ((parse text).children.take count) =
      (charsOf ((Grammar.topLevel text.toList).take count)).length := by
  rw [charLenOf_eq, charsOf_eq_of_map_erase_eq (map_erase_take_children_parse text count)]

/-- Three nodes of lookbehind are enough: top-level nodes stay what they are in all texts that begin
with the same characters up to a place behind the next three nodes. -/
theorem lookbehind_suffices {text text' : String} {position index : Nat}
    (hagree : text.toList.take position = text'.toList.take position)
    (hindex : index + lookbehind < (parse text).children.length)
    (hends : charLenOf ((parse text).children.take (index + lookbehind + 1)) < position) :
    ((parse text').children.take (index + 1)).map erase =
      ((parse text).children.take (index + 1)).map erase := by
  have hlength := congrArg List.length (map_erase_children_parse text)
  rw [List.length_map, List.length_map] at hlength
  rw [charLenOf_take_children_parse, lookbehind, Nat.add_right_comm] at hends
  rw [lookbehind] at hindex
  have hinside : (charsOf ((Grammar.topLevel text.toList).take (index + 1 + 3))).length ≤
      (text.toList.take position).length := by
    have hwhole := congrArg charsOf
      (List.take_append_drop (index + 1 + 3) (Grammar.topLevel text.toList))
    rw [charsOf_append, Grammar.charsOf_topLevel] at hwhole
    have hlengths := congrArg List.length hwhole
    rw [List.length_append] at hlengths
    rw [List.length_take]
    omega
  obtain ⟨inside, -, hnodes⟩ := Grammar.topLevel_take_append
    (List.take_append_drop position text.toList) (by omega) hinside (text'.toList.drop position)
  rw [hagree, List.take_append_drop] at hnodes
  rw [map_erase_take_children_parse, map_erase_take_children_parse, hnodes, List.take_left']
  rw [List.length_take]
  omega

theorem lookbehind_suffices_binding :
    "#let x    y z".toList.take 13 = "#let x    y z = 1".toList.take 13 ∧
      0 + lookbehind < (parse "#let x    y z").children.length ∧
      charLenOf ((parse "#let x    y z").children.take (0 + lookbehind + 1)) < 13 ∧
      ((parse "#let x    y z = 1").children.take (0 + 1)).map erase =
        ((parse "#let x    y z").children.take (0 + 1)).map erase :=
  have hagree : "#let x    y z".toList.take 13 = "#let x    y z = 1".toList.take 13 := by
    decide +kernel
  have hindex : 0 + lookbehind < (parse "#let x    y z").children.length := by decide +kernel
  have hends : charLenOf ((parse "#let x    y z").children.take (0 + lookbehind + 1)) < 13 := by
    decide +kernel
  ⟨hagree, hindex, hends, lookbehind_suffices hagree hindex hends⟩

/-- The top-level nodes of a text up to the end of one of them are those of all texts that agree
with it up to there and on as many characters behind as this node looks at. -/
theorem lookahead_bounded {text text' : String} {index stop : Nat} {node : Node}
    (hnode : (parse text).children[index]? = some node)
    (hstop : charLenOf ((parse text).children.take (index + 1)) = stop)
    (hagree : text.toList.take (stop + node.reach (text.toList.drop stop)) =
      text'.toList.take (stop + node.reach (text.toList.drop stop))) :
    ((parse text').children.take (index + 1)).map erase =
      ((parse text).children.take (index + 1)).map erase := by
  have hnodes := congrArg (fun nodes => nodes[index]?) (map_erase_children_parse text)
  rw [List.getElem?_map, List.getElem?_map, hnode] at hnodes
  obtain ⟨top, htop, herase⟩ := Option.map_eq_some_iff.1 hnodes.symm
  obtain ⟨front, later, hsplit, rfl⟩ : ∃ front later,
      Grammar.topLevel text.toList = front ++ top :: later ∧ front.length = index := by
    obtain ⟨hindex, rfl⟩ := List.getElem?_eq_some_iff.1 htop
    refine ⟨_, (Grammar.topLevel text.toList).drop (index + 1), ?_,
      List.length_take_of_le (Nat.le_of_lt hindex)⟩
    rw [List.getElem_cons_drop, List.take_append_drop]
  have htake : ∀ later, (front ++ top :: later).take (front.length + 1) = front ++ [top] := by
    intro later
    rw [List.take_length_add_append]
    rfl
  rw [charLenOf_take_children_parse, hsplit, htake] at hstop
  rw [reach_eq_of_erase_eq herase.symm] at hagree
  obtain ⟨behind, hbehind⟩ := Grammar.topLevel_of_agree hsplit hstop hagree
  rw [map_erase_take_children_parse, map_erase_take_children_parse, hsplit, hbehind, htake, htake]

theorem lookahead_bounded_binding :
    ∃ node, (parse "#let x    y z").children[0]? = some node ∧
      charLenOf ((parse "#let x    y z").children.take (0 + 1)) = 6 ∧
      "#let x    y z".toList.take (6 + node.reach ("#let x    y z".toList.drop 6)) =
        "#let x    y w".toList.take (6 + node.reach ("#let x    y z".toList.drop 6)) ∧
      ((parse "#let x    y w").children.take (0 + 1)).map erase =
        ((parse "#let x    y z").children.take (0 + 1)).map erase := by
  have hreach : (parse "#let x    y z").children[0]?.map
      (reach · ("#let x    y z".toList.drop 6)) = some 6 := by
    decide +kernel
  obtain ⟨node, hnode, hsix⟩ := Option.map_eq_some_iff.1 hreach
  have hstop : charLenOf ((parse "#let x    y z").children.take (0 + 1)) = 6 := by decide +kernel
  have hagree : "#let x    y z".toList.take (6 + node.reach ("#let x    y z".toList.drop 6)) =
      "#let x    y w".toList.take (6 + node.reach ("#let x    y z".toList.drop 6)) := by
    rw [hsix]
    decide +kernel
  exact ⟨node, hnode, hstop, hagree, lookahead_bounded hnode hstop hagree⟩

/-- Three characters behind its end do not settle what a binding is: it looks past all blanks for
its equals sign. -/
theorem binding_looks_past_blanks : ¬∀ (text text' : String) (index : Nat),
    index < (parse text).children.length →
      text.toList.take (charLenOf ((parse text).children.take (index + 1)) + 3) =
        text'.toList.take (charLenOf ((parse text).children.take (index + 1)) + 3) →
      ((parse text').children.take (index + 1)).map erase =
        ((parse text).children.take (index + 1)).map erase := by
  intro hbound
  have hsizes := congrArg (fun nodes : List Node => nodes.map size)
    (hbound "#let x    y" "#let x    = 1" 0 (by decide +kernel) (by decide +kernel))
  exact absurd hsizes (by decide +kernel)

end Galley.Syntax
