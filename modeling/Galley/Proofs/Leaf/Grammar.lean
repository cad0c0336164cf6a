import Galley.Proofs.Leaf.Place
import Galley.Proofs.Shape.Rules

/-!
# The grammar puts every leaf in its place

What the rules of the grammar build is sound: the leaves have the forms of their kinds, and white
space in markup is read as far as it goes.
-/

namespace Galley.Syntax

open Galley.Text Node Token

/-! ## Parts of nodes -/

/-- Nodes that are neither white space nor hold markup themselves. -/
def Kind.isCode (kind : Kind) : Bool :=
  !kind.holdsMarkup && !kind.isBlank

theorem Kind.isCode_iff {kind : Kind} :
    kind.isCode = true ↔ kind.holdsMarkup = false ∧ kind.isBlank = false := by
  simp [isCode]

namespace Grammar

theorem sound_closing {kind : Kind} {delimiter : Char} (hform : kind.Form [delimiter])
    (message : String) (chars : List Char) :
    Sound chars (closing kind delimiter message chars).1 (closing kind delimiter message chars).2 ∧
      ((closing kind delimiter message chars).1.kind = kind ∨
        (closing kind delimiter message chars).1.kind = .error) := by
  unfold closing
  split
  · exact ⟨.error [] message [], .inr rfl⟩
  · rename_i c rest
    split
    · rename_i hclose
      subst hclose
      exact ⟨.leaf hform rest, .inl rfl⟩
    · exact ⟨.error [] message (c :: rest), .inr rfl⟩

theorem sound_attachHash {node : Node} {chars rest : List Char} (hnode : Sound chars node rest)
    (hkind : node.kind.isCode = true) :
    Sound ('#' :: chars) (attachHash node) rest ∧ (attachHash node).kind.isBlank = false := by
  obtain ⟨hmarkup, hblank⟩ := Kind.isCode_iff.1 hkind
  have hhash : Sound ('#' :: chars) (leaf .hash ['#']) chars := .mark .hash '#' rfl chars
  by_cases hempty : node.children.isEmpty = true
  · rw [attachHash, hempty]
    exact ⟨(SoundRun.cons hhash (.single hnode)).code rfl (List.cons_ne_nil _ _), rfl⟩
  · have hchildren : node.children ≠ [] := by simpa using hempty
    refine ⟨⟨by rw [chars_attachHash, List.cons_append, hnode.append], ?_⟩, ?_⟩
    · have hinside := (everyPlace_of_children hmarkup hchildren).1 hnode.places
      rw [attachHash, if_neg hempty]
      refine (everyPlace_with_children hmarkup (List.cons_ne_nil _ _)).2 ⟨?_, hinside⟩
      have hplaced := hhash.places
      rwa [← hnode.append, chars_of_children hchildren] at hplaced
    · rwa [attachHash, if_neg hempty]

/-- A call of a node. -/
theorem sound_call {node part : Node} {chars middle rest : List Char}
    (hnode : Sound chars node middle) (hpart : Sound middle part rest) :
    Sound chars (inner .funcCall [node, part]) rest :=
  (SoundRun.cons hnode (.single hpart)).code rfl (List.cons_ne_nil _ _)

theorem sound_applyBlock {node block : Node} {chars middle rest : List Char}
    (hnode : Sound chars node middle) (hcall : CallsHaveChildren node)
    (hblock : Sound middle block rest) : Sound chars (applyBlock node block) rest := by
  refine ⟨by rw [chars_applyBlock hcall, List.append_assoc, hblock.append, hnode.append], ?_⟩
  rw [applyBlock]
  split
  · rename_i hkind
    have hcode : node.kind.holdsMarkup = false := by
      rw [hkind]
      rfl
    have hplaces := hnode.places
    rw [everyPlace_of_children hcode (hcall hkind), ← hblock.append] at hplaces
    have hchildren : node.children ++ [block] ≠ [] := List.append_ne_nil_of_right_ne_nil _ (by simp)
    refine (everyPlace_with_children hcode hchildren).2 (everyPlaceOf_append.2 ⟨?_, ?_⟩)
    · rwa [charsOf_cons, charsOf_nil, List.append_nil]
    · exact (SoundRun.single hblock).places
  · exact (sound_call hnode hblock).places

end Grammar

/-! ## What the rules build -/

/-- White space in markup ends in front of something else. -/
theorem endsBlank_blank {first : Char} (hspace : isSpace first = true) (chars : List Char) :
    EndsBlank (blank (first :: chars)).1 (blank (first :: chars)).2 := by
  intro _
  have hrun : (first :: chars).takeWhile isSpace = first :: chars.takeWhile isSpace := by
    rw [List.takeWhile_cons, if_pos hspace]
  refine ⟨?_, nextIs_dropWhile isSpace (first :: chars), ?_⟩
  · rw [blank, chars_leaf, hrun]
    exact hspace
  · rw [blank, chars_leaf]
    dsimp only
    split
    · rename_i hbreak
      exact ⟨fun _ => hbreak, fun _ => rfl⟩
    · rename_i hfew
      exact ⟨fun hkind => (by cases hkind), fun hbreak => absurd hbreak hfew⟩

/-- A token of markup that starts with no white space. -/
theorem Formed.soundNode {first : Char} {chars : List Char} {token : Step}
    (htoken : Formed token.1) (hcovers : Covers [first] chars token.1 token.2)
    (hspace : isSpace first = false) :
    Sound (first :: chars) token.1 token.2 ∧ EndsBlank token.1 token.2 :=
  ⟨htoken.sound hcovers.chars_append, .of_not_isBlank (htoken.not_isBlank hcovers hspace) _⟩

theorem MarkupToken.sound {chars : List Char} {token : Step} (htoken : MarkupToken chars token) :
    Sound chars token.1 token.2 ∧ EndsBlank token.1 token.2 := by
  cases htoken with
  | blank chars hspace =>
    exact ⟨(formed_blank hspace chars).sound (blank_covers hspace chars).chars_append,
      endsBlank_blank hspace chars⟩
  | lineComment chars =>
    exact (formed_lineComment chars).soundNode ((lineComment_covers chars).shift ['/'] ['/']) rfl
  | blockComment chars =>
    exact (formed_blockComment chars).soundNode ((blockComment_covers chars).shift ['/'] ['*']) rfl
  | escape chars => exact (formed_escape chars).soundNode (escape_covers chars) rfl
  | raw chars => exact (formed_raw chars).soundNode (raw_covers chars) rfl
  | math chars => exact (formed_math chars).soundNode (math_covers chars) rfl
  | hash | bracket => exact (formed_error _ _).soundNode ⟨[], by simp, rfl⟩ rfl
  | text chars hspace hspecial hcomment =>
    exact (formed_text hspace hspecial hcomment).soundNode (text_covers _ chars) hspace

theorem AtomToken.sound {chars : List Char} {token : Step} (htoken : AtomToken chars token) :
    Sound chars token.1 token.2 := by
  cases htoken with
  | number hstarts => exact (formed_number hstarts).sound (number_covers _).chars_append
  | string chars => exact (formed_string chars).sound (string_covers chars).chars_append
  | missing => exact .error [] _ _
  | unexpected c chars => exact .error [c] _ chars

theorem isCode_word (chars : List Char) : (word chars).kind.isCode = true := by
  rw [word]
  split_ifs <;> rfl

theorem sound_delimited {kind marker : Kind} {delimiter : Char} {chars middle : List Char}
    {nodes : List Node} (hdelimits : Delimits kind marker delimiter)
    (hnodes : SoundRun chars nodes middle) (hspaced : Spaced nodes middle) (message : String) :
    Sound (delimiter :: chars)
      (inner kind (leaf marker [delimiter] :: nodes ++
        [(Grammar.closing marker delimiter message middle).1]))
      (Grammar.closing marker delimiter message middle).2 := by
  have hform : marker.Form [delimiter] := by cases hdelimits <;> rfl
  have hmarker : marker.isBlank = false := by cases hdelimits <;> rfl
  obtain ⟨hclose, hkinds⟩ := Grammar.sound_closing hform message middle
  generalize Grammar.closing marker delimiter message middle = close at hclose hkinds ⊢
  have hlast : close.1.kind.isBlank = false := by
    obtain hkind | hkind := hkinds
    · rwa [hkind]
    · rw [hkind]
      rfl
  have hchildren : SoundRun (delimiter :: chars) (leaf marker [delimiter] :: nodes ++ [close.1])
      close.2 := .concat (.cons (.mark marker delimiter hform chars) hnodes) (.single hclose)
  refine hchildren.delimited (List.cons_ne_nil _ _) (spaced_append.2 ⟨⟨?_, ?_⟩, ?_, ?_⟩)
  · exact .of_not_isBlank hmarker _
  · rwa [charsOf_cons, charsOf_nil, List.append_nil, hclose.append]
  · exact .of_not_isBlank hlast _
  · trivial

theorem sound_keyword {kind word : Kind} {keyword : List Char}
    (hkeyword : Introduces kind word keyword) (chars : List Char) :
    SoundRun (keyword ++ chars) (leaf word keyword :: (spaces chars).1) (spaces chars).2 := by
  have hform : word.Form keyword := by cases hkeyword <;> rfl
  exact .cons (.leaf hform chars) (sound_spaces chars)

theorem Heads.sound {kind : Kind} {chars rest : List Char} {start : List Node}
    (hstart : Heads kind chars start rest) : SoundRun chars start rest := by
  cases hstart with
  | mk chars hkeyword hstarts =>
    exact (sound_keyword hkeyword chars).concat (.single (sound_name hstarts))

/-- What each symbol is read as.  Code is no white space, and a hash may stand in front of it. -/
abbrev Symbol.Places : (symbol : Symbol) → List Char → symbol.Result → List Char → Prop
  | .markup, chars, nodes, rest => SoundRun chars nodes rest ∧ Spaced nodes rest
  | .markupNode, chars, node, rest => Sound chars node rest ∧ EndsBlank node rest
  | .embedded, chars, node, rest => Sound chars node rest ∧ node.kind.isCode = true
  | .value, chars, node, rest =>
    Sound chars node rest ∧ node.kind.isCode = true ∧ Grammar.CallsHaveChildren node
  | .args, chars, node, rest => Sound chars node rest ∧ node.kind = .args
  | .argItems, chars, nodes, rest => SoundRun chars nodes rest
  | .arg, chars, node, rest | .codeExpr, chars, node, rest | .codeAtom, chars, node, rest
  | .contentBlock, chars, node, rest => Sound chars node rest

/-- What is read is well placed and covers what it was read from. -/
theorem Reads.places {symbol : Symbol} {chars rest : List Char} {result : symbol.Result}
    (hreads : Reads symbol chars result rest) : symbol.Places chars result rest := by
  induction hreads with
  | markupNil chars => exact ⟨.nil chars, trivial⟩
  | markupCons _ _ hnode hnodes =>
    refine ⟨.cons hnode.1 hnodes.1, ?_, hnodes.2⟩
    rw [hnodes.1.append]
    exact hnode.2
  | markupToken htoken => exact htoken.sound
  | delimited hdelimits _ hnodes =>
    refine ⟨sound_delimited hdelimits hnodes.1 hnodes.2 _, .of_not_isBlank ?_ _⟩
    cases hdelimits <;> rfl
  | hash _ hnode =>
    obtain ⟨hsound, hblank⟩ := Grammar.sound_attachHash hnode.1 hnode.2
    exact ⟨hsound, .of_not_isBlank hblank _⟩
  | unnamed chars hkeyword =>
    refine ⟨((sound_keyword hkeyword chars).concat (.single (.error [] _ _))).code ?_ (by simp), ?_⟩
    all_goals cases hkeyword <;> rfl
  | setRule hstart _ harguments =>
    exact ⟨(hstart.sound.concat (.single harguments.1)).code rfl (by simp), rfl⟩
  | setNothing hstart =>
    exact ⟨(hstart.sound.concat (.single (.error [] _ _))).code rfl (by simp), rfl⟩
  | @letBinding _ middle behind _ _ _ hstart hequals _ hvalue =>
    have hbefore := hstart.sound.concat (sound_spaces middle)
    rw [hequals] at hbefore
    have hbehind := SoundRun.cons (.mark .eq '=' rfl behind) (sound_spaces behind)
    exact ⟨((hbefore.concat hbehind).concat (.single hvalue)).code rfl (by simp), rfl⟩
  | letNothing hstart => exact ⟨hstart.sound.code rfl hstart.ne_nil, rfl⟩
  | embedded _ _ hnode => exact ⟨hnode.1, hnode.2.1⟩
  | word hstarts => exact ⟨sound_word hstarts, isCode_word _, Grammar.callsHaveChildren_word _⟩
  | group _ harguments =>
    obtain ⟨hnode, hkind⟩ := harguments
    refine ⟨hnode, ?_, ?_⟩
    · rw [hkind]
      rfl
    · intro hcall
      rw [hkind] at hcall
      cases hcall
  | call _ _ hnode harguments =>
    exact ⟨Grammar.sound_call hnode.1 harguments.1, rfl, fun _ => List.cons_ne_nil _ _⟩
  | @block _ _ _ node block _ _ hnode hblock =>
    obtain ⟨hkind, hchildren⟩ := Grammar.called_applyBlock node block
    refine ⟨Grammar.sound_applyBlock hnode.1 hnode.2.2 hblock, ?_, fun _ => hchildren⟩
    rw [hkind]
    rfl
  | @args chars _ _ _ hitems =>
    have hopen := SoundRun.cons (.mark .leftParen '(' rfl chars) (sound_trivia chars)
    exact ⟨(hopen.concat hitems).code rfl (by simp), rfl⟩
  | argsUnclosed chars => exact .single (.error [] _ chars)
  | argsClosed chars => exact .single (.mark .rightParen ')' rfl chars)
  | @comma chars _ _ _ hitems =>
    exact (SoundRun.cons (.mark .comma ',' rfl chars) (sound_trivia chars)).concat hitems
  | item _ _ _ hnode hitems => exact (SoundRun.cons hnode (sound_trivia _)).concat hitems
  | @named _ behind _ _ hstarts hcolon _ hvalue =>
    have hkey := sound_name hstarts
    rw [hcolon] at hkey
    have hfront := SoundRun.cons hkey (.cons (.mark .colon ':' rfl behind) (sound_trivia behind))
    exact (hfront.concat (.single hvalue)).code rfl (by simp)
  | unnamedArg _ hnode => exact hnode
  | codeExpr _ hnode => exact hnode
  | binary _ hoperator _ hleft hright =>
    have hmark := (formed_binaryOperator hoperator).sound
      (binaryOperator_covers hoperator).1.chars_append
    have hfront := SoundRun.cons hleft (sound_trivia _)
    have hbehind := SoundRun.cons hmark (sound_trivia _)
    exact ((hfront.concat hbehind).concat (.single hright)).code rfl (by simp)
  | atomToken htoken => exact htoken.sound
  | value _ hnode => exact hnode.1
  | content _ hnode => exact hnode
  | @contentBlock chars middle _ _ hnodes =>
    have hform : Kind.Form .rightBracket [']'] := rfl
    have hclose := (Grammar.sound_closing hform "unclosed delimiter" middle).1
    exact (SoundRun.cons (.mark .leftBracket '[' rfl chars)
      (.cons (hnodes.1.markup hnodes.2) (.single hclose))).code rfl (by simp)

/-! ## Whole texts -/

theorem wellPlaced_parse (text : String) : (parse text).EveryPlace WellPlaced [] := by
  obtain ⟨hnodes, hspaced⟩ := (reads_topLevel text.toList).places
  have hroot := (hnodes.markup hspaced).places
  rw [← everyPlace_withSpan_iff detached (wellPlaced_withSpan_iff detached),
    show (parse text).withSpan detached =
      (inner .markup (Grammar.topLevel text.toList)).withSpan detached from erase_parse text,
    everyPlace_withSpan_iff detached (wellPlaced_withSpan_iff detached)]
  exact hroot

/-- Every leaf of every text is a token of its kind, and white space in markup is as long as it can
be. -/
theorem leaves_are_tokens (text : String) :
    (∀ leaf ∈ (parse text).leaves, leaf.kind.Form leaf.text.toList) ∧
    (parse text).EveryPlace
      (fun node behind => node.chars ++ behind <:+ text.toList ∧ MaximalBlanks node behind) [] := by
  have hroot := wellPlaced_parse text
  constructor
  · intro leaf hleaf
    obtain ⟨hchildren, behind, hplaced⟩ := exists_of_mem_leaves _ _ hroot leaf hleaf
    exact hplaced.form hchildren
  · have hall : (parse text).chars ++ [] = text.toList := by rw [chars_parse, List.append_nil]
    have hwithin : (parse text).chars ++ [] <:+ text.toList := hall ▸ List.suffix_refl _
    refine (hroot.within _ _ hwithin).imp ?_ _ _
    rintro node behind ⟨hchars, hplaced⟩
    refine ⟨hchars, ?_⟩
    intro hkind front blank back hchildren hblank
    have hspaced := hplaced.spaced hkind
    rw [hchildren] at hspaced
    exact hspaced.maximal hblank

/-- A fraction is neither a letter nor a digit, and a name goes on with it. -/
theorem name_goes_on_with_fraction :
    ∃ leaf ∈ (parse "#a½").leaves, leaf.kind = .ident ∧
      ∃ c ∈ leaf.text.toList, isLetter c = false ∧ isDigit c = false ∧ c ≠ '_' := by
  have hname : ((parse "#a½").leaves.find? fun leaf => leaf.kind = .ident).map Node.text =
      some "a½" := by
    decide +kernel
  obtain ⟨leaf, hfound, htext⟩ := Option.map_eq_some_iff.1 hname
  have hkind : leaf.kind = .ident := by simpa using List.find?_some hfound
  have hfraction : '½' ∈ leaf.text.toList := by
    rw [htext]
    decide
  exact ⟨leaf, List.mem_of_find?_eq_some hfound, hkind, '½', hfraction, by decide +kernel,
    by decide +kernel, by decide⟩

end Galley.Syntax
