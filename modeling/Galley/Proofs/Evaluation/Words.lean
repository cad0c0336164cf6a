import Galley.Proofs.Evaluation.Documents
import Galley.Proofs.Fixture.Lines
import Galley.Proofs.Leaf.Name
import Galley.Proofs.World.Loadable
import Galley.Proofs.World.Reached

/-!
# Words in content

A text in the content of a document is a word, because plain text ends at white space and strings
are cut where they have spaces.  There are three ways around this.  An escape stands for any
character, a string may hold other white space than spaces, and a link without a body shows its
destination uncut.  Whatever else is computed on the way, white space in a text can be traced back
to one of them.
-/

namespace Galley.Compile

open Syntax Document Text Eval

/-! ## Where white space comes from -/

/-- The texts that an evaluation may come across: those of the sources of a world, and of the files
that can be read. -/
inductive World.Knows (world : World) (files : File.Tree) : String → Prop
  | source {source : Source} (hsource : source ∈ world.sources) : Knows world files source.text
  | file {path : File.Path} {bytes : ByteArray} {text : String}
      (hread : files.read path = .ok (.bytes bytes)) (htext : String.fromUTF8? bytes = some text) :
      Knows world files text

variable {known : String → Prop} {c : Char} {chars : List Char} {node : Node}

/-- An escape in one of the texts stands for a character. -/
def Escaped (known : String → Prop) (c : Char) : Prop :=
  ∃ text, known text ∧ ∃ node ∈ (parse text).preorder,
    node.kind = .escape ∧ Literal.escaped node.text.toList = [c]

/-- A string in one of the texts holds a character. -/
def Quoted (known : String → Prop) (c : Char) : Prop :=
  ∃ text, known text ∧ ∃ node ∈ (parse text).preorder,
    node.kind = .str ∧ c ∈ Literal.string node.text.toList

/-- A text that would be a word but for an escape or for the white space of strings.  Of the white
space that an escape stands for, it is all there is, and spaces never come from strings. -/
structure WordBut (known : String → Prop) (chars : List Char) : Prop where
  ne_nil : chars ≠ []
  spaces : ∀ c ∈ chars, isSpace c = true →
    (chars = [c] ∧ Escaped known c) ∨ (c ≠ ' ' ∧ Quoted known c)

theorem wordBut_of_word (hword : Word chars) : WordBut known chars :=
  ⟨hword.ne_nil, fun c hc hspace =>
    absurd ((hword.unspaced c hc).symm.trans hspace) Bool.false_ne_true⟩

/-- Where neither escapes nor strings bring white space along, the text is a word. -/
theorem WordBut.word (hchars : WordBut known chars)
    (hescapes : ∀ c, Escaped known c → isSpace c = false)
    (hquotes : ∀ c, Quoted known c → isSpace c = true → c = ' ') : Word chars := by
  refine ⟨hchars.ne_nil, fun c hc => Bool.eq_false_iff.2 fun hspace => ?_⟩
  obtain ⟨-, hescape⟩ | ⟨hother, hquote⟩ := hchars.spaces c hc hspace
  · exact Bool.false_ne_true ((hescapes c hescape).symm.trans hspace)
  · exact hother (hquotes c hquote hspace)

/-! ## Leaves -/

/-- A node of a known text, with the form of its kind if it is set as text. -/
structure Found (known : String → Prop) (node : Node) : Prop where
  origin : ∃ text, known text ∧ ∃ own ∈ (parse text).preorder,
    own.kind = node.kind ∧ own.text = node.text
  form : node.kind = .text ∨ node.kind = .escape → node.kind.Form node.text.toList

theorem found_of_erase_eq {root : Node} {text : String} (hknown : known text)
    (hroot : root.erase = (parse text).erase) (hclean : root.errors = []) :
    root.Everywhere (Found known) := by
  have horigin : root.Everywhere fun node => ∃ own ∈ (parse text).preorder,
      own.kind = node.kind ∧ own.text = node.text := by
    have hspan : ∀ node : Node,
        (∃ own ∈ (parse text).preorder, own.kind = (node.withSpan detached).kind ∧
          own.text = (node.withSpan detached).text) ↔
        ∃ own ∈ (parse text).preorder, own.kind = node.kind ∧ own.text = node.text :=
      fun node => by rw [Node.kind_withSpan, Node.text_withSpan]
    rw [← Node.everywhere_withSpan_iff detached hspan,
      show root.withSpan detached = (parse text).withSpan detached from hroot,
      Node.everywhere_withSpan_iff detached hspan]
    exact fun node hnode => ⟨node, hnode, rfl, rfl⟩
  have hshaped := (shaped_of_erase_eq hroot hclean).2
  refine fun node hnode => ⟨⟨text, hknown, horigin node hnode⟩, fun hkind => ?_⟩
  apply formed_of_erase_eq hroot node hnode
  have hshape := hshaped node hnode
  rw [Shaped] at hshape
  obtain hkind | hkind := hkind <;> rw [hkind] at hshape <;> exact List.map_eq_nil_iff.1 hshape.1

/-- An escape stands for one character. -/
theorem exists_escaped (hform : Kind.Form .escape chars) : ∃ c, Literal.escaped chars = [c] := by
  obtain ⟨c, -, rfl⟩ | ⟨digits, -, -, rfl⟩ := hform
  · exact ⟨c, by simp [Literal.escaped, Literal.escapedDigits?]⟩
  · exact ⟨_, rfl⟩

namespace Found

theorem word (hnode : Found known node) (hkind : node.kind = .text) :
    WordBut known node.text.toList := by
  have hform := hnode.form (.inl hkind)
  rw [hkind] at hform
  exact wordBut_of_word ⟨hform.1, fun c hc => (hform.2.1 c hc).1⟩

theorem escape (hnode : Found known node) (hkind : node.kind = .escape) :
    WordBut known (Literal.escaped node.text.toList) := by
  have hform := hnode.form (.inr hkind)
  rw [hkind] at hform
  obtain ⟨c, hescaped⟩ := exists_escaped hform
  obtain ⟨text, hknown, own, hown, hsame, htext⟩ := hnode.origin
  rw [hescaped]
  refine ⟨List.cons_ne_nil _ _, List.forall_mem_singleton.2 fun _ => .inl ⟨rfl, ?_⟩⟩
  exact ⟨text, hknown, own, hown, hsame.trans hkind, htext ▸ hescaped⟩

theorem literal (hnode : Found known node) (hkind : node.kind = .str)
    (hc : c ∈ Literal.string node.text.toList) : Quoted known c := by
  obtain ⟨text, hknown, own, hown, hsame, htext⟩ := hnode.origin
  exact ⟨text, hknown, own, hown, hsame.trans hkind, htext ▸ hc⟩

end Found

/-! ## Evaluations -/

/-- Every source has a known text and its tree. -/
structure Read (known : String → Prop) (world : World) : Prop where
  faithful : Faithful world.sources
  known : ∀ source ∈ world.sources, known source.text

theorem known_of_load {world : World} {files : File.Tree} {path : File.Path} {text : String}
    (hfiles : ∀ {path bytes text}, files.read path = .ok (.bytes bytes) →
      String.fromUTF8? bytes = some text → known text)
    (hload : world.load files path = .ok text) : known text := by
  rw [World.load] at hload
  split at hload
  · cases hload
  · split at hload
    case h_5 bytes hread =>
      split at hload
      · rename_i found hfound
        cases hload
        exact hfiles hread hfound
      · cases hload
    all_goals cases hload

theorem Read.of_sources {world after : World} (hworld : Read known world)
    (hsources : after.sources = world.sources) : Read known after where
  faithful := hsources ▸ hworld.faithful
  known := hsources ▸ hworld.known

theorem Read.resolve {files : File.Tree} {world : World} (hworld : Read known world)
    (hfiles : ∀ {path bytes text}, files.read path = .ok (.bytes bytes) →
      String.fromUTF8? bytes = some text → known text) (path : File.Path) :
    Read known (world.resolve files path).2 := by
  obtain ⟨_, -, hresolve⟩ | ⟨-, ⟨text, hload, hresolve⟩ | ⟨_, -, hresolve⟩ | ⟨_, -, hresolve⟩⟩ :=
    World.resolve_cases world files path <;> rw [hresolve]
  · exact hworld
  · have hinserted : Read known (world.insert (world.normalize path) text).2 :=
      ⟨List.forall_mem_append.2 ⟨hworld.faithful, List.forall_mem_singleton.2 rfl⟩,
        List.forall_mem_append.2
          ⟨hworld.known, List.forall_mem_singleton.2 (known_of_load hfiles hload)⟩⟩
    exact hinserted.of_sources (World.sources_setSlot _ _ _)
  · exact hworld.of_sources (World.sources_setSlot _ _ _)
  · exact hworld.of_sources (World.sources_setSlot _ _ _)

/-- Text is set in words, but for what escapes and strings bring along, and strings have the white
space of the strings in the sources and spaces. -/
def wordedLetters (known : String → Prop) : Discipline idleWatch where
  holds _ machine := Read known machine.world ∧ ∀ entry ∈ machine.scope,
    Among (fun letter => WordBut known letter.text.toList)
      (fun c => isSpace c = true → c = ' ' ∨ Quoted known c) (fun _ => True) entry.2
  letters _ letter := WordBut known letter.text.toList
  texts := WordBut known
  chars c := isSpace c = true → c = ' ' ∨ Quoted known c
  admits := Found known
  fine _ := rfl
  count _ hholds := hholds
  print _ hholds := hholds
  report _ _ hholds _ := hholds
  restyle _ hholds _ := hholds
  enterStrong hholds := hholds
  leaveStrong _ hholds := hholds
  enterEmph hholds := hholds
  leaveEmph _ hholds := hholds
  bind _ _ _ hholds hvalue := ⟨hholds.1, List.forall_mem_cons.2 ⟨hvalue, hholds.2⟩⟩
  set _ _ htext := htext
  word hnode hkind := hnode.word hkind
  escape hnode hkind := hnode.escape hkind
  piece hsome hpiece := ⟨hsome, fun c hc hspace =>
    .inr ⟨(hpiece c hc).1, ((hpiece c hc).2 hspace).resolve_left (hpiece c hc).1⟩⟩
  literal hnode hkind _ hc _ := .inr (hnode.literal hkind hc)
  printed hc hspace := .inl (hc hspace)
  scope hholds hentry := hholds.2 _ hentry

theorem carries_wordedLetters {files : File.Tree}
    (hfiles : ∀ {path bytes text}, files.read path = .ok (.bytes bytes) →
      String.fromUTF8? bytes = some text → known text) :
    (wordedLetters known).Carries files (Read known) where
  start hworld := ⟨hworld, List.forall_mem_nil _⟩
  world hholds := hholds.1
  resolve path hworld := hworld.resolve hfiles path
  absorb _ _ hholds hended _ := ⟨hended.1, hholds.2⟩
  cyclic := trivial
  missing _ _ := trivial
  clean hworld hsource :=
    found_of_erase_eq (hworld.known _ hsource) (hworld.faithful _ hsource)
  faulty hworld _ := ⟨hworld, List.forall_mem_nil _⟩

/-! ## Shown strings -/

/-- The characters that an element of a shown string stands for. -/
def spelled : Elem → List Char
  | .text word _ _ _ => word.toList
  | .space _ => [' ']
  | _ => []

/-- Content that spells a text in the style of a machine: each space of the text is one in the
content, and what is in between is set in one piece. -/
structure Spells (machine : Machine) (chars : List Char) (elems : Content) : Prop where
  spelled : elems.flatMap spelled = chars
  parts : ∀ elem ∈ elems, elem = .space machine.styles.textSize ∨ ∃ word : String,
    word ≠ "" ∧ ' ' ∉ word.toList ∧
      elem = .text word machine.styles.textSize machine.strong machine.emph
  apart : elems.IsChain fun left right =>
    left = .space machine.styles.textSize ∨ right = .space machine.styles.textSize

variable {machine : Machine}

theorem exists_wordElems {piece : List Char} (hpiece : ' ' ∉ piece) (machine : Machine) :
    ∃ elems, pieceElems.wordElems piece machine = (.ok elems, machine) ∧
      Spells machine piece elems ∧ elems.length ≤ 1 := by
  rw [pieceElems.wordElems]
  split
  · rename_i hnone
    obtain rfl := List.isEmpty_iff.1 hnone
    exact ⟨[], rfl, ⟨rfl, List.forall_mem_nil _, .nil⟩, Nat.zero_le _⟩
  · rename_i hsome
    refine ⟨_, rfl, ⟨?_, List.forall_mem_singleton.2 (.inr ⟨_, ?_, ?_, rfl⟩), .singleton _⟩,
      Nat.le_refl _⟩
    · rw [List.flatMap_singleton, Compile.spelled, String.toList_ofList]
    · simpa using hsome
    · rwa [String.toList_ofList]

theorem textSize_bind {β : Type} (next : Length → Eval β) (machine : Machine) :
    (textSize >>= next) machine = next machine.styles.textSize machine := rfl

theorem exists_pieceElems {pieces : List (List Char)} (hpieces : ∀ piece ∈ pieces, ' ' ∉ piece)
    (machine : Machine) : ∃ elems, pieceElems pieces machine = (.ok elems, machine) ∧
      Spells machine (joinWith [' '] pieces) elems := by
  induction pieces using pieceElems.induct with
  | case1 => exact ⟨[], rfl, rfl, List.forall_mem_nil _, .nil⟩
  | case2 last =>
    obtain ⟨elems, hshown, hspells, -⟩ :=
      exists_wordElems (hpieces last (List.mem_singleton_self _)) machine
    refine ⟨elems, hshown, ?_⟩
    rwa [joinWith_cons, List.flatMap_nil, List.append_nil]
  | case3 first rest hrest ih =>
    obtain ⟨hfirst, hpieces⟩ := List.forall_mem_cons.1 hpieces
    obtain ⟨front, hfront, hfrontSpells, hlength⟩ := exists_wordElems hfirst machine
    obtain ⟨behind, hbehind, hbehindSpells⟩ := ih hpieces
    obtain ⟨next, rest, rfl⟩ := List.exists_cons_of_ne_nil hrest
    refine ⟨front ++ .space machine.styles.textSize :: behind, ?_, ?_, ?_, ?_⟩
    · rw [pieceElems, bind_apply, hfront]
      · dsimp only
        rw [textSize_bind, bind_apply, hbehind]
        rfl
      · exact hrest
    · calc
        (front ++ .space machine.styles.textSize :: behind).flatMap Compile.spelled
          = front.flatMap Compile.spelled ++ [' '] ++ behind.flatMap Compile.spelled := by
            simp [Compile.spelled]
        _ = joinWith [' '] (first :: next :: rest) := by
            rw [hfrontSpells.spelled, hbehindSpells.spelled,
              joinWith_cons_of_ne_nil _ _ (List.cons_ne_nil _ _), List.append_assoc]
    · exact List.forall_mem_append.2 ⟨hfrontSpells.parts,
        List.forall_mem_cons.2 ⟨.inl rfl, hbehindSpells.parts⟩⟩
    · have hspace : (Elem.space machine.styles.textSize :: behind).IsChain fun left right =>
          left = .space machine.styles.textSize ∨ right = .space machine.styles.textSize :=
        hbehindSpells.apart.cons fun _ _ => .inl rfl
      -- There is at most one element in front of the space.
      obtain _ | ⟨word, _ | ⟨other, front⟩⟩ := front
      · exact hspace
      · exact hspace.cons_cons (.inr rfl)
      · simp at hlength

/-- What is shown of a string spells it. -/
theorem exists_display_str (text : String) (machine : Machine) :
    ∃ elems, display (.str text) machine = (.ok elems, machine) ∧
      Spells machine text.toList elems := by
  rw [display]
  have hpieces : ∀ piece ∈ splitWhen (· == ' ') text.toList, ' ' ∉ piece :=
    fun piece hpiece hspace => by simpa using (mem_of_mem_splitWhen hpiece hspace).2
  obtain ⟨elems, hshown, hspells⟩ := exists_pieceElems hpieces machine
  rw [joinWith_splitWhen] at hspells
  exact ⟨elems, hshown, hspells⟩

/-- Any other value that is no content is shown as its written form. -/
theorem display_eq_str {value : Value} {text : String} (htext : value.repr = .ok text)
    (hvalue : value.typeName ∉ ["none", "content", "string"]) :
    display value = display (.str text) := by
  have hshown : display value = (do
      let text ← lift value.repr
      pieceElems (splitWhen (· == ' ') text.toList)) := by
    cases value with
    | none => simp [Value.typeName] at hvalue
    | content => simp [Value.typeName] at hvalue
    | str => simp [Value.typeName] at hvalue
    | _ => rfl
  rw [hshown, htext]
  rfl

/-- An escape is set as the one character that it stands for, if there is such a character. -/
theorem evalLeaf_escape {text : String} (hform : Kind.Form .escape text.toList)
    (hscalar : ∀ digits, Literal.escapedDigits? text.toList = some digits →
      Literal.isScalar (hexNumber digits) = true) (span : Int) (machine : Machine) :
    evalLeaf .escape text span machine =
      (.ok (.content [.text (String.ofList (Literal.escaped text.toList)) machine.styles.textSize
        machine.strong machine.emph]), machine) := by
  rw [evalLeaf, Literal.escaped]
  cases hescape : Literal.escapedDigits? text.toList with
  | none => rfl
  | some digits =>
    have htext : LeafText .escape text.toList := hform.imp_left (Exists.imp fun _ => And.right)
    dsimp only
    rw [isHexadecimal_of_escape htext hescape, hscalar digits hescape]
    rfl

/-! ## What texts are -/

/-- In every world, each text that a source comes to is a word, but for the white space of escapes
and strings in the sources and files that there are, unless it is the destination of a link without
a body.  If those are words and there is no such white space, all texts are words.  A string is cut
at its spaces, which become spaces of the content, and so is the written form of any other value;
only a link without a body shows its destination as it is.  An escape is set as the character that
it stands for, even if that is a space. -/
theorem texts_are_words (files : File.Tree) :
    (∀ depth route source (outside after : Surroundings) (module : Module),
      outside.world.Reached (fun _ => True) → source ∈ outside.world.sources →
      evaluate files depth route source outside = (.ok module, after) →
      (∀ text ∈ Elem.textsAll module.content,
        WordBut (outside.world.Knows files) text.toList ∨
          text ∈ Elem.destinationsAll module.content) ∧
      ((∀ c, Escaped (outside.world.Knows files) c → isSpace c = false) →
        (∀ c, Quoted (outside.world.Knows files) c → isSpace c = true → c = ' ') →
        (∀ dest ∈ Elem.destinationsAll module.content, Word dest.toList) →
        ∀ text ∈ Elem.textsAll module.content, Word text.toList)) ∧
    (∀ text machine, ∃ elems, display (.str text) machine = (.ok elems, machine) ∧
      Spells machine text.toList elems) ∧
    (∀ value text, value.repr = .ok text → value.typeName ∉ ["none", "content", "string"] →
      display value = display (.str text)) ∧
    (∀ context span place dest machine,
      call context .link span [⟨none, .str dest, place⟩] machine =
        (.ok (.content [.link dest [.text dest machine.styles.textSize false false]]),
          machine)) ∧
    (∀ text span machine, Kind.Form .escape text.toList →
      (∀ digits, Literal.escapedDigits? text.toList = some digits →
        Literal.isScalar (hexNumber digits) = true) →
      evalLeaf .escape text span machine =
        (.ok (.content [.text (String.ofList (Literal.escaped text.toList))
          machine.styles.textSize machine.strong machine.emph]), machine)) := by
  refine ⟨?_, exists_display_str, fun value text => display_eq_str, fun _ _ _ _ _ => rfl,
    fun text span machine hform hscalar => evalLeaf_escape hform hscalar span machine⟩
  intro depth route source outside after module hworld hsource hmodule
  have hread : Read (outside.world.Knows files) outside.world :=
    ⟨hworld.faithful, fun source hsource => .source hsource⟩
  have hcarries : (wordedLetters (outside.world.Knows files)).Carries files
      (Read (outside.world.Knows files)) := carries_wordedLetters .file
  have hyields := hcarries.yields depth route hread hsource
  rw [hmodule] at hyields
  obtain ⟨machine, hconforms⟩ := hyields
  have htexts : ∀ text ∈ Elem.textsAll module.content,
      WordBut (outside.world.Knows files) text.toList ∨
        text ∈ Elem.destinationsAll module.content := by
    intro text htext
    refine (Elem.mem_of_mem_textsAll _ htext).imp_left fun hletters => ?_
    obtain ⟨letter, hletter, rfl⟩ := List.mem_map.1 hletters
    exact hconforms.content letter hletter
  refine ⟨htexts, fun hescapes hquotes hdestinations text htext => ?_⟩
  obtain hword | hdest := htexts text htext
  · exact hword.word hescapes hquotes
  · exact hdestinations text hdest

/-- A world with one source, which is the main one. -/
def withSource (text : String) : Surroundings :=
  { world := (World.set { root := .current } { names := ["m"] } text).2 }

/-- The texts that its source comes to. -/
def shownTexts (text : String) : Option (List String) :=
  (compile ⟨[]⟩ (withSource text)).1.toOption.map fun compiled =>
    Elem.textsAll compiled.module.content

/-- Plain text, an escape, a string of two words and a link to one. -/
def mixedText : String :=
  "a\\#\n#let s = \"b c\"\n#s#link(\"d\")"

/-- Where there are no files, only its own text is known. -/
theorem knows_mixedText {text : String} (hknown : (withSource mixedText).world.Knows ⟨[]⟩ text) :
    text = mixedText := by
  obtain hsource | ⟨hread, -⟩ := hknown
  · exact congrArg Source.text (List.mem_singleton.1 hsource)
  · exact nomatch File.Tree.mem_entries_of_entry (File.Tree.entry?_of_read hread)

/-- All of it is set in words. -/
theorem texts_are_words_mixed :
    let outside := withSource mixedText
    outside.world.Reached (fun _ => True) ∧
    (∀ c, Escaped (outside.world.Knows ⟨[]⟩) c → isSpace c = false) ∧
    (∀ c, Quoted (outside.world.Knows ⟨[]⟩) c → isSpace c = true → c = ' ') ∧
    (∃ source module after, source ∈ outside.world.sources ∧
      evaluate ⟨[]⟩ 1 [] source outside = (.ok module, after) ∧
      Elem.textsAll module.content = ["a", "#", "b", "c", "d"] ∧
      ∀ text ∈ Elem.textsAll module.content, Word text.toList) ∧
    display (.array [.none, .bool true]) = display (.str "(none, true)") ∧
    ∀ span machine, evalLeaf .escape "\\#" span machine =
      (.ok (.content [.text "#" machine.styles.textSize machine.strong machine.emph]),
        machine) := by
  intro outside
  have hworld : outside.world.Reached fun _ => True :=
    .step (.new _) (.set _ _ _) fun _ _ => trivial
  have hescapes : ∀ c, Escaped (outside.world.Knows ⟨[]⟩) c → isSpace c = false := by
    rintro c ⟨text, htext, node, hnode, hkind, hescaped⟩
    obtain rfl := knows_mixedText htext
    have hall : ∀ node ∈ (parse mixedText).preorder, node.kind = .escape →
        (Literal.escaped node.text.toList).all (fun c => !isSpace c) = true := by
      decide +kernel
    have hown := hall node hnode hkind
    rw [hescaped] at hown
    simpa using hown
  have hquotes : ∀ c, Quoted (outside.world.Knows ⟨[]⟩) c → isSpace c = true → c = ' ' := by
    rintro c ⟨text, htext, node, hnode, hkind, hc⟩
    obtain rfl := knows_mixedText htext
    have hall : ∀ node ∈ (parse mixedText).preorder, node.kind = .str →
        (Literal.string node.text.toList).all (fun c => !isSpace c || c == ' ') = true := by
      decide +kernel
    have hown : SpacedBut (fun _ => False) (Literal.string node.text.toList) :=
      spaced_of_all (hall node hnode hkind)
    exact fun hspace => (hown c hc hspace).resolve_right id
  refine ⟨hworld, hescapes, hquotes, ?_,
    (texts_are_words ⟨[]⟩).2.2.1 _ _ rfl (by decide), fun span machine =>
      (texts_are_words ⟨[]⟩).2.2.2.2 "\\#" span machine (.inl ⟨'#', rfl, rfl⟩) nofun⟩
  have hshown : (evaluate ⟨[]⟩ 1 [] (Source.new 0 { names := ["m"] } mixedText)
      outside).1.toOption.map (fun module => (Elem.textsAll module.content,
        Elem.destinationsAll module.content)) = some (["a", "#", "b", "c", "d"], ["d"]) := by
    decide +kernel
  generalize houtcome : evaluate ⟨[]⟩ 1 [] (Source.new 0 { names := ["m"] } mixedText) outside =
    outcome at hshown
  obtain ⟨failure | module, after⟩ := outcome
  · cases hshown
  · obtain ⟨htexts, hdestinations⟩ := Prod.mk.inj (Option.some.inj hshown)
    have hsource : Source.new 0 { names := ["m"] } mixedText ∈ outside.world.sources :=
      List.mem_singleton_self _
    refine ⟨_, module, after, hsource, houtcome, htexts, ?_⟩
    apply ((texts_are_words ⟨[]⟩).1 _ _ _ _ _ _ hworld hsource houtcome).2 hescapes hquotes
    rw [show Elem.destinationsAll module.content = ["d"] from hdestinations]
    decide

/-- A destination and a string bring white space along, and so does an escape.  An empty destination
is no word either. -/
theorem texts_with_white_space :
    (∀ entry ∈ [("#link(\"a b\")", "a b"), ("#link(\"\")", ""),
        ("#let s = \"a\\tb\"\n#s", "a\tb")],
      (parse entry.1).errors = [] ∧ shownTexts entry.1 = some [entry.2] ∧
        ¬Word entry.2.toList) ∧
    ((parse "\\u\x7b20\x7d").leaves.map fun leaf => (leaf.kind, leaf.text)) =
      [(.escape, "\\u\x7b20\x7d")] ∧
    Literal.escaped "\\u\x7b20\x7d".toList = [' '] ∧ ¬Word [' '] :=
  ⟨by decide +kernel, by decide +kernel, by decide +kernel, by decide⟩

end Galley.Compile
