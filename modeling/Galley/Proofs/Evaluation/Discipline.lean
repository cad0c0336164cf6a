import Galley.Proofs.Evaluation.Watch

/-!
# Disciplines

A discipline says what holds of the machine at every place of a tree, what the letters look like
that are set there, and which errors are reported.  It lists what has to be kept by the few steps
that change a machine: a computation is counted, something is printed or reported, styles are set,
a name is bound, and strong or emphasized text is entered and left.  An evaluation abides by it if
it does so whatever it comes to, and if a watch that likes what the discipline keeps makes no
difference to it.
-/

namespace Galley.Compile

open Syntax Document Eval

/-! ## What values are made of -/

/-- The letters of a value and the characters of its strings are some of those given, and if it is a
function, it is one of those. -/
structure Among (letters : Letters → Prop) (chars : Char → Prop) (calls : Document.Native → Prop)
    (value : Value) : Prop where
  letters : ∀ letter ∈ value.letters, letters letter
  chars : ∀ string ∈ value.strings, ∀ c ∈ string.toList, chars c
  calls : ∀ native, value = .func native → calls native

/-! ## Disciplines

Unless a discipline says otherwise, any letters may be set, any errors reported, any texts stand for
names and any nodes be evaluated.
-/

structure Discipline (watch : Watch) where
  /-- What holds of the machine at a place. -/
  holds : watch.Place → Machine → Prop
  /-- The letters that are set at a place. -/
  letters : watch.Place → Letters → Prop := fun _ _ => True
  /-- The texts that are set. -/
  texts : List Char → Prop := fun _ => True
  /-- The characters of strings. -/
  chars : Char → Prop := fun _ => True
  reports : EvalError → Prop := fun _ => True
  /-- The texts that stand for names. -/
  named : String → Prop := fun _ => True
  /-- The functions that may be called. -/
  calls : Document.Native → Prop := fun _ => True
  /-- The nodes that may be evaluated. -/
  admits : Node → Prop := fun _ => True
  fine : ∀ {place machine}, holds place machine → watch.fine place machine = true
  count : ∀ {place machine} (computations : Nat), holds place machine →
    holds place { machine with computations }
  print : ∀ {place machine} (printed : String), holds place machine →
    holds place { machine with printed }
  report : ∀ {place machine error} (source span : Int), holds place machine → reports error →
    holds place { machine with
      diagnostics := machine.diagnostics ++ [⟨source, span, error.message⟩] }
  /-- Styles may be set if they are sound as long as those of the machine are, now and before. -/
  restyle : ∀ {place before machine styles}, holds place before → holds place machine →
    (before.styles.Sound → machine.styles.Sound → styles.Sound) →
      holds place { machine with styles }
  enterStrong : ∀ {place machine}, holds place machine →
    holds (watch.strong place) { machine with strong := true }
  leaveStrong : ∀ {place before machine}, holds place before →
    holds (watch.strong place) machine → holds place { machine with strong := before.strong }
  enterEmph : ∀ {place machine}, holds place machine →
    holds (watch.emph place) { machine with emph := true }
  leaveEmph : ∀ {place before machine}, holds place before →
    holds (watch.emph place) machine → holds place { machine with emph := before.emph }
  bind : ∀ {place machine node value} (name : String), admits node → node.kind = .letBinding →
    holds place machine → Among (letters place) chars calls value →
      holds place { machine with scope := (name, value) :: machine.scope }
  set : ∀ {place machine} (text : String), holds place machine → texts text.toList →
    letters place ⟨text, machine.strong, machine.emph⟩ := by intros; trivial
  word : ∀ {node}, admits node → node.kind = .text → texts node.text.toList := by intros; trivial
  escape : ∀ {node}, admits node → node.kind = .escape →
    texts (Literal.escaped node.text.toList) := by intros; trivial
  /-- Strings are shown piece by piece. -/
  piece : ∀ {piece}, piece ≠ [] → (∀ c ∈ piece, c ≠ ' ' ∧ chars c) → texts piece := by
    intros; trivial
  literal : ∀ {node}, admits node → node.kind = .str →
    ∀ c ∈ Literal.string node.text.toList, chars c := by intros; trivial
  /-- Values are printed with the characters of their strings and with words and spaces. -/
  printed : ∀ {c}, (Text.isSpace c = true → c = ' ') → chars c := by intros; trivial
  strong : ∀ {place node letter}, admits node → node.kind = .strong →
    letters (watch.strong place) letter → letters place letter := by intros; trivial
  emph : ∀ {place node letter}, admits node → node.kind = .emph →
    letters (watch.emph place) letter → letters place letter := by intros; trivial
  scope : ∀ {place machine entry}, holds place machine → entry ∈ machine.scope →
    Among (letters place) chars calls entry.2 := by
    exact fun _ _ => ⟨fun _ _ => trivial, fun _ _ _ _ => trivial, fun _ _ => trivial⟩
  sourced : ∀ {error}, EvalError.Sourced named error → reports error := by intros; trivial
  ident : ∀ {node}, admits node → node.kind = .ident → named node.text := by intros; trivial
  callable : ∀ {node native}, admits node → node.kind = .ident → native.name = node.text →
    calls native := by intros; trivial
  argument : ∀ {node name expression}, admits node → node.kind = .named →
    node.children.filter isMeaningful = [name, expression] → named name.text := by intros; trivial
  target : ∀ {node word target arguments}, admits node → node.kind = .setRule →
    node.children.filter isMeaningful = [word, target, arguments] →
      named target.text := by intros; trivial

variable {watch : Watch} {discipline : Discipline watch} {place : watch.Place} {α β : Type}

namespace Discipline

/-- A value is made of what is allowed at a place. -/
abbrev Fits (discipline : Discipline watch) (place : watch.Place) (value : Value) : Prop :=
  Among (discipline.letters place) discipline.chars discipline.calls value

/-- The letters of content are those of a place. -/
def Sets (discipline : Discipline watch) (place : watch.Place) (content : Content) : Prop :=
  ∀ letter ∈ Elem.lettersAll content, discipline.letters place letter

/-- Arguments fit a place, and their names are names. -/
def Takes (discipline : Discipline watch) (place : watch.Place) (args : List Arg) : Prop :=
  ∀ arg ∈ args, discipline.Fits place arg.value ∧
    ∀ name, arg.name = some name → discipline.named name

/-- A result that the discipline allows. -/
def Allows (discipline : Discipline watch) (returns : α → Prop) : Except Stop α → Prop
  | .ok value => returns value
  | .error (.report _ error) => discipline.reports error
  | .error (.failure _) => True

theorem fits_of_isPlain {value : Value} (hplain : value.isPlain = true) :
    discipline.Fits place value := by
  obtain ⟨hletters, hstrings, hnative⟩ := Value.isPlain_iff.1 hplain
  refine ⟨?_, ?_, fun native hvalue => absurd hvalue (hnative native)⟩
  · exact hletters ▸ List.forall_mem_nil _
  · exact hstrings ▸ List.forall_mem_nil _

theorem fits_str {text : String} (htext : ∀ c ∈ text.toList, discipline.chars c) :
    discipline.Fits place (.str text) where
  letters := List.forall_mem_nil _
  chars := List.forall_mem_singleton.2 htext
  calls _ hvalue := nomatch hvalue

/-- A sum fits where its operands do. -/
theorem fits_madeOf {sources : List Value} {value : Value} (hvalue : Value.MadeOf sources value)
    (hsources : ∀ source ∈ sources, discipline.Fits place source) :
    discipline.Fits place value where
  letters letter hletter := by
    obtain ⟨source, hsource, hletter⟩ := Value.mem_lettersAll.1 (hvalue.letters hletter)
    exact (hsources source hsource).letters letter hletter
  chars string hstring c hc := by
    obtain ⟨own, hown, hc⟩ := hvalue.chars string hstring c hc
    obtain ⟨source, hsource, hown⟩ := Value.mem_stringsAll.1 hown
    exact (hsources source hsource).chars own hown c hc
  calls native hfunc := absurd hfunc (hvalue.native native)

/-- The characters of a printed value are those of its strings, or they are in words or spaces. -/
theorem Fits.printed {value : Value} {text : String} (hvalue : discipline.Fits place value)
    (htext : value.repr = .ok text) : ∀ c ∈ text.toList, discipline.chars c := by
  intro c hc
  by_cases hspace : Text.isSpace c = true
  · obtain rfl | ⟨string, hstring, hinside⟩ :=
      (Value.printed_of_repr value text htext).spaced c hc hspace
    · exact discipline.printed fun _ => rfl
    · exact hvalue.chars string hstring c hinside
  · exact discipline.printed fun hown => absurd hown hspace

theorem fits_content {content : Content} (hcontent : discipline.Sets place content) :
    discipline.Fits place (.content content) where
  letters := hcontent
  chars := List.forall_mem_nil _
  calls _ hvalue := nomatch hvalue

theorem fits_array {values : List Value}
    (hvalues : ∀ value ∈ values, discipline.Fits place value) :
    discipline.Fits place (.array values) where
  letters letter hletter := by
    obtain ⟨value, hvalue, hletter⟩ := Value.mem_lettersAll.1 hletter
    exact (hvalues value hvalue).letters letter hletter
  chars string hstring := by
    obtain ⟨value, hvalue, hstring⟩ := Value.mem_stringsAll.1 hstring
    exact (hvalues value hvalue).chars string hstring
  calls _ hvalue := nomatch hvalue

theorem sets_append {front behind : Content} (hfront : discipline.Sets place front)
    (hbehind : discipline.Sets place behind) : discipline.Sets place (front ++ behind) := by
  intro letter hletter
  rw [Elem.lettersAll_append] at hletter
  exact (List.mem_append.1 hletter).elim (hfront letter) (hbehind letter)

theorem fits_link {dest : String} {body : Content} (hbody : discipline.Sets place body) :
    discipline.Fits place (.content [.link dest body]) := by
  refine fits_content fun letter hletter => hbody letter (Elem.letters_link_subset dest body ?_)
  rwa [Elem.lettersAll, Elem.lettersAll, List.append_nil] at hletter

end Discipline

/-! ## Evaluations that abide by a discipline -/

/-- An evaluation abides by the discipline, and another one does the same. -/
structure Abides (discipline : Discipline watch) (place : watch.Place) (left right : Eval α)
    (returns : α → Prop) : Prop where
  run : ∀ machine, discipline.holds place machine → right machine = left machine ∧
    discipline.holds place (left machine).2 ∧ discipline.Allows returns (left machine).1

/-- An evaluation abides by the discipline. -/
abbrev Follows (discipline : Discipline watch) (place : watch.Place) (action : Eval α)
    (returns : α → Prop) : Prop :=
  Abides discipline place action action returns

namespace Abides

variable {left right : Eval α} {returns : α → Prop} {span : Int}

theorem pure {value : α} (hvalue : returns value) :
    Follows discipline place (pure value) returns :=
  ⟨fun _ hholds => ⟨rfl, hholds, hvalue⟩⟩

theorem report {error : EvalError} (herror : error.Sourced discipline.named) :
    Follows discipline place (report span error) returns :=
  ⟨fun _ hholds => ⟨rfl, hholds, discipline.sourced herror⟩⟩

theorem fail {failure : Failure} :
    Follows discipline place (throw (.failure failure) : Eval α) returns :=
  ⟨fun _ hholds => ⟨rfl, hholds, trivial⟩⟩

theorem lift {result : Except Failure α} (hvalue : ∀ value, result = .ok value → returns value) :
    Follows discipline place (lift result) returns := by
  cases result with
  | ok value => exact pure (hvalue value rfl)
  | error failure => exact fail

theorem bind {next next' : α → Eval β} {returns' : β → Prop}
    (haction : Abides discipline place left right returns)
    (hnext : ∀ value, returns value → Abides discipline place (next value) (next' value) returns') :
    Abides discipline place (left >>= next) (right >>= next') returns' := by
  constructor
  intro machine hholds
  obtain ⟨hsame, hkeeps, hallows⟩ := haction.run machine hholds
  rw [bind_apply, bind_apply, hsame]
  generalize left machine = answer at hkeeps hallows ⊢
  obtain ⟨(⟨span, error⟩ | failure) | value, after⟩ := answer
  · exact ⟨rfl, hkeeps, hallows⟩
  · exact ⟨rfl, hkeeps, hallows⟩
  · exact (hnext value hallows).run after hkeeps

theorem mono {returns' : α → Prop} (haction : Abides discipline place left right returns)
    (himplies : ∀ value, returns value → returns' value) :
    Abides discipline place left right returns' := by
  constructor
  intro machine hholds
  obtain ⟨hsame, hkeeps, hallows⟩ := haction.run machine hholds
  refine ⟨hsame, hkeeps, ?_⟩
  generalize (left machine).1 = result at hallows ⊢
  obtain (⟨span, error⟩ | failure) | value := result
  · exact hallows
  · exact hallows
  · exact himplies value hallows

theorem follows (haction : Abides discipline place left right returns) :
    Follows discipline place left returns :=
  ⟨fun machine hholds => ⟨rfl, (haction.run machine hholds).2⟩⟩

/-- Where any value may be returned and any error reported, only the machine matters. -/
theorem of_any {action : Eval α} (hreturns : ∀ value, returns value)
    (hreports : ∀ error, discipline.reports error)
    (hholds : ∀ machine, discipline.holds place machine →
      discipline.holds place (action machine).2) :
    Follows discipline place action returns := by
  refine ⟨fun machine hmachine => ⟨rfl, hholds machine hmachine, ?_⟩⟩
  generalize (action machine).1 = result
  obtain (⟨span, error⟩ | failure) | value := result
  · exact hreports error
  · exact trivial
  · exact hreturns value

/-- The machine may be looked at. -/
theorem get : Follows discipline place get (discipline.holds place) :=
  ⟨fun _ hholds => ⟨rfl, hholds, hholds⟩⟩

theorem modify {change : Machine → Machine}
    (hchange : ∀ machine, discipline.holds place machine →
      discipline.holds place (change machine)) :
    Follows discipline place (modify change) fun _ => True :=
  ⟨fun machine hholds => ⟨rfl, hchange machine hholds, trivial⟩⟩

/-- What is reported becomes a diagnostic, and nothing is set. -/
theorem attempt {source : Nat} {left right : Eval Content}
    (haction : Abides discipline place left right (discipline.Sets place)) :
    Abides discipline place (attempt source left) (attempt source right)
      (discipline.Sets place) := by
  constructor
  intro machine hholds
  obtain ⟨hsame, hkeeps, hallows⟩ := haction.run machine hholds
  rw [Eval.attempt, Eval.attempt, hsame]
  generalize left machine = answer at hkeeps hallows ⊢
  obtain ⟨(⟨span, error⟩ | failure) | value, after⟩ := answer
  · exact ⟨rfl, discipline.report source span hkeeps hallows, List.forall_mem_nil _⟩
  · exact ⟨rfl, hkeeps, hallows⟩
  · exact ⟨rfl, hkeeps, hallows⟩

theorem withStrong (haction : Abides discipline (watch.strong place) left right returns) :
    Abides discipline place (withStrong left) (withStrong right) returns := by
  constructor
  intro machine hholds
  obtain ⟨hsame, hkeeps, hallows⟩ := haction.run _ (discipline.enterStrong hholds)
  rw [Eval.withStrong, Eval.withStrong, hsame]
  exact ⟨rfl, discipline.leaveStrong hholds hkeeps, hallows⟩

theorem withEmph (haction : Abides discipline (watch.emph place) left right returns) :
    Abides discipline place (withEmph left) (withEmph right) returns := by
  constructor
  intro machine hholds
  obtain ⟨hsame, hkeeps, hallows⟩ := haction.run _ (discipline.enterEmph hholds)
  rw [Eval.withEmph, Eval.withEmph, hsame]
  exact ⟨rfl, discipline.leaveEmph hholds hkeeps, hallows⟩

/-- Behind a block stand page styles of the block and the text size from before. -/
theorem withinBlock (haction : Abides discipline place left right returns) :
    Abides discipline place (withinBlock left) (withinBlock right) returns := by
  constructor
  intro machine hholds
  obtain ⟨hsame, hkeeps, hallows⟩ := haction.run machine hholds
  rw [Eval.withinBlock, Eval.withinBlock, hsame]
  refine ⟨rfl, discipline.restyle hholds hkeeps fun hbefore hafter => ?_, hallows⟩
  exact ⟨hafter.width, hafter.height, hbefore.text⟩

/-- A watch that likes what the discipline keeps is never alarmed. -/
theorem guard {astray : Stop} (haction : Abides discipline place left right returns) :
    Abides discipline place left (watch.guard astray place right) returns := by
  constructor
  intro machine hholds
  obtain ⟨hsame, hkeeps, hallows⟩ := haction.run machine hholds
  refine ⟨?_, hkeeps, hallows⟩
  rw [Watch.guard, if_pos (discipline.fine hholds), hsame]
  generalize left machine = answer at hkeeps
  exact Prod.ext (if_pos (discipline.fine hkeeps)) rfl

end Abides

/-! ## Functions and leaves -/

variable {value : Value} {args : List Arg} {span : Int}

/-- What is derived at a place is that the discipline is followed there. -/
def Discipline.calculus (discipline : Discipline watch) (place : watch.Place) : Calculus where
  Derives := Follows discipline place
  state := discipline.holds place
  fits := discipline.Fits place
  sets := discipline.Sets place
  takes arg := discipline.Fits place arg.value ∧
    ∀ name, arg.name = some name → discipline.named name
  texts := discipline.texts
  chars := discipline.chars
  named := discipline.named
  pure := .pure
  bind := .bind
  report _ herror _ := .report herror
  lift hvalue _ := .lift hvalue
  get _ := .bind .get
  newOrigin := ⟨fun _ hholds => ⟨rfl, discipline.count _ hholds, trivial⟩⟩
  restyle hbefore hsound := .modify fun _ hholds =>
    discipline.restyle hbefore hholds fun hown _ => hsound hown
  scope := discipline.scope
  takes_fits harg := harg.1
  takes_named harg := harg.2
  plain hplain _ := fits_of_isPlain hplain
  content := fits_content
  shown hcontent := hcontent.letters
  linked := fits_link
  string := fits_str
  spelled htext := htext.chars _ (List.mem_singleton_self _)
  array := fits_array
  sets_append := sets_append
  set text hholds htext letter hletter := by
    obtain rfl := List.mem_singleton.1 hletter
    exact discipline.set text hholds htext
  piece := discipline.piece
  printed := Fits.printed

theorem follows_plain (hplain : value.isPlain = true) :
    Follows discipline place (pure value) (discipline.Fits place) :=
  .pure (Discipline.fits_of_isPlain hplain)

theorem follows_print (hargs : discipline.Takes place args) :
    Follows discipline place (Native.print args) (discipline.Fits place) :=
  (discipline.calculus place).print hargs fun _ =>
    .modify fun _ hholds => discipline.print _ hholds

/-- If documents may be asked for, they are loaded in accordance with a discipline, and in the same
way under a watch. -/
def Discipline.Loads (discipline : Discipline watch) (load load' : Int → String → Eval Content) :
    Prop :=
  discipline.calls .load → ∀ place span path,
    Abides discipline place (load span path) (load' span path) (discipline.Sets place)

variable {source : Nat} {load load' : Int → String → Eval Content}

theorem abides_load (hload : discipline.Loads load load') (hcalls : discipline.calls .load)
    (hargs : discipline.Takes place args) :
    Abides discipline place (Native.load ⟨source, load⟩ span args)
      (Native.load ⟨source, load'⟩ span args) (discipline.Fits place) :=
  .bind ((discipline.calculus place).expect trivial (by decide) hargs) fun _ hanswer =>
    .bind ((discipline.calculus place).castString trivial) fun _ _ =>
      .bind ((discipline.calculus place).finish hanswer.2) fun _ _ =>
        .bind (hload hcalls place span _) fun _ hcontent =>
          .pure (Discipline.fits_content hcontent)

theorem abides_call (hload : discipline.Loads load load') {native : Document.Native}
    (hcalls : discipline.calls native) (hargs : discipline.Takes place args) :
    Abides discipline place (call ⟨source, load⟩ native span args)
      (call ⟨source, load'⟩ native span args) (discipline.Fits place) := by
  by_cases hnative : native = .load
  · subst hnative
    exact abides_load hload hcalls hargs
  · rw [call_eq_of_ne_load hnative ⟨source, load'⟩ ⟨source, load⟩]
    exact (discipline.calculus place).call trivial hargs (fun hown => absurd hown hnative)
      fun _ => follows_print hargs

theorem follows_applyOperator {operator : Kind} {left right : Value}
    (hleft : discipline.Fits place left) (hright : discipline.Fits place right) :
    Follows discipline place (applyOperator span operator left right)
      (discipline.Fits place) := by
  refine (discipline.calculus place).applyOperator trivial (fun origin sum hsum => ?_)
    fun origin difference hdifference => ?_
  · refine .lift fun value hvalue => ?_
    refine Discipline.fits_madeOf (Value.madeOf_add (hvalue ▸ hsum)) ?_
    exact List.forall_mem_cons.2 ⟨hleft, List.forall_mem_singleton.2 hright⟩
  · refine .lift fun value hvalue => ?_
    exact Discipline.fits_of_isPlain (Value.isPlain_sub (hvalue ▸ hdifference))

/-- What every document knows under a name fits where the functions of that name may be called. -/
theorem Discipline.fits_of_mem_globals {name : String}
    (hcallable : ∀ native : Document.Native, native.name = name → discipline.calls native)
    (hentry : (name, value) ∈ globals) : discipline.Fits place value := by
  obtain ⟨native, hnative⟩ | hplain := Value.globals_cases hentry
  · obtain ⟨rfl, rfl⟩ := Prod.mk.inj hnative
    refine ⟨List.forall_mem_nil _, List.forall_mem_nil _, fun other hother => ?_⟩
    exact Value.func.inj hother ▸ hcallable native rfl
  · exact fits_of_isPlain hplain

theorem Discipline.reads {node : Node} (hadmits : discipline.admits node) :
    (discipline.calculus place).Reads node.kind node.text where
  word := discipline.word hadmits
  escape := discipline.escape hadmits
  name := discipline.ident hadmits
  known hkind value := Discipline.fits_of_mem_globals fun _ => discipline.callable hadmits hkind
  int _ := .lift fun _ _ => fits_of_isPlain rfl
  str := discipline.literal hadmits
  other _ _ := .report (.cannotEvaluate _)

theorem follows_evalLeaf {node : Node} (hadmits : discipline.admits node) :
    Follows discipline place (evalLeaf node.kind node.text span) (discipline.Fits place) :=
  (discipline.calculus place).evalLeaf trivial (discipline.reads hadmits)

end Galley.Compile
