import Galley.Proofs.Evaluation.Digits
import Galley.Proofs.Evaluation.Promise
import Galley.Proofs.Value.Letters

/-!
# What functions do

The functions of a document take their arguments apart, cast values and report what is wrong with
them.  A calculus says what the few steps that they consist of come to, and which values, texts and
errors that is about; what it derives of the functions, of names, styles and leaves follows from the
steps, whatever the calculus is for.  Loading documents and printing are left to those who use it.
-/

namespace Galley.Document

/-- Styles that leave room between the margins of a page and give text a size. -/
structure Styles.Sound (styles : Styles) : Prop where
  width : ¬styles.pageWidth.pt - 2 * styles.margin.pt ≤ 0
  height : ∀ height, styles.pageHeight = some height → ¬height.pt - 2 * styles.margin.pt ≤ 0
  text : ¬styles.textSize.pt ≤ 0

theorem Styles.sound_iff (styles : Styles) :
    styles.Sound ↔
      tooSmall styles.pageWidth styles.pageHeight styles.margin = false ∧
        ¬styles.textSize.pt ≤ 0 := by
  unfold tooSmall
  rw [Bool.or_eq_false_iff, decide_eq_false_iff_not]
  refine ⟨fun hsound => ⟨⟨hsound.width, ?_⟩, hsound.text⟩, fun hsound => ⟨hsound.1.1, ?_, hsound.2⟩⟩
  · split
    · rename_i height hheight
      exact decide_eq_false (hsound.height height hheight)
    · rfl
  · intro height hheight
    obtain ⟨⟨-, hroom⟩, -⟩ := hsound
    rw [hheight] at hroom
    exact of_decide_eq_false hroom

instance (styles : Styles) : Decidable styles.Sound :=
  decidable_of_iff _ styles.sound_iff.symm

end Galley.Document

namespace Galley.Compile

open Syntax Document Eval

/-! ## Errors -/

/-- What a value is expected to be. -/
def expectations : List String :=
  ["length", "length or none", "color", "string", "content"]

/-- What the arguments of the functions are called. -/
def argumentRoles : List String :=
  ["destination", "amount", "path", "value", "left-hand side", "right-hand side"]

/-- The errors of a tree: their words are the names in it, the types of values, what those are
printed as, and words of their own. -/
inductive EvalError.Sourced (named : String → Prop) : EvalError → Prop
  | cannotEvaluate (kind : Kind) : Sourced named (.cannotEvaluate kind)
  | invalidCodepoint {digits : List Char} (hdigits : Literal.isHexadecimal digits = true) :
      Sourced named (.invalidCodepoint (String.ofList digits))
  | unknownVariable {name : String} (hname : named name) : Sourced named (.unknownVariable name)
  | dictionary : Sourced named .dictionary
  | notAFunction (value : Value) : Sourced named (.notAFunction value.typeName)
  | wrongType {expected : String} (hexpected : expected ∈ expectations) (value : Value) :
      Sourced named (.wrongType expected value.typeName)
  | missingArgument {what : String} (hwhat : what ∈ argumentRoles) :
      Sourced named (.missingArgument what)
  | unexpectedArgument {name : Option String} (hname : ∀ word, name = some word → named word) :
      Sourced named (.unexpectedArgument name)
  | pageTooSmall : Sourced named .pageTooSmall
  | textSizeNotPositive : Sourced named .textSizeNotPositive
  | cannotSet {target : String} (htarget : named target) : Sourced named (.cannotSet target)
  | cannotAdd (left right : Value) : Sourced named (.cannotAdd left.typeName right.typeName)
  | cannotSubtract (left right : Value) :
      Sourced named (.cannotSubtract right.typeName left.typeName)
  | assertionFailed {left right : Value} {leftText rightText : String}
      (hleft : left.repr = .ok leftText) (hright : right.repr = .ok rightText) :
      Sourced named (.assertionFailed leftText rightText)

/-! ## Leaves and names -/

/-- The text that an escape stands for, if it stands for any. -/
def Literal.escaped (chars : List Char) : List Char :=
  match escapedDigits? chars with
  | none => chars.drop 1
  | some digits => [Char.ofNat (Text.hexNumber digits)]

/-- Kinds of leaves that stand for something by themselves. -/
def isLeafValue : Kind → Bool
  | .text | .space | .parbreak | .linebreak | .lineComment | .blockComment | .noneWord | .escape
  | .raw | .math | .ident | .bool | .int | .float | .numeric | .str => true
  | _ => false

theorem mem_of_lookup {name : String} {value : Value} {entries : List (String × Value)}
    (hlookup : entries.lookup name = some value) : (name, value) ∈ entries := by
  obtain ⟨front, rest, rfl, -⟩ := List.lookup_eq_some_iff.1 hlookup
  exact List.mem_append_right _ List.mem_cons_self

/-! ## Arguments and calls -/

theorem take_subset (wanted : Arg → Bool) (args : List Arg) : (Arg.take wanted args).2 ⊆ args := by
  induction args with
  | nil => exact List.Subset.refl _
  | cons arg rest ih =>
    rw [Arg.take]
    split
    · exact List.subset_cons_self _ _
    · exact List.cons_subset_cons _ ih

theorem exists_of_take {value : Value} {args : List Arg} {wanted : Arg → Bool}
    (htake : (Arg.take wanted args).1 = some value) : ∃ arg ∈ args, arg.value = value := by
  induction args with
  | nil => cases htake
  | cons arg args ih =>
    rw [Arg.take] at htake
    split at htake
    · exact ⟨arg, List.mem_cons_self, Option.some.inj htake⟩
    · obtain ⟨other, hother, hvalue⟩ := ih htake
      exact ⟨other, List.mem_cons_of_mem _ hother, hvalue⟩

/-- Only documents are a matter of who asks for them. -/
theorem call_eq_of_ne_load {native : Document.Native} (hnative : native ≠ .load)
    (context context' : Context) (span : Int) (args : List Arg) :
    call context native span args = call context' native span args := by
  cases native with
  | load => exact absurd rfl hnative
  | _ => rfl

/-! ## Calculi -/

/-- What documents share: the world, what has been reported and what has been printed. -/
structure Ledger where
  world : World
  diagnostics : List Diagnostic
  printed : String

def Machine.ledger (machine : Machine) : Ledger :=
  ⟨machine.world, machine.diagnostics, machine.printed⟩

/-- The machine with another ledger. -/
def Machine.moved (machine : Machine) (ledger : Ledger) : Machine :=
  { machine with
    world := ledger.world, diagnostics := ledger.diagnostics, printed := ledger.printed }

/-- What is derived of evaluations from the steps that they consist of.  Unless a calculus says
otherwise, nothing is asked of the values, texts, errors and failures that they come to. -/
structure Calculus where
  /-- An evaluation is as it should be and returns only what the predicate says. -/
  Derives : {α : Type} → Eval α → (α → Prop) → Prop
  /-- What is known of the machine. -/
  state : Machine → Prop := fun _ => True
  fits : Value → Prop := fun _ => True
  /-- The content that is set. -/
  sets : Content → Prop := fun _ => True
  /-- The arguments that are given. -/
  takes : Arg → Prop := fun _ => True
  /-- The texts that are set. -/
  texts : List Char → Prop := fun _ => True
  /-- The characters of strings. -/
  chars : Char → Prop := fun _ => True
  /-- Where errors are reported. -/
  spans : Int → Prop := fun _ => True
  /-- The texts that stand for names. -/
  named : String → Prop := fun _ => True
  fails : Failure → Prop := fun _ => True
  pure : ∀ {α : Type} {value : α} {returns : α → Prop}, returns value →
    Derives (Pure.pure value) returns
  bind : ∀ {α β : Type} {action : Eval α} {next : α → Eval β} {returns : α → Prop}
    {returns' : β → Prop}, Derives action returns →
      (∀ value, returns value → Derives (next value) returns') → Derives (action >>= next) returns'
  report : ∀ {α : Type} {span : Int} {error : EvalError} {returns : α → Prop}, spans span →
    error.Sourced named → error.OfDocument → Derives (report span error) returns
  lift : ∀ {α : Type} {result : Except Failure α} {returns : α → Prop},
    (∀ value, result = .ok value → returns value) →
      (∀ failure, result = .error failure → fails failure) → Derives (lift result) returns
  /-- The machine may be looked at where the ledger is not. -/
  get : ∀ {α : Type} {next : Machine → Eval α} {returns : α → Prop},
    (∀ machine ledger, next (machine.moved ledger) = next machine) →
      (∀ machine, state machine → Derives (next machine) returns) → Derives (get >>= next) returns
  newOrigin : Derives newOrigin fun _ => True
  /-- Styles may be set if they are sound as long as those from before are. -/
  restyle : ∀ {machine styles}, state machine → (machine.styles.Sound → styles.Sound) →
    Derives (modify fun machine => { machine with styles }) fun _ => True
  scope : ∀ {machine entry}, state machine → entry ∈ machine.scope → fits entry.2 := by
    intros; trivial
  takes_fits : ∀ {arg}, takes arg → fits arg.value := by intros; trivial
  takes_span : ∀ {arg}, takes arg → spans arg.span := by intros; trivial
  takes_named : ∀ {arg}, takes arg → ∀ name, arg.name = some name → named name := by
    intros; trivial
  plain : ∀ {value}, value.isPlain = true → value.ints = [] → fits value := by intros; trivial
  content : ∀ {content}, sets content → fits (.content content) := by intros; trivial
  shown : ∀ {content}, fits (.content content) → sets content := by intros; trivial
  linked : ∀ {dest body}, sets body → fits (.content [.link dest body]) := by intros; trivial
  string : ∀ {text}, (∀ c ∈ text.toList, chars c) → fits (.str text) := by intros; trivial
  spelled : ∀ {text}, fits (.str text) → ∀ c ∈ text.toList, chars c := by intros; trivial
  array : ∀ {values}, (∀ value ∈ values, fits value) → fits (.array values) := by intros; trivial
  sets_append : ∀ {front behind}, sets front → sets behind → sets (front ++ behind) := by
    intros; trivial
  set : ∀ {machine} (text : String), state machine → texts text.toList →
    sets [.text text machine.styles.textSize machine.strong machine.emph] := by intros; trivial
  /-- Strings are shown piece by piece. -/
  piece : ∀ {piece}, piece ≠ [] → (∀ c ∈ piece, c ≠ ' ' ∧ chars c) → texts piece := by
    intros; trivial
  printed : ∀ {value text}, fits value → value.repr = .ok text → ∀ c ∈ text.toList, chars c := by
    intros; trivial
  unwritable : ∀ {value failure}, fits value → value.repr = .error failure → fails failure := by
    intros; trivial

namespace Calculus

variable {calculus : Calculus} {α : Type} {span : Int} {value : Value} {args : List Arg}

theorem done {value : α} : calculus.Derives (Pure.pure value) fun _ => True :=
  calculus.pure trivial

theorem bare (hplain : value.isPlain = true) (hints : value.ints = []) :
    calculus.Derives (Pure.pure value) calculus.fits :=
  calculus.pure (calculus.plain hplain hints)

theorem sets_plain {content : Content} (hplain : (Value.content content).isPlain = true) :
    calculus.sets content :=
  calculus.shown (calculus.plain hplain rfl)

/-- What a link without a body comes to fits everywhere. -/
theorem destination (dest : String) (size : Length) :
    calculus.fits (.content [.link dest [.text dest size false false]]) :=
  calculus.plain (Value.isPlain_iff.2 ⟨Value.letters_link_destination dest size, rfl, nofun⟩) rfl

theorem defect {cause : Defect} {returns : α → Prop} (hfails : calculus.fails (.malformed cause)) :
    calculus.Derives (defect cause) returns :=
  calculus.lift (fun _ hvalue => nomatch hvalue) fun _ hfailure =>
    Except.error.inj hfailure ▸ hfails

theorem literal {result : Except Defect α}
    (hfails : ∀ cause, result = .error cause → calculus.fails (.malformed cause)) :
    calculus.Derives (literal result) fun _ => True := by
  cases result with
  | ok value => exact calculus.done
  | error cause => exact calculus.defect (hfails cause rfl)

/-! ## Showing values -/

theorem textElem {text : String} (htext : calculus.texts text.toList) :
    calculus.Derives (textElem text) fun elem => calculus.sets [elem] :=
  calculus.get (fun _ _ => rfl) fun _ hmachine => calculus.pure (calculus.set text hmachine htext)

theorem textSize : calculus.Derives textSize fun _ => True :=
  calculus.get (fun _ _ => rfl) fun _ _ => calculus.done

/-- What stands between the spaces of a string. -/
def Piece (calculus : Calculus) (piece : List Char) : Prop :=
  ∀ c ∈ piece, c ≠ ' ' ∧ calculus.chars c

theorem wordElems {piece : List Char} (hpiece : calculus.Piece piece) :
    calculus.Derives (pieceElems.wordElems piece) calculus.sets := by
  rw [pieceElems.wordElems]
  split
  · exact calculus.pure (calculus.sets_plain rfl)
  · rename_i hsome
    have htext : calculus.texts (String.ofList piece).toList := by
      rw [String.toList_ofList]
      exact calculus.piece (by simpa using hsome) hpiece
    exact calculus.bind (calculus.textElem htext) fun _ helem => calculus.pure helem

theorem pieceElems {pieces : List (List Char)} (hpieces : ∀ piece ∈ pieces, calculus.Piece piece) :
    calculus.Derives (pieceElems pieces) calculus.sets := by
  induction pieces using pieceElems.induct with
  | case1 => exact calculus.pure (calculus.sets_plain rfl)
  | case2 last => exact calculus.wordElems (hpieces last (List.mem_singleton_self _))
  | case3 first rest hrest ih =>
    obtain ⟨hfirst, hpieces⟩ := List.forall_mem_cons.1 hpieces
    rw [Eval.pieceElems]
    · refine calculus.bind (calculus.wordElems hfirst) fun _ hfront => ?_
      refine calculus.bind calculus.textSize fun size _ => ?_
      refine calculus.bind (ih hpieces) fun _ hbehind => calculus.pure ?_
      have hspace : calculus.sets [.space size] := calculus.sets_plain rfl
      exact calculus.sets_append hfront (calculus.sets_append hspace hbehind)
    · exact hrest

theorem words {text : String} (htext : ∀ c ∈ text.toList, calculus.chars c) :
    calculus.Derives (Eval.pieceElems (Text.splitWhen (· == ' ') text.toList)) calculus.sets := by
  refine calculus.pieceElems fun piece hpiece c hc => ?_
  obtain ⟨hinside, hother⟩ := Text.mem_of_mem_splitWhen hpiece hc
  exact ⟨by simpa using hother, htext c hinside⟩

/-- A value is written with characters of its own. -/
theorem written (hvalue : calculus.fits value) :
    calculus.Derives (Eval.lift value.repr) fun text => value.repr = .ok text :=
  calculus.lift (fun _ htext => htext) fun _ hfailure => calculus.unwritable hvalue hfailure

theorem display (value : Value) (hvalue : calculus.fits value) :
    calculus.Derives (display value) calculus.sets := by
  unfold Eval.display
  split
  · exact calculus.pure (calculus.sets_plain rfl)
  · exact calculus.pure (calculus.shown hvalue)
  · exact calculus.words (calculus.spelled hvalue)
  · exact calculus.bind (calculus.written hvalue) fun _ htext =>
      calculus.words (calculus.printed hvalue htext)

/-! ## Arguments -/

/-- All of the arguments may be given. -/
abbrev Takes (calculus : Calculus) (args : List Arg) : Prop :=
  ∀ arg ∈ args, calculus.takes arg

theorem Takes.take (hargs : calculus.Takes args) (wanted : Arg → Bool) :
    calculus.Takes (Arg.take wanted args).2 :=
  fun arg harg => hargs arg (take_subset _ _ harg)

theorem Takes.fits (hargs : calculus.Takes args) {wanted : Arg → Bool}
    (htake : (Arg.take wanted args).1 = some value) : calculus.fits value := by
  obtain ⟨arg, harg, rfl⟩ := exists_of_take htake
  exact calculus.takes_fits (hargs arg harg)

theorem expect (hspan : calculus.spans span) {what : String} (hwhat : what ∈ argumentRoles)
    (hargs : calculus.Takes args) :
    calculus.Derives (Arg.expect span what args) fun answer =>
      calculus.fits answer.1 ∧ calculus.Takes answer.2 := by
  rw [Arg.expect]
  split
  · rename_i value rest hnext
    refine calculus.pure ⟨hargs.fits (congrArg Prod.fst hnext), ?_⟩
    exact congrArg Prod.snd hnext ▸ hargs.take _
  · exact calculus.report hspan (.missingArgument hwhat) trivial

theorem finish (hargs : calculus.Takes args) :
    calculus.Derives (Arg.finish args) fun _ => True := by
  cases args with
  | nil => exact calculus.done
  | cons arg args =>
    have harg := hargs arg List.mem_cons_self
    exact calculus.report (calculus.takes_span harg)
      (.unexpectedArgument (calculus.takes_named harg)) trivial

theorem castLength (hspan : calculus.spans span) {expected : String}
    (hexpected : expected ∈ expectations) :
    calculus.Derives (castLength span expected value) fun _ => True := by
  unfold Compile.castLength
  split
  · exact calculus.done
  · exact calculus.report hspan (.wrongType hexpected _) trivial

theorem castColor (hspan : calculus.spans span) :
    calculus.Derives (castColor span value) fun _ => True := by
  unfold Compile.castColor
  split
  · exact calculus.done
  · exact calculus.report hspan (.wrongType (by decide) _) trivial

theorem castString (hspan : calculus.spans span) :
    calculus.Derives (castString span value) fun _ => True := by
  unfold Compile.castString
  split
  · exact calculus.done
  · exact calculus.report hspan (.wrongType (by decide) _) trivial

theorem castContent (hspan : calculus.spans span) (hvalue : calculus.fits value) :
    calculus.Derives (castContent span value) calculus.sets := by
  unfold Compile.castContent
  split
  · exact calculus.pure (calculus.shown hvalue)
  · exact calculus.report hspan (.wrongType (by decide) _) trivial

/-! ## Functions -/

theorem rect (hspan : calculus.spans span) (hargs : calculus.Takes args) :
    calculus.Derives (Native.rect span args) calculus.fits := by
  refine calculus.bind (calculus.castLength hspan (by decide)) fun width _ => ?_
  refine calculus.bind (calculus.castLength hspan (by decide)) fun height _ => ?_
  refine calculus.bind (calculus.castColor hspan) fun fill _ => ?_
  exact calculus.bind (calculus.finish (((hargs.take _).take _).take _)) fun _ _ =>
    calculus.bare rfl rfl

theorem link (hspan : calculus.spans span) (hargs : calculus.Takes args) :
    calculus.Derives (Native.link span args) calculus.fits := by
  refine calculus.bind (calculus.expect hspan (by decide) hargs) fun answer hanswer => ?_
  refine calculus.bind (calculus.castString hspan) fun dest _ => ?_
  have hbody : calculus.fits ((Arg.next answer.2).1.getD .none) := by
    cases hnext : (Arg.next answer.2).1 with
    | none => exact calculus.plain rfl rfl
    | some body => exact hanswer.2.fits hnext
  refine calculus.bind (calculus.finish (hanswer.2.take _)) fun _ _ => ?_
  split
  · refine calculus.bind calculus.textSize fun size _ => ?_
    exact calculus.bind (calculus.pure rfl) fun body hshown =>
      calculus.pure (hshown ▸ calculus.destination dest size)
  · exact calculus.bind (calculus.castContent hspan hbody) fun body hbody =>
      calculus.pure (calculus.linked hbody)

theorem vertical (hspan : calculus.spans span) (hargs : calculus.Takes args) :
    calculus.Derives (Native.vertical span args) calculus.fits := by
  refine calculus.bind (calculus.expect hspan (by decide) hargs) fun answer hanswer => ?_
  refine calculus.bind (calculus.castLength hspan (by decide)) fun amount _ => ?_
  exact calculus.bind (calculus.finish hanswer.2) fun _ _ => calculus.bare rfl rfl

theorem pagebreak (hargs : calculus.Takes args) :
    calculus.Derives (Native.pagebreak args) calculus.fits :=
  calculus.bind (calculus.finish hargs) fun _ _ => calculus.bare rfl rfl

theorem repr (hspan : calculus.spans span) (hargs : calculus.Takes args) :
    calculus.Derives (Native.repr span args) calculus.fits := by
  refine calculus.bind (calculus.expect hspan (by decide) hargs) fun answer hanswer => ?_
  refine calculus.bind (calculus.finish hanswer.2) fun _ _ => ?_
  exact calculus.bind (calculus.written hanswer.1) fun _ htext =>
    calculus.pure (calculus.string (calculus.printed hanswer.1 htext))

theorem test (hspan : calculus.spans span) (hargs : calculus.Takes args) :
    calculus.Derives (Native.test span args) calculus.fits := by
  refine calculus.bind (calculus.expect hspan (by decide) hargs) fun left hleft => ?_
  refine calculus.bind (calculus.expect hspan (by decide) hleft.2) fun right hright => ?_
  refine calculus.bind (calculus.finish hright.2) fun _ _ => ?_
  split
  · exact calculus.bare rfl rfl
  · exact calculus.bind (calculus.written hleft.1) fun _ hleftText =>
      calculus.bind (calculus.written hright.1) fun _ hrightText =>
        calculus.report hspan (.assertionFailed hleftText hrightText) trivial

theorem print (hargs : calculus.Takes args)
    (hprint : ∀ change : String → String, calculus.Derives
      (modify fun machine => { machine with printed := change machine.printed }) fun _ => True) :
    calculus.Derives (Native.print args) calculus.fits := by
  have hnamed : calculus.Takes (args.filter fun arg => arg.name.isSome) :=
    fun arg harg => hargs arg (List.mem_of_mem_filter harg)
  have hvalues : ∀ value ∈ (args.filter fun arg => arg.name.isNone).map Arg.value,
      calculus.fits value :=
    List.forall_mem_map.2 fun arg harg =>
      calculus.takes_fits (hargs arg (List.mem_of_mem_filter harg))
  have htexts : calculus.Derives
      (Eval.lift (Value.reprAll ((args.filter fun arg => arg.name.isNone).map Arg.value)))
      fun _ => True := by
    refine calculus.lift (fun _ _ => trivial) fun failure hfailure => ?_
    obtain ⟨value, hvalue, hfailed⟩ := exists_repr_eq_error hfailure
    exact calculus.unwritable (hvalues value hvalue) hfailed
  refine calculus.bind (calculus.finish hnamed) fun _ _ => calculus.bind htexts fun texts _ => ?_
  exact calculus.bind (hprint fun printed => printed ++ "> " ++ ", ".intercalate texts ++ "\n")
    fun _ _ => calculus.bare rfl rfl

/-- A call of any function, if documents and prints are accounted for. -/
theorem call {context : Context} {native : Document.Native} (hspan : calculus.spans span)
    (hargs : calculus.Takes args)
    (hload : native = .load → calculus.Derives (Native.load context span args) calculus.fits)
    (hprint : native = .print → calculus.Derives (Native.print args) calculus.fits) :
    calculus.Derives (call context native span args) calculus.fits := by
  cases native with
  | load => exact hload rfl
  | link => exact calculus.link hspan hargs
  | pagebreak => exact calculus.pagebreak hargs
  | print => exact hprint rfl
  | rect => exact calculus.rect hspan hargs
  | repr => exact calculus.repr hspan hargs
  | test => exact calculus.test hspan hargs
  | vertical => exact calculus.vertical hspan hargs

/-! ## Names, styles and operators -/

theorem lookup {name : String} (hspan : calculus.spans span) (hname : calculus.named name)
    (hknown : ∀ value, (name, value) ∈ globals → calculus.fits value) :
    calculus.Derives (lookup span name) calculus.fits := by
  refine calculus.get (fun _ _ => rfl) fun machine hmachine => ?_
  split
  · rename_i hlookup
    exact calculus.pure (calculus.scope hmachine (mem_of_lookup hlookup))
  · split
    · rename_i hlookup
      exact calculus.pure (hknown _ (mem_of_lookup hlookup))
    · exact calculus.report hspan (.unknownVariable hname) trivial

theorem setStyles {machine : Machine} {styles : Styles} (hmachine : calculus.state machine)
    (hsound : machine.styles.Sound → styles.Sound) :
    calculus.Derives (setStyles styles) calculus.fits :=
  calculus.bind (calculus.restyle hmachine hsound) fun _ _ => calculus.bare rfl rfl

/-- Page styles that leave room are set beside the text size. -/
theorem setPage (hspan : calculus.spans span) (hargs : calculus.Takes args) :
    calculus.Derives (setPage span args) calculus.fits := by
  refine calculus.get (fun _ _ => rfl) fun machine hmachine => ?_
  refine calculus.bind (calculus.castLength hspan (by decide)) fun width _ => ?_
  -- The height may be absent, none or a length; all three go on in the same way.
  generalize hheight : Arg.named "height" _ = height
  obtain ⟨height, rest⟩ := height
  have hrest : calculus.Takes rest := by
    rw [show rest = _ from (congrArg Prod.snd hheight).symm]
    exact (hargs.take _).take _
  dsimp only
  split
  case' h_1 => refine calculus.bind calculus.done fun height _ => ?_
  case' h_2 => refine calculus.bind calculus.done fun height _ => ?_
  case' h_3 =>
    refine calculus.bind (calculus.castLength hspan (by decide)) fun _ _ => ?_
    refine calculus.bind calculus.done fun height _ => ?_
  all_goals
    refine calculus.bind (calculus.castLength hspan (by decide)) fun margin _ => ?_
    refine calculus.bind (calculus.finish (hrest.take _)) fun _ _ => ?_
    split
    · exact calculus.report hspan .pageTooSmall trivial
    · rename_i hroom
      refine calculus.setStyles hmachine fun hsound => (Styles.sound_iff _).2 ?_
      exact ⟨Bool.eq_false_iff.2 hroom, hsound.text⟩

/-- A text size of something is set beside the page styles. -/
theorem setText (hspan : calculus.spans span) (hargs : calculus.Takes args) :
    calculus.Derives (setText span args) calculus.fits := by
  refine calculus.get (fun _ _ => rfl) fun machine hmachine => ?_
  refine calculus.bind (calculus.castLength hspan (by decide)) fun size _ => ?_
  refine calculus.bind (calculus.finish (hargs.take _)) fun _ _ => ?_
  split
  · exact calculus.report hspan .textSizeNotPositive trivial
  · rename_i hsize
    exact calculus.setStyles hmachine fun hsound => ⟨hsound.width, hsound.height, hsize⟩

theorem applyOperator {operator : Kind} {left right : Value} (hspan : calculus.spans span)
    (hadd : ∀ origin sum, left.add origin right = some sum →
      calculus.Derives (Eval.lift sum) calculus.fits)
    (hsub : ∀ origin difference, left.sub origin right = some difference →
      calculus.Derives (Eval.lift difference) calculus.fits) :
    calculus.Derives (applyOperator span operator left right) calculus.fits := by
  unfold Compile.applyOperator
  split
  · exact calculus.bare rfl rfl
  · exact calculus.bare rfl rfl
  · refine calculus.bind calculus.newOrigin fun origin _ => ?_
    split
    · rename_i hsum
      exact hadd origin _ hsum
    · exact calculus.report hspan (.cannotAdd left right) trivial
  · refine calculus.bind calculus.newOrigin fun origin _ => ?_
    split
    · rename_i hdifference
      exact hsub origin _ hdifference
    · exact calculus.report hspan (.cannotSubtract left right) trivial

theorem group {node : Node} (hspan : calculus.spans node.span) (hargs : calculus.Takes args) :
    calculus.Derives (Operand.group node args) calculus.fits := by
  have hall : ∀ arg ∈ args, calculus.fits arg.value :=
    fun arg harg => calculus.takes_fits (hargs arg harg)
  have harray : calculus.fits (.array (args.map Arg.value)) :=
    calculus.array (List.forall_mem_map.2 hall)
  rw [Operand.group]
  split
  · exact calculus.report hspan .dictionary trivial
  · dsimp only
    split
    · split
      · exact calculus.pure harray
      · exact calculus.pure (hall _ List.mem_cons_self)
    · exact calculus.pure harray

/-! ## Leaves -/

/-- What the text of a leaf stands for is as it should be. -/
structure Reads (calculus : Calculus) (kind : Kind) (text : String) : Prop where
  word : kind = .text → calculus.texts text.toList := by intros; trivial
  escape : kind = .escape → calculus.texts (Literal.escaped text.toList) := by intros; trivial
  digits : kind = .escape → ∀ digits, Literal.escapedDigits? text.toList = some digits →
    Literal.isHexadecimal digits = false →
      calculus.fails (.malformed (.noHexadecimal (String.ofList digits))) := by intros; trivial
  name : kind = .ident → calculus.named text := by intros; trivial
  known : kind = .ident → ∀ value, (text, value) ∈ globals → calculus.fits value := by
    intros; trivial
  int : kind = .int → calculus.Derives (Eval.lift (Number.readInteger text.toList)) fun value =>
    calculus.fits (.int value)
  float : kind = .float → ∀ cause, Literal.float text.toList = .error cause →
    calculus.fails (.malformed cause) := by intros; trivial
  numeric : kind = .numeric → ∀ cause, Literal.length text.toList = .error cause →
    calculus.fails (.malformed cause) := by intros; trivial
  str : kind = .str → ∀ c ∈ Literal.string text.toList, calculus.chars c := by intros; trivial
  other : isLeafValue kind = false → ∀ span,
    calculus.Derives (Eval.report span (.cannotEvaluate kind)) calculus.fits

theorem word {text : String} (htext : calculus.texts text.toList) :
    calculus.Derives (do return .content [← Eval.textElem text]) calculus.fits :=
  calculus.bind (calculus.textElem htext) fun _ helem => calculus.pure (calculus.content helem)

theorem evalLeaf {kind : Kind} {text : String} (hspan : calculus.spans span)
    (hreads : calculus.Reads kind text) :
    calculus.Derives (evalLeaf kind text span) calculus.fits := by
  unfold Compile.evalLeaf
  split
  case h_1 => exact calculus.word (hreads.word rfl)
  case h_2 => exact calculus.bind calculus.textSize fun _ _ => calculus.bare rfl rfl
  case h_3 => exact calculus.bare rfl rfl
  case h_4 => exact calculus.bind calculus.textSize fun _ _ => calculus.bare rfl rfl
  case h_5 => exact calculus.bare rfl rfl
  case h_6 => exact calculus.bare rfl rfl
  case h_7 => exact calculus.bare rfl rfl
  case h_8 =>
    have htext := hreads.escape rfl
    rw [Literal.escaped] at htext
    split
    · rename_i hnone
      rw [hnone] at htext
      exact calculus.word (by rwa [String.toList_ofList])
    · rename_i digits hsome
      rw [hsome] at htext
      split
      · rename_i hdigits
        exact calculus.defect (hreads.digits rfl digits hsome (by simpa using hdigits))
      · rename_i hdigits
        split
        · exact calculus.word (by rwa [String.toList_ofList])
        · exact calculus.report hspan (.invalidCodepoint (by simpa using hdigits)) trivial
  case h_9 =>
    dsimp only
    split
    · exact calculus.bare rfl rfl
    · exact calculus.bind calculus.textSize fun _ _ => calculus.bare rfl rfl
  case h_10 =>
    dsimp only
    split
    · exact calculus.bare rfl rfl
    · exact calculus.bind calculus.textSize fun _ _ => calculus.bare rfl rfl
  case h_11 => exact calculus.lookup hspan (hreads.name rfl) (hreads.known rfl)
  case h_12 => exact calculus.bare rfl rfl
  case h_13 => exact calculus.bind (hreads.int rfl) fun _ hvalue => calculus.pure hvalue
  case h_14 =>
    exact calculus.bind (calculus.literal (hreads.float rfl)) fun _ _ => calculus.bare rfl rfl
  case h_15 =>
    exact calculus.bind (calculus.literal (hreads.numeric rfl)) fun _ _ => calculus.bare rfl rfl
  case h_16 =>
    refine calculus.pure (calculus.string ?_)
    rw [String.toList_ofList]
    exact hreads.str rfl
  case h_17 =>
    refine hreads.other ?_ span
    cases kind <;> simp_all [isLeafValue]

end Calculus

end Galley.Compile
