import Galley.Proofs.Evaluation.Call
import Galley.Proofs.Number.Digits
import Galley.Proofs.Shape.Basic

/-!
# What functions and leaves promise

Functions report at their own span or at that of an argument, and the only
failures of their own are numbers that are too large to be written or to be
floats.  Loading a document is left to the context.

What the text of a leaf stands for can be read from it: an integer fails for the
number of its digits only, decimal numbers have no other form than the one that
is read, units are known ones, and an escaped number is a hexadecimal one.
-/

namespace Galley.Compile

open Syntax Document Eval Text

/-! ## Numbers -/

/-- The only way in which an integer cannot be read is to have too many digits. -/
theorem readInteger_eq_error {chars : List Char} (hwhole : WholeText chars) {failure : Failure}
    (herror : Number.readInteger chars = .error failure) :
    ∃ count, failure = .unreadableInteger count := by
  obtain ⟨sign, digits, hsign, hdigits, hall, rfl⟩ := hwhole
  rw [Number.readInteger_signed hsign hdigits hall] at herror
  split at herror
  · exact ⟨_, (Except.error.inj herror).symm⟩
  · cases herror

theorem isDecimal_signed {sign digits : List Char} (hsign : sign = [] ∨ sign = ['-'])
    (hdigits : digits ≠ []) (hall : ∀ c ∈ digits, isAsciiDigit c = true) {rest : List Char}
    (hrest : rest = [] ∨ ∃ places, rest = '.' :: places ∧ places ≠ [] ∧
      ∀ c ∈ places, isAsciiDigit c = true) :
    Literal.isDecimal (sign ++ (digits ++ rest)) = true := by
  have hstop : rest.takeWhile isAsciiDigit = [] ∧ rest.dropWhile isAsciiDigit = rest := by
    obtain rfl | ⟨places, rfl, -, -⟩ := hrest <;> exact ⟨rfl, rfl⟩
  rw [Literal.isDecimal]
  simp only [Number.splitSign_signed hsign hdigits hall, List.takeWhile_append_of_pos hall,
    List.dropWhile_append_of_pos hall, hstop, List.append_nil, List.isEmpty_eq_false_iff.2 hdigits]
  obtain rfl | ⟨places, rfl, hplaces, hdigits⟩ := hrest
  · rfl
  · simpa [List.isEmpty_eq_false_iff.2 hplaces] using hdigits

theorem isDecimal_of_wholeText {chars : List Char} (hwhole : WholeText chars) :
    Literal.isDecimal chars = true := by
  obtain ⟨sign, digits, hsign, hdigits, hall, rfl⟩ := hwhole
  simpa using isDecimal_signed hsign hdigits hall (.inl rfl)

theorem isDecimal_of_pointText {chars : List Char} (hpoint : PointText chars) :
    Literal.isDecimal chars = true := by
  obtain ⟨whole, places, hwhole, hplaces, hfraction, rfl⟩ := hpoint
  obtain ⟨sign, digits, hsign, hdigits, hall, rfl⟩ := hwhole
  simpa using isDecimal_signed hsign hdigits hall (.inr ⟨places, rfl, hplaces, hfraction⟩)

theorem exists_float {chars : List Char} (hdecimal : Literal.isDecimal chars = true) :
    ∃ value, Literal.float chars = .ok value := by
  rw [Literal.float, if_pos hdecimal]
  exact ⟨_, rfl⟩

theorem exists_unitSize {unit : List Char} (hunit : unit ∈ Token.units) :
    unit.length = 2 ∧ ∃ size, Literal.unitSize? unit = some size := by
  simp only [Token.units, List.mem_cons, List.not_mem_nil, or_false] at hunit
  obtain rfl | rfl | rfl | rfl := hunit <;> exact ⟨rfl, _, rfl⟩

theorem exists_length {number unit : List Char} (hdecimal : Literal.isDecimal number = true)
    (hunit : unit ∈ Token.units) : ∃ value, Literal.length (number ++ unit) = .ok value := by
  obtain ⟨amount, hamount⟩ := exists_float hdecimal
  obtain ⟨hlength, size, hsize⟩ := exists_unitSize hunit
  refine ⟨.points (amount * size), ?_⟩
  rw [Literal.length, List.length_append, hlength, Nat.add_sub_cancel, List.take_left,
    List.drop_left, hamount]
  simp only [hsize]
  rfl

/-! ## Escapes -/

/-- An escape that gives its character by number has hexadecimal digits. -/
theorem isHexadecimal_of_escape {chars digits : List Char} (htext : LeafText .escape chars)
    (hescape : Literal.escapedDigits? chars = some digits) :
    Literal.isHexadecimal digits = true := by
  obtain ⟨c, rfl⟩ | ⟨number, hnumber, hall, rfl⟩ := htext
  · simp [Literal.escapedDigits?] at hescape
  · have hdigits : number = digits := by
      simpa [Literal.escapedDigits?] using hescape
    subst hdigits
    simpa [Literal.isHexadecimal, hnumber] using hall

/-! ## Functions and leaves keep promises -/

variable {source : Nat} {promise : Promise source} {span : Int} {args : List Arg}

/-- What is derived under a promise is that it is kept. -/
def Promise.calculus (promise : Promise source) : Calculus where
  Derives := Keeps promise
  takes arg := promise.spans arg.span
  spans := promise.spans
  fails := promise.fails
  pure := .pure
  bind := .bind
  report hspan _ herror := .report hspan herror
  lift := .lift
  get _ hnext := .bind .get fun machine _ => hnext machine trivial
  newOrigin := .bind .get fun _ hholds => .bind (.set hholds) fun _ _ => .done
  restyle _ _ := .modify fun _ hholds => hholds
  takes_span harg := harg
  unwritable _ herror := promise.fails_of_document <| by
    rw [(Value.repr_eq_error _ herror).1]
    trivial

/-- The arguments stand at spans of the promise. -/
def ArgsWithin (promise : Promise source) (args : List Arg) : Prop :=
  ∀ arg ∈ args, promise.spans arg.span

/-- Two ways to load documents that cannot be told apart under a promise. -/
def LoadsAlike (promise : Promise source) (load load' : Int → String → Eval Content) : Prop :=
  ∀ span path, promise.spans span → Runs promise (load span path) (load' span path) fun _ => True

variable {load load' : Int → String → Eval Content}

theorem runs_load (hload : LoadsAlike promise load load') (hspan : promise.spans span)
    (hargs : ArgsWithin promise args) :
    Runs promise (Native.load ⟨source, load⟩ span args) (Native.load ⟨source, load'⟩ span args)
      fun _ => True :=
  .bind (promise.calculus.expect hspan (by decide) hargs) fun _ hanswer =>
    .bind (promise.calculus.castString hspan) fun _ _ =>
      .bind (promise.calculus.finish hanswer.2) fun _ _ =>
        .bind (hload span _ hspan) fun _ _ => .done

theorem keeps_print (hargs : ArgsWithin promise args) :
    Keeps promise (Native.print args) fun _ => True :=
  promise.calculus.print hargs fun _ => .modify fun _ hholds => hholds

theorem runs_call (hload : LoadsAlike promise load load') (native : Document.Native)
    (hspan : promise.spans span) (hargs : ArgsWithin promise args) :
    Runs promise (call ⟨source, load⟩ native span args) (call ⟨source, load'⟩ native span args)
      fun _ => True := by
  by_cases hnative : native = .load
  · subst hnative
    exact runs_load hload hspan hargs
  · rw [call_eq_of_ne_load hnative ⟨source, load⟩ ⟨source, load'⟩]
    exact promise.calculus.call hspan hargs (fun hown => absurd hown hnative)
      fun _ => keeps_print hargs

theorem keeps_bind (name : String) (value : Value) :
    Keeps promise (Compile.bind name value) fun _ => True :=
  .bind (.modify fun _ hholds => hholds) fun _ _ => .done

theorem keeps_applyOperator (hspan : promise.spans span) (operator : Kind) (left right : Value) :
    Keeps promise (applyOperator span operator left right) fun _ => True := by
  refine promise.calculus.applyOperator hspan (fun origin sum hadd => ?_)
    fun origin difference hsub => ?_
  · refine .lift_of_document fun failure herror => ?_
    rw [(((Value.ruled_add origin left right).failure failure).1 (herror ▸ hadd)).1]
    trivial
  · refine .lift_of_document fun failure herror => ?_
    rw [(((Value.ruled_sub origin left right).failure failure).1 (herror ▸ hsub)).1]
    trivial

/-- The text of a leaf can be read. -/
theorem Promise.reads {kind : Kind} {text : String} (hkind : isLeafValue kind = true)
    (htext : LeafText kind text.toList) : promise.calculus.Reads kind text where
  digits hescape digits hdigits hother := by
    subst hescape
    rw [isHexadecimal_of_escape htext hdigits] at hother
    cases hother
  int hint := by
    subst hint
    refine .lift_of_document fun failure herror => ?_
    obtain ⟨count, rfl⟩ := readInteger_eq_error htext herror
    trivial
  float hfloat cause hcause := by
    subst hfloat
    obtain ⟨value, hvalue⟩ := exists_float (isDecimal_of_pointText htext)
    rw [hvalue] at hcause
    cases hcause
  numeric hnumeric cause hcause := by
    subst hnumeric
    obtain ⟨number, unit, hnumber, hunit, hchars⟩ := htext
    have hdecimal := hnumber.elim isDecimal_of_wholeText isDecimal_of_pointText
    obtain ⟨value, hvalue⟩ := exists_length hdecimal hunit
    rw [hchars, hvalue] at hcause
    cases hcause
  other hother := by
    rw [hkind] at hother
    cases hother

theorem keeps_evalLeaf {kind : Kind} {text : String} (hspan : promise.spans span)
    (hkind : isLeafValue kind = true) (htext : LeafText kind text.toList) :
    Keeps promise (evalLeaf kind text span) fun _ => True :=
  promise.calculus.evalLeaf hspan (promise.reads hkind htext)

end Galley.Compile
