import Galley.Proofs.Text.Line

/-!
# Notes that cannot be read

A note line that is not written as a note is reported with its number.  Numbers are looked for
wherever a character has a digit value, superscripts and circled digits included, but they are
read as decimal digits and not more of them than the digit limit.  Digits that are found and not
read are the only thing in a text that fails without a report of the line.
-/

namespace Galley

namespace Text

theorem isDigit_of_isSpace {c : Char} (hspace : isSpace c = true) : isDigit c = false := by
  have hascii : isAsciiDigit c = false := by
    refine Bool.eq_false_iff.2 fun hdigit => ?_
    rw [isSpace_of_isAsciiDigit hdigit] at hspace
    cases hspace
  rw [isDigit, hascii, Bool.false_or]
  exact inTable_of_isSpace (by decide) hspace

theorem isPlainSpace_of_isDigit {c : Char} (hdigit : isDigit c = true) :
    isPlainSpace c = false := by
  rw [isPlainSpace, Bool.and_eq_false_iff]
  refine .inl (Bool.eq_false_iff.2 fun hspace => ?_)
  rw [isDigit_of_isSpace hspace] at hdigit
  cases hdigit

theorem takeWhile_eq_of_forall {takes takes' : Char → Bool} {chars : List Char}
    (hsame : ∀ c ∈ chars, takes c = takes' c) : chars.takeWhile takes = chars.takeWhile takes' := by
  induction chars with
  | nil => rfl
  | cons c chars ih =>
    obtain ⟨hc, hchars⟩ := List.forall_mem_cons.1 hsame
    rw [List.takeWhile_cons, List.takeWhile_cons, hc, ih hchars]

end Text

namespace Number

open Text

/-- What is wrong with a run of digits, if there is something: too many decimal digits, or another
digit behind them. -/
def digitsFault? (digits : List Char) : Option Failure :=
  let decimals := digits.takeWhile fun c => (decimalValue? c).isSome
  if digitLimit < decimals.length then some (.unreadableInteger decimals.length)
  else if decimals.length < digits.length then some (.invalidInteger (String.ofList digits))
  else none

section Digits

variable {digits : List Char}

/-- No other mark stands among digits. -/
theorem not_mem_of_forall_isDigit (hall : ∀ c ∈ digits, isDigit c = true) {mark : Char}
    (hmark : isDigit mark = false) : mark ∉ digits := by
  intro hmem
  rw [hall mark hmem] at hmark
  cases hmark

theorem splitSign_of_forall_isDigit (hall : ∀ c ∈ digits, isDigit c = true) :
    splitSign digits = (false, digits) := by
  rw [splitSign]
  · rintro rest rfl
    exact not_mem_of_forall_isDigit hall (show isDigit '-' = false from rfl) List.mem_cons_self
  · rintro rest rfl
    exact not_mem_of_forall_isDigit hall (show isDigit '+' = false from rfl) List.mem_cons_self

/-- Without an underscore, a run that may hold some is one of decimal digits. -/
theorem takeWhile_decimals_of_not_mem (hplain : '_' ∉ digits) :
    digits.takeWhile (fun c => (decimalValue? c).isSome || c == '_') =
      digits.takeWhile fun c => (decimalValue? c).isSome := by
  refine takeWhile_eq_of_forall fun c hc => ?_
  have hunderscore : (c == '_') = false := by
    refine beq_eq_false_iff_ne.2 ?_
    rintro rfl
    exact hplain hc
  rw [hunderscore, Bool.or_false]

/-- A run of digits is read unless something is wrong with it. -/
theorem readInteger_digits (hdigits : digits ≠ []) (hall : ∀ c ∈ digits, isDigit c = true) :
    readInteger digits =
      match digitsFault? digits with
      | some failure => .error failure
      | none => .ok (decimalNumber digits : Int) := by
  have htrim : trimWhile isPlainSpace digits = digits :=
    trimWhile_of_forall fun c hc => isPlainSpace_of_isDigit (hall c hc)
  have hunderscore : '_' ∉ digits := not_mem_of_forall_isDigit hall rfl
  rw [readInteger, htrim, splitSign_of_forall_isDigit hall, digitsFault?]
  dsimp only
  rw [takeWhile_decimals_of_not_mem hunderscore]
  have hwhole : (digits.takeWhile fun c => (decimalValue? c).isSome) <+: digits :=
    List.takeWhile_prefix _
  generalize (digits.takeWhile fun c => (decimalValue? c).isSome) = decimals at hwhole ⊢
  have hplain : '_' ∉ decimals := fun hmem => hunderscore (hwhole.mem hmem)
  have hfilter := filter_underscore_of_not_mem hplain
  have hhead : (decimals.head? == some '_') = false :=
    beq_eq_false_iff_ne.2 fun hhead => hplain (List.mem_of_mem_head? hhead)
  rw [hfilter, hhead, Bool.false_or]
  obtain rfl | hdecimals := eq_or_ne decimals []
  · -- Without a decimal digit in front there is no limit to exceed.
    have hshort : ¬digitLimit < ([] : List Char).length := Nat.not_lt_zero _
    have hforeign : ([] : List Char).length < digits.length := List.length_pos_iff.2 hdigits
    rw [if_pos (show (!separatesDigits []) = true from rfl), if_neg hshort, if_pos hforeign]
    rfl
  · rw [separatesDigits_of_not_mem hdecimals hplain]
    simp only [Bool.not_true, Bool.false_eq_true, if_false]
    split
    · rfl
    · split
      · rfl
      · rename_i hlength
        rw [hwhole.eq_of_length_le (Nat.not_lt.1 hlength)]
        rfl

end Digits

end Number

namespace Metadata

open Text

variable {α β : Type} {source : Syntax.Source} {line : Line} {failure : Failure}

/-! ## Failures that name no line -/

/-- A failure that is no report of a line. -/
def Strays (line : Line) (result : Except Failure α) (failure : Failure) : Prop :=
  result = .error failure ∧ ∀ reason, failure ≠ malformed line reason

theorem not_strays_ok (value : α) : ¬Strays line (.ok value) failure := fun ⟨hresult, _⟩ =>
  nomatch hresult

theorem not_strays_malformed (reason : String) :
    ¬Strays line (.error (malformed line reason) : Except Failure α) failure := by
  rintro ⟨⟨⟩, hother⟩
  exact hother reason rfl

theorem strays_bind_iff {result : Except Failure α} {next : α → Except Failure β} :
    Strays line (result >>= next) failure ↔
      Strays line result failure ∨
        ∃ value, result = .ok value ∧ Strays line (next value) failure := by
  cases result with
  | error other =>
    refine ⟨fun ⟨hresult, hother⟩ => .inl ⟨?_, hother⟩, ?_⟩
    · exact congrArg Except.error (Except.error.inj hresult)
    · rintro (⟨hresult, hother⟩ | ⟨_, ⟨⟩, _⟩)
      exact ⟨congrArg Except.error (Except.error.inj hresult), hother⟩
  | ok value =>
    refine ⟨fun hstrays => .inr ⟨value, rfl, hstrays⟩, ?_⟩
    rintro (⟨⟨⟩, _⟩ | ⟨_, ⟨⟩, hstrays⟩)
    exact hstrays

/-- What is wrong with digits is never said of a line. -/
theorem ne_malformedNote_of_digitsFault? {digits : List Char}
    (hfault : Number.digitsFault? digits = some failure) (index : Nat) (text reason : String) :
    failure ≠ .malformedNote index text reason := by
  rw [Number.digitsFault?] at hfault
  split at hfault
  · cases hfault
    nofun
  · split at hfault
    · cases hfault
      nofun
    · cases hfault

/-- The fault of the digits at the start of a text, if they have one. -/
def faultAt? (chars : List Char) : Option Failure :=
  Number.digitsFault? (chars.takeWhile isDigit)

theorem readCount_eq (line : Line) (chars : List Char) :
    readCount line chars =
      if (chars.takeWhile isDigit).isEmpty then .error (malformed line "expected a number")
      else
        match faultAt? chars with
        | some failure => .error failure
        | none =>
          if Number.decimalNumber (chars.takeWhile isDigit) = 0 then
            .error (malformed line "positions are one-based")
          else
            .ok (Number.decimalNumber (chars.takeWhile isDigit) - 1, chars.dropWhile isDigit) := by
  rw [readCount, faultAt?]
  have hall : ∀ c ∈ chars.takeWhile isDigit, isDigit c = true := fun _ => List.mem_takeWhile_imp
  generalize chars.takeWhile isDigit = digits at hall ⊢
  cases digits with
  | nil => rfl
  | cons c digits =>
    rw [if_neg (by simp), if_neg (by simp), Number.readInteger_digits (List.cons_ne_nil _ _) hall]
    cases Number.digitsFault? (c :: digits) with
    | some failure => rfl
    | none =>
      simp only [bind, Except.bind]
      by_cases hzero : Number.decimalNumber (c :: digits) = 0
      · rw [if_pos (by omega), if_pos hzero]
        rfl
      · rw [if_neg (by omega), if_neg hzero]
        rfl

theorem strays_readCount_iff {chars : List Char} :
    Strays line (readCount line chars) failure ↔ faultAt? chars = some failure := by
  rw [readCount_eq]
  split
  · rename_i hempty
    refine iff_of_false (not_strays_malformed _) ?_
    rw [faultAt?, List.isEmpty_iff.1 hempty]
    nofun
  · cases hfault : faultAt? chars with
    | some fault =>
      refine ⟨fun ⟨hresult, _⟩ => congrArg some (Except.error.inj hresult), ?_⟩
      rintro ⟨⟩
      exact ⟨rfl, ne_malformedNote_of_digitsFault? hfault _ _⟩
    | none =>
      refine iff_of_false ?_ nofun
      dsimp only
      split
      · exact not_strays_malformed _
      · exact not_strays_ok _

/-- Where a position has its numbers: at its start, and behind the colon after a line number. -/
inductive NumberAt (line : Line) (chars : List Char) : List Char → Prop
  | first : NumberAt line chars chars
  | column {number : Int} {rest : List Char}
      (hline : readCount line chars = .ok (number, ':' :: rest)) : NumberAt line chars rest

theorem strays_readPosition_iff {chars : List Char} :
    Strays line (readPosition source line chars) failure ↔
      ∃ place, NumberAt line chars place ∧ faultAt? place = some failure := by
  rw [readPosition, strays_bind_iff, strays_readCount_iff]
  constructor
  · rintro (hfault | ⟨⟨number, rest⟩, hnumber, hstrays⟩)
    · exact ⟨chars, .first, hfault⟩
    · dsimp only at hstrays
      split at hstrays
      · rename_i tail
        obtain hcolumn | ⟨⟨column, rest⟩, -, hstrays⟩ := strays_bind_iff.1 hstrays
        · exact ⟨tail, .column hnumber, strays_readCount_iff.1 hcolumn⟩
        · rw [pure_bind] at hstrays
          split at hstrays
          · exact absurd hstrays (not_strays_ok _)
          · exact absurd hstrays (not_strays_malformed _)
      · rw [pure_bind] at hstrays
        split at hstrays
        · exact absurd hstrays (not_strays_ok _)
        · exact absurd hstrays (not_strays_malformed _)
  · rintro ⟨_, _ | hnumber, hfault⟩
    · exact .inl hfault
    · exact .inr ⟨_, hnumber, strays_bind_iff.2 (.inl (strays_readCount_iff.2 hfault))⟩

/-- Where a note line has its numbers: in its first position, and in the one behind a dash. -/
inductive NoteNumberAt (source : Syntax.Source) (line : Line) (place : List Char) : Prop
  | start (hplace : NumberAt line (line.text.drop errorMark.length) place)
  | stop {offset : Nat} {rest : List Char}
      (hstart : readPosition source line (line.text.drop errorMark.length) =
        .ok (offset, '-' :: rest))
      (hplace : NumberAt line rest place)

theorem strays_readNote_iff :
    Strays line (readNote source line) failure ↔
      ∃ place, NoteNumberAt source line place ∧ faultAt? place = some failure := by
  rw [readNote, strays_bind_iff, strays_readPosition_iff]
  constructor
  · rintro (⟨place, hplace, hfault⟩ | ⟨⟨offset, rest⟩, hstart, hstrays⟩)
    · exact ⟨place, .start hplace, hfault⟩
    · dsimp only at hstrays
      split at hstrays
      · obtain hstop | ⟨_, -, hstrays⟩ := strays_bind_iff.1 hstrays
        · obtain ⟨place, hplace, hfault⟩ := strays_readPosition_iff.1 hstop
          exact ⟨place, .stop hstart hplace, hfault⟩
        · exact absurd hstrays (not_strays_ok _)
      · exact absurd hstrays (not_strays_ok _)
  · rintro ⟨place, hplace | ⟨hstart, hplace⟩, hfault⟩
    · exact .inl ⟨place, hplace, hfault⟩
    · exact .inr ⟨_, hstart, strays_bind_iff.2
        (.inl (strays_readPosition_iff.2 ⟨place, hplace, hfault⟩))⟩

/-! ## The line that stops the reading -/

/-- The note lines of a source. -/
def markedLines (source : Syntax.Source) : List Line :=
  noteLines 0 ((Text.lines source.chars).map Text.trim)

/-- A note line has the index of its text among the lines. -/
theorem getElem?_of_mem_noteLines {first : Nat} {texts : List (List Char)}
    (hline : line ∈ noteLines first texts) :
    ∃ index, line.index = first + index ∧ texts[index]? = some line.text ∧
      errorMark.isPrefixOf line.text = true := by
  induction texts generalizing first with
  | nil => cases hline
  | cons text texts ih =>
    have hlater : line ∈ noteLines (first + 1) texts → ∃ index, line.index = first + index ∧
        (text :: texts)[index]? = some line.text ∧ errorMark.isPrefixOf line.text = true := by
      intro hline
      obtain ⟨index, hindex, htext, hmark⟩ := ih hline
      exact ⟨index + 1, by omega, htext, hmark⟩
    rw [noteLines] at hline
    split at hline
    · rename_i hmark
      obtain rfl | hline := List.mem_cons.1 hline
      · exact ⟨0, rfl, rfl, hmark⟩
      · exact hlater hline
    · exact hlater hline

/-- The first note line that is not read as a note. -/
def StopsAt (source : Syntax.Source) (line : Line) (failure : Failure) : Prop :=
  ∃ earlier later, markedLines source = earlier ++ line :: later ∧
    (∀ read ∈ earlier, ∃ note, readNote source read = .ok note) ∧
    readNote source line = .error failure

theorem mapM_eq_error_iff {read : α → Except Failure β} {items : List α} :
    items.mapM read = .error failure ↔
      ∃ earlier item later, items = earlier ++ item :: later ∧
        (∀ other ∈ earlier, ∃ value, read other = .ok value) ∧ read item = .error failure := by
  constructor
  · intro hfails
    induction items with
    | nil => cases hfails
    | cons item items ih =>
      rw [List.mapM_cons] at hfails
      cases hitem : read item with
      | error other =>
        rw [hitem] at hfails
        cases hfails
        exact ⟨[], item, items, rfl, List.forall_mem_nil _, hitem⟩
      | ok value =>
        rw [hitem] at hfails
        cases hitems : items.mapM read with
        | error other =>
          rw [hitems] at hfails
          cases hfails
          obtain ⟨earlier, stop, later, rfl, hearlier, hstop⟩ := ih hitems
          exact ⟨item :: earlier, stop, later, rfl, List.forall_mem_cons.2 ⟨⟨value, hitem⟩, hearlier⟩,
            hstop⟩
        | ok values =>
          rw [hitems] at hfails
          cases hfails
  · rintro ⟨earlier, item, later, rfl, hearlier, hitem⟩
    induction earlier with
    | nil =>
      rw [List.nil_append, List.mapM_cons, hitem]
      rfl
    | cons first earlier ih =>
      obtain ⟨⟨value, hfirst⟩, hearlier⟩ := List.forall_mem_cons.1 hearlier
      rw [List.cons_append, List.mapM_cons, hfirst, ih hearlier]
      rfl

theorem read_eq_error_iff :
    read source = .error failure ↔ ∃ line, StopsAt source line failure := by
  have hread : read source = (markedLines source).mapM (readNote source) >>= fun notes =>
      .ok { compareRef := (((Text.lines source.chars).map Text.trim).filterMap directive).getLast?
            notes } := rfl
  have hfails : read source = .error failure ↔
      (markedLines source).mapM (readNote source) = .error failure := by
    rw [hread]
    cases (markedLines source).mapM (readNote source) with
    | error other =>
      exact ⟨fun h => congrArg _ (Except.error.inj h), fun h => congrArg _ (Except.error.inj h)⟩
    | ok notes => exact iff_of_false nofun nofun
  rw [hfails, mapM_eq_error_iff]
  constructor
  · rintro ⟨earlier, line, later, hlines, hearlier, hline⟩
    exact ⟨line, earlier, later, hlines, hearlier, hline⟩
  · rintro ⟨line, earlier, later, hlines, hearlier, hline⟩
    exact ⟨earlier, line, later, hlines, hearlier, hline⟩

/-- Reading stops at digits that are found and not read. -/
def Unreadable (source : Syntax.Source) (failure : Failure) : Prop :=
  ∃ line, StopsAt source line failure ∧
    ∃ place, NoteNumberAt source line place ∧ faultAt? place = some failure

/-- Reading stops at a line that is reported, with the index and the text that it has. -/
def Reported (source : Syntax.Source) (failure : Failure) : Prop :=
  ∃ line reason, failure = malformed line reason ∧ StopsAt source line failure ∧
    ((Text.lines source.chars).map Text.trim)[line.index]? = some line.text ∧
    errorMark.isPrefixOf line.text = true

theorem StopsAt.reported {reason : String} (hstops : StopsAt source line (malformed line reason)) :
    Reported source (malformed line reason) := by
  have hmem : line ∈ markedLines source := by
    obtain ⟨earlier, later, hlines, -, -⟩ := hstops
    exact hlines ▸ List.mem_append_right _ List.mem_cons_self
  obtain ⟨index, hindex, htext, hmark⟩ := getElem?_of_mem_noteLines hmem
  rw [Nat.zero_add] at hindex
  exact ⟨line, reason, rfl, hstops, hindex ▸ htext, hmark⟩

theorem Unreadable.ne_malformedNote (hunreadable : Unreadable source failure) (index : Nat)
    (text reason : String) : failure ≠ .malformedNote index text reason := by
  obtain ⟨-, -, place, -, hfault⟩ := hunreadable
  exact ne_malformedNote_of_digitsFault? hfault index text reason

theorem Unreadable.read_eq_error (hunreadable : Unreadable source failure) :
    read source = .error failure := by
  obtain ⟨line, hstops, -⟩ := hunreadable
  exact read_eq_error_iff.2 ⟨line, hstops⟩

/-- Whatever a source holds, its metadata are read, or a line is reported, or there are digits that
are found and not read. -/
theorem reported_or_unreadable (hread : read source = .error failure) :
    Reported source failure ∨ Unreadable source failure := by
  obtain ⟨line, hstops⟩ := read_eq_error_iff.1 hread
  by_cases hmalformed : ∃ reason, failure = malformed line reason
  · obtain ⟨reason, rfl⟩ := hmalformed
    exact .inl hstops.reported
  · have hstrays : Strays line (readNote source line) failure := by
      obtain ⟨_, _, _, _, hline⟩ := hstops
      exact ⟨hline, not_exists.1 hmalformed⟩
    exact .inr ⟨line, hstops, strays_readNote_iff.1 hstrays⟩

/-- It is one of the two. -/
theorem unreadable_iff :
    Unreadable source failure ↔ read source = .error failure ∧ ¬Reported source failure := by
  constructor
  · refine fun hunreadable => ⟨hunreadable.read_eq_error, ?_⟩
    rintro ⟨line, reason, hfailure, -⟩
    exact hunreadable.ne_malformedNote _ _ _ hfailure
  · rintro ⟨hread, hreported⟩
    exact (reported_or_unreadable hread).resolve_left hreported

/-- A superscript two is found as the digit of a line number, and is none that can be read. -/
theorem superscript_not_reported :
    ∃ failure, read (.detached "// Error: ²:1 x") = .error failure ∧
      ¬Reported (.detached "// Error: ²:1 x") failure := by
  refine ⟨.invalidInteger "²", by rfl, ?_⟩
  rintro ⟨_, _, ⟨⟩, -⟩

end Metadata

end Galley
