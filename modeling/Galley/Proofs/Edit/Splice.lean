import Galley.Proofs.Edit.History
import Galley.Proofs.Text.Encoding

/-!
# An edit is a splice of bytes or nothing

An edit is refused if its range leaves the text or an end of it splits a character, and then the
source stays as it was.  Otherwise the bytes of the new text are those of the old one in front of
the range, those of the replacement, and those of the old one behind the range.  A source keeps its
text, its bytes, its line table and its tree side by side and changes them one after the other; an
edit in place brings all of them to those of the edited source, or none.
-/

namespace Galley.Syntax

open Galley.Text Node

namespace Source

/-- The source that is there after a change.  A change that is refused leaves it as it was. -/
def after (source : Source) (change : Change) : Source :=
  match change.apply source with
  | .ok next => next
  | .error _ => source

/-- The source that is there after some changes. -/
def afterAll (source : Source) (changes : List Change) : Source :=
  changes.foldl after source

theorem after_of_ok {source next : Source} {change : Change}
    (hnext : change.apply source = .ok next) : source.after change = next := by
  rw [after, hnext]

theorem after_of_error {source : Source} {change : Change} {failure : Failure}
    (hfailure : change.apply source = .error failure) : source.after change = source := by
  rw [after, hfailure]

/-- What holds of a source and is preserved by every accepted change holds after all changes. -/
theorem afterAll_induction {holds : Source → Prop} {source : Source} (changes : List Change)
    (hsource : holds source)
    (hstep : ∀ {source next : Source} {change : Change}, holds source →
      change.apply source = .ok next → holds next) : holds (source.afterAll changes) := by
  induction changes generalizing source with
  | nil => exact hsource
  | cons change changes ih =>
    refine ih ?_
    cases hnext : change.apply source with
    | ok next =>
      rw [after_of_ok hnext]
      exact hstep hsource hnext
    | error failure =>
      rw [after_of_error hnext]
      exact hsource

/-- The tree of a source is that of its text, whatever was done to it. -/
theorem erase_root_afterAll (id : Nat) (path : File.Path) (text : String)
    (changes : List Change) :
    ((new id path text).afterAll changes).root.erase =
      (parse ((new id path text).afterAll changes).text).erase :=
  @afterAll_induction (fun source => source.root.erase = (parse source.text).erase) _ changes rfl
    Change.erase_root_apply

/-- The source behind an accepted change is again one that there is after some changes. -/
theorem eq_afterAll_concat {source next : Source} {changes : List Change} {change : Change}
    (hnext : change.apply (source.afterAll changes) = .ok next) :
    next = source.afterAll (changes ++ [change]) := by
  rw [afterAll, List.foldl_append]
  exact (after_of_ok hnext).symm

theorem root_chars_afterAll (id : Nat) (path : File.Path) (text : String)
    (changes : List Change) :
    ((new id path text).afterAll changes).root.chars =
      ((new id path text).afterAll changes).chars := by
  rw [chars_eq_of_erase_eq (erase_root_afterAll id path text changes), chars_parse]
  rfl

theorem lineStarts_eq (source : Source) :
    source.lineStarts = lineTable 0 (encode source.chars) :=
  startsFrom_segments 0 source.chars

/-! ## What is accepted and what is refused -/

/-- A range of bytes that lies within a text. -/
def InBounds (source : Source) (start stop : Int) : Prop :=
  0 ≤ start ∧ start ≤ stop ∧ stop ≤ source.byteLen

instance (source : Source) (start stop : Int) : Decidable (source.InBounds start stop) :=
  inferInstanceAs (Decidable (0 ≤ start ∧ start ≤ stop ∧ stop ≤ source.byteLen))

/-- An end of a range lies inside a character. -/
def Splits (source : Source) (start stop : Int) : Prop :=
  SplitsCharacter source.chars start.toNat ∨ SplitsCharacter source.chars stop.toNat

variable {source : Source} {start stop : Int} {replacement : String}

theorem edit_of_not_inBounds (hbounds : ¬source.InBounds start stop) :
    source.edit start stop replacement = .error (.editOutOfBounds start stop) :=
  if_neg hbounds

theorem splitAtByte_of_splits {chars : List Char} {offset : Nat}
    (hsplits : SplitsCharacter chars offset) : splitAtByte offset chars = none := by
  cases hcut : splitAtByte offset chars with
  | none => rfl
  | some cut =>
    obtain ⟨happend, rfl⟩ := splitAtByte_eq_some hcut
    exact absurd hsplits (not_splitsCharacter happend.symm)

theorem edit_of_splits (hbounds : source.InBounds start stop) (hsplits : source.Splits start stop) :
    source.edit start stop replacement = .error (.editSplitsCharacter start stop) := by
  unfold InBounds at hbounds
  rw [edit, editWith, if_pos hbounds]
  obtain hstart | hstop := hsplits
  · rw [splitAtByte_of_splits hstart]
    rfl
  · rw [splitAtByte_of_splits hstop]
    cases splitAtByte start.toNat source.chars <;> rfl

/-- Within bounds and with both ends between characters a range covers whole characters. -/
theorem exists_cut (hbounds : source.InBounds start stop) (hsplits : ¬source.Splits start stop) :
    ∃ before middle after, source.chars = before ++ middle ++ after ∧
      start = byteLength before ∧ stop = byteLength (before ++ middle) := by
  obtain ⟨hlow, hle, hhigh⟩ := hbounds
  rw [byteLen] at hhigh
  obtain ⟨hstart, hstop⟩ := not_or.1 hsplits
  obtain hinside | ⟨before, behind, hbefore, hfirst⟩ :=
    splitsCharacter_or_exists (show start.toNat ≤ byteLength source.chars by omega)
  · exact absurd hinside hstart
  obtain hinside | ⟨covered, after, hcovered, hlast⟩ :=
    splitsCharacter_or_exists (show stop.toNat ≤ byteLength source.chars by omega)
  · exact absurd hinside hstop
  obtain ⟨middle, rfl⟩ := prefix_of_byteLength_le ⟨_, hbefore.symm⟩ ⟨_, hcovered.symm⟩ (by omega)
  exact ⟨before, middle, after, hcovered, by omega, by omega⟩

end Source

/-! ## Edits in place -/

/-- What is kept of a source: its text, the bytes of the text, the table of its lines and its
tree. -/
structure Pieces where
  text : List Char
  bytes : List UInt8
  lines : List Nat
  root : Node

namespace Pieces

/-- The text of some bytes. -/
def decode (bytes : List UInt8) : Except Failure (List Char) :=
  match String.fromUTF8? bytes.toByteArray with
  | some text => return text.toList
  | none => throw (.undecodable ((decodingFault? bytes).getD ⟨0, 0, [], .unfinished⟩))

/-- Replaces the characters between two places, and then whatever else is kept. -/
def replace (first covered : Nat) (replacement : List Char) : StateM Pieces Unit := do
  let pieces ← get
  let text := pieces.text.take first ++ replacement ++ pieces.text.drop covered
  set { pieces with text }
  modify fun pieces => { pieces with bytes := encode text }
  modify fun pieces => { pieces with lines := lineTable 0 (encode text) }
  let updated := reparse pieces.root text first covered (first + replacement.length)
  modify fun pieces => { pieces with root := updated.getD (parse (String.ofList text)) }

/-- An edit in place.  The range is held against the bytes, and its ends are turned into places in
the text by decoding what is in front of them. -/
def edit (start stop : Int) (replacement : List Char) : ExceptT Failure (StateM Pieces) Unit := do
  let bytes := (← get).bytes
  if 0 ≤ start ∧ start ≤ stop ∧ stop ≤ bytes.length then
    if isBoundary bytes start && isBoundary bytes stop then
      let first ← liftExcept (decode (bytes.take start.toNat))
      let covered ← liftExcept (decode (bytes.take stop.toNat))
      replace first.length covered.length replacement
    else throw (.editSplitsCharacter start stop)
  else throw (.editOutOfBounds start stop)

theorem decode_encode (chars : List Char) : decode (encode chars) = .ok chars := by
  rw [decode, fromUTF8_encode]
  exact congrArg Except.ok String.toList_ofList

end Pieces

namespace Source

variable {source : Source} {start stop : Int} {replacement : String}

/-- The pieces of a source. -/
def pieces (source : Source) : Pieces :=
  ⟨source.chars, encode source.chars, source.lineStarts, source.root⟩

theorem run_replace {before middle after : List Char} (replacement : String)
    (hchars : source.chars = before ++ middle ++ after) :
    (Pieces.replace before.length (before ++ middle).length replacement.toList).run source.pieces =
      ((), (source.spliced before middle replacement.toList after).pieces) := by
  have htext : source.chars.take before.length ++ replacement.toList ++
      source.chars.drop (before ++ middle).length = before ++ replacement.toList ++ after := by
    rw [hchars, List.drop_left, List.append_assoc before middle, List.take_left]
  rw [pieces, pieces, lineStarts_eq, lineStarts_eq, spliced, chars, chars, String.toList_ofList]
  rw [← htext]
  rfl

theorem isBoundary_ends_iff (hbounds : source.InBounds start stop) :
    (isBoundary (encode source.chars) start && isBoundary (encode source.chars) stop) = true ↔
      ¬source.Splits start stop := by
  obtain ⟨hlow, hle, hhigh⟩ := hbounds
  rw [byteLen] at hhigh
  rw [Bool.and_eq_true, isBoundary_encode_iff_not_splits hlow (by omega),
    isBoundary_encode_iff_not_splits (by omega) hhigh, Splits, not_or]

/-- An edit in place brings all pieces to those of the edited source, or none. -/
theorem run_edit (source : Source) (start stop : Int) (replacement : String) :
    (Pieces.edit start stop replacement.toList).run source.pieces =
      match source.edit start stop replacement with
      | .ok next => (.ok (), next.pieces)
      | .error failure => (.error failure, source.pieces) := by
  have hrange : (0 ≤ start ∧ start ≤ stop ∧ stop ≤ (encode source.chars).length) ↔
      source.InBounds start stop := by
    rw [InBounds, length_encode, byteLen]
  show (ite (0 ≤ start ∧ start ≤ stop ∧ stop ≤ (encode source.chars).length) _ _ :
    ExceptT Failure (StateM Pieces) Unit).run source.pieces = _
  by_cases hbounds : source.InBounds start stop
  · rw [if_pos (hrange.2 hbounds)]
    show (ite ((isBoundary (encode source.chars) start &&
      isBoundary (encode source.chars) stop) = true) _ _ :
        ExceptT Failure (StateM Pieces) Unit).run source.pieces = _
    by_cases hsplits : source.Splits start stop
    · rw [edit_of_splits hbounds hsplits,
        if_neg (mt (isBoundary_ends_iff hbounds).1 (not_not.2 hsplits))]
      rfl
    · rw [if_pos ((isBoundary_ends_iff hbounds).2 hsplits)]
      obtain ⟨before, middle, after, hchars, rfl, rfl⟩ := exists_cut hbounds hsplits
      have hfirst : source.pieces.bytes.take (byteLength before) = encode before := by
        rw [pieces, hchars, List.append_assoc]
        exact take_encode before (middle ++ after)
      have hcovered : source.pieces.bytes.take (byteLength (before ++ middle)) =
          encode (before ++ middle) := by
        rw [pieces, hchars]
        exact take_encode (before ++ middle) after
      rw [edit_eq_ok_iff.2 ⟨before, middle, after, hchars, rfl, rfl, rfl⟩, Int.toNat_natCast,
        Int.toNat_natCast, hfirst, hcovered, Pieces.decode_encode, Pieces.decode_encode]
      exact congrArg (fun answer : Unit × Pieces => (Except.ok answer.1, answer.2))
        (run_replace replacement hchars)
  · rw [edit_of_not_inBounds hbounds, if_neg (mt hrange.1 hbounds)]
    rfl

/-! ## Splices -/

theorem exists_error_iff : (∃ failure, source.edit start stop replacement = .error failure) ↔
    ¬source.InBounds start stop ∨ source.Splits start stop := by
  constructor
  · rintro ⟨failure, hfailure⟩
    by_contra hnone
    obtain ⟨hbounds, hsplits⟩ := not_or.1 hnone
    obtain ⟨before, middle, after, hchars, hstart, hstop⟩ := exists_cut (not_not.1 hbounds) hsplits
    cases hfailure.symm.trans (edit_eq_ok_iff.2 ⟨before, middle, after, hchars, hstart, hstop, rfl⟩)
  · intro hcause
    by_cases hbounds : source.InBounds start stop
    · exact ⟨_, edit_of_splits hbounds (hcause.resolve_left (not_not.2 hbounds))⟩
    · exact ⟨_, edit_of_not_inBounds hbounds⟩

theorem edit_eq_error {failure : Failure}
    (hfailure : source.edit start stop replacement = .error failure) :
    failure = if source.InBounds start stop then .editSplitsCharacter start stop
      else .editOutOfBounds start stop := by
  by_cases hbounds : source.InBounds start stop
  · have hsplits := (exists_error_iff.1 ⟨failure, hfailure⟩).resolve_left (not_not.2 hbounds)
    rw [edit_of_splits hbounds hsplits] at hfailure
    rw [if_pos hbounds, Except.error.inj hfailure]
  · rw [edit_of_not_inBounds hbounds] at hfailure
    rw [if_neg hbounds, Except.error.inj hfailure]

/-- The bytes of an edited text. -/
theorem encode_of_edit {next : Source} (hnext : source.edit start stop replacement = .ok next) :
    encode next.chars = (encode source.chars).take start.toNat ++ encode replacement.toList ++
      (encode source.chars).drop stop.toNat := by
  obtain ⟨before, middle, after, hchars, rfl, rfl, rfl⟩ := edit_eq_ok_iff.1 hnext
  have hfirst := take_encode before (middle ++ after)
  have hlast := drop_encode (before ++ middle) after
  rw [← List.append_assoc] at hfirst
  rw [hchars, Int.toNat_natCast, Int.toNat_natCast, hfirst, hlast, spliced, chars,
    String.toList_ofList, encode_append, encode_append]

/-- What an edit of a source comes to. -/
structure SplicesOrRefuses (source : Source) (start stop : Int) (replacement : String) : Prop where
  /-- It is refused exactly if its range leaves the text or splits a character. -/
  refused_iff : (∃ failure, source.edit start stop replacement = .error failure) ↔
    ¬source.InBounds start stop ∨ source.Splits start stop
  /-- A refusal says which of the two it was and changes nothing. -/
  refusal : ∀ failure, source.edit start stop replacement = .error failure →
    failure = (if source.InBounds start stop then .editSplitsCharacter start stop
      else .editOutOfBounds start stop) ∧
    failure.label = "ValueError" ∧
    (Pieces.edit start stop replacement.toList).run source.pieces = (.error failure, source.pieces)
  /-- Otherwise the bytes of the replacement stand in the place of the range, and length, lines and
  tree are those of the new text. -/
  splice : ∀ next, source.edit start stop replacement = .ok next →
    encode next.chars = (encode source.chars).take start.toNat ++ encode replacement.toList ++
      (encode source.chars).drop stop.toNat ∧
    next.byteLen = (encode next.chars).length ∧
    next.lineStarts = lineTable 0 (encode next.chars) ∧
    next.root.byteLen = next.byteLen ∧ next.root.fullText = next.text ∧
    (Pieces.edit start stop replacement.toList).run source.pieces = (.ok (), next.pieces)

/-- Every edit of every source that there can be is a splice of its bytes or changes nothing. -/
theorem edit_splices_or_refuses (id : Nat) (path : File.Path) (text : String)
    (changes : List Change) (start stop : Int) (replacement : String) :
    SplicesOrRefuses ((new id path text).afterAll changes) start stop replacement := by
  generalize hsource : (new id path text).afterAll changes = source
  have hrun := run_edit source start stop replacement
  refine ⟨exists_error_iff, ?_, ?_⟩
  · intro failure hfailure
    rw [hfailure] at hrun
    have hcause := edit_eq_error hfailure
    refine ⟨hcause, ?_, hrun⟩
    rw [hcause]
    split_ifs <;> rfl
  · intro next hnext
    rw [hnext] at hrun
    have hchars : next.root.chars = next.chars := by
      subst hsource
      rw [@eq_afterAll_concat _ _ changes (.edit start stop replacement) hnext]
      exact root_chars_afterAll id path text _
    refine ⟨encode_of_edit hnext, (length_encode next.chars).symm, lineStarts_eq next, ?_, ?_, hrun⟩
    · rw [byteLen_eq, hchars, byteLen]
    · rw [fullText, hchars]
      exact String.ofList_toList

/-- Into the second character, which has two bytes, and in its place. -/
example : ((detached "aé\nb").edit 2 2 "x").isOk = false ∧
    ((detached "aé\nb").after (.edit 1 3 "\n")).lineStarts = [0, 2, 3] := by
  decide

end Source

end Galley.Syntax
