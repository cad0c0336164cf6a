import Galley.Document.Value
import Galley.Proofs.Text.Line

/-!
# Printed values

A printed value is solid, whatever it is: numbers and names are words, and everything else has marks
around it.  Only strings bring white space other than spaces with them, line breaks as well, as they
are printed without escapes for them.
-/

namespace Galley

open Text

/-! ## Numbers -/

namespace Number

theorem word_toDigits (n : Nat) : Word (Nat.toDigits 10 n) :=
  ⟨Nat.toDigits_ne_nil, fun _ hc => isSpace_of_isAsciiDigit (isAsciiDigit_of_mem_toDigits hc)⟩

theorem unspaced_zeros (count : Nat) : ∀ c ∈ List.replicate count '0', isSpace c = false := by
  intro c hc
  rw [List.eq_of_mem_replicate hc]
  rfl

theorem word_significantDigits (decimal : Decimal) : Word (significantDigits decimal) := by
  rw [significantDigits]
  split
  · decide
  · rename_i hkept
    refine ⟨by simpa using hkept, fun c hc => ?_⟩
    have hdigits := List.dropWhile_subset _ (List.mem_reverse.1 hc)
    exact (word_toDigits _).unspaced c (List.mem_reverse.1 hdigits)

theorem unspaced_exponentText (exponent : Int) :
    ∀ c ∈ exponentText exponent, isSpace c = false := by
  have hdigits := (word_toDigits exponent.natAbs).unspaced
  rw [exponentText]
  refine List.forall_mem_cons.2 ⟨by split <;> rfl, ?_⟩
  split
  · exact List.forall_mem_cons.2 ⟨rfl, hdigits⟩
  · exact hdigits

/-- A decimal is written with digits, a point, a sign and the mark of an exponent. -/
theorem word_write (style : FloatStyle) (decimal : Decimal) : Word (style.write decimal) := by
  obtain ⟨hsome, hdigits⟩ := word_significantDigits decimal
  have htake : ∀ count, Word ((significantDigits decimal).take (count + 1)) := fun count =>
    ⟨by simpa using hsome, fun c hc => hdigits c (List.mem_of_mem_take hc)⟩
  have hdrop : ∀ count, ∀ c ∈ (significantDigits decimal).drop count, isSpace c = false :=
    fun count c hc => hdigits c (List.mem_of_mem_drop hc)
  have hbehind : ∀ {front behind : List Char}, Word front →
      (∀ c ∈ behind, isSpace c = false) → Word (front ++ behind) := fun hfront hbehind =>
    ⟨List.append_ne_nil_of_left_ne_nil hfront.ne_nil _,
      List.forall_mem_append.2 ⟨hfront.unspaced, hbehind⟩⟩
  rw [FloatStyle.write]
  dsimp only
  split
  · split
    · have hpoint : Word ['0', '.'] := by decide
      exact hbehind (hbehind hpoint (unspaced_zeros _)) hdigits
    · have hwhole := hbehind (htake decimal.exponent.toNat) (unspaced_zeros
        (decimal.exponent.toNat + 1 - (significantDigits decimal).length))
      split
      · exact hbehind hwhole (List.forall_mem_cons.2 ⟨rfl, hdrop _⟩)
      · split
        · exact hbehind hwhole (List.forall_mem_cons.2 ⟨rfl, List.forall_mem_singleton.2 rfl⟩)
        · exact hwhole
  · refine hbehind (hbehind (htake 0) ?_)
      (List.forall_mem_cons.2 ⟨rfl, unspaced_exponentText _⟩)
    split
    · exact List.forall_mem_nil _
    · exact List.forall_mem_cons.2 ⟨rfl, hdrop 1⟩

theorem word_writeFloat (style : FloatStyle) (digits : Nat → Int → Decimal) (x : Float) :
    Word (style.writeFloat digits x).toList := by
  rw [FloatStyle.writeFloat]
  split
  · decide
  · split <;> decide
  · rename_i negative mantissa exponent _
    have hmagnitude : Word (if mantissa = 0 then
        (if style.keepsPoint then ['0', '.', '0'] else ['0'])
        else style.write (digits mantissa exponent)) := by
      split
      · split <;> decide
      · exact word_write _ _
    rw [String.toList_ofList]
    split
    · exact ⟨List.cons_ne_nil _ _, List.forall_mem_cons.2 ⟨rfl, hmagnitude.unspaced⟩⟩
    · exact hmagnitude

theorem word_toString (n : Int) : Word (toString n).toList := by
  have hdigits : ∀ m : Nat, Word m.repr.toList := fun m => by
    rw [Nat.repr_eq_ofList_toDigits, String.toList_ofList]
    exact word_toDigits m
  rw [Int.toString_eq_repr, Int.repr_eq_if]
  split
  · exact hdigits _
  · rw [String.toList_append]
    exact Word.append (by decide) (hdigits _)

theorem word_integerText {n : Int} {text : String} (htext : integerText n = .ok text) :
    Word text.toList := by
  rw [integerText] at htext
  split at htext
  · cases htext
  · obtain rfl := Except.ok.inj htext
    exact word_toString n

end Number

/-! ## Values -/

namespace Document

theorem word_lengthText (amount : Length) : Word amount.text.toList := by
  rw [Length.text, String.toList_append]
  exact (Number.word_writeFloat _ _ _).append (by decide)

namespace Value

mutual

/-- The strings in a value. -/
def strings : Value → List String
  | .str text => [text]
  | .array items => stringsAll items
  | _ => []

def stringsAll : List Value → List String
  | [] => []
  | item :: items => item.strings ++ stringsAll items

end

/-- The written form of a value with some strings is solid, and there is no white space in it but
spaces and that of the strings. -/
structure Printed (strings : List String) (text : String) : Prop where
  solid : Solid text.toList
  spaced : SpacedBut (fun c => ∃ string ∈ strings, c ∈ string.toList) text.toList

/-- Its line breaks are those of the strings. -/
theorem Printed.lines {strings : List String} {text : String} (hprinted : Printed strings text)
    (hnewline : '\n' ∈ text.toList) : ∃ string ∈ strings, '\n' ∈ string.toList :=
  (hprinted.spaced _ hnewline rfl).resolve_left (by decide)

theorem printed_of_word {strings : List String} {text : String} (hword : Word text.toList) :
    Printed strings text :=
  ⟨hword.solid, hword.spaced⟩

/-- A value that is printed as a word. -/
theorem printed_of_pure {strings : List String} {word text : String} (hword : Word word.toList)
    (htext : (pure word : Except Failure String) = .ok text) : Printed strings text :=
  Except.ok.inj htext ▸ printed_of_word hword

/-- A text between marks of its own. -/
theorem printed_between {strings : List String} {front shown behind : String}
    (hfront : Word front.toList) (hbehind : Word behind.toList)
    (hshown : SpacedBut (fun c => ∃ string ∈ strings, c ∈ string.toList) shown.toList) :
    Printed strings (front ++ shown ++ behind) := by
  constructor
  · simp only [String.toList_append]
    exact solid_append (head_append hfront.solid.head _) hbehind.solid.last
  · simp only [String.toList_append]
    exact (hfront.spaced.append hshown).append hbehind.spaced

/-- A colour is written with its channels between parentheses. -/
theorem printed_colorText {strings : List String} (shade : Color) : Printed strings shade.text := by
  have hchannel : ∀ n : Nat, Word (toString n).toList := fun n => by
    rw [Nat.toString_eq_ofList_toDigits, String.toList_ofList]
    exact Number.word_toDigits n
  have hcomma : ∀ {others : Char → Prop}, SpacedBut others ", ".toList :=
    spaced_of_all (by decide)
  have hchannels : Printed strings ("rgb(" ++ (toString shade.red ++ ", " ++ toString shade.green ++
      ", " ++ toString shade.blue ++ ", " ++ toString shade.alpha) ++ ")") := by
    refine printed_between (by decide) (by decide) ?_
    simp only [String.toList_append]
    exact ((((((hchannel _).spaced.append hcomma).append (hchannel _).spaced).append hcomma).append
      (hchannel _).spaced).append hcomma).append (hchannel _).spaced
  change Printed strings ("rgb(" ++ toString shade.red ++ ", " ++ toString shade.green ++ ", " ++
    toString shade.blue ++ ", " ++ toString shade.alpha ++ ")")
  simpa only [String.append_assoc] using hchannels

/-- A backslash in front of some characters is no white space. -/
theorem spaced_escaped (chars : List Char) :
    SpacedBut (· ∈ chars)
      (chars.flatMap fun c => if c = '\\' || c = '"' then ['\\', c] else [c]) := by
  intro c hc hspace
  obtain ⟨own, hown, hshown⟩ := List.mem_flatMap.1 hc
  split at hshown
  · obtain rfl | hsame := List.mem_cons.1 hshown
    · cases hspace
    · exact .inr (List.mem_singleton.1 hsame ▸ hown)
  · exact .inr (List.mem_singleton.1 hshown ▸ hown)

/-- A string keeps its white space between its quotes. -/
theorem printed_quoteString (text : String) :
    Printed [text] (String.ofList (quoteString text.toList)) := by
  show Printed [text] (String.ofList (['"'] ++ _ ++ ['"']))
  rw [String.ofList_append, String.ofList_append]
  refine printed_between (by decide) (by decide) fun c hc hspace => ?_
  rw [String.toList_ofList] at hc
  refine (spaced_escaped _ c hc hspace).imp_right fun hinside => ?_
  exact ⟨text, List.mem_singleton_self _, hinside⟩

mutual

theorem printed_of_repr : ∀ (value : Value) (text : String), value.repr = .ok text →
    Printed value.strings text
  | .none => by
    intro text htext
    rw [repr] at htext
    exact printed_of_pure (by decide) htext
  | .bool value => by
    intro text htext
    rw [repr] at htext
    exact printed_of_pure (by cases value <;> decide) htext
  | .int value => by
    intro text htext
    rw [repr] at htext
    exact printed_of_word (Number.word_integerText htext)
  | .float value _ => by
    intro text htext
    rw [repr] at htext
    exact printed_of_pure (Number.word_writeFloat _ _ value) htext
  | .str string => by
    intro text htext
    rw [repr] at htext
    obtain rfl := Except.ok.inj htext
    exact printed_quoteString string
  | .length amount => by
    intro text htext
    rw [repr] at htext
    exact printed_of_pure (word_lengthText amount) htext
  | .color shade => by
    intro text htext
    rw [repr] at htext
    obtain rfl := Except.ok.inj htext
    exact printed_colorText shade
  | .content elems => by
    intro text htext
    rw [repr] at htext
    exact printed_of_pure (by split <;> decide) htext
  | .func native => by
    intro text htext
    rw [repr] at htext
    exact printed_of_pure (by cases native <;> decide) htext
  | .array items => by
    intro text htext
    rw [repr] at htext
    cases htexts : reprAll items with
    | error failure =>
      rw [htexts] at htext
      cases htext
    | ok texts =>
      rw [htexts] at htext
      obtain rfl := Except.ok.inj htext
      rw [strings]
      have hseparator : SpacedBut (fun c => ∃ string ∈ stringsAll items, c ∈ string.toList)
          ", ".toList := spaced_of_all (by decide)
      refine printed_between (by decide) (by decide) fun c hc hspace => ?_
      obtain hbetween | ⟨shown, hshown, hc⟩ := exists_of_mem_intercalate hc
      · exact hseparator c hbetween hspace
      · exact spaced_of_reprAll items texts htexts shown hshown c hc hspace

theorem spaced_of_reprAll : ∀ (items : List Value) (texts : List String),
    reprAll items = .ok texts → ∀ text ∈ texts,
      SpacedBut (fun c => ∃ string ∈ stringsAll items, c ∈ string.toList) text.toList
  | [] => by
    intro texts htexts text hmem
    rw [reprAll] at htexts
    obtain rfl := Except.ok.inj htexts
    cases hmem
  | item :: items => by
    intro texts htexts text hmem c hc hspace
    rw [reprAll] at htexts
    cases hfirst : item.repr with
    | error failure =>
      rw [hfirst] at htexts
      cases htexts
    | ok first =>
      cases hrest : reprAll items with
      | error failure =>
        rw [hfirst, hrest] at htexts
        cases htexts
      | ok rest =>
        rw [hfirst, hrest] at htexts
        obtain rfl := Except.ok.inj htexts
        rw [stringsAll]
        obtain rfl | hmem := List.mem_cons.1 hmem
        · refine ((printed_of_repr item text hfirst).spaced c hc hspace).imp_right ?_
          exact fun ⟨string, hstring, hinside⟩ =>
            ⟨string, List.mem_append_left _ hstring, hinside⟩
        · refine (spaced_of_reprAll items rest hrest text hmem c hc hspace).imp_right ?_
          exact fun ⟨string, hstring, hinside⟩ =>
            ⟨string, List.mem_append_right _ hstring, hinside⟩

end

theorem mem_stringsAll {string : String} {items : List Value} :
    string ∈ stringsAll items ↔ ∃ item ∈ items, string ∈ item.strings := by
  induction items with
  | nil => simp [stringsAll]
  | cons item items ih => simp [stringsAll, ih]

theorem stringsAll_append (front behind : List Value) :
    stringsAll (front ++ behind) = stringsAll front ++ stringsAll behind := by
  induction front with
  | nil => rfl
  | cons item items ih => rw [List.cons_append, stringsAll, stringsAll, ih, List.append_assoc]

end Value

end Document

end Galley
