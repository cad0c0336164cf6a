import Galley.Proofs.Note.Announcement

/-!
# Texts on one line

A text is read back from a line of its own if white space neither starts nor ends it and it holds no
newline.  Only the first piece of a text decides how it starts, and only the last one how it ends.
Words hold no white space at all; names and numbers are words.
-/

namespace Galley.Text

/-! ## White space -/

/-- White space outside ASCII. -/
def wideSpaces : List Nat :=
  [0x85, 0xa0, 0x1680, 0x2000, 0x2001, 0x2002, 0x2003, 0x2004, 0x2005, 0x2006, 0x2007, 0x2008,
   0x2009, 0x200a, 0x2028, 0x2029, 0x202f, 0x205f, 0x3000]

theorem mem_wideSpaces {c : Char} (hspace : isSpace c = true) (hwide : 128 ≤ c.toNat) :
    c.toNat ∈ wideSpaces := by
  simp only [isSpace, Bool.or_eq_true, Bool.and_eq_true, decide_eq_true_eq, beq_iff_eq] at hspace
  simp only [wideSpaces, List.mem_cons]
  omega

/-- A property of characters without white space outside ASCII holds of no white space there. -/
theorem inTable_of_isSpace {ranges : Table.Ranges}
    (hranges : ∀ code ∈ wideSpaces, ranges.contains code = false) {c : Char}
    (hspace : isSpace c = true) : inTable ranges c = false := by
  rw [inTable, Bool.and_eq_false_imp]
  intro hwide
  exact hranges _ (mem_wideSpaces hspace (of_decide_eq_true hwide))

/-- No range of ASCII characters behind the space holds white space. -/
theorem isSpace_of_between {low high c : Char} (hrange : 32 < low.toNat ∧ high.toNat < 128)
    (hlow : low ≤ c) (hhigh : c ≤ high) : isSpace c = false := by
  have hlow : low.toNat ≤ c.toNat := hlow
  have hhigh : c.toNat ≤ high.toNat := hhigh
  simp only [isSpace, Bool.or_eq_false_iff, Bool.and_eq_false_iff, decide_eq_false_iff_not,
    beq_eq_false_iff_ne]
  omega

theorem isSpace_of_isAsciiLetter {c : Char} (hletter : isAsciiLetter c = true) :
    isSpace c = false := by
  simp only [isAsciiLetter, Bool.or_eq_true, Bool.and_eq_true, decide_eq_true_eq] at hletter
  obtain ⟨hlow, hhigh⟩ | ⟨hlow, hhigh⟩ := hletter <;>
    exact isSpace_of_between (by decide) hlow hhigh

theorem isSpace_of_isHexDigit {c : Char} (hdigit : isHexDigit c = true) : isSpace c = false := by
  simp only [isHexDigit, Bool.or_eq_true, Bool.and_eq_true, decide_eq_true_eq] at hdigit
  obtain (hdigit | ⟨hlow, hhigh⟩) | ⟨hlow, hhigh⟩ := hdigit
  · exact isSpace_of_isAsciiDigit hdigit
  · exact isSpace_of_between (by decide) hlow hhigh
  · exact isSpace_of_between (by decide) hlow hhigh

/-- No name goes on with white space. -/
theorem isSpace_of_continuesName {c : Char} (hname : continuesName c = true) :
    isSpace c = false := by
  refine Bool.eq_false_iff.2 fun hspace => ?_
  have hascii : isAsciiLetter c = false ∧ isAsciiDigit c = false := by
    refine ⟨Bool.eq_false_iff.2 fun hletter => ?_, Bool.eq_false_iff.2 fun hdigit => ?_⟩
    · exact Bool.false_ne_true ((isSpace_of_isAsciiLetter hletter).symm.trans hspace)
    · exact Bool.false_ne_true ((isSpace_of_isAsciiDigit hdigit).symm.trans hspace)
  have halphabetic : inTable Table.alphabetic c = false :=
    inTable_of_isSpace (by decide +kernel) hspace
  have hnumeric : inTable Table.numeric c = false :=
    inTable_of_isSpace (by decide +kernel) hspace
  rw [continuesName, isAlphanumeric, isLetter, hascii.1, hascii.2, halphabetic, hnumeric] at hname
  obtain rfl : c = '_' := by simpa using hname
  cases hspace

/-! ## Solid texts -/

/-- A text that starts with something else than white space. -/
def SolidHead (chars : List Char) : Prop :=
  ∃ c ∈ chars.head?, isSpace c = false

/-- A text that ends with something else than white space. -/
def SolidLast (chars : List Char) : Prop :=
  ∃ c ∈ chars.getLast?, isSpace c = false

instance (chars : List Char) : Decidable (SolidHead chars) :=
  decidable_of_iff (chars.head?.any (fun c => !isSpace c) = true)
    (by simp [SolidHead, Option.any_eq_true])

instance (chars : List Char) : Decidable (SolidLast chars) :=
  decidable_of_iff (chars.getLast?.any (fun c => !isSpace c) = true)
    (by simp [SolidLast, Option.any_eq_true])

/-- A text that white space neither starts nor ends. -/
structure Solid (chars : List Char) : Prop where
  head : SolidHead chars
  last : SolidLast chars

instance (chars : List Char) : Decidable (Solid chars) :=
  decidable_of_iff (SolidHead chars ∧ SolidLast chars)
    ⟨fun hends => ⟨hends.1, hends.2⟩, fun hsolid => ⟨hsolid.head, hsolid.last⟩⟩

variable {chars front behind : List Char}

theorem Solid.trim_eq (hsolid : Solid chars) : trim chars = chars := by
  obtain ⟨⟨first, hfirst, hhead⟩, last, hlast, htail⟩ := hsolid
  refine trim_eq_self (fun c hc => ?_) fun c hc => ?_
  · rwa [Option.mem_unique hc hfirst]
  · rwa [Option.mem_unique hc hlast]

/-- The start of a text is that of its first piece. -/
theorem head_append (hfront : SolidHead front) (behind : List Char) :
    SolidHead (front ++ behind) := by
  obtain ⟨c, hc, hspace⟩ := hfront
  refine ⟨c, ?_, hspace⟩
  rw [List.head?_append, hc]
  rfl

/-- Its end is that of its last piece. -/
theorem last_append (front : List Char) (hbehind : SolidLast behind) :
    SolidLast (front ++ behind) := by
  obtain ⟨c, hc, hspace⟩ := hbehind
  refine ⟨c, ?_, hspace⟩
  rw [List.getLast?_append, hc]
  rfl

theorem solid_append (hfront : SolidHead front) (hbehind : SolidLast behind) :
    Solid (front ++ behind) :=
  ⟨head_append hfront behind, last_append front hbehind⟩

/-- A character in place of another one makes no white space. -/
theorem Solid.replaceChar {old new : Char} (hnew : isSpace new = false) (hsolid : Solid chars) :
    Solid (replaceChar old new chars) := by
  have hkeeps : ∀ c, isSpace c = false → isSpace (if c == old then new else c) = false := by
    intro c hc
    split <;> assumption
  obtain ⟨⟨first, hfirst, hhead⟩, last, hlast, htail⟩ := hsolid
  refine ⟨⟨_, ?_, hkeeps first hhead⟩, _, ?_, hkeeps last htail⟩
  · rw [Text.replaceChar, List.head?_map, hfirst]
    rfl
  · rw [Text.replaceChar, List.getLast?_map, hlast]
    rfl

/-- Other characters stay. -/
theorem mem_replaceChar {old new c : Char} (hold : c ≠ old) (hnew : c ≠ new) :
    c ∈ replaceChar old new chars ↔ c ∈ chars := by
  rw [replaceChar, List.mem_map]
  constructor
  · rintro ⟨other, hother, hsame⟩
    split at hsame
    · exact absurd hsame.symm hnew
    · rwa [← hsame]
  · intro hc
    exact ⟨c, hc, if_neg (by simpa using hold)⟩

/-! ## Words -/

/-- A text without white space that is not empty. -/
structure Word (chars : List Char) : Prop where
  ne_nil : chars ≠ []
  unspaced : ∀ c ∈ chars, isSpace c = false

instance (chars : List Char) : Decidable (Word chars) :=
  decidable_of_iff (chars ≠ [] ∧ chars.all (fun c => !isSpace c) = true)
    ⟨fun hword => ⟨hword.1, by simpa using hword.2⟩,
      fun hword => ⟨hword.ne_nil, by simpa using hword.unspaced⟩⟩

theorem Word.solid (hword : Word chars) : Solid chars := by
  refine ⟨⟨chars.head hword.ne_nil, List.head?_eq_some_head _, ?_⟩,
    chars.getLast hword.ne_nil, List.getLast?_eq_some_getLast _, ?_⟩
  · exact hword.unspaced _ (List.head_mem _)
  · exact hword.unspaced _ (List.getLast_mem _)

theorem Word.not_mem_newline (hword : Word chars) : '\n' ∉ chars := by
  intro hnewline
  cases hword.unspaced _ hnewline

theorem Word.append (hfront : Word front) (hbehind : Word behind) : Word (front ++ behind) :=
  ⟨List.append_ne_nil_of_left_ne_nil hfront.ne_nil _,
    List.forall_mem_append.2 ⟨hfront.unspaced, hbehind.unspaced⟩⟩

/-- There is no white space in a text but spaces and some other characters. -/
def SpacedBut (others : Char → Prop) (chars : List Char) : Prop :=
  ∀ c ∈ chars, isSpace c = true → c = ' ' ∨ others c

variable {others : Char → Prop}

theorem spaced_of_all (hchars : chars.all (fun c => !isSpace c || c == ' ') = true) :
    SpacedBut others chars := by
  intro c hc hspace
  have hown := List.all_eq_true.1 hchars c hc
  rw [hspace, Bool.not_true, Bool.false_or] at hown
  exact .inl (beq_iff_eq.1 hown)

theorem Word.spaced (hword : Word chars) : SpacedBut others chars :=
  fun c hc hspace => absurd ((hword.unspaced c hc).symm.trans hspace) Bool.false_ne_true

theorem SpacedBut.append (hfront : SpacedBut others front) (hbehind : SpacedBut others behind) :
    SpacedBut others (front ++ behind) :=
  List.forall_mem_append.2 ⟨hfront, hbehind⟩

/-! ## Lines -/

/-- A text that stands on a line by itself. -/
structure Lined (chars : List Char) : Prop where
  solid : Solid chars
  line : '\n' ∉ chars

instance (chars : List Char) : Decidable (Lined chars) :=
  decidable_of_iff (Solid chars ∧ '\n' ∉ chars)
    ⟨fun hlined => ⟨hlined.1, hlined.2⟩, fun hlined => ⟨hlined.solid, hlined.line⟩⟩

theorem Word.lined (hword : Word chars) : Lined chars :=
  ⟨hword.solid, hword.not_mem_newline⟩

/-- A text behind words that introduce it. -/
theorem Lined.prepend (hhead : SolidHead front) (hfront : '\n' ∉ front) (hlined : Lined chars) :
    Lined (front ++ chars) :=
  ⟨solid_append hhead hlined.solid.last,
    fun hnewline => (List.mem_append.1 hnewline).elim hfront hlined.line⟩

/-- A text that would stand on a line by itself but for one reason. -/
structure LinedBut (reason : Prop) (chars : List Char) : Prop where
  solid : Solid chars
  lines : '\n' ∈ chars → reason

theorem Lined.linedBut {reason : Prop} (hlined : Lined chars) : LinedBut reason chars :=
  ⟨hlined.solid, fun hnewline => absurd hnewline hlined.line⟩

theorem LinedBut.mono {reason reason' : Prop} (hreason : reason → reason')
    (hlined : LinedBut reason chars) : LinedBut reason' chars :=
  ⟨hlined.solid, fun hnewline => hreason (hlined.lines hnewline)⟩

/-- A text that shows another one between words of its own has no newlines but those of the other
one. -/
theorem linedBut_between {shown : List Char} (hfront : SolidHead front)
    (hbehind : SolidLast behind) (hopening : '\n' ∉ front) (hclosing : '\n' ∉ behind) :
    LinedBut ('\n' ∈ shown) (front ++ shown ++ behind) := by
  refine ⟨⟨head_append (head_append hfront _) _, last_append _ hbehind⟩, fun hnewline => ?_⟩
  obtain hinside | hafter := List.mem_append.1 hnewline
  · exact (List.mem_append.1 hinside).resolve_left hopening
  · exact absurd hafter hclosing

/-! ## Pieces -/

/-- A character of a joined text is one of its pieces or of what stands in between. -/
theorem exists_of_mem_intercalate {separator : String} {texts : List String} {c : Char}
    (hc : c ∈ (separator.intercalate texts).toList) :
    c ∈ separator.toList ∨ ∃ text ∈ texts, c ∈ text.toList := by
  rw [String.toList_intercalate] at hc
  induction texts with
  | nil => cases hc
  | cons text texts ih =>
    cases texts with
    | nil =>
      refine .inr ⟨text, List.mem_singleton_self _, ?_⟩
      simpa using hc
    | cons next texts =>
      rw [List.map_cons, List.map_cons, List.intercalate_cons_cons, List.mem_append,
        List.mem_append] at hc
      obtain (hfirst | hbetween) | hrest := hc
      · exact .inr ⟨text, List.mem_cons_self, hfirst⟩
      · exact .inl hbetween
      · obtain hbetween | ⟨other, hother, hinside⟩ := ih hrest
        · exact .inl hbetween
        · exact .inr ⟨other, List.mem_cons_of_mem _ hother, hinside⟩

/-- The characters of a piece are those of the text that do not separate pieces. -/
theorem mem_of_mem_splitWhen {separates : Char → Bool} {piece : List Char} {c : Char}
    (hpiece : piece ∈ splitWhen separates chars) (hc : c ∈ piece) :
    c ∈ chars ∧ separates c = false := by
  induction chars generalizing piece with
  | nil =>
    rw [splitWhen, List.mem_singleton] at hpiece
    subst hpiece
    cases hc
  | cons first chars ih =>
    have hlater : ∀ {piece}, piece ∈ splitWhen separates chars → c ∈ piece →
        c ∈ first :: chars ∧ separates c = false := fun hpiece hc =>
      (ih hpiece hc).imp_left (List.mem_cons_of_mem first)
    rw [splitWhen] at hpiece
    split at hpiece
    · obtain rfl | hpiece := List.mem_cons.1 hpiece
      · cases hc
      · exact hlater hpiece hc
    · rename_i hfirst
      have hown : first ∈ first :: chars ∧ separates first = false :=
        ⟨List.mem_cons_self, Bool.eq_false_iff.2 hfirst⟩
      cases hpieces : splitWhen separates chars with
      | nil =>
        rw [hpieces, consPiece, List.mem_singleton] at hpiece
        rw [hpiece, List.mem_singleton] at hc
        exact hc ▸ hown
      | cons next pieces =>
        rw [hpieces] at hlater
        rw [hpieces, consPiece] at hpiece
        obtain rfl | hpiece := List.mem_cons.1 hpiece
        · obtain rfl | hc := List.mem_cons.1 hc
          · exact hown
          · exact hlater List.mem_cons_self hc
        · exact hlater (List.mem_cons_of_mem _ hpiece) hc

end Galley.Text
