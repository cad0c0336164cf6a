import Galley.Note.Metadata
import Galley.Proofs.Note.Position
import Galley.Proofs.Number.Digits
import Mathlib.Data.List.Forall2

/-!
# Announced notes

A note is announced by a comment line in front of the text that it is about, with the lines
and columns of that text counted from one.  Lines of this form are read back as the notes
that they were written for, behind any number of other announcements.
-/

namespace Galley

namespace Text

/-! ## Lines and the space around them -/

theorem splitWhen_line {line : List Char} (hline : '\n' ∉ line) (rest : List Char) :
    splitWhen (· == '\n') (line ++ '\n' :: rest) = line :: splitWhen (· == '\n') rest := by
  induction line with
  | nil => rfl
  | cons c line ih =>
    obtain ⟨hc, hline⟩ := not_or.1 (mt List.mem_cons.2 hline)
    rw [List.cons_append, splitWhen, ih hline, if_neg (by simpa using Ne.symm hc)]
    rfl

theorem lineCount_line {line : List Char} (hline : '\n' ∉ line) (rest : List Char) :
    lineCount (line ++ '\n' :: rest) = lineCount rest + 1 := by
  have hbreaks : breaksOff (line ++ '\n' :: rest) = breaksOff rest := by
    cases rest with
    | nil => simp [breaksOff]
    | cons c rest => simp [breaksOff, List.getLast?_append, List.getLast?_cons]
  rw [lineCount_eq, lineCount_eq, hbreaks, List.count_append, List.count_cons_self,
    List.count_eq_zero_of_not_mem hline]
  omega

/-- A complete line is the first one of a text. -/
theorem lines_line {line : List Char} (hline : '\n' ∉ line) (rest : List Char) :
    lines (line ++ '\n' :: rest) = dropReturn line :: lines rest := by
  rw [lines, splitWhen_line hline, lineCount_line hline, List.take_succ_cons, List.map_cons]
  rfl

theorem trim_eq_self {chars : List Char} (hhead : ∀ c ∈ chars.head?, isSpace c = false)
    (hlast : ∀ c ∈ chars.getLast?, isSpace c = false) : trim chars = chars := by
  have hreverse : ∀ c ∈ chars.reverse.head?, isSpace c = false := by
    rwa [List.head?_reverse]
  rw [trim, trimWhile, dropWhileEnd, dropWhile_eq_self hhead, dropWhile_eq_self hreverse,
    List.reverse_reverse]

/-- A text that is trimmed already does not end in white space. -/
theorem isSpace_of_trim_eq {chars : List Char} (htrim : trim chars = chars) {c : Char}
    (hlast : c ∈ chars.getLast?) : isSpace c = false := by
  have hstart := List.head?_dropWhile_not isSpace (chars.dropWhile isSpace).reverse
  rw [← htrim, trim, trimWhile, dropWhileEnd, List.getLast?_reverse] at hlast
  rw [Option.mem_def.1 hlast] at hstart
  exact hstart

theorem dropReturn_of_getLast? {chars : List Char} (hlast : '\r' ∉ chars.getLast?) :
    dropReturn chars = chars := by
  rw [dropReturn, if_neg (by simpa using hlast)]

/-- What stands between the first word of a line and its end is kept, and an idle space
is not. -/
theorem trim_dropReturn_line {word rest : List Char} (hword : word ≠ [])
    (hhead : ∀ c ∈ word.head?, isSpace c = false)
    (hlast : ∀ c ∈ word.getLast?, isSpace c = false) (hrest : trim rest = rest) :
    trim (dropReturn (word ++ ' ' :: rest)) =
      word ++ if rest.isEmpty then [] else ' ' :: rest := by
  have hfirst : ∀ c ∈ (word ++ ' ' :: rest).head?, isSpace c = false := by
    rwa [List.head?_append_of_ne_nil _ hword]
  obtain rfl | ⟨init, last, rfl⟩ := List.eq_nil_or_concat' rest
  · have hkept : (word ++ [' ']).reverse.dropWhile isSpace = word.reverse := by
      rw [List.reverse_append, List.reverse_singleton, List.singleton_append,
        List.dropWhile_cons_of_pos (by decide)]
      exact dropWhile_eq_self (by rwa [List.head?_reverse])
    rw [dropReturn_of_getLast? (by simp), trim, trimWhile, dropWhileEnd,
      dropWhile_eq_self hfirst, hkept, List.reverse_reverse]
    simp
  · have hspace : isSpace last = false := isSpace_of_trim_eq hrest (by simp)
    have hend : (word ++ ' ' :: (init ++ [last])).getLast? = some last := by
      simp [List.getLast?_append, List.getLast?_cons]
    rw [dropReturn_of_getLast?, trim_eq_self hfirst]
    · simp
    · simpa [hend] using hspace
    · rw [hend]
      rintro ⟨⟩
      cases hspace

end Text

namespace Metadata

/-! ## Lines of notes -/

theorem noteLines_eq_nil {lines : List (List Char)} (index : Nat)
    (hlines : ∀ line ∈ lines, errorMark.isPrefixOf line = false) : noteLines index lines = [] := by
  induction lines generalizing index with
  | nil => rfl
  | cons line lines ih =>
    obtain ⟨hline, hlines⟩ := List.forall_mem_cons.1 hlines
    rw [noteLines, ih _ hlines, hline]
    rfl

/-- A line that holds a note holds no directive. -/
theorem directive_eq_none {line : List Char} (hline : errorMark.isPrefixOf line = true) :
    directive line = none := by
  have hother : ∀ mark : List Char, mark.length = 12 ∨ mark.length = 13 →
      errorMark.isPrefixOf mark = false → mark.isPrefixOf line = false := by
    intro mark hlength hmark
    by_contra hprefix
    rw [Bool.not_eq_false, List.isPrefixOf_iff_prefix] at hprefix
    rw [List.isPrefixOf_iff_prefix] at hline
    have hle : errorMark.length ≤ mark.length := by
      have hten : errorMark.length = 10 := rfl
      omega
    rw [List.isPrefixOf_iff_prefix.2 (List.prefix_of_prefix_length_le hline hprefix hle)] at hmark
    cases hmark
  rw [directive, hother _ (.inl rfl) rfl, hother _ (.inr rfl) rfl]
  rfl

theorem takeWhile_comments {texts rest : List (List Char)}
    (htexts : ∀ text ∈ texts, errorMark.isPrefixOf text = true)
    (hfirst : ∀ text ∈ rest.head?, ['/', '/'].isPrefixOf text = false) :
    ((texts ++ rest).takeWhile fun text => ['/', '/'].isPrefixOf text) = texts := by
  have hcomments : ∀ text ∈ texts, ['/', '/'].isPrefixOf text = true := by
    intro text htext
    have hmark := List.isPrefixOf_iff_prefix.1 (htexts text htext)
    exact List.isPrefixOf_iff_prefix.2 (List.IsPrefix.trans (by decide) hmark)
  rw [List.takeWhile_append_of_pos hcomments]
  cases rest with
  | nil => simp
  | cons text rest => simp [hfirst text rfl]

/-- A text that is read as a note on whichever line it stands, if the run of comments that it
stands in ends at the given line. -/
def Reads (source : Syntax.Source) (stop : Nat) (text : List Char) (note : Note) : Prop :=
  errorMark.isPrefixOf text = true ∧
    ∀ line : Line, line.text = text → line.index + line.comments = stop →
      readNote source line = .ok note

theorem forall_isPrefixOf {source : Syntax.Source} {stop : Nat} {texts : List (List Char)}
    {notes : List Note} (hread : List.Forall₂ (Reads source stop) texts notes) :
    ∀ text ∈ texts, errorMark.isPrefixOf text = true := by
  induction hread with
  | nil => exact nofun
  | cons htext _ ih => exact List.forall_mem_cons.2 ⟨htext.1, ih⟩

/-- A run of note lines that ends where other text begins is read line after line. -/
theorem mapM_readNote {source : Syntax.Source} {texts rest : List (List Char)} {notes : List Note}
    {stop : Nat} (hread : List.Forall₂ (Reads source stop) texts notes)
    (hfirst : ∀ text ∈ rest.head?, ['/', '/'].isPrefixOf text = false)
    (hplain : ∀ text ∈ rest, errorMark.isPrefixOf text = false) {index : Nat}
    (hstop : index + texts.length = stop) :
    (noteLines index (texts ++ rest)).mapM (readNote source) = .ok notes := by
  induction hread generalizing index with
  | nil =>
    rw [List.nil_append, noteLines_eq_nil index hplain]
    rfl
  | @cons text note texts notes htext hothers ih =>
    have hmarks : ∀ other ∈ text :: texts, errorMark.isPrefixOf other = true :=
      List.forall_mem_cons.2 ⟨htext.1, forall_isPrefixOf hothers⟩
    have hnote : readNote source ⟨index, text, (text :: texts).length⟩ = .ok note :=
      htext.2 _ rfl hstop
    rw [List.length_cons] at hstop
    rw [List.cons_append, noteLines, if_pos htext.1, ← List.cons_append,
      takeWhile_comments hmarks hfirst, List.mapM_cons, hnote, ih (by omega)]
    rfl

end Metadata

namespace Note

open Text Syntax

/-! ## Announcements -/

/-- The line that announces a note on a body which follows it. -/
def announcement (body : Source) (note : Note) : String :=
  let (startLine, startColumn) := place body 0 note.start
  let (stopLine, stopColumn) := place body 0 note.stop
  s!"// Error: {startLine}:{startColumn}-{stopLine}:{stopColumn} {note.message}\n"

/-- The lines that announce notes, one for each of them. -/
def announce (body : Source) (notes : List Note) : String :=
  String.join (notes.map (announcement body))

/-- The note further behind in a text. -/
def shift (offset : Nat) (note : Note) : Note :=
  { note with start := note.start + offset, stop := note.stop + offset }

/-- A note that can be announced: it starts and stops between two characters of the body, and
its message stands in one line without space around it. -/
structure Announceable (body : List Char) (note : Note) : Prop where
  start : ∃ before after, body = before ++ after ∧ note.start = byteLength before
  stop : ∃ before after, body = before ++ after ∧ note.stop = byteLength before
  line : '\n' ∉ note.message.toList
  trimmed : trim note.message.toList = note.message.toList

/-- The line and the column behind a text, counted from one. -/
def positionText (before : List Char) : List Char :=
  Nat.toDigits 10 (before.count '\n' + 1) ++ ':' :: Nat.toDigits 10 (column before + 1)

/-- An announcement up to the end of its positions. -/
def announcedRange (before before' : List Char) : List Char :=
  Metadata.errorMark ++ (positionText before ++ '-' :: positionText before')

theorem place_eq {body : Source} {before after : List Char}
    (hbody : body.chars = before ++ after) :
    place body 0 (byteLength before) = (((before.count '\n' + 1 : Nat) : Int), column before + 1) := by
  rw [place, Source.byteToLine_byteLength hbody, Source.byteToColumn_byteLength hbody]
  simp [Nat.add_comm, Int.add_comm]

theorem toList_toString (n : Nat) : (toString n).toList = Nat.toDigits 10 n := by
  rw [Nat.toString_eq_ofList_toDigits, String.toList_ofList]

theorem toList_toString_natCast (n : Nat) : (toString (n : Int)).toList = Nat.toDigits 10 n :=
  toList_toString n

/-- The range of an announcement is written with the lines and columns in its body. -/
theorem toList_announcement {body : Source} {note : Note} {before after before' after' : List Char}
    (hbefore : body.chars = before ++ after) (hstart : note.start = byteLength before)
    (hbefore' : body.chars = before' ++ after') (hstop : note.stop = byteLength before') :
    (announcement body note).toList =
      announcedRange before before' ++ ' ' :: note.message.toList ++ ['\n'] := by
  have hmark : (toString "// Error: ").toList = Metadata.errorMark := rfl
  have hcolon : (toString ":").toList = [':'] := rfl
  have hdash : (toString "-").toList = ['-'] := rfl
  have hspace : (toString " ").toList = [' '] := rfl
  have hnewline : (toString "\n").toList = ['\n'] := rfl
  have hmessage : toString note.message = note.message := rfl
  unfold announcement
  rw [hstart, hstop, place_eq hbefore, place_eq hbefore']
  simp only [String.toList_append, toList_toString, toList_toString_natCast, hmark, hcolon, hdash,
    hspace, hnewline, hmessage, announcedRange, positionText, List.append_assoc,
    List.cons_append, List.nil_append]

/-! ## Reading -/

/-- Characters that no number goes on with. -/
def EndsNumber (rest : List Char) : Prop :=
  ∀ c ∈ rest.head?, isDigit c = false

theorem readCount_toDigits (line : Metadata.Line) {n : Nat}
    (hshort : n + 1 < Number.tenPow Number.digitLimit) {rest : List Char}
    (hrest : EndsNumber rest) :
    Metadata.readCount line (Nat.toDigits 10 (n + 1) ++ rest) = .ok ((n : Int), rest) := by
  have hdigits : ∀ c ∈ Nat.toDigits 10 (n + 1), isDigit c = true := by
    intro c hc
    rw [isDigit, Number.isAsciiDigit_of_mem_toDigits hc, Bool.true_or]
  have hstop : rest.takeWhile isDigit = [] ∧ rest.dropWhile isDigit = rest := by
    refine ⟨?_, dropWhile_eq_self hrest⟩
    cases rest with
    | nil => rfl
    | cons c rest => rw [List.takeWhile_cons_of_neg (by simpa using hrest c rfl)]
  rw [Metadata.readCount]
  simp only [List.takeWhile_append_of_pos hdigits, List.dropWhile_append_of_pos hdigits, hstop,
    List.append_nil, List.isEmpty_eq_false_iff.2 Nat.toDigits_ne_nil,
    Number.readInteger_toDigits hshort]
  rw [if_neg Bool.false_ne_true]
  have hpositive : ¬ ((n + 1 : Nat) : Int) < 1 := by omega
  simp only [bind, Except.bind]
  rw [if_neg hpositive, Int.natCast_add_one, Int.add_sub_cancel]
  rfl

variable {source : Source} {front before after : List Char}

/-- A position is read back as the place that it was written for, behind complete lines. -/
theorem readPosition_positionText (line : Metadata.Line) (hfront : EndsLine front)
    (hline : line.index + line.comments = front.count '\n')
    (hsource : source.chars = front ++ (before ++ after))
    (hshort : (before ++ after).length + 1 < Number.tenPow Number.digitLimit) {rest : List Char}
    (hrest : EndsNumber rest) :
    Metadata.readPosition source line (positionText before ++ rest) =
      .ok (byteLength (front ++ before), rest) := by
  have hcount : before.count '\n' ≤ before.length := List.count_le_length
  have hcolumn := column_le_length before
  rw [List.length_append] at hshort
  have hplace : source.lineColumnToByte (line.index + line.comments + (before.count '\n' : Nat))
      (column before : Nat) = some (byteLength (front ++ before)) := by
    have hsum : ((front ++ before).count '\n' : Int) =
        line.index + line.comments + (before.count '\n' : Nat) := by
      rw [List.count_append]
      omega
    rw [← column_append hfront, ← hsum]
    exact Source.lineColumnToByte_column (by rw [hsource, List.append_assoc])
  have hcolon : EndsNumber (':' :: (Nat.toDigits 10 (column before + 1) ++ rest)) := by
    rintro _ ⟨⟩
    rfl
  rw [Metadata.readPosition, positionText, List.append_assoc, List.cons_append,
    readCount_toDigits line (by omega) hcolon]
  change (Metadata.readCount line (Nat.toDigits 10 (column before + 1) ++ rest) >>= _) = _
  rw [readCount_toDigits line (by omega) hrest]
  dsimp only [pure, bind, Except.pure, Except.bind]
  rw [hplace]

/-- Behind complete lines the line of an announcement is read as its note, moved by what is in
front. -/
theorem readNote_announcedRange (line : Metadata.Line) {note : Note} (hfront : EndsLine front)
    (hline : line.index + line.comments = front.count '\n') {body : List Char}
    (hsource : source.chars = front ++ body)
    (hshort : body.length + 1 < Number.tenPow Number.digitLimit)
    {before after before' after' : List Char}
    (hbefore : body = before ++ after) (hstart : note.start = byteLength before)
    (hbefore' : body = before' ++ after') (hstop : note.stop = byteLength before')
    {rest : List Char} (htext : line.text = announcedRange before before' ++ rest)
    (hrest : EndsNumber rest) (hmessage : trim rest = note.message.toList) :
    Metadata.readNote source line = .ok (note.shift (byteLength front)) := by
  have hdash : EndsNumber ('-' :: (positionText before' ++ rest)) := by
    rintro _ ⟨⟩
    rfl
  have hdrop : line.text.drop Metadata.errorMark.length =
      positionText before ++ '-' :: (positionText before' ++ rest) := by
    rw [htext, announcedRange, List.append_assoc, List.drop_left, List.append_assoc,
      List.cons_append]
  rw [Metadata.readNote, hdrop, readPosition_positionText line hfront hline
    (hbefore ▸ hsource) (hbefore ▸ hshort) hdash]
  change (Metadata.readPosition source line (positionText before' ++ rest) >>= _) = _
  rw [readPosition_positionText line hfront hline (hbefore' ▸ hsource) (hbefore' ▸ hshort) hrest]
  refine congrArg Except.ok ?_
  rw [hmessage, String.ofList_toList, shift, hstart, hstop]
  simp [Int.add_comm]

/-! ## Announcements among the lines of a text -/

theorem not_mem_announcedRange (before before' : List Char) :
    '\n' ∉ announcedRange before before' := by
  have hdigits : ∀ n : Nat, '\n' ∉ Nat.toDigits 10 n := by
    intro n hnewline
    cases Number.isAsciiDigit_of_mem_toDigits hnewline
  have hmark : '\n' ∉ Metadata.errorMark := by decide
  simp [announcedRange, positionText, hmark, hdigits]

theorem head?_announcedRange (before before' : List Char) :
    (announcedRange before before').head? = some '/' :=
  rfl

theorem isSpace_of_head?_announcedRange (before before' : List Char) :
    ∀ c ∈ (announcedRange before before').head?, isSpace c = false := by
  rw [head?_announcedRange]
  rintro _ ⟨⟩
  rfl

theorem isSpace_of_getLast?_announcedRange (before before' : List Char) :
    ∀ c ∈ (announcedRange before before').getLast?, isSpace c = false := by
  intro c hc
  have hlast : (announcedRange before before').getLast? =
      (Nat.toDigits 10 (column before' + 1)).getLast? := by
    obtain ⟨init, last, hdigits⟩ := (List.eq_nil_or_concat' _).resolve_left
      (Nat.toDigits_ne_nil (n := column before' + 1) (b := 10))
    simp [announcedRange, positionText, hdigits, List.getLast?_append, List.getLast?_cons]
  rw [hlast] at hc
  exact isSpace_of_isAsciiDigit
    (Number.isAsciiDigit_of_mem_toDigits (List.mem_of_getLast? (Option.mem_def.1 hc)))

/-- A trimmed line that announces a note on a body. -/
def Announces (body text : List Char) (note : Note) : Prop :=
  ∃ before after before' after' rest,
    (body = before ++ after ∧ note.start = byteLength before) ∧
    (body = before' ++ after' ∧ note.stop = byteLength before') ∧
    text = announcedRange before before' ++ rest ∧ EndsNumber rest ∧
    trim rest = note.message.toList

theorem Announces.isPrefixOf {body text : List Char} {note : Note}
    (hannounces : Announces body text note) : Metadata.errorMark.isPrefixOf text = true := by
  obtain ⟨before, after, before', after', rest, -, -, rfl, -⟩ := hannounces
  rw [List.isPrefixOf_iff_prefix, announcedRange, List.append_assoc]
  exact List.prefix_append _ _

/-- An announcement is a line in front of what follows. -/
theorem exists_lines_announcement {body : Source} {note : Note}
    (hnote : Announceable body.chars note) (rest : List Char) :
    ∃ text, Announces body.chars text note ∧
      (lines ((announcement body note).toList ++ rest)).map trim =
        text :: (lines rest).map trim := by
  obtain ⟨before, after, hbefore, hstart⟩ := hnote.start
  obtain ⟨before', after', hbefore', hstop⟩ := hnote.stop
  have hline : '\n' ∉ announcedRange before before' ++ ' ' :: note.message.toList := by
    simp [not_mem_announcedRange, hnote.line]
  refine ⟨trim (dropReturn (announcedRange before before' ++ ' ' :: note.message.toList)), ?_, ?_⟩
  · rw [trim_dropReturn_line (by rintro ⟨⟩) (isSpace_of_head?_announcedRange before before')
      (isSpace_of_getLast?_announcedRange before before') hnote.trimmed]
    refine ⟨before, after, before', after', _, ⟨hbefore, hstart⟩, ⟨hbefore', hstop⟩, rfl, ?_⟩
    cases hmessage : note.message.toList with
    | nil => exact ⟨nofun, rfl⟩
    | cons c message =>
      refine ⟨by rintro _ ⟨⟩; rfl, ?_⟩
      have htrimmed := hnote.trimmed
      rw [hmessage] at htrimmed
      exact htrimmed
  · rw [toList_announcement hbefore hstart hbefore' hstop, List.append_assoc,
      List.singleton_append, lines_line hline, List.map_cons]

theorem announce_cons (body : Source) (note : Note) (notes : List Note) :
    (announce body (note :: notes)).toList =
      (announcement body note).toList ++ (announce body notes).toList := by
  rw [announce, List.map_cons, String.join_cons, String.toList_append]
  rfl

theorem exists_lines_announce {body : Source} {notes : List Note}
    (hnotes : ∀ note ∈ notes, Announceable body.chars note) (rest : List Char) :
    ∃ texts, List.Forall₂ (Announces body.chars) texts notes ∧
      (lines ((announce body notes).toList ++ rest)).map trim =
        texts ++ (lines rest).map trim := by
  induction notes with
  | nil => exact ⟨[], .nil, rfl⟩
  | cons note notes ih =>
    obtain ⟨hnote, hnotes⟩ := List.forall_mem_cons.1 hnotes
    obtain ⟨texts, htexts, hrest⟩ := ih hnotes
    obtain ⟨text, htext, hlines⟩ :=
      exists_lines_announcement hnote ((announce body notes).toList ++ rest)
    refine ⟨text :: texts, .cons htext htexts, ?_⟩
    rw [announce_cons, List.append_assoc, hlines, hrest, List.cons_append]

/-- There is one complete line for each announced note. -/
theorem announce_endsLine {body : Source} {notes : List Note}
    (hnotes : ∀ note ∈ notes, Announceable body.chars note) :
    EndsLine (announce body notes).toList ∧
      (announce body notes).toList.count '\n' = notes.length := by
  induction notes with
  | nil => exact ⟨nofun, rfl⟩
  | cons note notes ih =>
    obtain ⟨hnote, hnotes⟩ := List.forall_mem_cons.1 hnotes
    obtain ⟨hends, hcount⟩ := ih hnotes
    obtain ⟨before, after, hbefore, hstart⟩ := hnote.start
    obtain ⟨before', after', hbefore', hstop⟩ := hnote.stop
    have hmessage : '\n' ∉ ' ' :: note.message.toList := by simp [hnote.line]
    rw [announce_cons, toList_announcement hbefore hstart hbefore' hstop]
    constructor
    · intro last hlast
      rw [List.getLast?_append, List.getLast?_concat, Option.mem_def] at hlast
      cases hnext : (announce body notes).toList.getLast? with
      | none => simpa [hnext, eq_comm] using hlast
      | some next =>
        obtain rfl : next = last := by simpa [hnext] using hlast
        exact hends next hnext
    · simp only [List.count_append, hcount, List.length_cons,
        List.count_eq_zero_of_not_mem (not_mem_announcedRange before before'),
        List.count_eq_zero_of_not_mem hmessage, List.count_singleton_self]
      omega

/-! ## Reading announcements -/

theorem Announces.reads {source : Source} {front body text : List Char} {note : Note}
    (hfront : EndsLine front) (hsource : source.chars = front ++ body)
    (hshort : body.length + 1 < Number.tenPow Number.digitLimit)
    (hannounces : Announces body text note) :
    Metadata.Reads source (front.count '\n') text (note.shift (byteLength front)) := by
  refine ⟨hannounces.isPrefixOf, fun line htext hline => ?_⟩
  obtain ⟨before, after, before', after', rest, ⟨hbefore, hstart⟩, ⟨hbefore', hstop⟩, rfl, hrest,
    hmessage⟩ := hannounces
  have hline : (line.index + line.comments : Nat) = front.count '\n' := hline
  exact readNote_announcedRange line hfront hline hsource hshort hbefore hstart hbefore' hstop
    htext hrest hmessage

/-- The announcements of notes on a body are read as these notes, each of them as far behind its
place in the body as the announcements are long.  The body does not go on with the comments, it
has no notes of its own, and its lines and columns can be written as numbers that are short
enough to be read: a longer body fits into no memory. -/
theorem read_announced (body source : Source) (notes : List Note)
    (hfirst : ∀ line ∈ (Text.lines body.chars).head?, ['/', '/'].isPrefixOf (trim line) = false)
    (hplain : ∀ line ∈ Text.lines body.chars, Metadata.errorMark.isPrefixOf (trim line) = false)
    (hshort : body.chars.length + 1 < Number.tenPow Number.digitLimit)
    (hnotes : ∀ note ∈ notes, Announceable body.chars note)
    (hsource : source.chars = (announce body notes).toList ++ body.chars) :
    ∃ compareRef, Metadata.read body = .ok ⟨compareRef, []⟩ ∧
      Metadata.read source =
        .ok ⟨compareRef, notes.map (shift (byteLength (announce body notes).toList))⟩ := by
  obtain ⟨texts, htexts, hlines⟩ := exists_lines_announce hnotes body.chars
  obtain ⟨hends, hcount⟩ := announce_endsLine hnotes
  have hread : List.Forall₂ (Metadata.Reads source notes.length) texts
      (notes.map (shift (byteLength (announce body notes).toList))) := by
    rw [List.forall₂_map_right_iff, ← hcount]
    exact htexts.imp fun _ _ => Announces.reads hends hsource hshort
  have hfirst' : ∀ text ∈ ((Text.lines body.chars).map trim).head?,
      ['/', '/'].isPrefixOf text = false := by
    rw [List.head?_map]
    exact fun text htext => by
      obtain ⟨line, hline, rfl⟩ := Option.map_eq_some_iff.1 htext
      exact hfirst line hline
  have hplain' : ∀ text ∈ (Text.lines body.chars).map trim,
      Metadata.errorMark.isPrefixOf text = false := List.forall_mem_map.2 hplain
  have hdirectives : texts.filterMap Metadata.directive = [] :=
    List.filterMap_eq_nil_iff.2 fun text htext =>
      Metadata.directive_eq_none (Metadata.forall_isPrefixOf hread text htext)
  refine ⟨(((Text.lines body.chars).map trim).filterMap Metadata.directive).getLast?, ?_, ?_⟩
  · rw [Metadata.read, Metadata.noteLines_eq_nil 0 hplain']
    rfl
  · have hstop : 0 + texts.length = notes.length := by rw [Nat.zero_add, htexts.length_eq]
    have hnoted := Metadata.mapM_readNote hread hfirst' hplain' hstop
    rw [Metadata.read, hsource, hlines, hnoted, List.filterMap_append, hdirectives]
    rfl

/-- Two notes are announced in 44 bytes, one of them on a letter of two bytes and one without a
message. -/
theorem read_announced_two :
    ∃ compareRef, Metadata.read (.detached "aé\nb c") = .ok ⟨compareRef, []⟩ ∧
      Metadata.read (.detached "// Error: 1:2-1:3 é bad\n// Error: 2:1-2:4 \naé\nb c") =
        .ok ⟨compareRef, [⟨45, 47, "é bad"⟩, ⟨48, 51, ""⟩]⟩ := by
  have hnotes : ∀ note ∈ [(⟨1, 3, "é bad"⟩ : Note), ⟨4, 7, ""⟩],
      Announceable (Source.detached "aé\nb c").chars note := by
    simp only [List.forall_mem_cons]
    refine ⟨⟨⟨['a'], ['é', '\n', 'b', ' ', 'c'], rfl, rfl⟩,
      ⟨['a', 'é'], ['\n', 'b', ' ', 'c'], rfl, rfl⟩, by decide, by decide⟩,
      ⟨⟨['a', 'é', '\n'], ['b', ' ', 'c'], rfl, rfl⟩,
        ⟨['a', 'é', '\n', 'b', ' ', 'c'], [], rfl, rfl⟩, by decide, by decide⟩, nofun⟩
  have hshort : (Source.detached "aé\nb c").chars.length + 1 < Number.tenPow Number.digitLimit :=
    Number.lt_tenPow (by decide) (by decide)
  have hread := read_announced (.detached "aé\nb c")
    (.detached "// Error: 1:2-1:3 é bad\n// Error: 2:1-2:4 \naé\nb c") _ (by decide) (by decide)
    hshort hnotes (by decide +kernel)
  have hlength : byteLength (announce (.detached "aé\nb c")
      [⟨1, 3, "é bad"⟩, ⟨4, 7, ""⟩]).toList = 44 := by decide +kernel
  rw [hlength] at hread
  exact hread

end Note

end Galley
