import Galley.Proofs.Edit.Reparse
import Galley.Syntax.Source

/-!
# Histories of a source

A source is changed by edits and by replacing its whole text.  An edit is
accepted exactly if both ends of its range fall between two characters.  What
holds of the tree of a source throughout a history follows from what one change
preserves.
-/

namespace Galley.Syntax

open Galley.Text Node

/-- Of two beginnings of a text the one with fewer bytes begins the other. -/
theorem prefix_of_byteLength_le {left right chars : List Char} (hleft : left <+: chars)
    (hright : right <+: chars) (hle : byteLength left ≤ byteLength right) : left <+: right := by
  obtain hprefix | ⟨extra, rfl⟩ := List.prefix_or_prefix_of_prefix hleft hright
  · exact hprefix
  · cases extra with
    | nil => simp
    | cons c extra =>
      have hpos := c.utf8Size_pos
      rw [byteLength_append, byteLength_cons] at hle
      omega

/-- The source in which some characters in the middle have been replaced. -/
def Source.spliced (source : Source) (before middle replacement after : List Char) : Source :=
  { source with
    text := String.ofList (before ++ replacement ++ after)
    root := (reparse source.root (before ++ replacement ++ after) before.length
      (before ++ middle).length (before.length + replacement.length)).getD
        (parse (String.ofList (before ++ replacement ++ after))) }

/-- A range of whole characters is cut out of the text, and the tree is left to
the reparser. -/
theorem Source.editWith_of_chars (reparser : Reparser) {source : Source}
    {before middle after : List Char} (replacement : String)
    (hchars : source.chars = before ++ middle ++ after) :
    source.editWith reparser (byteLength before) (byteLength (before ++ middle)) replacement =
      (reparser source.root (before ++ replacement.toList ++ after) before.length
        (before ++ middle).length (before.length + replacement.toList.length)).map fun root =>
          { source with
            text := String.ofList (before ++ replacement.toList ++ after)
            root := root.getD (parse (String.ofList (before ++ replacement.toList ++ after))) } := by
  have hlength : source.byteLen = byteLength before + byteLength middle + byteLength after := by
    rw [byteLen, hchars, byteLength_append, byteLength_append]
  have hstart := splitAtByte_append before (middle ++ after)
  have hstop := splitAtByte_append (before ++ middle) after
  rw [← List.append_assoc, ← hchars] at hstart
  rw [← hchars] at hstop
  rw [editWith, if_pos (by rw [hlength, byteLength_append]; omega), Int.toNat_natCast,
    Int.toNat_natCast, hstart, hstop]
  dsimp only
  cases reparser source.root (before ++ replacement.toList ++ after) before.length
    (before ++ middle).length (before.length + replacement.toList.length) <;> rfl

/-- An edit is accepted exactly if its range consists of whole characters. -/
theorem Source.edit_eq_ok_iff {source next : Source} {start stop : Int} {replacement : String} :
    source.edit start stop replacement = .ok next ↔
      ∃ before middle after, source.chars = before ++ middle ++ after ∧
        start = byteLength before ∧ stop = byteLength (before ++ middle) ∧
        next = source.spliced before middle replacement.toList after := by
  constructor
  · intro hedit
    rw [edit, editWith] at hedit
    split at hedit
    · rename_i hrange
      split at hedit
      · rename_i before _ covered after hstart hstop
        obtain ⟨hbefore, hfirst⟩ := splitAtByte_eq_some hstart
        obtain ⟨hcovered, hlast⟩ := splitAtByte_eq_some hstop
        obtain ⟨middle, rfl⟩ := prefix_of_byteLength_le ⟨_, hbefore⟩ ⟨_, hcovered⟩ (by omega)
        refine ⟨before, middle, after, hcovered.symm, by omega, by omega, ?_⟩
        exact (Except.ok.inj hedit).symm
      · cases hedit
    · cases hedit
  · rintro ⟨before, middle, after, hchars, rfl, rfl, rfl⟩
    exact editWith_of_chars .incremental replacement hchars

/-- A change of a source from outside. -/
inductive Change where
  | edit (start stop : Int) (replacement : String)
  | replace (text : String)

namespace Change

def apply (source : Source) : Change → Except Failure Source
  | edit start stop replacement => source.edit start stop replacement
  | replace text => .ok (source.replace text)

/-- An edit is valid if its range lies within the text and on boundaries of
characters. -/
def Valid (source : Source) : Change → Prop
  | edit start stop _ => ∃ before middle after, source.chars = before ++ middle ++ after ∧
      start = byteLength before ∧ stop = byteLength (before ++ middle)
  | replace _ => True

theorem valid_iff {source : Source} {change : Change} :
    change.Valid source ↔ ∃ next, change.apply source = .ok next := by
  cases change with
  | edit start stop replacement =>
    constructor
    · rintro ⟨before, middle, after, hchars, hstart, hstop⟩
      exact ⟨_, Source.edit_eq_ok_iff.2 ⟨before, middle, after, hchars, hstart, hstop, rfl⟩⟩
    · rintro ⟨next, hnext⟩
      obtain ⟨before, middle, after, hchars, hstart, hstop, -⟩ := Source.edit_eq_ok_iff.1 hnext
      exact ⟨before, middle, after, hchars, hstart, hstop⟩
  | replace text => exact ⟨fun _ => ⟨_, rfl⟩, fun _ => trivial⟩

end Change

/-- Every change is valid for the source that the ones in front of it made. -/
def ValidFrom (source : Source) : List Change → Prop
  | [] => True
  | change :: changes =>
    change.Valid source ∧ ∀ next, change.apply source = .ok next → ValidFrom next changes

/-- All changes are accepted, and the predicate holds of the source in front of
the first one and behind each. -/
def Throughout (holds : Source → Prop) (source : Source) : List Change → Prop
  | [] => holds source
  | change :: changes =>
    holds source ∧ ∃ next, change.apply source = .ok next ∧ Throughout holds next changes

variable {holds holds' : Source → Prop} {source : Source} {changes : List Change}

theorem throughout_cons_iff {change : Change} {next : Source}
    (hnext : change.apply source = .ok next) :
    Throughout holds source (change :: changes) ↔
      holds source ∧ Throughout holds next changes := by
  constructor
  · rintro ⟨hsource, next', hnext', hchanges⟩
    obtain rfl := Except.ok.inj (hnext.symm.trans hnext')
    exact ⟨hsource, hchanges⟩
  · rintro ⟨hsource, hchanges⟩
    exact ⟨hsource, next, hnext, hchanges⟩

/-- A history can be run to see whether a predicate holds throughout. -/
instance Throughout.decidable (holds : Source → Prop) [DecidablePred holds] :
    (source : Source) → (changes : List Change) → Decidable (Throughout holds source changes)
  | source, [] => inferInstanceAs (Decidable (holds source))
  | source, change :: changes =>
    match hnext : change.apply source with
    | .error _ => isFalse fun hthroughout => by
      obtain ⟨-, next, haccepted, -⟩ := hthroughout
      cases hnext.symm.trans haccepted
    | .ok next =>
      have := Throughout.decidable holds next changes
      decidable_of_iff (holds source ∧ Throughout holds next changes)
        (throughout_cons_iff hnext).symm

/-- Valid are the changes that are accepted. -/
theorem validFrom_iff : ValidFrom source changes ↔ Throughout (fun _ => True) source changes := by
  induction changes generalizing source with
  | nil => exact Iff.rfl
  | cons change changes ih =>
    constructor
    · rintro ⟨hchange, hchanges⟩
      obtain ⟨next, hnext⟩ := Change.valid_iff.1 hchange
      exact ⟨trivial, next, hnext, ih.1 (hchanges next hnext)⟩
    · rintro ⟨-, next, hnext, hchanges⟩
      refine ⟨Change.valid_iff.2 ⟨next, hnext⟩, ?_⟩
      intro next' hnext'
      obtain rfl := Except.ok.inj (hnext.symm.trans hnext')
      exact ih.2 hchanges

instance (source : Source) (changes : List Change) : Decidable (ValidFrom source changes) :=
  decidable_of_iff _ validFrom_iff.symm

theorem Throughout.here (hthroughout : Throughout holds source changes) : holds source := by
  cases changes with
  | nil => exact hthroughout
  | cons change changes => exact hthroughout.1

theorem Throughout.imp (hthroughout : Throughout holds source changes)
    (himplies : ∀ source, holds source → holds' source) : Throughout holds' source changes := by
  induction changes generalizing source with
  | nil => exact himplies source hthroughout
  | cons change changes ih =>
    obtain ⟨hsource, next, hnext, hchanges⟩ := hthroughout
    exact ⟨himplies source hsource, next, hnext, ih hchanges⟩

/-- What holds at first and is preserved by each change holds throughout, as far
as the sources are of the kind for which this is known. -/
theorem Throughout.of_step (hthroughout : Throughout holds source changes)
    (hsource : holds' source)
    (hstep : ∀ {source next : Source} {change : Change}, holds' source → holds next →
      change.apply source = .ok next → holds' next) :
    Throughout holds' source changes := by
  induction changes generalizing source with
  | nil => exact hsource
  | cons change changes ih =>
    obtain ⟨-, next, hnext, hchanges⟩ := hthroughout
    exact ⟨hsource, next, hnext, ih hchanges (hstep hsource hchanges.here hnext)⟩

/-! ## Incremental equals clean -/

theorem Source.erase_root_spliced {source : Source} {before middle replacement after : List Char}
    (hroot : source.root.erase = (parse source.text).erase)
    (hchars : source.chars = before ++ middle ++ after) :
    (source.spliced before middle replacement after).root.erase =
      (parse (source.spliced before middle replacement after).text).erase := by
  rw [erase_parse, show source.text.toList = source.chars from rfl, hchars] at hroot
  rw [erase_parse]
  cases hreparse : reparse source.root (before ++ replacement ++ after) before.length
    (before ++ middle).length (before.length + replacement.length) with
  | none =>
    rw [spliced, hreparse, Option.getD_none]
    exact erase_parse _
  | some updated =>
    rw [spliced, hreparse, Option.getD_some, String.toList_ofList]
    exact erase_reparse hroot hreparse

theorem Change.erase_root_apply {source next : Source} {change : Change}
    (hroot : source.root.erase = (parse source.text).erase)
    (hnext : change.apply source = .ok next) : next.root.erase = (parse next.text).erase := by
  cases change with
  | edit start stop replacement =>
    obtain ⟨before, middle, after, hchars, -, -, rfl⟩ := Source.edit_eq_ok_iff.1 hnext
    exact Source.erase_root_spliced hroot hchars
  | replace text =>
    obtain rfl := Except.ok.inj hnext
    rfl

/-- Incremental equals clean: every valid change of every source is accepted,
and the tree of the source is from then on that of its text. -/
theorem incremental_equals_clean (id : Nat) (path : File.Path) (text : String)
    (changes : List Change) (hvalid : ValidFrom (Source.new id path text) changes) :
    Throughout (fun source => source.root.erase = (parse source.text).erase)
      (Source.new id path text) changes :=
  (validFrom_iff.1 hvalid).of_step rfl fun hroot _ hnext => Change.erase_root_apply hroot hnext

/-- The first edit gives the binding in front of it a value, the last one closes
a delimiter that was open up to the end. -/
theorem incremental_equals_clean_binding :
    ValidFrom (Source.new 0 { names := ["m"] } "#let a \nb")
      [.edit 7 7 "= \"é\"", .edit 0 5 "", .replace "a *b c", .edit 4 4 "*"] ∧
    Throughout (fun source => source.root.erase = (parse source.text).erase)
      (Source.new 0 { names := ["m"] } "#let a \nb")
      [.edit 7 7 "= \"é\"", .edit 0 5 "", .replace "a *b c", .edit 4 4 "*"] :=
  have hvalid : ValidFrom (Source.new 0 { names := ["m"] } "#let a \nb")
      [.edit 7 7 "= \"é\"", .edit 0 5 "", .replace "a *b c", .edit 4 4 "*"] := by decide
  ⟨hvalid, incremental_equals_clean 0 { names := ["m"] } "#let a \nb" _ hvalid⟩

end Galley.Syntax
