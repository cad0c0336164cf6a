import Galley.Proofs.Edit.Order
import Galley.Proofs.Edit.Splice

/-!
# What an update leaves alone

An update takes out a run of top-level nodes and puts others in their place.  The nodes in front of
the run end before the edit, those behind it start behind the edit, and all of them stay as they
are.  No more than three nodes in front of the edit give way without being touched, and parsing
goes on only until it reaches a boundary of the old nodes.  The new nodes are numbered in the gap
that was left, and the whole tree is numbered as if it were new if there are more of them than
numbers in the gap.
-/

namespace Galley.Syntax

open Galley.Text Node

theorem Node.charLenOf_append (left right : List Node) :
    charLenOf (left ++ right) = charLenOf left + charLenOf right := by
  rw [charLenOf_eq, charLenOf_eq, charLenOf_eq, charsOf_append, List.length_append]

namespace Reparse

/-- Nodes that end in front of the target are counted. -/
theorem le_countBefore {target position count : Nat} {nodes : List Node}
    (hcount : count ≤ nodes.length) (hends : position + charLenOf (nodes.take count) < target) :
    count ≤ countBefore target position nodes := by
  induction nodes generalizing position count with
  | nil => exact hcount
  | cons node nodes ih =>
    cases count with
    | zero => exact Nat.zero_le _
    | succ count =>
      rw [List.take_succ_cons, charLenOf, ← Nat.add_assoc] at hends
      have hcounted := ih (Nat.le_of_succ_le_succ hcount) hends
      rw [countBefore, if_neg (by omega)]
      omega

/-- Of the nodes that end in front of an edit at most three are parsed again. -/
theorem le_firstIndex {children : List Node} {start count : Nat}
    (hstart : start ≤ charLenOf children) (hcount : count ≤ children.length)
    (hends : charLenOf (children.take count) < start) :
    count ≤ firstIndex children start + lookbehind := by
  have hcounted : count ≤ countBefore start 0 children :=
    le_countBefore hcount (by rwa [Nat.zero_add])
  have hnotAll : count ≠ children.length := by
    rintro rfl
    rw [List.take_length] at hends
    omega
  rw [firstIndex]
  omega

/-- Every boundary of old nodes behind the edit has its anchor. -/
theorem mem_anchors {oldEnd newEnd position : Nat} {skipped left : List Node} (hleft : left ≠ [])
    (hends : oldEnd ≤ position + charLenOf skipped) :
    (position + charLenOf skipped - oldEnd + newEnd, left) ∈
      anchors oldEnd newEnd position (skipped ++ left) := by
  induction skipped generalizing position with
  | nil =>
    cases left with
    | nil => exact absurd rfl hleft
    | cons node nodes =>
      rw [charLenOf, Nat.add_zero] at hends
      rw [List.nil_append, anchors, if_pos hends]
      exact List.mem_cons_self
  | cons node skipped ih =>
    rw [charLenOf, ← Nat.add_assoc] at hends ⊢
    have hlater := ih hends
    rw [List.cons_append, anchors]
    split
    · exact List.mem_cons_of_mem _ hlater
    · exact hlater

/-- Parsing goes on only as long as no anchor is reached. -/
theorem ne_of_resume {anchors : List (Nat × List Node)} {fuel position : Nat} {chars : List Char}
    {early later : List Node} (hlater : later ≠ [])
    (hresume : (resume anchors fuel position chars).1 = early ++ later) :
    ∀ anchor ∈ anchors, anchor.1 ≠ position + charLenOf early := by
  induction fuel generalizing position chars early with
  | zero => exact absurd (List.append_eq_nil_iff.1 hresume.symm).2 hlater
  | succ fuel ih =>
    unfold resume at hresume
    cases hfind : anchors.find? fun anchor => anchor.1 == position with
    | some anchor =>
      rw [hfind] at hresume
      exact absurd (List.append_eq_nil_iff.1 hresume.symm).2 hlater
    | none =>
      rw [hfind] at hresume
      cases chars with
      | nil => exact absurd (List.append_eq_nil_iff.1 hresume.symm).2 hlater
      | cons first rest =>
        cases early with
        | nil =>
          intro anchor hanchor
          simpa [charLenOf] using List.find?_eq_none.1 hfind anchor hanchor
        | cons node early =>
          obtain ⟨rfl, hrest⟩ := List.cons.inj hresume
          rw [charLenOf, ← Nat.add_assoc]
          exact ih hrest

end Reparse

/-! ## Numbers anew -/

namespace Node

mutual

theorem number_withSpan (span next stride : Int) : ∀ node : Node,
    (node.withSpan span).number next stride = node.number next stride
  | ⟨_, _, children, _, _⟩ => by
    rw [withSpan, number, number, numberAll_withSpanOf span (next + stride) stride children]

theorem numberAll_withSpanOf (span next stride : Int) : ∀ nodes : List Node,
    numberAll next stride (withSpanOf span nodes) = numberAll next stride nodes
  | [] => rfl
  | node :: nodes => by
    rw [withSpanOf, numberAll, numberAll, number_withSpan span next stride node,
      size_withSpan span node, numberAll_withSpanOf span _ stride nodes]

end

/-- A run is numbered from the first number on. -/
theorem nextSpan_numberAll (next stride : Int) (nodes : List Node) :
    nextSpan next (numberAll next stride nodes) = next := by
  cases nodes with
  | nil => rfl
  | cons node nodes => exact (spansOf_children_number next stride node).1

/-- A whole tree is numbered evenly over all numbers that there are. -/
theorem numberRoot_of_fits {root : Node} (hfits : (root.size : Int) ≤ upperSpan - firstSpan) :
    root.numberRoot = root.number firstSpan ((upperSpan - firstSpan) / root.size) := by
  have hpos := root.size_pos
  have hstride : ¬(upperSpan - firstSpan) / (root.size : Int) < 1 := by
    rw [Int.ediv_lt_iff_lt_mul (by omega), Int.one_mul]
    omega
  rw [numberRoot, numberWithin_of_ne_nil (by simp), sizeOf, sizeOf, Nat.add_zero, if_neg hstride]
  rfl

/-- The numbers that a whole tree had before play no part in it. -/
theorem numberRoot_eq_of_erase_eq {left right : Node} (herase : left.erase = right.erase)
    (hfits : (left.size : Int) ≤ upperSpan - firstSpan) : left.numberRoot = right.numberRoot := by
  have hsize := size_eq_of_erase_eq herase
  have hnumber := congrArg (number firstSpan ((upperSpan - firstSpan) / left.size)) herase
  rw [erase, erase, number_withSpan, number_withSpan] at hnumber
  rw [numberRoot_of_fits hfits, numberRoot_of_fits (hsize ▸ hfits), hnumber, hsize]

end Node

/-! ## Patches -/

/-- Top-level nodes in front of a run that gives way, the run, those behind it, and the nodes that
are put in its place. -/
structure Patch where
  front : List Node
  gone : List Node
  kept : List Node
  fresh : List Node

namespace Patch

/-- The number of the first node that gives way. -/
def low (patch : Patch) : Int :=
  nextSpan upperSpan patch.gone

/-- The number of the first node that is kept behind the run, or the end of all numbers. -/
def high (patch : Patch) : Int :=
  nextSpan upperSpan patch.kept

/-- The place of the new nodes among the old ones and in the text. -/
structure Places (patch : Patch) (children : List Node)
    (before middle replacement after : List Char) : Prop where
  children_eq : children = patch.front ++ patch.gone ++ patch.kept
  gone_ne_nil : patch.gone ≠ []
  /-- The nodes in front end before the edit, and those that are kept start behind it. -/
  front_before : charsOf patch.front <+: before
  kept_behind : charsOf patch.kept <:+ after
  fresh_between : charsOf patch.front ++ charsOf patch.fresh ++ charsOf patch.kept =
    before ++ replacement ++ after
  /-- Of the nodes that end in front of the edit only a few are not in front of the run. -/
  lookbehind_bound : ∀ count ≤ children.length,
    charLenOf (children.take count) < before.length → count ≤ patch.front.length + lookbehind
  /-- Inside the new nodes no boundary falls on one of old nodes behind the edit. -/
  first_landing : ∀ early later skipped left, patch.fresh = early ++ later → later ≠ [] →
    children = patch.front ++ skipped ++ left → skipped ≠ [] → left ≠ [] →
    (before ++ middle).length ≤ charLenOf (patch.front ++ skipped) →
    charLenOf (patch.front ++ skipped) + replacement.length ≠
      charLenOf (patch.front ++ early) + middle.length
  /-- The numbers around the gap. -/
  front_lt : ∀ span ∈ spansOf patch.front, span < patch.low
  le_kept : ∀ span ∈ spansOf patch.kept, patch.high ≤ span

/-- A patch is numbered within its gap, or with the whole tree if there are more new nodes than
numbers in the gap.  As long as there are enough numbers for a whole tree, it is then that of a
clean parse. -/
inductive Numbers (patch : Patch) (root updated : Node) (text : String) : Prop
  | within (numbered : List Node)
      (room : patch.fresh = [] ∨ (Node.sizeOf patch.fresh : Int) ≤ patch.high - patch.low)
      (updated_eq : updated = { root with children := patch.front ++ numbered ++ patch.kept })
      (same : numbered.map erase = patch.fresh.map erase)
      (order : InOrder patch.low patch.high numbered)
      (start : nextSpan patch.low numbered = patch.low)
  | anew (large : patch.high - patch.low < Node.sizeOf patch.fresh)
      (updated_eq : updated =
        { root with children := patch.front ++ patch.fresh ++ patch.kept }.numberRoot)
      (clean : Fits updated → updated = parse text)

section Found

variable {root : Node} {gone parsed kept : List Node}
  {before middle replacement after : List Char}

/-- The number at which a run starts is that of its first node. -/
theorem nextSpan_append (high high' : Int) {gone : List Node} (hgone : gone ≠ [])
    (kept : List Node) : nextSpan high (gone ++ kept) = nextSpan high' gone := by
  cases gone with
  | nil => exact absurd rfl hgone
  | cons node gone => rfl

theorem charsOf_take_firstIndex {children : List Node}
    (hchars : charsOf children = before ++ middle ++ after) :
    charsOf (children.take (Reparse.firstIndex children before.length)) <+: before := by
  have hbetween := Reparse.firstIndex_cases children before.length
  generalize Reparse.firstIndex children before.length = first at hbetween ⊢
  obtain rfl | ⟨-, hends⟩ := hbetween
  · exact List.nil_prefix
  · have hprefix : charsOf (children.take first) <+: charsOf children :=
      ⟨charsOf (children.drop first), by rw [← charsOf_append, List.take_append_drop]⟩
    rw [hchars, List.append_assoc] at hprefix
    refine List.prefix_of_prefix_length_le hprefix (List.prefix_append before _) ?_
    rw [List.take_add, charLenOf_eq, charsOf_append, List.length_append] at hends
    omega

/-- The nodes that are kept start behind the edit. -/
theorem charsOf_kept {children : List Node} {chars : List Char} {newEnd : Nat}
    (hchars : charsOf children = before ++ middle ++ after)
    (hfound : Reparse.found children chars before.length (before ++ middle).length newEnd =
      (parsed, kept)) : charsOf kept <:+ after := by
  have hkept := Reparse.resume_kept
    (Reparse.anchors (before ++ middle).length newEnd
      (charLenOf (children.take (Reparse.firstIndex children before.length + 1)))
      (children.drop (Reparse.firstIndex children before.length + 1)))
    (chars.length + 1) (charLenOf (children.take (Reparse.firstIndex children before.length)))
    (chars.drop (charLenOf (children.take (Reparse.firstIndex children before.length))))
  rw [Reparse.found] at hfound
  rw [hfound] at hkept
  obtain rfl | ⟨anchor, hanchor, rfl⟩ := hkept
  · exact List.nil_suffix
  · obtain ⟨skipped, hskipped, hbehind, -⟩ := Reparse.of_mem_anchors hanchor
    have hsplit := congrArg charsOf (List.take_append_drop
      (Reparse.firstIndex children before.length + 1) children)
    rw [hskipped, charsOf_append, charsOf_append, hchars, ← List.append_assoc] at hsplit
    refine List.suffix_of_suffix_length_le ⟨_, hsplit⟩ (List.suffix_append _ after) ?_
    have hlength := congrArg List.length hsplit
    rw [charLenOf_eq, charLenOf_eq] at hbehind
    simp only [List.length_append] at hlength hbehind
    omega

/-- Parsing stops at the first boundary that it has in common with the old nodes. -/
theorem first_landing_of_found {children : List Node} {chars : List Char}
    (hfound : Reparse.found children chars before.length (before ++ middle).length
      (before ++ replacement).length = (parsed, kept))
    {front early later skipped left : List Node}
    (hfront : front = children.take (Reparse.firstIndex children before.length))
    (hparsed : parsed = early ++ later) (hlater : later ≠ [])
    (hchildren : children = front ++ skipped ++ left) (hskipped : skipped ≠ [])
    (hleft : left ≠ [])
    (hbehind : (before ++ middle).length ≤ charLenOf (front ++ skipped)) :
    charLenOf (front ++ skipped) + replacement.length ≠
      charLenOf (front ++ early) + middle.length := by
  obtain ⟨node, more, rfl⟩ := List.exists_cons_of_ne_nil hskipped
  have hall : children = (front ++ [node]) ++ (more ++ left) := by
    rw [hchildren]
    simp only [List.append_assoc, List.cons_append, List.nil_append]
  have hcount : (front ++ [node]).length = Reparse.firstIndex children before.length + 1 := by
    have hlength := congrArg List.length hall
    rw [hfront, List.length_append, List.length_take, Reparse.firstIndex]
    simp only [List.length_append, List.length_singleton] at hlength ⊢
    omega
  have htake : children.take (Reparse.firstIndex children before.length + 1) =
      front ++ [node] := by
    rw [← hcount, hall, List.take_left]
  have hdrop : children.drop (Reparse.firstIndex children before.length + 1) = more ++ left := by
    rw [← hcount, hall, List.drop_left]
  have hposition : charLenOf (front ++ node :: more) =
      charLenOf (front ++ [node]) + charLenOf more := by
    rw [List.append_cons, charLenOf_append]
  rw [hposition] at hbehind
  have hanchor := @Reparse.mem_anchors _ (before ++ replacement).length _ _ _ hleft hbehind
  rw [Reparse.found, htake, hdrop, ← hfront] at hfound
  have hresume := congrArg Prod.fst hfound
  have hne := Reparse.ne_of_resume hlater (hresume.trans hparsed) _ hanchor
  rw [hposition, charLenOf_append front early]
  simp only [List.length_append] at hne hbehind
  omega

theorem places_of_found {high : Int}
    (horder : InOrder (root.span + 1) high root.children)
    (hroot : root.children.map erase =
      (Grammar.topLevel (before ++ middle ++ after)).map erase)
    (hgone : gone ≠ [])
    (hdrop : root.children.drop (Reparse.firstIndex root.children before.length) = gone ++ kept)
    (hfound : Reparse.found root.children (before ++ replacement ++ after) before.length
      (before ++ middle).length (before ++ replacement).length = (parsed, kept)) :
    Places
      ⟨root.children.take (Reparse.firstIndex root.children before.length), gone, kept, parsed⟩
      root.children before middle replacement after := by
  have hchars := charsOf_eq_of_map_erase_eq hroot
  have hfresh := charsOf_eq_of_map_erase_eq (Reparse.map_erase_found hroot hfound)
  rw [Grammar.charsOf_topLevel] at hchars
  rw [Grammar.charsOf_topLevel, charsOf_append, charsOf_append] at hfresh
  have hall := List.take_append_drop (Reparse.firstIndex root.children before.length) root.children
  have hfirst : (root.children.take (Reparse.firstIndex root.children before.length)).length =
      Reparse.firstIndex root.children before.length := by
    have hpos := List.length_pos_iff.2 hgone
    have hlength := congrArg List.length hdrop
    rw [List.length_drop, List.length_append] at hlength
    rw [List.length_take]
    omega
  rw [hdrop] at hall
  rw [← hall] at horder
  have hfront := InOrder.lt_nextSpan _ horder
  obtain ⟨-, hbehind, -⟩ := inOrder_append_iff.1 horder
  obtain ⟨-, hkept, -⟩ := inOrder_append_iff.1 hbehind
  constructor
  case children_eq =>
    exact hall.symm.trans (List.append_assoc _ _ _).symm
  case gone_ne_nil => exact hgone
  case front_before => exact charsOf_take_firstIndex hchars
  case kept_behind => exact charsOf_kept hchars hfound
  case fresh_between => exact hfresh
  case lookbehind_bound =>
    intro count hcount hends
    have hstart : before.length ≤ charLenOf root.children := by
      rw [charLenOf_eq, hchars, List.length_append, List.length_append]
      omega
    rw [hfirst]
    exact Reparse.le_firstIndex hstart hcount hends
  case first_landing =>
    intro early later skipped left hparsed hlater hchildren hskipped hleft hends
    exact first_landing_of_found hfound rfl hparsed hlater hchildren hskipped hleft hends
  case front_lt =>
    rw [nextSpan_append high upperSpan hgone] at hfront
    exact hfront
  case le_kept =>
    intro span hspan
    cases kept with
    | nil => cases hspan
    | cons node kept => exact hkept.nextSpan_le span hspan

theorem numbers_of_found {updated : Node} {text : String}
    (hroot : root.erase = (inner .markup (Grammar.topLevel (before ++ middle ++ after))).erase)
    (hgone : gone ≠ [])
    (hdrop : root.children.drop (Reparse.firstIndex root.children before.length) = gone ++ kept)
    (hfound : Reparse.found root.children (before ++ replacement ++ after) before.length
      (before ++ middle).length (before ++ replacement).length = (parsed, kept))
    (hreparse : reparse root (before ++ replacement ++ after) before.length
      (before ++ middle).length (before ++ replacement).length = some updated)
    (htext : text.toList = before ++ replacement ++ after) :
    Numbers
      ⟨root.children.take (Reparse.firstIndex root.children before.length), gone, kept, parsed⟩
      root updated text := by
  have hchildren : root.children ≠ [] := by
    intro hnil
    rw [reparse_eq_none hnil] at hreparse
    cases hreparse
  have hclean : updated.erase =
      (inner .markup (Grammar.topLevel (before ++ replacement ++ after))).erase := by
    rw [@List.length_append _ before replacement] at hreparse
    exact erase_reparse hroot hreparse
  rw [reparse_of_found hchildren hfound, hdrop, nextSpan_append _ upperSpan hgone] at hreparse
  cases hnumber : numberWithin parsed (nextSpan upperSpan gone) (nextSpan upperSpan kept) with
  | some numbered =>
    rw [hnumber] at hreparse
    have hroom := hnumber.trans_ne (Option.some_ne_none numbered)
    rw [Ne, numberWithin_eq_none_iff, not_and_or, not_not, Int.not_lt] at hroom
    refine .within numbered hroom (Option.some.inj hreparse).symm
      (map_erase_numberWithin hnumber) (inOrder_numberWithin hnumber) ?_
    obtain ⟨-, rfl⟩ | ⟨stride, -, -, rfl⟩ := numberWithin_eq_some hnumber
    · rfl
    · exact nextSpan_numberAll _ stride parsed
  | none =>
    rw [hnumber] at hreparse
    have hupdated := (Option.some.inj hreparse).symm
    refine .anew (numberWithin_eq_none_iff.1 hnumber).2 hupdated ?_
    intro hfits
    dsimp only at hupdated
    rw [hupdated, erase_numberRoot] at hclean
    rw [Fits, hupdated, size_eq_of_erase_eq (erase_numberRoot _)] at hfits
    rw [hupdated, parse, htext]
    exact numberRoot_eq_of_erase_eq hclean hfits

end Found

end Patch

/-- An incremental edit of any source whose numbers are in order patches its tree: the nodes in
front of the patch and those behind it stand as they were, and they keep their numbers unless there
are more new nodes than numbers between them. -/
theorem Source.edit_patches {id : Nat} {path : File.Path} {text : String} {changes : List Change}
    {source : Source} {before middle after : List Char} {replacement : String} {updated : Node}
    (hsource : source = (new id path text).afterAll changes)
    (hchars : source.chars = before ++ middle ++ after)
    (horder : source.root.spanViolation = none)
    (hreparse : reparse source.root (before ++ replacement.toList ++ after) before.length
      (before ++ middle).length (before ++ replacement.toList).length = some updated) :
    source.edit (byteLength before) (byteLength (before ++ middle)) replacement =
      .ok { source with
        text := String.ofList (before ++ replacement.toList ++ after), root := updated } ∧
    ∃ patch : Patch,
      patch.Places source.root.children before middle replacement.toList after ∧
      patch.Numbers source.root updated
        (String.ofList (before ++ replacement.toList ++ after)) := by
  constructor
  · rw [edit_eq_ok_iff.2 ⟨before, middle, after, hchars, rfl, rfl, rfl⟩, spliced,
      ← @List.length_append _ before replacement.toList, hreparse]
    rfl
  · have hroot : source.root.erase = (parse source.text).erase := by
      rw [hsource]
      exact erase_root_afterAll id path text changes
    rw [erase_parse, show source.text.toList = source.chars from rfl, hchars] at hroot
    have hnodes : source.root.children.map erase =
        (Grammar.topLevel (before ++ middle ++ after)).map erase := by
      rw [← children_erase, hroot, children_erase]
      rfl
    have hchildren : source.root.children ≠ [] := by
      intro hnil
      rw [reparse_eq_none hnil] at hreparse
      cases hreparse
    rw [spanViolation, checkSpans_eq_none_iff] at horder
    obtain ⟨-, hwithin, -⟩ := inOrder_cons_iff.1 horder
    rcases hfound : Reparse.found source.root.children (before ++ replacement.toList ++ after)
      before.length (before ++ middle).length (before ++ replacement.toList).length
      with ⟨parsed, kept⟩
    obtain ⟨node, dropped, hdrop⟩ := Reparse.drop_firstIndex_of_found hchildren hfound
    have hgone : node :: dropped ≠ [] := List.cons_ne_nil node dropped
    exact ⟨_, Patch.places_of_found hwithin hnodes hgone hdrop hfound,
      Patch.numbers_of_found hroot hgone hdrop hfound hreparse String.toList_ofList⟩

/-- A word of a text whose first word was changed before. -/
theorem Source.edit_patches_word :
    ∃ source : Source,
      source = (new 0 { names := ["m"] } "a b c d e f").afterAll [.edit 0 1 "x"] ∧
      source.chars = "x b c d ".toList ++ "e".toList ++ " f".toList ∧
      source.root.spanViolation = none ∧
      ∃ updated,
        reparse source.root ("x b c d ".toList ++ "*y* z".toList ++ " f".toList)
          "x b c d ".toList.length ("x b c d ".toList ++ "e".toList).length
          ("x b c d ".toList ++ "*y* z".toList).length = some updated ∧
        source.edit (byteLength "x b c d ".toList) (byteLength ("x b c d ".toList ++ "e".toList))
            "*y* z" =
          .ok { source with
            text := String.ofList ("x b c d ".toList ++ "*y* z".toList ++ " f".toList)
            root := updated } ∧
        ∃ patch : Patch,
          patch.Places source.root.children "x b c d ".toList "e".toList "*y* z".toList
            " f".toList ∧
          patch.Numbers source.root updated
            (String.ofList ("x b c d ".toList ++ "*y* z".toList ++ " f".toList)) := by
  have hchars : ((new 0 { names := ["m"] } "a b c d e f").afterAll [.edit 0 1 "x"]).chars =
      "x b c d ".toList ++ "e".toList ++ " f".toList := by
    decide +kernel
  have horder :
      ((new 0 { names := ["m"] } "a b c d e f").afterAll [.edit 0 1 "x"]).root.spanViolation =
        none := by
    rw [← Option.isNone_iff_eq_none]
    decide +kernel
  have hsome :
      (reparse ((new 0 { names := ["m"] } "a b c d e f").afterAll [.edit 0 1 "x"]).root
        ("x b c d ".toList ++ "*y* z".toList ++ " f".toList) "x b c d ".toList.length
        ("x b c d ".toList ++ "e".toList).length
        ("x b c d ".toList ++ "*y* z".toList).length).isSome := by
    decide +kernel
  have hreparse := (Option.some_get hsome).symm
  exact ⟨_, rfl, hchars, horder, _, hreparse, edit_patches rfl hchars horder hreparse⟩

end Galley.Syntax
