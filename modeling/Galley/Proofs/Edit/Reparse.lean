import Galley.Proofs.Locality.TopLevel
import Galley.Syntax.Reparse
import Galley.Syntax.SpanOrder

/-!
# An updated tree is the tree of the new text

The nodes in front of the restart are the same in both texts because three
untouched nodes follow them.  From there on the new text is parsed node by
node, and an anchor stands where the old text and the new one are the same up
to their ends, so the nodes behind it are again those of the new text.
-/

namespace Galley.Syntax

open Node

namespace Reparse

theorem countBefore_le (target position : Nat) (nodes : List Node) :
    countBefore target position nodes ≤ nodes.length := by
  induction nodes generalizing position with
  | nil => exact Nat.le_refl 0
  | cons node nodes ih =>
    have hnodes := ih (position + node.charLen)
    rw [countBefore, List.length_cons]
    split <;> omega

/-- The nodes that are counted end in front of the target. -/
theorem charLenOf_take_lt {target position count : Nat} {nodes : List Node}
    (hcount : count ≤ countBefore target position nodes) (hpos : 0 < count) :
    position + charLenOf (nodes.take count) < target := by
  induction nodes generalizing position count with
  | nil =>
    rw [countBefore] at hcount
    omega
  | cons node nodes ih =>
    rw [countBefore] at hcount
    split at hcount
    · omega
    · rename_i hends
      cases count with
      | zero => omega
      | succ count =>
        rw [List.take_succ_cons, charLenOf]
        by_cases hlast : count = 0
        · subst hlast
          rw [List.take_zero, charLenOf]
          omega
        · have hnodes : position + node.charLen + charLenOf (nodes.take count) < target :=
            ih (by omega) (by omega)
          omega

/-- Parsing starts at the first node, or with three untouched nodes in between. -/
theorem firstIndex_cases (children : List Node) (start : Nat) :
    firstIndex children start = 0 ∨
      (firstIndex children start + 3 ≤ children.length ∧
        charLenOf (children.take (firstIndex children start + 3)) < start) := by
  by_cases hfirst : firstIndex children start = 0
  · exact .inl hfirst
  · have hcount := countBefore_le start 0 children
    have hle : firstIndex children start + 3 ≤ countBefore start 0 children := by
      rw [firstIndex, lookbehind] at hfirst ⊢
      omega
    have hends := charLenOf_take_lt hle (by omega)
    exact .inr ⟨by omega, by omega⟩

/-- An anchor holds the nodes from some boundary behind the edit on, and the
position which that boundary has in the new text. -/
theorem of_mem_anchors {oldEnd newEnd position : Nat} {nodes : List Node}
    {anchor : Nat × List Node} (hanchor : anchor ∈ anchors oldEnd newEnd position nodes) :
    ∃ skipped, nodes = skipped ++ anchor.2 ∧ oldEnd ≤ position + charLenOf skipped ∧
      anchor.1 = position + charLenOf skipped - oldEnd + newEnd := by
  induction nodes generalizing position with
  | nil => cases hanchor
  | cons node nodes ih =>
    have hlater : anchor ∈ anchors oldEnd newEnd (position + node.charLen) nodes →
        ∃ skipped, node :: nodes = skipped ++ anchor.2 ∧
          oldEnd ≤ position + charLenOf skipped ∧
          anchor.1 = position + charLenOf skipped - oldEnd + newEnd := by
      intro hmem
      obtain ⟨skipped, rfl, hbehind, hposition⟩ := ih hmem
      rw [Nat.add_assoc] at hbehind hposition
      exact ⟨node :: skipped, rfl, hbehind, hposition⟩
    rw [anchors] at hanchor
    split at hanchor
    · rename_i hends
      obtain rfl | hmem := List.mem_cons.1 hanchor
      · exact ⟨[], rfl, hends, rfl⟩
      · exact hlater hmem
    · exact hlater hanchor

/-- The nodes that are parsed and those that are kept are together the nodes of
the text from the position on, if this holds of the anchors. -/
theorem map_erase_resume {text : List Char} {anchors : List (Nat × List Node)}
    (hanchors : ∀ anchor ∈ anchors,
      anchor.2.map erase = (Grammar.topLevel (text.drop anchor.1)).map erase) {fuel : Nat} :
    ∀ position chars, chars.length < fuel → text.drop position = chars →
      ((resume anchors fuel position chars).1 ++ (resume anchors fuel position chars).2).map erase =
        (Grammar.topLevel chars).map erase := by
  induction fuel with
  | zero =>
    intro position chars hfuel
    omega
  | succ fuel ih =>
    intro position chars hfuel hchars
    unfold resume
    cases hfind : anchors.find? fun anchor => anchor.1 == position with
    | some anchor =>
      have hposition : anchor.1 = position := by simpa using List.find?_some hfind
      have hkept := hanchors anchor (List.mem_of_find?_eq_some hfind)
      rw [hposition, hchars] at hkept
      exact hkept
    | none =>
      cases chars with
      | nil => rfl
      | cons first rest =>
        have hcovers := (Grammar.topNode_covers first rest).chars_append
        have hshorter := (Grammar.topNode_covers first rest).length_le
        rw [List.length_cons] at hfuel
        have hafter : text.drop (position + (Grammar.topNode first rest).1.charLen) =
            (Grammar.topNode first rest).2 := by
          rw [← List.drop_drop, hchars, charLen_eq, ← List.singleton_append, ← hcovers,
            List.drop_left]
        have hnodes := ih _ _ (by omega) hafter
        rw [Grammar.topLevel_cons, List.map_cons, ← hnodes]
        rfl

/-- Behind an edit the old nodes are those of the new text. -/
theorem map_erase_of_mem_anchors {gone after : List Char} {children : List Node}
    (hchildren : children.map erase = (Grammar.topLevel (gone ++ after)).map erase)
    (fresh : List Char) (count : Nat) :
    ∀ anchor ∈ anchors gone.length fresh.length (charLenOf (children.take count))
      (children.drop count),
    anchor.2.map erase = (Grammar.topLevel ((fresh ++ after).drop anchor.1)).map erase := by
  intro anchor hanchor
  obtain ⟨skipped, hskipped, hends, hposition⟩ := of_mem_anchors hanchor
  have hsplit : children = children.take count ++ skipped ++ anchor.2 := by
    rw [List.append_assoc, ← hskipped, List.take_append_drop]
  rw [hsplit, List.map_append] at hchildren
  obtain ⟨front, kept, hnodes, hfront, hkept⟩ := List.map_eq_append_iff.1 hchildren.symm
  have hlength : charLenOf (children.take count) + charLenOf skipped = (charsOf front).length := by
    rw [charsOf_eq_of_map_erase_eq hfront, charsOf_append, List.length_append, charLenOf_eq,
      charLenOf_eq]
  have hchars := Grammar.charsOf_topLevel (gone ++ after)
  rw [hnodes, charsOf_append] at hchars
  rw [hlength] at hends hposition
  obtain ⟨behind, hbehind⟩ : gone <+: charsOf front :=
    List.prefix_of_prefix_length_le (List.prefix_append _ _) ⟨_, hchars⟩ hends
  rw [← hbehind, List.append_assoc] at hchars
  have hafter := List.append_cancel_left hchars
  have hdrop : (fresh ++ after).drop anchor.1 = charsOf kept := by
    rw [hposition, ← hafter, ← hbehind, List.length_append, Nat.add_sub_cancel_left,
      Nat.add_comm, ← List.length_append, ← List.append_assoc, List.drop_left]
  rw [hdrop, Grammar.topLevel_charsOf_of_append hnodes, hkept]

/-- The nodes in front of the restart are those of the new text. -/
theorem map_erase_topLevel_restart {before left : List Char} {children : List Node}
    (hchildren : children.map erase = (Grammar.topLevel (before ++ left)).map erase)
    (right : List Char) :
    (Grammar.topLevel (before ++ right)).map erase =
      (children.take (firstIndex children before.length)).map erase ++
        (Grammar.topLevel ((before ++ right).drop
          (charLenOf (children.take (firstIndex children before.length))))).map erase := by
  have hcases := firstIndex_cases children before.length
  generalize firstIndex children before.length = first at hcases ⊢
  obtain rfl | ⟨hfits, hends⟩ := hcases
  · rfl
  · have hlengths := congrArg List.length hchildren
    have htake := congrArg (List.take (first + 3)) hchildren
    have hfront := congrArg (List.take first) hchildren
    rw [List.length_map, List.length_map] at hlengths
    rw [← List.map_take, ← List.map_take] at htake hfront
    rw [charLenOf_eq, charsOf_eq_of_map_erase_eq htake] at hends
    obtain ⟨inside, hinside, hright⟩ :=
      Grammar.topLevel_take_append rfl (by omega) (Nat.le_of_lt hends) right
    have hposition : (before ++ right).drop (charLenOf (children.take first)) =
        inside ++ right := by
      rw [charLenOf_eq, charsOf_eq_of_map_erase_eq hfront]
      nth_rewrite 2 [hinside]
      rw [List.append_assoc, List.drop_left]
    rw [hposition, hright, List.map_append, hfront]

/-- The nodes parsed anew by an update, and the old nodes that are kept behind
them. -/
def found (children : List Node) (chars : List Char) (start oldEnd newEnd : Nat) :
    List Node × List Node :=
  resume
    (anchors oldEnd newEnd (charLenOf (children.take (firstIndex children start + 1)))
      (children.drop (firstIndex children start + 1)))
    (chars.length + 1) (charLenOf (children.take (firstIndex children start)))
    (chars.drop (charLenOf (children.take (firstIndex children start))))

theorem resume_kept (anchors : List (Nat × List Node)) (fuel position : Nat)
    (chars : List Char) :
    (resume anchors fuel position chars).2 = [] ∨
      ∃ anchor ∈ anchors, anchor.2 = (resume anchors fuel position chars).2 := by
  induction fuel generalizing position chars with
  | zero => exact .inl rfl
  | succ fuel ih =>
    unfold resume
    cases hfind : anchors.find? fun anchor => anchor.1 == position with
    | some anchor => exact .inr ⟨anchor, List.mem_of_find?_eq_some hfind, rfl⟩
    | none =>
      cases chars with
      | nil => exact .inl rfl
      | cons first rest => exact ih _ _

/-- At least one node gives way, and the nodes that are kept are the last ones. -/
theorem drop_firstIndex_of_found {children parsed kept : List Node} {chars : List Char}
    {start oldEnd newEnd : Nat} (hchildren : children ≠ [])
    (hfound : found children chars start oldEnd newEnd = (parsed, kept)) :
    ∃ node dropped,
      children.drop (firstIndex children start) = node :: dropped ++ kept := by
  have hpos := List.length_pos_iff.2 hchildren
  have hinside : firstIndex children start < children.length := by
    rw [firstIndex]
    omega
  have hkept := resume_kept
    (anchors oldEnd newEnd (charLenOf (children.take (firstIndex children start + 1)))
      (children.drop (firstIndex children start + 1)))
    (chars.length + 1) (charLenOf (children.take (firstIndex children start)))
    (chars.drop (charLenOf (children.take (firstIndex children start))))
  rw [found] at hfound
  rw [hfound] at hkept
  rw [List.drop_eq_getElem_cons hinside]
  obtain rfl | ⟨anchor, hanchor, rfl⟩ := hkept
  · exact ⟨_, _, by rw [List.append_nil]⟩
  · obtain ⟨skipped, hskipped, -⟩ := of_mem_anchors hanchor
    exact ⟨_, skipped, by rw [hskipped, List.cons_append]⟩

/-- The nodes in front, the new ones and those that are kept are together the
nodes of the new text. -/
theorem map_erase_found {before middle replacement after : List Char}
    {children parsed kept : List Node}
    (hchildren : children.map erase = (Grammar.topLevel (before ++ middle ++ after)).map erase)
    (hfound : found children (before ++ replacement ++ after) before.length
      (before ++ middle).length (before ++ replacement).length = (parsed, kept)) :
    (children.take (firstIndex children before.length) ++ parsed ++ kept).map erase =
      (Grammar.topLevel (before ++ replacement ++ after)).map erase := by
  have hanchors := map_erase_of_mem_anchors hchildren (before ++ replacement)
    (firstIndex children before.length + 1)
  rw [List.append_assoc] at hchildren
  have hrestart := map_erase_topLevel_restart hchildren (replacement ++ after)
  have hfuel : ∀ position, ((before ++ replacement ++ after).drop position).length <
      (before ++ replacement ++ after).length + 1 := by
    intro position
    rw [List.length_drop]
    omega
  have hresume := map_erase_resume hanchors
    (charLenOf (children.take (firstIndex children before.length))) _ (hfuel _) rfl
  rw [found] at hfound
  rw [hfound] at hresume
  rw [← List.append_assoc] at hrestart
  rw [List.append_assoc, List.map_append, hresume, hrestart]

end Reparse

/-- An update puts the new nodes into the gap that the old ones leave.  They are numbered within
it, or the whole tree is if the gap is too small. -/
theorem reparse_of_found {root : Node} {chars : List Char} {start oldEnd newEnd : Nat}
    {parsed kept : List Node} (hchildren : root.children ≠ [])
    (hfound : Reparse.found root.children chars start oldEnd newEnd = (parsed, kept)) :
    reparse root chars start oldEnd newEnd = some
      (match numberWithin parsed
          (nextSpan upperSpan (root.children.drop (Reparse.firstIndex root.children start)))
          (nextSpan upperSpan kept) with
        | some numbered => { root with
            children := root.children.take (Reparse.firstIndex root.children start) ++ numbered ++
              kept }
        | none => { root with
            children := root.children.take (Reparse.firstIndex root.children start) ++ parsed ++
              kept }.numberRoot) := by
  have hspan : ∀ nodes : List Node,
      (nodes.head?.map span).getD upperSpan = nextSpan upperSpan nodes := by
    intro nodes
    cases nodes <;> rfl
  cases hall : root.children with
  | nil => exact absurd hall hchildren
  | cons child children =>
    rw [hall] at hfound
    rw [Reparse.found] at hfound
    rw [reparse, hall]
    dsimp only
    rw [hfound]
    dsimp only
    rw [hspan, hspan]
    cases numberWithin parsed _ _ <;> rfl

theorem reparse_eq_none {root : Node} {chars : List Char} {start oldEnd newEnd : Nat}
    (hchildren : root.children = []) : reparse root chars start oldEnd newEnd = none := by
  rw [reparse, hchildren]

theorem reparse_eq_some {root updated : Node} {chars : List Char} {start oldEnd newEnd : Nat}
    {parsed kept : List Node}
    (hfound : Reparse.found root.children chars start oldEnd newEnd = (parsed, kept))
    (hreparse : reparse root chars start oldEnd newEnd = some updated) :
    (∃ numbered, updated = { root with
        children := root.children.take (Reparse.firstIndex root.children start) ++ numbered ++
          kept } ∧
      numberWithin parsed
        (nextSpan upperSpan (root.children.drop (Reparse.firstIndex root.children start)))
        (nextSpan upperSpan kept) = some numbered) ∨
    updated = { root with
      children := root.children.take (Reparse.firstIndex root.children start) ++ parsed ++
        kept }.numberRoot := by
  by_cases hchildren : root.children = []
  · rw [reparse_eq_none hchildren] at hreparse
    cases hreparse
  · have hupdated := (reparse_of_found hchildren hfound).symm.trans hreparse
    split at hupdated
    · rename_i numbered hnumber
      exact .inl ⟨numbered, (Option.some.inj hupdated).symm, hnumber⟩
    · exact .inr (Option.some.inj hupdated).symm

/-- A tree with other children is the tree of another text. -/
theorem erase_with_children {root : Node} {nodes nodes' children : List Node}
    (hroot : root.erase = (inner .markup nodes).erase)
    (hchildren : children.map erase = nodes'.map erase) :
    { root with children }.erase = (inner .markup nodes').erase := by
  rcases root with ⟨kind, text, children', span, message⟩
  simp only [erase, Node.inner, withSpan, withSpanOf_eq_map, mk.injEq] at hroot hchildren ⊢
  exact ⟨hroot.1, hroot.2.1, hchildren, trivial, hroot.2.2.2.2⟩

/-- An updated tree is the tree of the new text, up to the numbers. -/
theorem erase_reparse {root updated : Node} {before middle replacement after : List Char}
    (hroot : root.erase = (inner .markup (Grammar.topLevel (before ++ middle ++ after))).erase)
    (hreparse : reparse root (before ++ replacement ++ after) before.length
      (before ++ middle).length (before.length + replacement.length) = some updated) :
    updated.erase =
      (inner .markup (Grammar.topLevel (before ++ replacement ++ after))).erase := by
  have hchildren : root.children.map erase =
      (Grammar.topLevel (before ++ middle ++ after)).map erase := by
    rw [← children_erase, hroot, children_erase]
    rfl
  rw [← List.length_append] at hreparse
  rcases hfound : Reparse.found root.children (before ++ replacement ++ after) before.length
    (before ++ middle).length (before ++ replacement).length with ⟨parsed, kept⟩
  have hnodes := Reparse.map_erase_found hchildren hfound
  obtain ⟨numbered, rfl, hnumber⟩ | rfl := reparse_eq_some hfound hreparse
  · apply erase_with_children hroot
    rw [List.map_append, List.map_append, map_erase_numberWithin hnumber, ← List.map_append,
      ← List.map_append]
    exact hnodes
  · rw [erase_numberRoot]
    exact erase_with_children hroot hnodes

end Galley.Syntax
