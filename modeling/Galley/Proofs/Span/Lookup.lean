import Galley.Proofs.Edit.Order

/-!
# Looking up a span

The lookup goes into one child only, the last one whose number is not greater
than the one it looks for.  In a tree in order no other child can hold it, so
the lookup finds every node and answers with the bytes that the node covers.
-/

namespace Galley.Syntax

open Galley.Text

/-! ## Slices of a text -/

@[simp]
theorem size_utf8Encode (chars : List Char) : chars.utf8Encode.size = byteLength chars := by
  rw [← String.toByteArray_ofList, ← utf8Len_eq_byteLength, ← String.utf8ByteSize_ofList]
  rfl

/-- The bytes of some characters in the middle of a text decode to them. -/
theorem fromUTF8_extract (before inside after : List Char) :
    String.fromUTF8? ((String.ofList (before ++ inside ++ after)).toByteArray.extract
      (byteLength before) (byteLength before + byteLength inside)) =
        some (String.ofList inside) := by
  have hbytes : (String.ofList (before ++ inside ++ after)).toByteArray.extract
      (byteLength before) (byteLength before + byteLength inside) =
        (String.ofList inside).toByteArray := by
    rw [String.toByteArray_ofList, String.toByteArray_ofList, List.utf8Encode_append,
      List.utf8Encode_append, ByteArray.append_assoc]
    have hskip := ByteArray.extract_append_size_add (a := before.utf8Encode)
      (b := inside.utf8Encode ++ after.utf8Encode) (i := 0) (j := byteLength inside)
    rw [size_utf8Encode, Nat.add_zero] at hskip
    rw [hskip, ByteArray.extract_append_eq_left (size_utf8Encode inside).symm]
  rw [hbytes, String.fromUTF8?, dif_pos (String.ofList inside).isValidUTF8]
  rfl

namespace Node

variable {low high span : Int}

/-- The bytes of the text of some leaves. -/
def leafBytes (leaves : List Node) : Nat :=
  byteLength (leaves.flatMap fun leaf => leaf.text.toList)

theorem leafBytes_append (left right : List Node) :
    leafBytes (left ++ right) = leafBytes left + leafBytes right := by
  rw [leafBytes, List.flatMap_append, byteLength_append]
  rfl

theorem leafBytes_leaves (node : Node) : leafBytes node.leaves = node.byteLen := by
  rw [leafBytes, ← chars_eq_flatMap_leaves, byteLen_eq]

/-! ## No other number is found -/

mutual

theorem mem_spans_of_rangeFrom {answer : Nat × Nat} (span : Int) : ∀ (offset : Nat) (node : Node),
    node.rangeFrom span offset = some answer → span ∈ spansOf [node]
  | offset, ⟨kind, text, children, own, message⟩, hrange => by
    rw [rangeFrom] at hrange
    rw [spansOf_cons, spansOf_nil, List.append_nil]
    split at hrange
    · rename_i hown
      exact hown ▸ List.mem_cons_self
    · exact List.mem_cons_of_mem _ (mem_spans_of_rangeIn span offset children hrange)

theorem mem_spans_of_rangeIn {answer : Nat × Nat} (span : Int) : ∀ (offset : Nat)
    (nodes : List Node), rangeIn span offset nodes = some answer → span ∈ spansOf nodes
  | _, [], hrange => by cases hrange
  | offset, node :: nodes, hrange => by
    rw [rangeIn] at hrange
    rw [← List.singleton_append, spansOf_append, List.mem_append]
    split at hrange
    · exact .inl (mem_spans_of_rangeFrom span offset node hrange)
    · exact .inr (mem_spans_of_rangeIn span _ nodes hrange)

end

/-! ## Ranges start at leaves -/

mutual

/-- A tree has leaves: a node without children is one itself. -/
theorem leaves_ne_nil : ∀ node : Node, node.leaves ≠ []
  | ⟨_, _, [], _, _⟩ => List.cons_ne_nil _ _
  | ⟨_, _, child :: children, _, _⟩ => leavesOf_ne_nil (child :: children) (List.cons_ne_nil _ _)

theorem leavesOf_ne_nil : ∀ nodes : List Node, nodes ≠ [] → leavesOf nodes ≠ []
  | [], hnodes => absurd rfl hnodes
  | node :: _, _ => List.append_ne_nil_of_left_ne_nil (leaves_ne_nil node) _

end

mutual

theorem exists_leaves_of_rangeFrom {answer : Nat × Nat} (span : Int) : ∀ (offset : Nat)
    (node : Node), node.rangeFrom span offset = some answer →
      ∃ before leaf after, node.leaves = before ++ leaf :: after ∧
        answer.1 = offset + leafBytes before
  | offset, ⟨kind, text, children, own, message⟩, hrange => by
    rw [rangeFrom] at hrange
    split at hrange
    · obtain rfl := Option.some.inj hrange
      obtain ⟨leaf, after, hleaves⟩ :=
        List.exists_cons_of_ne_nil (leaves_ne_nil ⟨kind, text, children, own, message⟩)
      exact ⟨[], leaf, after, hleaves, rfl⟩
    · cases children with
      | nil => cases hrange
      | cons child children =>
        exact exists_leaves_of_rangeIn span offset (child :: children) hrange

theorem exists_leaves_of_rangeIn {answer : Nat × Nat} (span : Int) : ∀ (offset : Nat)
    (nodes : List Node), rangeIn span offset nodes = some answer →
      ∃ before leaf after, leavesOf nodes = before ++ leaf :: after ∧
        answer.1 = offset + leafBytes before
  | _, [], hrange => by cases hrange
  | offset, node :: nodes, hrange => by
    rw [rangeIn] at hrange
    rw [leavesOf]
    split at hrange
    · obtain ⟨before, leaf, after, hleaves, hstart⟩ :=
        exists_leaves_of_rangeFrom span offset node hrange
      refine ⟨before, leaf, after ++ leavesOf nodes, ?_, hstart⟩
      rw [hleaves, List.append_assoc, List.cons_append]
    · obtain ⟨before, leaf, after, hleaves, hstart⟩ :=
        exists_leaves_of_rangeIn span _ nodes hrange
      refine ⟨node.leaves ++ before, leaf, after, by rw [hleaves, List.append_assoc], ?_⟩
      rw [hstart, leafBytes_append, leafBytes_leaves, Nat.add_assoc]

end

/-! ## Every node is found -/

theorem belowNext_eq {nodes : List Node} (hspan : span < high) :
    belowNext span nodes = decide (span < nextSpan high nodes) := by
  cases nodes with
  | nil => simp [belowNext, nextSpan, hspan]
  | cons node nodes => rfl

/-- The bytes that a node covers in a tree or a run of siblings: those of its own
leaves, which follow those of the leaves in front of it. -/
def FoundAt (leaves : List Node) (range : Nat → Option (Nat × Nat)) (node : Node) : Prop :=
  ∃ before after, leaves = before ++ node.leaves ++ after ∧
    ∀ offset, range offset =
      some (offset + leafBytes before, offset + leafBytes before + node.byteLen)

mutual

theorem foundAt_rangeFrom (low high : Int) {node : Node} : ∀ root : Node,
    InOrder low high [root] → node ∈ root.preorder →
      FoundAt root.leaves (fun offset => root.rangeFrom node.span offset) node
  | ⟨kind, text, children, own, message⟩, horder, hnode => by
    rw [preorder, List.mem_cons] at hnode
    obtain rfl | hnode := hnode
    · refine ⟨[], [], (List.append_nil _).symm, ?_⟩
      intro offset
      dsimp only
      rw [rangeFrom, if_pos rfl]
      rfl
    · obtain ⟨-, hchildren, -⟩ := inOrder_cons_iff.1 horder
      obtain ⟨before, after, hleaves, hrange⟩ := foundAt_rangeIn _ _ children hchildren hnode
      have hwithin := hchildren.within node.span (List.mem_map_of_mem hnode)
      have hother : own ≠ node.span := by
        have hown : own + 1 ≤ node.span := hwithin.1
        omega
      refine ⟨before, after, ?_, ?_⟩
      · rw [← hleaves]
        cases children with
        | nil => cases hnode
        | cons child children => rfl
      · intro offset
        dsimp only
        rw [rangeFrom, if_neg hother]
        exact hrange offset

theorem foundAt_rangeIn (low high : Int) {node : Node} : ∀ nodes : List Node,
    InOrder low high nodes → node ∈ preorderOf nodes →
      FoundAt (leavesOf nodes) (fun offset => rangeIn node.span offset nodes) node
  | [], _, hnode => by cases hnode
  | first :: nodes, horder, hnode => by
    have hspan : node.span ∈ spansOf (first :: nodes) := List.mem_map_of_mem hnode
    have hhigh := (horder.within node.span hspan).2
    obtain ⟨hfirst, hnodes, -⟩ := inOrder_append_iff.1
      (show InOrder low high ([first] ++ nodes) from horder)
    rw [preorderOf, List.mem_append] at hnode
    obtain hnode | hnode := hnode
    · have hown : node.span ∈ spansOf [first] := by
        rw [spansOf_singleton]
        exact List.mem_map_of_mem hnode
      have hnext := InOrder.lt_nextSpan [first] horder _ hown
      have hle : first.span ≤ node.span := hfirst.nextSpan_le _ hown
      obtain ⟨before, after, hleaves, hrange⟩ := foundAt_rangeFrom low high first hfirst hnode
      refine ⟨before, after ++ leavesOf nodes, ?_, ?_⟩
      · rw [leavesOf, hleaves, List.append_assoc]
      · intro offset
        dsimp only
        rw [rangeIn, belowNext_eq hhigh, if_pos (by simp [hle, hnext])]
        exact hrange offset
    · have hown : node.span ∈ spansOf nodes := List.mem_map_of_mem hnode
      have hnext := hnodes.nextSpan_le _ hown
      obtain ⟨before, after, hleaves, hrange⟩ := foundAt_rangeIn low high nodes hnodes hnode
      refine ⟨first.leaves ++ before, after, ?_, ?_⟩
      · rw [leavesOf, hleaves, List.append_assoc, List.append_assoc, List.append_assoc]
      · intro offset
        dsimp only at hrange ⊢
        rw [rangeIn, belowNext_eq hhigh, if_neg (by simp [hnext]), hrange, leafBytes_append,
          leafBytes_leaves, Nat.add_assoc offset]

end

end Node

open Node

/-- Span lookup is exact throughout every history whose trees do not run out of
numbers: the span of a node gives the bytes of its own leaves behind those of
the leaves in front, they decode to its text, and no other number gives any. -/
theorem span_lookup_exact (id : Nat) (path : File.Path) (text : String) (changes : List Change)
    (hfits : Throughout (fun source => (source.root.size : Int) ≤ upperSpan - firstSpan)
      (Source.new id path text) changes) :
    Throughout
      (fun source =>
        (∀ node ∈ source.root.preorder, ∃ before after,
          source.root.leaves = before ++ node.leaves ++ after ∧
          source.range node.span =
            some (leafBytes before, leafBytes before + node.byteLen) ∧
          String.fromUTF8? (source.text.toByteArray.extract (leafBytes before)
            (leafBytes before + node.byteLen)) = some node.fullText) ∧
        ∀ span : Int, (∀ node ∈ source.root.preorder, node.span ≠ span) →
          source.range span = none)
      (Source.new id path text) changes := by
  have hinvariant : Throughout
      (fun source => WellNumbered source.root ∧ source.root.erase = (parse source.text).erase)
      (Source.new id path text) changes :=
    hfits.of_step ⟨.numberRoot hfits.here, rfl⟩ fun hsource hnext happly =>
      ⟨hsource.1.apply hnext happly, Change.erase_root_apply hsource.2 happly⟩
  apply hinvariant.imp
  rintro source ⟨hnumbered, hroot⟩
  constructor
  · intro node hnode
    obtain ⟨before, after, hleaves, hrange⟩ :=
      foundAt_rangeFrom _ _ source.root hnumbered.order hnode
    refine ⟨before, after, hleaves, ?_, ?_⟩
    · rw [Source.range]
      simpa using hrange 0
    · have hchars := chars_eq_of_erase_eq hroot
      rw [chars_parse, chars_eq_flatMap_leaves, hleaves, List.flatMap_append,
        List.flatMap_append, ← chars_eq_flatMap_leaves] at hchars
      rw [← String.ofList_toList (s := source.text), ← hchars, byteLen_eq]
      exact fromUTF8_extract _ _ _
  · intro span hspan
    cases hrange : source.range span with
    | none => rfl
    | some answer =>
      have hmem := mem_spans_of_rangeFrom span 0 source.root hrange
      rw [spansOf_singleton] at hmem
      obtain ⟨node, hnode, hown⟩ := List.mem_map.1 hmem
      exact absurd hown (hspan node hnode)

/-- Empty error nodes share their position with the node behind them. -/
theorem span_lookup_exact_empty :
    Throughout (fun source => (source.root.size : Int) ≤ upperSpan - firstSpan)
      (Source.new 0 { names := ["m"] } "é #f(")
      [.edit 3 6 "*_", .edit 0 2 "", .replace "#let (", .edit 1 4 "set"] ∧
    Throughout
      (fun source =>
        (∀ node ∈ source.root.preorder, ∃ before after,
          source.root.leaves = before ++ node.leaves ++ after ∧
          source.range node.span =
            some (leafBytes before, leafBytes before + node.byteLen) ∧
          String.fromUTF8? (source.text.toByteArray.extract (leafBytes before)
            (leafBytes before + node.byteLen)) = some node.fullText) ∧
        ∀ span : Int, (∀ node ∈ source.root.preorder, node.span ≠ span) →
          source.range span = none)
      (Source.new 0 { names := ["m"] } "é #f(")
      [.edit 3 6 "*_", .edit 0 2 "", .replace "#let (", .edit 1 4 "set"] :=
  have hfits : Throughout (fun source => (source.root.size : Int) ≤ upperSpan - firstSpan)
      (Source.new 0 { names := ["m"] } "é #f(")
      [.edit 3 6 "*_", .edit 0 2 "", .replace "#let (", .edit 1 4 "set"] := by decide +kernel
  ⟨hfits, span_lookup_exact 0 { names := ["m"] } "é #f(" _ hfits⟩

end Galley.Syntax
