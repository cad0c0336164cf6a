import Galley.Proofs.Evaluation.Leaf

/-!
# Evaluating a well-shaped tree

A tree that has its shape everywhere evaluates as promised: by induction over
the tree, what the children come to in their places is all that a node needs,
and its shape says which children stand where.
-/

namespace Galley.Compile

open Syntax Document Eval

variable {source : Nat} {promise : Promise source} {load load' : Int → String → Eval Content}

/-! ## Operands of a node -/

@[simp]
theorem node_evalNode (context : Context) (node : Node) : (evalNode context node).node = node := by
  rcases node with ⟨kind, text, children, span, message⟩
  rfl

theorem operandsOf_eq_map (context : Context) (nodes : List Node) :
    operandsOf context nodes = nodes.map (evalNode context) := by
  induction nodes with
  | nil => rfl
  | cons node nodes ih => rw [operandsOf, ih, List.map_cons]

theorem evalNode_eq (context : Context) (node : Node) :
    evalNode context node =
      .ofChildren context node (node.children.map (evalNode context)) := by
  rcases node with ⟨kind, text, children, span, message⟩
  rw [evalNode, operandsOf_eq_map]

/-- Which operands carry meaning is a matter of their nodes. -/
theorem meaningful_map_of {eval : Node → Operand} (hnode : ∀ node, (eval node).node = node)
    (nodes : List Node) :
    Operand.meaningful (nodes.map eval) = (nodes.filter isMeaningful).map eval := by
  rw [Operand.meaningful, List.filter_map]
  congr 1
  exact List.filter_congr fun node _ => by simp [hnode]

theorem meaningful_map (context : Context) (nodes : List Node) :
    Operand.meaningful (nodes.map (evalNode context)) =
      (nodes.filter isMeaningful).map (evalNode context) :=
  meaningful_map_of (node_evalNode context) nodes

/-- What a node comes to in each place where its kind may stand is as promised,
and the same for both ways to load documents. -/
structure Evaluates (promise : Promise source) (load load' : Int → String → Eval Content)
    (node : Node) : Prop where
  value : node.kind.isMarkup = true ∨ node.kind.isValue = true →
    Runs promise (evalNode ⟨source, load⟩ node).value (evalNode ⟨source, load'⟩ node).value
      fun _ => True
  argument : node.kind.isArgument = true →
    Runs promise (evalNode ⟨source, load⟩ node).argument (evalNode ⟨source, load'⟩ node).argument
      fun arg => promise.spans arg.span
  arguments : node.kind = .args →
    Runs promise (evalNode ⟨source, load⟩ node).arguments
      (evalNode ⟨source, load'⟩ node).arguments (ArgsWithin promise)
  content : node.kind = .markup →
    Runs promise (evalNode ⟨source, load⟩ node).content (evalNode ⟨source, load'⟩ node).content
      fun _ => True

/-! ## Lists of operands -/

variable {nodes : List Node}

theorem runs_markupContent (hnodes : ∀ node ∈ nodes, Evaluates promise load load' node)
    (hkinds : ∀ node ∈ nodes, node.kind.isMarkup = true) :
    Runs promise (markupContent source (nodes.map (evalNode ⟨source, load⟩)))
      (markupContent source (nodes.map (evalNode ⟨source, load'⟩))) fun _ => True := by
  induction nodes with
  | nil => exact .done
  | cons node nodes ih =>
    obtain ⟨hnode, hnodes⟩ := List.forall_mem_cons.1 hnodes
    obtain ⟨hkind, hkinds⟩ := List.forall_mem_cons.1 hkinds
    have hshown := (hnode.value (.inl hkind)).bind fun value _ =>
      promise.calculus.display value trivial
    exact hshown.attempt.bind fun _ _ => (ih hnodes hkinds).bind fun _ _ => .done

theorem runs_list (hnodes : ∀ node ∈ nodes, Evaluates promise load load' node)
    (hkinds : ∀ node ∈ nodes, node.kind.isArgument = true) :
    Runs promise (Operand.list (nodes.map (evalNode ⟨source, load⟩)))
      (Operand.list (nodes.map (evalNode ⟨source, load'⟩))) (ArgsWithin promise) := by
  induction nodes with
  | nil => exact .pure (List.forall_mem_nil _)
  | cons node nodes ih =>
    obtain ⟨hnode, hnodes⟩ := List.forall_mem_cons.1 hnodes
    obtain ⟨hkind, hkinds⟩ := List.forall_mem_cons.1 hkinds
    exact (hnode.argument hkind).bind fun first hfirst => (ih hnodes hkinds).bind fun rest hrest =>
      .pure (List.forall_mem_cons.2 ⟨hfirst, hrest⟩)

theorem runs_callItems (hnodes : ∀ node ∈ nodes, Evaluates promise load load' node)
    (hspans : ∀ node ∈ nodes, promise.spans node.span)
    (hkinds : ∀ node ∈ nodes, node.kind = .args ∨ node.kind = .contentBlock) :
    Runs promise (Operand.callItems (nodes.map (evalNode ⟨source, load⟩)))
      (Operand.callItems (nodes.map (evalNode ⟨source, load'⟩))) (ArgsWithin promise) := by
  induction nodes with
  | nil => exact .pure (List.forall_mem_nil _)
  | cons node nodes ih =>
    obtain ⟨hnode, hnodes⟩ := List.forall_mem_cons.1 hnodes
    obtain ⟨hspan, hspans⟩ := List.forall_mem_cons.1 hspans
    obtain ⟨hkind, hkinds⟩ := List.forall_mem_cons.1 hkinds
    have hpart : Runs promise (evalNode ⟨source, load⟩ node).callPart
        (evalNode ⟨source, load'⟩ node).callPart (ArgsWithin promise) := by
      rw [Operand.callPart, Operand.callPart, node_evalNode, node_evalNode]
      obtain hargs | hblock := hkind
      · rw [if_pos hargs, if_pos hargs]
        exact hnode.arguments hargs
      · rw [hblock, if_neg (by decide), if_neg (by decide)]
        refine (hnode.value (.inr (by rw [hblock]; rfl))).bind fun value _ => .pure ?_
        exact fun arg harg => by rwa [List.mem_singleton.1 harg]
    exact hpart.bind fun first hfirst => (ih hnodes hspans hkinds).bind fun rest hrest =>
      .pure (List.forall_mem_append.2 ⟨hfirst, hrest⟩)

/-! ## Kinds of nodes -/

/-- Nodes that carry meaning are children. -/
theorem of_mem_meaning {holds : Node → Prop} {node : Node}
    (hchildren : ∀ child ∈ node.children, holds child) :
    ∀ child ∈ node.children.filter isMeaningful, holds child :=
  fun child hchild => hchildren child (List.mem_filter.1 hchild).1

variable {node : Node}

theorem runs_between {marker : Kind}
    (hchildren : ∀ child ∈ node.children, Evaluates promise load load' child)
    (hshape : ∃ inside, node.children.map Node.kind = marker :: inside ++ [marker] ∧
      ∀ kind ∈ inside, kind.isMarkup = true) :
    Runs promise (markupContent source (between (node.children.map (evalNode ⟨source, load⟩))))
      (markupContent source (between (node.children.map (evalNode ⟨source, load'⟩))))
      fun _ => True := by
  obtain ⟨inside, hkinds, hinside⟩ := hshape
  rw [between, between, ← List.map_drop, ← List.map_drop, ← List.map_dropLast, ← List.map_dropLast]
  refine runs_markupContent (fun child hchild => ?_) ?_
  · exact hchildren child (List.mem_of_mem_drop (List.dropLast_subset _ hchild))
  · rw [← List.forall_mem_map (f := Node.kind) (P := fun kind => kind.isMarkup = true)]
    rw [List.map_dropLast, List.map_drop, hkinds]
    simpa using hinside

theorem runs_evalCall (hload : LoadsAlike promise load load')
    (hchildren : ∀ child ∈ node.children, Evaluates promise load load' child)
    (hspans : ∀ child ∈ node.children, promise.spans child.span) (hspan : promise.spans node.span)
    (hshape : ∃ callee parts, node.meaning = callee :: parts ∧ callee.isValue = true ∧
      ∀ part ∈ parts, part = .args ∨ part = .contentBlock) :
    Runs promise (evalCall ⟨source, load⟩ node (node.children.map (evalNode ⟨source, load⟩)))
      (evalCall ⟨source, load'⟩ node (node.children.map (evalNode ⟨source, load'⟩)))
      fun _ => True := by
  obtain ⟨_, _, hmeaning, hcallee, hparts⟩ := hshape
  obtain ⟨callee, parts, hnodes, rfl, rfl⟩ := List.map_eq_cons_iff.1 hmeaning
  have hall := of_mem_meaning hchildren
  have hspans := of_mem_meaning hspans
  rw [evalCall, evalCall, meaningful_map, meaningful_map, hnodes]
  rw [hnodes] at hall hspans
  obtain ⟨hfirst, hall⟩ := List.forall_mem_cons.1 hall
  obtain ⟨hcalleeSpan, hspans⟩ := List.forall_mem_cons.1 hspans
  refine (hfirst.value (.inr hcallee)).bind fun value _ => ?_
  split
  · refine (runs_callItems hall hspans (List.forall_mem_map.1 hparts)).bind fun args hargs => ?_
    exact runs_call hload _ hspan hargs
  · rw [node_evalNode, node_evalNode]
    exact .report hcalleeSpan trivial

theorem runs_evalBinary
    (hchildren : ∀ child ∈ node.children, Evaluates promise load load' child)
    (hspan : promise.spans node.span)
    (hshape : ∃ left operator right, node.meaning = [left, operator, right] ∧
      left.isValue = true ∧ operator.isOperator = true ∧ right.isValue = true) :
    Runs promise (evalBinary node (node.children.map (evalNode ⟨source, load⟩)))
      (evalBinary node (node.children.map (evalNode ⟨source, load'⟩))) fun _ => True := by
  obtain ⟨_, _, _, hmeaning, hleft, -, hright⟩ := hshape
  obtain ⟨left, _, hnodes, rfl, hbehind⟩ := List.map_eq_cons_iff.1 hmeaning
  obtain ⟨operator, _, rfl, -, hlast⟩ := List.map_eq_cons_iff.1 hbehind
  obtain ⟨right, rfl, rfl⟩ := List.map_eq_singleton_iff.1 hlast
  have hall := of_mem_meaning hchildren
  rw [evalBinary, evalBinary, meaningful_map, meaningful_map, hnodes]
  rw [hnodes] at hall
  refine ((hall left (by simp)).value (.inr hleft)).bind fun leftValue _ => ?_
  refine ((hall right (by simp)).value (.inr hright)).bind fun rightValue _ => ?_
  rw [node_evalNode, node_evalNode]
  exact keeps_applyOperator hspan _ _ _

theorem runs_evalLet (hchildren : ∀ child ∈ node.children, Evaluates promise load load' child)
    (hshape : node.meaning = [.letWord, .ident] ∨
      ∃ value, node.meaning = [.letWord, .ident, .eq, value] ∧ value.isValue = true) :
    Runs promise (evalLet (node.children.map (evalNode ⟨source, load⟩)))
      (evalLet (node.children.map (evalNode ⟨source, load'⟩))) fun _ => True := by
  have hall := of_mem_meaning hchildren
  rw [evalLet, evalLet, meaningful_map, meaningful_map]
  obtain hbare | ⟨_, hmeaning, hvalue⟩ := hshape
  · obtain ⟨word, _, hnodes, -, hrest⟩ := List.map_eq_cons_iff.1 hbare
    obtain ⟨name, rfl, -⟩ := List.map_eq_singleton_iff.1 hrest
    rw [hnodes]
    refine .bind .done fun value _ => ?_
    rw [node_evalNode, node_evalNode]
    exact keeps_bind _ _
  · obtain ⟨word, _, hnodes, -, hrest⟩ := List.map_eq_cons_iff.1 hmeaning
    obtain ⟨name, _, rfl, -, hrest⟩ := List.map_eq_cons_iff.1 hrest
    obtain ⟨equals, _, rfl, -, hrest⟩ := List.map_eq_cons_iff.1 hrest
    obtain ⟨bound, rfl, rfl⟩ := List.map_eq_singleton_iff.1 hrest
    rw [hnodes] at hall ⊢
    refine ((hall bound (by simp)).value (.inr hvalue)).bind fun value _ => ?_
    rw [node_evalNode, node_evalNode]
    exact keeps_bind _ _

theorem runs_evalSet (hchildren : ∀ child ∈ node.children, Evaluates promise load load' child)
    (hspans : ∀ child ∈ node.children, promise.spans child.span) (hspan : promise.spans node.span)
    (hshape : node.meaning = [.setWord, .ident, .args]) :
    Runs promise (evalSet node (node.children.map (evalNode ⟨source, load⟩)))
      (evalSet node (node.children.map (evalNode ⟨source, load'⟩))) fun _ => True := by
  obtain ⟨word, _, hnodes, -, hrest⟩ := List.map_eq_cons_iff.1 hshape
  obtain ⟨target, _, rfl, -, hrest⟩ := List.map_eq_cons_iff.1 hrest
  obtain ⟨arguments, rfl, hkind⟩ := List.map_eq_singleton_iff.1 hrest
  have hall := of_mem_meaning hchildren
  have hspans := of_mem_meaning hspans
  rw [evalSet, evalSet, meaningful_map, meaningful_map, hnodes]
  rw [hnodes] at hall hspans
  refine ((hall arguments (by simp)).arguments hkind).bind fun args hargs => ?_
  rw [node_evalNode, node_evalNode]
  split
  · exact promise.calculus.setPage hspan hargs
  · split
    · exact promise.calculus.setText hspan hargs
    · exact .report (hspans target (by simp)) trivial

theorem runs_evalInner (hload : LoadsAlike promise load load')
    (hchildren : ∀ child ∈ node.children, Evaluates promise load load' child)
    (hspans : ∀ child ∈ node.children, promise.spans child.span) (hspan : promise.spans node.span)
    (hshape : Shaped node) (hkind : node.kind.isMarkup = true ∨ node.kind.isValue = true) :
    Runs promise (evalInner ⟨source, load⟩ node (node.children.map (evalNode ⟨source, load⟩)))
      (evalInner ⟨source, load'⟩ node (node.children.map (evalNode ⟨source, load'⟩)))
      fun _ => True := by
  rw [Shaped] at hshape
  unfold evalInner
  split
  -- The body of a document or a block stands in neither place.
  case h_1 hmarkup => simp [hmarkup, Kind.isMarkup, Kind.isValue] at hkind
  case h_2 hstrong =>
    rw [hstrong] at hshape
    exact (runs_between hchildren hshape).withStrong.bind fun _ _ => .done
  case h_3 hemph =>
    rw [hemph] at hshape
    exact (runs_between hchildren hshape).withEmph.bind fun _ _ => .done
  case h_4 hblock =>
    rw [hblock] at hshape
    obtain ⟨first, _, hnodes, -, hbehind⟩ := List.map_eq_cons_iff.1 hshape
    obtain ⟨body, _, rfl, hbody, hlast⟩ := List.map_eq_cons_iff.1 hbehind
    rw [hnodes] at hchildren ⊢
    exact ((hchildren body (by simp)).content hbody).withinBlock.bind fun _ _ => .done
  case h_5 hembedded =>
    rw [hembedded] at hshape
    obtain ⟨_, hmeaning, hvalue⟩ := hshape
    obtain ⟨code, hnodes, rfl⟩ := List.map_eq_singleton_iff.1 hmeaning
    have hall := of_mem_meaning hchildren
    rw [meaningful_map, meaningful_map, hnodes]
    rw [hnodes] at hall
    exact (hall code (by simp)).value (.inr hvalue)
  case h_6 hargs =>
    rw [hargs] at hshape
    rw [meaningful_map, meaningful_map]
    refine (runs_list (of_mem_meaning hchildren) (List.forall_mem_map.1 hshape)).bind ?_
    exact fun items hitems => promise.calculus.group hspan hitems
  case h_7 hcall =>
    rw [hcall] at hshape
    exact runs_evalCall hload hchildren hspans hspan hshape
  case h_8 hbinary =>
    rw [hbinary] at hshape
    exact runs_evalBinary hchildren hspan hshape
  case h_9 hlet =>
    rw [hlet] at hshape
    exact runs_evalLet hchildren hshape
  case h_10 hset =>
    rw [hset] at hshape
    exact runs_evalSet hchildren hspans hspan hshape
  case h_11 =>
    -- What is left in markup or for a value is a leaf, and its shape is about its text.
    have hleaf : isLeafValue node.kind = true ∧ LeafText node.kind node.text.toList := by
      generalize node.kind = kind at *
      cases kind <;> simp_all [isLeafValue, Kind.Shape, Kind.isMarkup, Kind.isValue]
    exact keeps_evalLeaf hspan hleaf.1 hleaf.2

theorem runs_evalArgument (hload : LoadsAlike promise load load')
    (hchildren : ∀ child ∈ node.children, Evaluates promise load load' child)
    (hspans : ∀ child ∈ node.children, promise.spans child.span) (hspan : promise.spans node.span)
    (hshape : Shaped node) (hkind : node.kind.isArgument = true) :
    Runs promise (evalNode ⟨source, load⟩ node).argument (evalNode ⟨source, load'⟩ node).argument
      fun arg => promise.spans arg.span := by
  rw [evalNode_eq, evalNode_eq]
  show Runs promise (evalArgument _ _ _) (evalArgument _ _ _) _
  rw [evalArgument, evalArgument]
  by_cases hnamed : node.kind = .named
  · rw [if_pos hnamed, if_pos hnamed, meaningful_map, meaningful_map]
    rw [Shaped, hnamed] at hshape
    obtain ⟨_, hmeaning, hvalue⟩ := hshape
    obtain ⟨name, _, hnodes, -, hlast⟩ := List.map_eq_cons_iff.1 hmeaning
    obtain ⟨expression, rfl, rfl⟩ := List.map_eq_singleton_iff.1 hlast
    have hall := of_mem_meaning hchildren
    have hspans := of_mem_meaning hspans
    rw [hnodes] at hall hspans ⊢
    refine ((hall expression (by simp)).value (.inr hvalue)).bind fun value _ => ?_
    rw [node_evalNode, node_evalNode, node_evalNode, node_evalNode]
    exact .pure (hspans expression (by simp))
  · rw [if_neg hnamed, if_neg hnamed]
    have hvalue : node.kind.isValue = true := by simpa [Kind.isArgument, hnamed] using hkind
    exact (runs_evalInner hload hchildren hspans hspan hshape (.inr hvalue)).bind fun _ _ =>
      .pure hspan

/-- Every node of a tree that has its shape everywhere evaluates as promised, if
its spans are those of the promise. -/
theorem evaluates (hload : LoadsAlike promise load load') (node : Node)
    (hshape : node.Everywhere Shaped)
    (hspans : node.Everywhere fun inner => promise.spans inner.span) :
    Evaluates promise load load' node := by
  induction node using Node.induction with
  | step node ih =>
    obtain ⟨hown, hinner⟩ := Node.everywhere_iff.1 hshape
    obtain ⟨hspan, hinside⟩ := Node.everywhere_iff.1 hspans
    have hchildren : ∀ child ∈ node.children, Evaluates promise load load' child :=
      fun child hchild => ih child hchild (hinner child hchild) (hinside child hchild)
    have hspans : ∀ child ∈ node.children, promise.spans child.span :=
      fun child hchild => (Node.everywhere_iff.1 (hinside child hchild)).1
    constructor
    · intro hkind
      rw [evalNode_eq, evalNode_eq]
      exact runs_evalInner hload hchildren hspans hspan hown hkind
    · exact runs_evalArgument hload hchildren hspans hspan hown
    · intro hargs
      rw [Shaped, hargs] at hown
      rw [evalNode_eq, evalNode_eq]
      show Runs promise (Operand.list _) (Operand.list _) _
      rw [meaningful_map, meaningful_map]
      exact runs_list (of_mem_meaning hchildren) (List.forall_mem_map.1 hown)
    · intro hmarkup
      rw [Shaped, hmarkup] at hown
      rw [evalNode_eq, evalNode_eq]
      exact runs_markupContent hchildren (List.forall_mem_map.1 hown)

end Galley.Compile
