import Galley.Proofs.Evaluation.Discipline

/-!
# Trees under a discipline

A tree of admitted nodes abides by a discipline if the documents that it asks for do: by induction
over the tree, with the places of strong and emphasized text on the way down and the letters of
values on the way up.  So a watch that likes what the discipline keeps never notices the tree.
-/

namespace Galley.Compile

open Syntax Document Eval

variable {watch : Watch} {discipline : Discipline watch} {astray : Stop} {source : Nat}
  {load load' : Int → String → Eval Content} {place : watch.Place} {node : Node}

theorem Watch.inside_of_ne {kind : Kind} (hstrong : kind ≠ .strong) (hemph : kind ≠ .emph) :
    watch.inside place kind = place := by
  cases kind <;> first | rfl | exact absurd rfl hstrong | exact absurd rfl hemph

/-- What is set inside a node is set where the node stands. -/
theorem Discipline.Fits.outside {value : Value} (hadmits : discipline.admits node)
    (hvalue : discipline.Fits (watch.inside place node.kind) value) :
    discipline.Fits place value := by
  refine ⟨fun letter hletter => ?_, hvalue.chars, hvalue.calls⟩
  have hinside := hvalue.letters letter hletter
  by_cases hstrong : node.kind = .strong
  · rw [hstrong] at hinside
    exact discipline.strong hadmits hstrong hinside
  · by_cases hemph : node.kind = .emph
    · rw [hemph] at hinside
      exact discipline.emph hadmits hemph hinside
    · rwa [Watch.inside_of_ne hstrong hemph] at hinside

/-- Whatever a node comes to at a place abides by the discipline. -/
structure Obeys (discipline : Discipline watch) (astray : Stop) (source : Nat)
    (load load' : Int → String → Eval Content) (place : watch.Place) (node : Node) : Prop where
  admits : discipline.admits node
  value : Abides discipline place (evalNode ⟨source, load⟩ node).value
    (watch.evalNode astray ⟨source, load'⟩ place node).value
    (discipline.Fits (watch.inside place node.kind))
  argument : Abides discipline place (evalNode ⟨source, load⟩ node).argument
    (watch.evalNode astray ⟨source, load'⟩ place node).argument fun arg =>
      discipline.Fits place arg.value ∧ ∀ name, arg.name = some name → discipline.named name
  arguments : Abides discipline place (evalNode ⟨source, load⟩ node).arguments
    (watch.evalNode astray ⟨source, load'⟩ place node).arguments (discipline.Takes place)
  content : Abides discipline place (evalNode ⟨source, load⟩ node).content
    (watch.evalNode astray ⟨source, load'⟩ place node).content (discipline.Sets place)

theorem Obeys.shown (hnode : Obeys discipline astray source load load' place node) :
    Abides discipline place (evalNode ⟨source, load⟩ node).value
      (watch.evalNode astray ⟨source, load'⟩ place node).value (discipline.Fits place) :=
  hnode.value.mono fun _ hvalue => hvalue.outside hnode.admits

/-! ## Lists of operands -/

variable {nodes : List Node}

theorem abides_markupContent
    (hnodes : ∀ node ∈ nodes, Obeys discipline astray source load load' place node) :
    Abides discipline place (markupContent source (nodes.map (evalNode ⟨source, load⟩)))
      (markupContent source (nodes.map (watch.evalNode astray ⟨source, load'⟩ place)))
      (discipline.Sets place) := by
  induction nodes with
  | nil => exact .pure (List.forall_mem_nil _)
  | cons node nodes ih =>
    obtain ⟨hnode, hnodes⟩ := List.forall_mem_cons.1 hnodes
    have hshown := hnode.shown.bind fun value hvalue =>
      (discipline.calculus place).display value hvalue
    exact hshown.attempt.bind fun _ hfront => (ih hnodes).bind fun _ hbehind =>
      .pure (Discipline.sets_append hfront hbehind)

theorem abides_list
    (hnodes : ∀ node ∈ nodes, Obeys discipline astray source load load' place node) :
    Abides discipline place (Operand.list (nodes.map (evalNode ⟨source, load⟩)))
      (Operand.list (nodes.map (watch.evalNode astray ⟨source, load'⟩ place)))
      (discipline.Takes place) := by
  induction nodes with
  | nil => exact .pure (List.forall_mem_nil _)
  | cons node nodes ih =>
    obtain ⟨hnode, hnodes⟩ := List.forall_mem_cons.1 hnodes
    exact hnode.argument.bind fun _ hfirst => (ih hnodes).bind fun _ hrest =>
      .pure (List.forall_mem_cons.2 ⟨hfirst, hrest⟩)

theorem abides_callItems
    (hnodes : ∀ node ∈ nodes, Obeys discipline astray source load load' place node) :
    Abides discipline place (Operand.callItems (nodes.map (evalNode ⟨source, load⟩)))
      (Operand.callItems (nodes.map (watch.evalNode astray ⟨source, load'⟩ place)))
      (discipline.Takes place) := by
  induction nodes with
  | nil => exact .pure (List.forall_mem_nil _)
  | cons node nodes ih =>
    obtain ⟨hnode, hnodes⟩ := List.forall_mem_cons.1 hnodes
    have hpart : Abides discipline place (evalNode ⟨source, load⟩ node).callPart
        (watch.evalNode astray ⟨source, load'⟩ place node).callPart (discipline.Takes place) := by
      rw [Operand.callPart, Operand.callPart, node_evalNode, Watch.node_evalNode]
      split
      · exact hnode.arguments
      · refine hnode.shown.bind fun value hvalue => .pure ?_
        exact List.forall_mem_singleton.2
          ⟨hvalue, fun _ hword => absurd hword.symm (Option.some_ne_none _)⟩
    exact hpart.bind fun _ hfirst => (ih hnodes).bind fun _ hrest =>
      .pure (List.forall_mem_append.2 ⟨hfirst, hrest⟩)

/-! ## Kinds of nodes -/

theorem abides_between
    (hchildren : ∀ child ∈ node.children, Obeys discipline astray source load load' place child) :
    Abides discipline place
      (markupContent source (between (node.children.map (evalNode ⟨source, load⟩))))
      (markupContent source
        (between (node.children.map (watch.evalNode astray ⟨source, load'⟩ place))))
      (discipline.Sets place) := by
  rw [between, between, ← List.map_drop, ← List.map_drop, ← List.map_dropLast, ← List.map_dropLast]
  exact abides_markupContent fun child hchild =>
    hchildren child (List.mem_of_mem_drop (List.dropLast_subset _ hchild))

theorem abides_evalCall (hload : discipline.Loads load load')
    (hchildren : ∀ child ∈ node.children, Obeys discipline astray source load load' place child) :
    Abides discipline place
      (evalCall ⟨source, load⟩ node (node.children.map (evalNode ⟨source, load⟩)))
      (evalCall ⟨source, load'⟩ node
        (node.children.map (watch.evalNode astray ⟨source, load'⟩ place)))
      (discipline.Fits place) := by
  have hall := of_mem_meaning hchildren
  rw [evalCall, evalCall, meaningful_map, Watch.meaningful_map]
  generalize node.children.filter isMeaningful = nodes at hall
  obtain _ | ⟨callee, rest⟩ := nodes
  · exact .fail
  · obtain ⟨hfirst, hrest⟩ := List.forall_mem_cons.1 hall
    refine hfirst.shown.bind fun value hvalue => ?_
    split
    · exact (abides_callItems hrest).bind fun args hargs =>
        abides_call hload (hvalue.calls _ rfl) hargs
    · rw [node_evalNode, Watch.node_evalNode]
      exact .report (.notAFunction _)

theorem abides_evalBinary
    (hchildren : ∀ child ∈ node.children, Obeys discipline astray source load load' place child) :
    Abides discipline place (evalBinary node (node.children.map (evalNode ⟨source, load⟩)))
      (evalBinary node (node.children.map (watch.evalNode astray ⟨source, load'⟩ place)))
      (discipline.Fits place) := by
  have hall := of_mem_meaning hchildren
  rw [evalBinary, evalBinary, meaningful_map, Watch.meaningful_map]
  generalize node.children.filter isMeaningful = nodes at hall
  obtain _ | ⟨left, _ | ⟨operator, _ | ⟨right, _ | ⟨other, nodes⟩⟩⟩⟩ := nodes
  case cons.cons.cons.nil =>
    refine (hall left (by simp)).shown.bind fun leftValue hleft => ?_
    refine (hall right (by simp)).shown.bind fun rightValue hright => ?_
    rw [node_evalNode, Watch.node_evalNode]
    exact follows_applyOperator hleft hright
  case nil => exact .fail
  case cons.nil => exact .fail
  case cons.cons.nil => exact .fail
  case cons.cons.cons.cons =>
    simp only [List.map_cons, List.length_cons, List.length_map]
    exact .fail

theorem abides_evalLet (hadmits : discipline.admits node) (hkind : node.kind = .letBinding)
    (hchildren : ∀ child ∈ node.children, Obeys discipline astray source load load' place child) :
    Abides discipline place (evalLet (node.children.map (evalNode ⟨source, load⟩)))
      (evalLet (node.children.map (watch.evalNode astray ⟨source, load'⟩ place)))
      (discipline.Fits place) := by
  have hall := of_mem_meaning hchildren
  rw [evalLet, evalLet, meaningful_map, Watch.meaningful_map]
  generalize node.children.filter isMeaningful = nodes at hall
  obtain _ | ⟨word, _ | ⟨name, rest⟩⟩ := nodes
  · exact .fail
  · exact .fail
  · have hbound : Abides discipline place (boundValue (rest.map (evalNode ⟨source, load⟩)))
        (boundValue (rest.map (watch.evalNode astray ⟨source, load'⟩ place)))
        (discipline.Fits place) := by
      obtain _ | ⟨equals, _ | ⟨expression, rest⟩⟩ := rest
      · exact follows_plain rfl
      · exact follows_plain rfl
      · exact (hall expression (by simp)).shown
    refine hbound.bind fun value hvalue => ?_
    rw [node_evalNode, Watch.node_evalNode]
    exact .bind (.modify fun _ hholds => discipline.bind _ hadmits hkind hholds hvalue)
      fun _ _ => follows_plain rfl

theorem abides_evalSet (hadmits : discipline.admits node) (hkind : node.kind = .setRule)
    (hchildren : ∀ child ∈ node.children, Obeys discipline astray source load load' place child) :
    Abides discipline place (evalSet node (node.children.map (evalNode ⟨source, load⟩)))
      (evalSet node (node.children.map (watch.evalNode astray ⟨source, load'⟩ place)))
      (discipline.Fits place) := by
  have hall := of_mem_meaning hchildren
  have htarget : ∀ word target arguments,
      node.children.filter isMeaningful = [word, target, arguments] →
        discipline.named target.text :=
    fun _ _ _ => discipline.target hadmits hkind
  rw [evalSet, evalSet, meaningful_map, Watch.meaningful_map]
  generalize node.children.filter isMeaningful = nodes at hall htarget
  obtain _ | ⟨word, _ | ⟨target, _ | ⟨arguments, _ | ⟨other, nodes⟩⟩⟩⟩ := nodes
  case cons.cons.cons.nil =>
    refine (hall arguments (by simp)).arguments.bind fun args hargs => ?_
    rw [node_evalNode, Watch.node_evalNode]
    split
    · exact (discipline.calculus place).setPage trivial hargs
    · split
      · exact (discipline.calculus place).setText trivial hargs
      · exact .report (.cannotSet (htarget word target arguments rfl))
  case nil => exact .fail
  case cons.nil => exact .fail
  case cons.cons.nil => exact .fail
  case cons.cons.cons.cons =>
    simp only [List.map_cons, List.length_cons, List.length_map]
    exact .fail

theorem abides_evalInner (hload : discipline.Loads load load') (hadmits : discipline.admits node)
    (hchildren : ∀ place, ∀ child ∈ node.children,
      Obeys discipline astray source load load' place child) :
    Abides discipline place
      (evalInner ⟨source, load⟩ node (node.children.map (evalNode ⟨source, load⟩)))
      (evalInner ⟨source, load'⟩ node
        (node.children.map
          (watch.evalNode astray ⟨source, load'⟩ (watch.inside place node.kind))))
      (discipline.Fits (watch.inside place node.kind)) := by
  unfold evalInner
  split
  case h_1 hmarkup =>
    rw [hmarkup]
    exact (abides_markupContent (hchildren place)).bind fun _ hcontent =>
      .pure (Discipline.fits_content hcontent)
  case h_2 hstrong =>
    rw [hstrong]
    exact (abides_between (hchildren _)).withStrong.bind fun _ hcontent =>
      .pure (Discipline.fits_content hcontent)
  case h_3 hemph =>
    rw [hemph]
    exact (abides_between (hchildren _)).withEmph.bind fun _ hcontent =>
      .pure (Discipline.fits_content hcontent)
  case h_4 hblock =>
    rw [hblock]
    generalize node.children = nodes at hchildren
    obtain _ | ⟨first, _ | ⟨body, rest⟩⟩ := nodes
    · exact .fail
    · exact .fail
    · exact (hchildren place body (by simp)).content.withinBlock.bind
        fun _ hcontent => .pure (Discipline.fits_content hcontent)
  case h_5 hembedded =>
    rw [hembedded]
    have hall := of_mem_meaning (hchildren place)
    rw [meaningful_map, Watch.meaningful_map]
    generalize node.children.filter isMeaningful = nodes at hall
    obtain _ | ⟨code, rest⟩ := nodes
    · exact .fail
    · exact (hall code (by simp)).shown
  case h_6 hargs =>
    rw [hargs, meaningful_map, Watch.meaningful_map]
    exact (abides_list (of_mem_meaning (hchildren place))).bind
      fun _ hitems => (discipline.calculus place).group trivial hitems
  case h_7 hcall =>
    rw [hcall]
    exact abides_evalCall hload (hchildren place)
  case h_8 hbinary =>
    rw [hbinary]
    exact abides_evalBinary (hchildren place)
  case h_9 hlet =>
    rw [hlet]
    exact abides_evalLet hadmits hlet (hchildren place)
  case h_10 hset =>
    rw [hset]
    exact abides_evalSet hadmits hset (hchildren place)
  case h_11 _ hstrong hemph _ _ _ _ _ _ _ =>
    rw [Watch.inside_of_ne hstrong hemph]
    exact follows_evalLeaf hadmits

theorem abides_evalArgument {left right : Eval Value} (hadmits : discipline.admits node)
    (hvalue : Abides discipline place left right (discipline.Fits place))
    (hchildren : ∀ child ∈ node.children, Obeys discipline astray source load load' place child) :
    Abides discipline place
      (evalArgument node (node.children.map (evalNode ⟨source, load⟩)) left)
      (evalArgument node (node.children.map (watch.evalNode astray ⟨source, load'⟩ place)) right)
      fun arg =>
        discipline.Fits place arg.value ∧ ∀ name, arg.name = some name → discipline.named name := by
  have hall := of_mem_meaning hchildren
  rw [evalArgument, evalArgument]
  split
  · rename_i hnamed
    have hname : ∀ name expression, node.children.filter isMeaningful = [name, expression] →
        discipline.named name.text :=
      fun _ _ => discipline.argument hadmits hnamed
    rw [meaningful_map, Watch.meaningful_map]
    generalize node.children.filter isMeaningful = nodes at hall hname
    obtain _ | ⟨name, _ | ⟨expression, _ | ⟨other, nodes⟩⟩⟩ := nodes
    case cons.cons.nil =>
      refine (hall expression (by simp)).shown.bind fun value hvalue => ?_
      rw [node_evalNode, node_evalNode, Watch.node_evalNode, Watch.node_evalNode]
      exact .pure ⟨hvalue, fun _ hword => Option.some.inj hword ▸ hname name expression rfl⟩
    case nil => exact .fail
    case cons.nil => exact .fail
    case cons.cons.cons =>
      simp only [List.map_cons, List.length_cons, List.length_map]
      exact .fail
  · exact hvalue.bind fun _ hvalue =>
      .pure ⟨hvalue, fun _ hword => absurd hword.symm (Option.some_ne_none _)⟩

/-- A tree of admitted nodes abides by a discipline if the documents do that it asks for. -/
theorem Obeys.of_loads (hload : discipline.Loads load load') (astray : Stop) (source : Nat)
    (place : watch.Place) (node : Node) (hadmits : node.Everywhere discipline.admits) :
    Obeys discipline astray source load load' place node := by
  induction node using Node.induction generalizing place with
  | step node ih =>
    obtain ⟨hown, hbelow⟩ := Node.everywhere_iff.1 hadmits
    have hchildren : ∀ place, ∀ child ∈ node.children,
        Obeys discipline astray source load load' place child :=
      fun place child hchild => ih child hchild place (hbelow child hchild)
    have hvalue : Abides discipline place (evalInner ⟨source, load⟩ node _)
        (evalInner ⟨source, load'⟩ node _) _ :=
      abides_evalInner hload hown hchildren
    refine ⟨hown, ?_, ?_, ?_, ?_⟩ <;> rw [evalNode_eq, Watch.evalNode_eq]
    · exact hvalue.guard
    · refine (abides_evalArgument hown ?_ (hchildren place)).guard
      exact hvalue.mono fun _ hvalue => hvalue.outside hown
    · show Abides discipline place (Operand.list _) (watch.guard astray place (Operand.list _)) _
      rw [meaningful_map, Watch.meaningful_map]
      exact (abides_list (of_mem_meaning (hchildren place))).guard
    · exact (abides_markupContent (hchildren place)).guard

/-- What a node comes to abides by a discipline, whether or not it is watched. -/
theorem follows_evalNode (hload : discipline.Loads load load) (source : Nat)
    (place : watch.Place) (node : Node) (hadmits : node.Everywhere discipline.admits) :
    Follows discipline place (evalNode ⟨source, load⟩ node).value
      (discipline.Fits (watch.inside place node.kind)) :=
  (Obeys.of_loads hload (.failure .endlessChain) source place node hadmits).value.follows

end Galley.Compile
