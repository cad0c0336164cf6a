import Galley.Proofs.Evaluation.Tree

/-!
# Trees side by side

Unless it asks for a document, reports or prints, an evaluation neither looks at the world and at
what has been reported and printed nor changes them, so it does the same on two machines that differ
in these alone.  A relation between evaluations of two sources goes up from the documents
that a tree asks for to the tree itself, if it holds of all such evaluations and is kept where
evaluations follow each other, print, or report what becomes a diagnostic.
-/

namespace Galley.Compile

open Syntax Document Eval

/-! ## What evaluation does by itself -/

/-- An evaluation that neither looks at the ledger nor changes it. -/
def Blind {α : Type} (action : Eval α) : Prop :=
  ∀ machine ledger, action (machine.moved ledger) =
    ((action machine).1, (action machine).2.moved ledger)

namespace Blind

variable {α β : Type} {span : Int}

theorem pure (value : α) : Blind (pure value) :=
  fun _ _ => rfl

theorem throw (stop : Stop) : Blind (throw stop : Eval α) :=
  fun _ _ => rfl

theorem report (error : EvalError) : Blind (report span error : Eval α) :=
  throw _

theorem lift (result : Except Failure α) : Blind (lift result) := by
  cases result with
  | ok value => exact pure value
  | error failure => exact throw _

/-- What comes second need only be blind for what the first one returns. -/
theorem bind {action : Eval α} {next : α → Eval β} {returns : α → Prop}
    (haction : Blind action)
    (hreturns : ∀ machine value, (action machine).1 = .ok value → returns value)
    (hnext : ∀ value, returns value → Blind (next value)) : Blind (action >>= next) := by
  intro machine ledger
  have hreturned := hreturns machine
  rw [bind_apply, bind_apply, haction]
  generalize action machine = answer at hreturned
  obtain ⟨stop | value, after⟩ := answer
  · rfl
  · exact hnext value (hreturned value rfl) after ledger

/-- The machine may be looked at where the ledger is not. -/
theorem get {next : Machine → Eval α}
    (hsame : ∀ machine ledger, next (machine.moved ledger) = next machine)
    (hnext : ∀ machine, Blind (next machine)) : Blind (get >>= next) := by
  intro machine ledger
  show next (machine.moved ledger) (machine.moved ledger) = _
  rw [hsame]
  exact hnext machine machine ledger

theorem bindName (name : String) (value : Value) : Blind (Compile.bind name value) :=
  fun _ _ => rfl

theorem ledger_eq {action : Eval α} (haction : Blind action) (machine : Machine) :
    (action machine).2.ledger = machine.ledger := by
  have hsame : (action machine).2 = (action machine).2.moved machine.ledger :=
    congrArg Prod.snd (haction machine machine.ledger)
  exact (congrArg Machine.ledger hsame).trans rfl

theorem world_eq {action : Eval α} (haction : Blind action) (machine : Machine) :
    (action machine).2.world = machine.world :=
  congrArg Ledger.world (haction.ledger_eq machine)

/-- What is derived without a look at the ledger. -/
def calculus : Calculus where
  Derives action returns :=
    Blind action ∧ ∀ machine value, (action machine).1 = .ok value → returns value
  pure hvalue := ⟨.pure _, fun _ _ hreturned => Except.ok.inj hreturned ▸ hvalue⟩
  bind haction hnext := by
    refine ⟨haction.1.bind haction.2 fun value hvalue => (hnext value hvalue).1, ?_⟩
    intro machine value hreturned
    have hfirst := haction.2 machine
    rw [bind_apply] at hreturned
    split at hreturned
    · rename_i first after hanswer
      exact (hnext first (hfirst first (congrArg Prod.fst hanswer))).2 after value hreturned
    · cases hreturned
  report _ _ _ := ⟨.throw _, fun _ _ hreturned => nomatch hreturned⟩
  lift {_ result _} hvalue _ := by
    refine ⟨.lift _, fun machine value hreturned => hvalue value ?_⟩
    cases result with
    | ok own => exact congrArg _ (Except.ok.inj hreturned)
    | error failure => cases hreturned
  get hsame hnext := by
    refine ⟨.get hsame fun machine => (hnext machine trivial).1, fun machine value hreturned => ?_⟩
    exact (hnext machine trivial).2 machine value hreturned
  newOrigin := ⟨fun _ _ => rfl, fun _ _ _ => trivial⟩
  restyle _ _ := ⟨fun _ _ => rfl, fun _ _ _ => trivial⟩

theorem takes (args : List Arg) : calculus.Takes args :=
  fun _ _ => trivial

theorem display (value : Value) : Blind (display value) :=
  (calculus.display value trivial).1

theorem expect {what : String} (hwhat : what ∈ argumentRoles) (args : List Arg) :
    Blind (Arg.expect span what args) :=
  (calculus.expect trivial hwhat (takes args)).1

theorem finish (args : List Arg) : Blind (Arg.finish args) :=
  (calculus.finish (takes args)).1

theorem castString (value : Value) : Blind (castString span value) :=
  (calculus.castString trivial).1

theorem setPage (args : List Arg) : Blind (setPage span args) :=
  (calculus.setPage trivial (takes args)).1

theorem setText (args : List Arg) : Blind (setText span args) :=
  (calculus.setText trivial (takes args)).1

theorem applyOperator (operator : Kind) (left right : Value) :
    Blind (applyOperator span operator left right) := by
  have hlift : ∀ result, calculus.Derives (Eval.lift result) calculus.fits :=
    fun _ => calculus.lift (fun _ _ => trivial) fun _ _ => trivial
  exact (calculus.applyOperator trivial (fun _ _ _ => hlift _) fun _ _ _ => hlift _).1

theorem group (node : Node) (items : List Arg) : Blind (Operand.group node items) :=
  (calculus.group trivial (takes items)).1

theorem reads (kind : Kind) (text : String) : calculus.Reads kind text where
  int _ := calculus.lift (fun _ _ => trivial) fun _ _ => trivial
  other _ _ := ⟨.throw _, fun _ _ _ => trivial⟩

theorem evalLeaf (kind : Kind) (text : String) : Blind (evalLeaf kind text span) :=
  (calculus.evalLeaf trivial (reads kind text)).1

/-- Calls are blind, unless they load or print. -/
theorem call {native : Document.Native} (hload : native ≠ .load) (hprint : native ≠ .print)
    (context : Context) (args : List Arg) : Blind (call context native span args) :=
  (calculus.call trivial (takes args) (fun hown => absurd hown hload)
    fun hown => absurd hown hprint).1

end Blind

/-! ## Congruences -/

/-- A relation between the evaluations of two sources that everything but a document keeps. -/
structure Congruence (source source' : Nat) where
  Rel : {α : Type} → Eval α → Eval α → Prop
  blind : ∀ {α : Type} {action : Eval α}, Blind action → Rel action action
  bind : ∀ {α β : Type} {left right : Eval α} {next next' : α → Eval β}, Rel left right →
    (∀ value, Rel (next value) (next' value)) → Rel (left >>= next) (right >>= next')
  print : ∀ args, Rel (Native.print args) (Native.print args)
  attempt : ∀ {left right : Eval Content}, Rel left right →
    Rel (attempt source left) (attempt source' right)
  withStrong : ∀ {α : Type} {left right : Eval α}, Rel left right →
    Rel (withStrong left) (withStrong right)
  withEmph : ∀ {α : Type} {left right : Eval α}, Rel left right →
    Rel (withEmph left) (withEmph right)
  withinBlock : ∀ {α : Type} {left right : Eval α}, Rel left right →
    Rel (withinBlock left) (withinBlock right)

namespace Congruence

variable {source source' : Nat} {rules : Congruence source source'}
  {load load' : Int → String → Eval Content}

/-- Two ways to load documents that are related wherever one is asked for. -/
def Loads (rules : Congruence source source') (load load' : Int → String → Eval Content) : Prop :=
  ∀ span path, rules.Rel (load span path) (load' span path)

/-- What a node comes to in either evaluation is related in every place. -/
structure Holds (rules : Congruence source source') (load load' : Int → String → Eval Content)
    (node : Node) : Prop where
  value : rules.Rel (evalNode ⟨source, load⟩ node).value (evalNode ⟨source', load'⟩ node).value
  argument :
    rules.Rel (evalNode ⟨source, load⟩ node).argument (evalNode ⟨source', load'⟩ node).argument
  arguments :
    rules.Rel (evalNode ⟨source, load⟩ node).arguments (evalNode ⟨source', load'⟩ node).arguments
  content :
    rules.Rel (evalNode ⟨source, load⟩ node).content (evalNode ⟨source', load'⟩ node).content

variable {nodes : List Node}

theorem rel_markupContent (hnodes : ∀ node ∈ nodes, rules.Holds load load' node) :
    rules.Rel (markupContent source (nodes.map (evalNode ⟨source, load⟩)))
      (markupContent source' (nodes.map (evalNode ⟨source', load'⟩))) := by
  induction nodes with
  | nil => exact rules.blind (.pure _)
  | cons node nodes ih =>
    obtain ⟨hnode, hnodes⟩ := List.forall_mem_cons.1 hnodes
    have hshown := rules.bind hnode.value fun value => rules.blind (.display value)
    exact rules.bind (rules.attempt hshown) fun _ =>
      rules.bind (ih hnodes) fun _ => rules.blind (.pure _)

theorem rel_list (hnodes : ∀ node ∈ nodes, rules.Holds load load' node) :
    rules.Rel (Operand.list (nodes.map (evalNode ⟨source, load⟩)))
      (Operand.list (nodes.map (evalNode ⟨source', load'⟩))) := by
  induction nodes with
  | nil => exact rules.blind (.pure _)
  | cons node nodes ih =>
    obtain ⟨hnode, hnodes⟩ := List.forall_mem_cons.1 hnodes
    exact rules.bind hnode.argument fun _ =>
      rules.bind (ih hnodes) fun _ => rules.blind (.pure _)

theorem rel_callItems (hnodes : ∀ node ∈ nodes, rules.Holds load load' node) :
    rules.Rel (Operand.callItems (nodes.map (evalNode ⟨source, load⟩)))
      (Operand.callItems (nodes.map (evalNode ⟨source', load'⟩))) := by
  induction nodes with
  | nil => exact rules.blind (.pure _)
  | cons node nodes ih =>
    obtain ⟨hnode, hnodes⟩ := List.forall_mem_cons.1 hnodes
    have hpart : rules.Rel (evalNode ⟨source, load⟩ node).callPart
        (evalNode ⟨source', load'⟩ node).callPart := by
      rw [Operand.callPart, Operand.callPart, node_evalNode, node_evalNode]
      split
      · exact hnode.arguments
      · exact rules.bind hnode.value fun _ => rules.blind (.pure _)
    exact rules.bind hpart fun _ => rules.bind (ih hnodes) fun _ => rules.blind (.pure _)

theorem rel_load (hload : rules.Loads load load') (span : Int) (args : List Arg) :
    rules.Rel (Native.load ⟨source, load⟩ span args) (Native.load ⟨source', load'⟩ span args) :=
  rules.bind (rules.blind (.expect (by decide) _)) fun _ =>
    rules.bind (rules.blind (.castString _)) fun _ =>
      rules.bind (rules.blind (.finish _)) fun _ =>
        rules.bind (hload span _) fun _ => rules.blind (.pure _)

theorem rel_call (hload : rules.Loads load load') (native : Document.Native) (span : Int)
    (args : List Arg) :
    rules.Rel (call ⟨source, load⟩ native span args) (call ⟨source', load'⟩ native span args) := by
  by_cases hloads : native = .load
  · subst hloads
    exact rel_load hload span args
  · rw [call_eq_of_ne_load hloads ⟨source, load⟩ ⟨source', load'⟩]
    by_cases hprints : native = .print
    · subst hprints
      exact rules.print args
    · exact rules.blind (.call hloads hprints _ args)

variable {node : Node}

theorem rel_evalCall (hload : rules.Loads load load')
    (hchildren : ∀ child ∈ node.children, rules.Holds load load' child) :
    rules.Rel (evalCall ⟨source, load⟩ node (node.children.map (evalNode ⟨source, load⟩)))
      (evalCall ⟨source', load'⟩ node (node.children.map (evalNode ⟨source', load'⟩))) := by
  have hall := of_mem_meaning hchildren
  rw [evalCall, evalCall, meaningful_map, meaningful_map]
  generalize node.children.filter isMeaningful = nodes at hall
  obtain _ | ⟨callee, rest⟩ := nodes
  · exact rules.blind (.throw _)
  · obtain ⟨hfirst, hrest⟩ := List.forall_mem_cons.1 hall
    refine rules.bind hfirst.value fun value => ?_
    split
    · exact rules.bind (rel_callItems hrest) fun args => rel_call hload _ _ args
    · rw [node_evalNode, node_evalNode]
      exact rules.blind (.report _)

theorem rel_evalBinary (hchildren : ∀ child ∈ node.children, rules.Holds load load' child) :
    rules.Rel (evalBinary node (node.children.map (evalNode ⟨source, load⟩)))
      (evalBinary node (node.children.map (evalNode ⟨source', load'⟩))) := by
  have hall := of_mem_meaning hchildren
  rw [evalBinary, evalBinary, meaningful_map, meaningful_map]
  generalize node.children.filter isMeaningful = nodes at hall
  obtain _ | ⟨left, _ | ⟨operator, _ | ⟨right, _ | ⟨other, nodes⟩⟩⟩⟩ := nodes
  case cons.cons.cons.nil =>
    refine rules.bind (hall left (by simp)).value fun leftValue => ?_
    refine rules.bind (hall right (by simp)).value fun rightValue => ?_
    rw [node_evalNode, node_evalNode]
    exact rules.blind (.applyOperator _ _ _)
  case nil => exact rules.blind (.throw _)
  case cons.nil => exact rules.blind (.throw _)
  case cons.cons.nil => exact rules.blind (.throw _)
  case cons.cons.cons.cons =>
    simp only [List.map_cons, List.length_cons, List.length_map]
    exact rules.blind (.throw _)

theorem rel_evalLet (hchildren : ∀ child ∈ node.children, rules.Holds load load' child) :
    rules.Rel (evalLet (node.children.map (evalNode ⟨source, load⟩)))
      (evalLet (node.children.map (evalNode ⟨source', load'⟩))) := by
  have hall := of_mem_meaning hchildren
  rw [evalLet, evalLet, meaningful_map, meaningful_map]
  generalize node.children.filter isMeaningful = nodes at hall
  obtain _ | ⟨word, _ | ⟨name, rest⟩⟩ := nodes
  · exact rules.blind (.throw _)
  · exact rules.blind (.throw _)
  · have hbound : rules.Rel (boundValue (rest.map (evalNode ⟨source, load⟩)))
        (boundValue (rest.map (evalNode ⟨source', load'⟩))) := by
      obtain _ | ⟨equals, _ | ⟨expression, rest⟩⟩ := rest
      · exact rules.blind (.pure _)
      · exact rules.blind (.pure _)
      · exact (hall expression (by simp)).value
    refine rules.bind hbound fun value => ?_
    rw [node_evalNode, node_evalNode]
    exact rules.blind (.bindName _ _)

theorem rel_evalSet (hchildren : ∀ child ∈ node.children, rules.Holds load load' child) :
    rules.Rel (evalSet node (node.children.map (evalNode ⟨source, load⟩)))
      (evalSet node (node.children.map (evalNode ⟨source', load'⟩))) := by
  have hall := of_mem_meaning hchildren
  rw [evalSet, evalSet, meaningful_map, meaningful_map]
  generalize node.children.filter isMeaningful = nodes at hall
  obtain _ | ⟨word, _ | ⟨target, _ | ⟨arguments, _ | ⟨other, nodes⟩⟩⟩⟩ := nodes
  case cons.cons.cons.nil =>
    refine rules.bind (hall arguments (by simp)).arguments fun args => ?_
    rw [node_evalNode, node_evalNode]
    split
    · exact rules.blind (.setPage _)
    · split
      · exact rules.blind (.setText _)
      · exact rules.blind (.report _)
  case nil => exact rules.blind (.throw _)
  case cons.nil => exact rules.blind (.throw _)
  case cons.cons.nil => exact rules.blind (.throw _)
  case cons.cons.cons.cons =>
    simp only [List.map_cons, List.length_cons, List.length_map]
    exact rules.blind (.throw _)

theorem rel_between (hchildren : ∀ child ∈ node.children, rules.Holds load load' child) :
    rules.Rel
      (markupContent source (between (node.children.map (evalNode ⟨source, load⟩))))
      (markupContent source' (between (node.children.map (evalNode ⟨source', load'⟩)))) := by
  rw [between, between, ← List.map_drop, ← List.map_drop, ← List.map_dropLast, ← List.map_dropLast]
  exact rel_markupContent fun child hchild =>
    hchildren child (List.mem_of_mem_drop (List.dropLast_subset _ hchild))

theorem rel_evalInner (hload : rules.Loads load load')
    (hchildren : ∀ child ∈ node.children, rules.Holds load load' child) :
    rules.Rel (evalInner ⟨source, load⟩ node (node.children.map (evalNode ⟨source, load⟩)))
      (evalInner ⟨source', load'⟩ node (node.children.map (evalNode ⟨source', load'⟩))) := by
  unfold evalInner
  split
  case h_1 => exact rules.bind (rel_markupContent hchildren) fun _ => rules.blind (.pure _)
  case h_2 =>
    exact rules.bind (rules.withStrong (rel_between hchildren)) fun _ => rules.blind (.pure _)
  case h_3 =>
    exact rules.bind (rules.withEmph (rel_between hchildren)) fun _ => rules.blind (.pure _)
  case h_4 =>
    generalize node.children = nodes at hchildren
    obtain _ | ⟨first, _ | ⟨body, rest⟩⟩ := nodes
    · exact rules.blind (.throw _)
    · exact rules.blind (.throw _)
    · exact rules.bind (rules.withinBlock (hchildren body (by simp)).content) fun _ =>
        rules.blind (.pure _)
  case h_5 =>
    have hall := of_mem_meaning hchildren
    rw [meaningful_map, meaningful_map]
    generalize node.children.filter isMeaningful = nodes at hall
    obtain _ | ⟨code, rest⟩ := nodes
    · exact rules.blind (.throw _)
    · exact (hall code (by simp)).value
  case h_6 =>
    rw [meaningful_map, meaningful_map]
    exact rules.bind (rel_list (of_mem_meaning hchildren)) fun items => rules.blind (.group _ _)
  case h_7 => exact rel_evalCall hload hchildren
  case h_8 => exact rel_evalBinary hchildren
  case h_9 => exact rel_evalLet hchildren
  case h_10 => exact rel_evalSet hchildren
  case h_11 => exact rules.blind (.evalLeaf _ _)

theorem rel_evalArgument {value value' : Eval Value} (hvalue : rules.Rel value value')
    (hchildren : ∀ child ∈ node.children, rules.Holds load load' child) :
    rules.Rel (evalArgument node (node.children.map (evalNode ⟨source, load⟩)) value)
      (evalArgument node (node.children.map (evalNode ⟨source', load'⟩)) value') := by
  have hall := of_mem_meaning hchildren
  rw [evalArgument, evalArgument]
  split
  · rw [meaningful_map, meaningful_map]
    generalize node.children.filter isMeaningful = nodes at hall
    obtain _ | ⟨name, _ | ⟨expression, _ | ⟨other, nodes⟩⟩⟩ := nodes
    case cons.cons.nil =>
      refine rules.bind (hall expression (by simp)).value fun value => ?_
      rw [node_evalNode, node_evalNode, node_evalNode, node_evalNode]
      exact rules.blind (.pure _)
    case nil => exact rules.blind (.throw _)
    case cons.nil => exact rules.blind (.throw _)
    case cons.cons.cons =>
      simp only [List.map_cons, List.length_cons, List.length_map]
      exact rules.blind (.throw _)
  · exact rules.bind hvalue fun _ => rules.blind (.pure _)

/-- What is related of the documents that are asked for is related of the tree that asks. -/
theorem Holds.of_loads (hload : rules.Loads load load') (node : Node) :
    rules.Holds load load' node := by
  induction node using Node.induction with
  | step node ih =>
    have hvalue := rel_evalInner hload ih
    constructor <;> rw [evalNode_eq, evalNode_eq]
    · exact hvalue
    · exact rel_evalArgument hvalue ih
    · show rules.Rel (Operand.list _) (Operand.list _)
      rw [meaningful_map, meaningful_map]
      exact rel_list (of_mem_meaning ih)
    · exact rel_markupContent ih

end Congruence

end Galley.Compile
