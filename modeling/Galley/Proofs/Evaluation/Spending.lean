import Mathlib.Algebra.Order.BigOperators.Group.List
import Galley.Proofs.Evaluation.Budget
import Galley.Proofs.Evaluation.Tree

/-!
# What trees spend

Each node of a tree is evaluated once at most, so its numbers have at most as many digits as all
its integers together, and one more for each operator.
-/

namespace Galley.Syntax

namespace Node

/-- The digits that a node adds to the numbers of a tree: those that it is written with, and one
for an operation. -/
def ownDigits (node : Node) : Nat :=
  if node.kind = .int then node.text.toList.length else if node.kind = .binary then 1 else 0

/-- How many digits the numbers of a tree can come to. -/
def digits (node : Node) : Nat :=
  (node.preorder.map ownDigits).sum

def digitsOf (nodes : List Node) : Nat :=
  (nodes.map digits).sum

@[simp]
theorem digitsOf_nil : digitsOf [] = 0 := rfl

@[simp]
theorem digitsOf_cons (node : Node) (nodes : List Node) :
    digitsOf (node :: nodes) = node.digits + digitsOf nodes := by
  rw [digitsOf, digitsOf, List.map_cons, List.sum_cons]

theorem digits_eq (node : Node) : node.digits = node.ownDigits + digitsOf node.children := by
  have hbelow : ∀ nodes : List Node, ((preorderOf nodes).map ownDigits).sum = digitsOf nodes := by
    intro nodes
    induction nodes with
    | nil => rfl
    | cons node nodes ih =>
      rw [preorderOf, List.map_append, List.sum_append, ih, digitsOf_cons, digits]
  rw [digits, preorder_eq, List.map_cons, List.sum_cons, hbelow]

theorem digitsOf_le {nodes nodes' : List Node} (hnodes : nodes.Sublist nodes') :
    digitsOf nodes ≤ digitsOf nodes' :=
  (hnodes.map digits).sum_le_sum fun _ _ => Nat.zero_le _

theorem digitsOf_le_digits (node : Node) : digitsOf node.children ≤ node.digits := by
  rw [digits_eq]
  exact Nat.le_add_left _ _

end Node

end Galley.Syntax

namespace Galley.Compile

open Syntax Document Eval

/-- Whatever a node comes to is within its means. -/
structure Affords (allowance : Allowance) (source : Nat) (load : Int → String → Eval Content)
    (node : Node) : Prop where
  value : ∀ {before after}, before + node.digits ≤ after → after ≤ allowance.limit →
    Spends allowance before after (evalNode ⟨source, load⟩ node).value (Value.Within after)
  argument : ∀ {before after}, before + node.digits ≤ after → after ≤ allowance.limit →
    Spends allowance before after (evalNode ⟨source, load⟩ node).argument
      fun arg => arg.value.Within after
  arguments : ∀ {before after}, before + node.digits ≤ after → after ≤ allowance.limit →
    Spends allowance before after (evalNode ⟨source, load⟩ node).arguments
      fun args => ∀ arg ∈ args, arg.value.Within after
  content : ∀ {before after}, before + node.digits ≤ after → after ≤ allowance.limit →
    Spends allowance before after (evalNode ⟨source, load⟩ node).content fun _ => True

variable {allowance : Allowance} {source : Nat} {load : Int → String → Eval Content}
  {before after : Nat} {nodes : List Node}

/-! ## Lists of operands -/

theorem spends_markupContent (hnodes : ∀ node ∈ nodes, Affords allowance source load node)
    (hle : before + Node.digitsOf nodes ≤ after) (hlimit : after ≤ allowance.limit) :
    Spends allowance before after
      (markupContent source (nodes.map (evalNode ⟨source, load⟩))) fun _ => True := by
  induction nodes generalizing before with
  | nil => exact .later .done hle
  | cons node nodes ih =>
    obtain ⟨hnode, hnodes⟩ := List.forall_mem_cons.1 hnodes
    rw [Node.digitsOf_cons] at hle
    have hshown := (hnode.value (Nat.le_refl (before + node.digits)) (by omega)).first
      fun value hvalue => (allowance.calculus (by omega)).display value hvalue
    exact hshown.attempt.bind (fun _ _ => .first (ih hnodes (by omega)) fun _ _ => .done) (by omega)

theorem spends_list (hnodes : ∀ node ∈ nodes, Affords allowance source load node)
    (hle : before + Node.digitsOf nodes ≤ after) (hlimit : after ≤ allowance.limit) :
    Spends allowance before after (Operand.list (nodes.map (evalNode ⟨source, load⟩)))
      fun args => ∀ arg ∈ args, arg.value.Within after := by
  induction nodes generalizing before with
  | nil => exact .later (.pure (List.forall_mem_nil _)) hle
  | cons node nodes ih =>
    obtain ⟨hnode, hnodes⟩ := List.forall_mem_cons.1 hnodes
    rw [Node.digitsOf_cons] at hle
    refine (hnode.argument (Nat.le_refl (before + node.digits)) (by omega)).bind
      (fun arg harg => .first (ih hnodes (by omega)) fun args hargs => .pure ?_) (by omega)
    exact List.forall_mem_cons.2 ⟨harg.mono (by omega), hargs⟩

theorem spends_callItems (hnodes : ∀ node ∈ nodes, Affords allowance source load node)
    (hle : before + Node.digitsOf nodes ≤ after) (hlimit : after ≤ allowance.limit) :
    Spends allowance before after (Operand.callItems (nodes.map (evalNode ⟨source, load⟩)))
      fun args => ∀ arg ∈ args, arg.value.Within after := by
  induction nodes generalizing before with
  | nil => exact .later (.pure (List.forall_mem_nil _)) hle
  | cons node nodes ih =>
    obtain ⟨hnode, hnodes⟩ := List.forall_mem_cons.1 hnodes
    rw [Node.digitsOf_cons] at hle
    have hpart : Spends allowance before (before + node.digits)
        (evalNode ⟨source, load⟩ node).callPart
        fun args => ∀ arg ∈ args, arg.value.Within (before + node.digits) := by
      rw [Operand.callPart]
      split
      · exact hnode.arguments (Nat.le_refl _) (by omega)
      · refine (hnode.value (Nat.le_refl _) (by omega)).first fun value hvalue => .pure ?_
        exact List.forall_mem_singleton.2 hvalue
    refine hpart.bind (fun part hpart => .first (ih hnodes (by omega)) fun args hargs => .pure ?_)
      (by omega)
    exact List.forall_mem_append.2 ⟨fun arg harg => (hpart arg harg).mono (by omega), hargs⟩

/-! ## Kinds of nodes -/

variable {node : Node}

/-- An integer has no more digits than its text has characters. -/
theorem Allowance.reads {spent : Nat} {kind : Kind} {text : String}
    (hlimit : spent ≤ allowance.limit) (hint : kind = .int → text.toList.length ≤ spent) :
    (allowance.calculus hlimit).Reads kind text where
  digits _ _ _ _ _ _ := allowance.structural trivial
  known _ _ hknown := .of_mem_globals hknown
  int hkind := by
    have hlength := hint hkind
    obtain ⟨literal, hcause⟩ | ⟨count, hlong, hcount, hcause⟩ | ⟨value, hvalue, hread⟩ :=
      Number.readInteger_cases text.toList
    · rw [hcause]
      exact .fail fun world _ => allowance.structural trivial
    · rw [hcause]
      exact .fail fun world hworld => allowance.unreadable hworld hlong (by omega)
    · rw [hread]
      exact .pure (.of_int (hvalue.trans_le (Value.tenPow_le_tenPow hlength)))
  float _ _ _ _ _ := allowance.structural trivial
  numeric _ _ _ _ _ := allowance.structural trivial
  other _ _ := .report

theorem spends_evalLeaf {kind : Kind} {text : String} {span : Int} {own : Nat}
    (hown : kind = .int → text.toList.length ≤ own) (hle : before + own ≤ after)
    (hlimit : after ≤ allowance.limit) :
    Spends allowance before after (evalLeaf kind text span) (Value.Within after) := by
  refine .later ((allowance.calculus hlimit).evalLeaf trivial ?_) (Nat.le_of_add_right_le hle)
  exact allowance.reads hlimit fun hint => (hown hint).trans (by omega)

/-- The children of a node that carry meaning, with what they may spend. -/
theorem affords_meaning (hchildren : ∀ child ∈ node.children, Affords allowance source load child)
    (hle : before + Node.digitsOf node.children ≤ after) :
    (∀ child ∈ node.children.filter isMeaningful, Affords allowance source load child) ∧
      before + Node.digitsOf (node.children.filter isMeaningful) ≤ after :=
  ⟨of_mem_meaning hchildren,
    (Nat.add_le_add_left (Node.digitsOf_le List.filter_sublist) _).trans hle⟩

theorem spends_between (hchildren : ∀ child ∈ node.children, Affords allowance source load child)
    (hle : before + Node.digitsOf node.children ≤ after) (hlimit : after ≤ allowance.limit) :
    Spends allowance before after
      (markupContent source (between (node.children.map (evalNode ⟨source, load⟩))))
      fun _ => True := by
  have hinside : (node.children.drop 1).dropLast.Sublist node.children :=
    (List.dropLast_sublist _).trans (List.drop_sublist _ _)
  rw [between, ← List.map_drop, ← List.map_dropLast]
  exact spends_markupContent (fun child hchild => hchildren child (hinside.subset hchild))
    ((Nat.add_le_add_left (Node.digitsOf_le hinside) _).trans hle) hlimit

theorem spends_evalCall (hload : allowance.Loads load)
    (hchildren : ∀ child ∈ node.children, Affords allowance source load child)
    (hle : before + Node.digitsOf node.children ≤ after) (hlimit : after ≤ allowance.limit) :
    Spends allowance before after
      (evalCall ⟨source, load⟩ node (node.children.map (evalNode ⟨source, load⟩)))
      (Value.Within after) := by
  obtain ⟨hall, hle⟩ := affords_meaning hchildren hle
  rw [evalCall, meaningful_map]
  generalize node.children.filter isMeaningful = nodes at hall hle
  obtain _ | ⟨callee, rest⟩ := nodes
  · exact .later .defect hle
  · obtain ⟨hfirst, hrest⟩ := List.forall_mem_cons.1 hall
    rw [Node.digitsOf_cons] at hle
    refine (hfirst.value (Nat.le_refl (before + callee.digits)) (by omega)).bind
      (fun value _ => ?_) (by omega)
    split
    · exact .first (spends_callItems hrest (by omega) hlimit) fun args hargs =>
        spends_call hload _ hargs hlimit
    · exact .later .report (by omega)

theorem spends_evalBinary
    (hchildren : ∀ child ∈ node.children, Affords allowance source load child)
    (hle : before + Node.digitsOf node.children + 1 ≤ after) (hlimit : after ≤ allowance.limit) :
    Spends allowance before after
      (evalBinary node (node.children.map (evalNode ⟨source, load⟩))) (Value.Within after) := by
  obtain ⟨hall, hle⟩ := affords_meaning hchildren (Nat.le_sub_of_add_le hle)
  have hpositive : 1 ≤ after := by omega
  rw [evalBinary, meaningful_map]
  generalize node.children.filter isMeaningful = nodes at hall hle
  obtain _ | ⟨left, _ | ⟨operator, _ | ⟨right, _ | ⟨other, nodes⟩⟩⟩⟩ := nodes
  case cons.cons.cons.nil =>
    simp only [Node.digitsOf_cons, Node.digitsOf_nil] at hle
    refine ((hall left (by simp)).value (Nat.le_refl (before + left.digits)) (by omega)).bind
      (fun leftValue hleft => ?_) (by omega)
    refine ((hall right (by simp)).value (Nat.le_refl (before + left.digits + right.digits))
      (by omega)).bind (fun rightValue hright => ?_) (by omega)
    refine (spends_applyOperator _ (hleft.mono (by omega)) hright (by omega)).mono (by omega) ?_
    exact fun value hvalue => hvalue.mono (by omega)
  case nil => exact .later .defect (by omega)
  case cons.nil => exact .later .defect (by omega)
  case cons.cons.nil => exact .later .defect (by omega)
  case cons.cons.cons.cons => exact .later .defect (by omega)

theorem spends_evalLet (hchildren : ∀ child ∈ node.children, Affords allowance source load child)
    (hle : before + Node.digitsOf node.children ≤ after) (hlimit : after ≤ allowance.limit) :
    Spends allowance before after
      (evalLet (node.children.map (evalNode ⟨source, load⟩))) (Value.Within after) := by
  obtain ⟨hall, hle⟩ := affords_meaning hchildren hle
  rw [evalLet, meaningful_map]
  generalize node.children.filter isMeaningful = nodes at hall hle
  obtain _ | ⟨word, _ | ⟨name, rest⟩⟩ := nodes
  · exact .later .defect (by omega)
  · exact .later .defect (by omega)
  · have hbound : Spends allowance before after
        (boundValue (rest.map (evalNode ⟨source, load⟩))) (Value.Within after) := by
      obtain _ | ⟨equals, _ | ⟨expression, rest⟩⟩ := rest
      · exact .later (spends_plain rfl) (by omega)
      · exact .later (spends_plain rfl) (by omega)
      · simp only [Node.digitsOf_cons] at hle
        exact (hall expression (by simp)).value (by omega) hlimit
    exact .first hbound fun value hvalue => spends_bind _ hvalue

theorem spends_evalSet (hchildren : ∀ child ∈ node.children, Affords allowance source load child)
    (hle : before + Node.digitsOf node.children ≤ after) (hlimit : after ≤ allowance.limit) :
    Spends allowance before after
      (evalSet node (node.children.map (evalNode ⟨source, load⟩))) (Value.Within after) := by
  obtain ⟨hall, hle⟩ := affords_meaning hchildren hle
  rw [evalSet, meaningful_map]
  generalize node.children.filter isMeaningful = nodes at hall hle
  obtain _ | ⟨word, _ | ⟨target, _ | ⟨arguments, _ | ⟨other, nodes⟩⟩⟩⟩ := nodes
  case cons.cons.cons.nil =>
    simp only [Node.digitsOf_cons] at hle
    refine .first ((hall arguments (by simp)).arguments (by omega) hlimit) fun args hargs => ?_
    split
    · exact (allowance.calculus hlimit).setPage trivial hargs
    · split
      · exact (allowance.calculus hlimit).setText trivial hargs
      · exact .report
  case nil => exact .later .defect (by omega)
  case cons.nil => exact .later .defect (by omega)
  case cons.cons.nil => exact .later .defect (by omega)
  case cons.cons.cons.cons => exact .later .defect (by omega)

theorem spends_evalInner (hload : allowance.Loads load)
    (hchildren : ∀ child ∈ node.children, Affords allowance source load child)
    (hle : before + node.digits ≤ after) (hlimit : after ≤ allowance.limit) :
    Spends allowance before after
      (evalInner ⟨source, load⟩ node (node.children.map (evalNode ⟨source, load⟩)))
      (Value.Within after) := by
  have hbelow : before + Node.digitsOf node.children ≤ after :=
    (Nat.add_le_add_left (Node.digitsOf_le_digits node) _).trans hle
  rw [Node.digits_eq] at hle
  unfold evalInner
  split
  case h_1 =>
    exact .first (spends_markupContent hchildren hbelow hlimit) fun _ _ => spends_plain rfl
  case h_2 =>
    exact .first (spends_between hchildren hbelow hlimit).withStrong fun _ _ => spends_plain rfl
  case h_3 =>
    exact .first (spends_between hchildren hbelow hlimit).withEmph fun _ _ => spends_plain rfl
  case h_4 =>
    generalize node.children = nodes at hchildren hbelow
    obtain _ | ⟨first, _ | ⟨body, rest⟩⟩ := nodes
    · exact .later .defect (by omega)
    · exact .later .defect (by omega)
    · simp only [Node.digitsOf_cons] at hbelow
      have hbody : Spends allowance before after (evalNode ⟨source, load⟩ body).content
          fun _ => True :=
        (hchildren body (by simp)).content (by omega) hlimit
      exact .first hbody.withinBlock fun _ _ => spends_plain rfl
  case h_5 =>
    obtain ⟨hall, hbelow⟩ := affords_meaning hchildren hbelow
    rw [meaningful_map]
    generalize node.children.filter isMeaningful = nodes at hall hbelow
    obtain _ | ⟨code, rest⟩ := nodes
    · exact .later .defect (by omega)
    · rw [Node.digitsOf_cons] at hbelow
      exact (hall code (by simp)).value (by omega) hlimit
  case h_6 =>
    obtain ⟨hall, hbelow⟩ := affords_meaning hchildren hbelow
    rw [meaningful_map]
    exact .first (spends_list hall hbelow hlimit) fun items hitems =>
      (allowance.calculus hlimit).group trivial hitems
  case h_7 => exact spends_evalCall hload hchildren hbelow hlimit
  case h_8 hbinary =>
    have hown : node.ownDigits = 1 := by simp [Node.ownDigits, hbinary]
    exact spends_evalBinary hchildren (by omega) hlimit
  case h_9 => exact spends_evalLet hchildren hbelow hlimit
  case h_10 => exact spends_evalSet hchildren hbelow hlimit
  case h_11 =>
    refine spends_evalLeaf (fun hint => ?_) (Nat.le_of_add_right_le (Nat.add_assoc .. ▸ hle)) hlimit
    rw [Node.ownDigits, if_pos hint]

theorem spends_evalArgument {value : Eval Value}
    (hvalue : Spends allowance before after value (Value.Within after))
    (hchildren : ∀ child ∈ node.children, Affords allowance source load child)
    (hle : before + Node.digitsOf node.children ≤ after) (hlimit : after ≤ allowance.limit) :
    Spends allowance before after
      (evalArgument node (node.children.map (evalNode ⟨source, load⟩)) value)
      fun arg => arg.value.Within after := by
  obtain ⟨hall, hle⟩ := affords_meaning hchildren hle
  rw [evalArgument]
  split
  · rw [meaningful_map]
    generalize node.children.filter isMeaningful = nodes at hall hle
    obtain _ | ⟨name, _ | ⟨expression, _ | ⟨other, nodes⟩⟩⟩ := nodes
    case cons.cons.nil =>
      simp only [Node.digitsOf_cons] at hle
      exact .first ((hall expression (by simp)).value (by omega) hlimit) fun value hvalue =>
        .pure hvalue
    case nil => exact .later .defect (by omega)
    case cons.nil => exact .later .defect (by omega)
    case cons.cons.cons => exact .later .defect (by omega)
  · exact .first hvalue fun value hvalue => .pure hvalue

/-- A tree spends what it has, as long as the documents that it asks for spend nothing. -/
theorem Affords.of_loads (hload : allowance.Loads load) (node : Node) :
    Affords allowance source load node := by
  induction node using Node.induction with
  | step node ih =>
    have hbelow : ∀ {before after}, before + node.digits ≤ after →
        before + Node.digitsOf node.children ≤ after := fun hle =>
      (Nat.add_le_add_left (Node.digitsOf_le_digits node) _).trans hle
    constructor <;> intro before after hle hlimit <;> rw [evalNode_eq]
    · exact spends_evalInner hload ih hle hlimit
    · exact spends_evalArgument (spends_evalInner hload ih hle hlimit) ih (hbelow hle) hlimit
    · obtain ⟨hall, hle⟩ := affords_meaning ih (hbelow hle)
      show Spends allowance before after (Operand.list _) _
      rw [meaningful_map]
      exact spends_list hall hle hlimit
    · exact spends_markupContent ih (hbelow hle) hlimit

end Galley.Compile
