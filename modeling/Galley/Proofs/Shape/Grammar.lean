import Galley.Proofs.Shape.Rules

/-!
# The grammar builds nodes that have their shape

Every rule of the grammar builds proper nodes from proper nodes.  Only what is
built is looked at here; what is consumed was shown where all steps answer.
-/

namespace Galley.Syntax

open Compile (isMeaningful)
open Galley.Text Node Token

/-! ## Parts of nodes -/

@[simp]
theorem isMeaningful_leaf (kind : Kind) (chars : List Char) :
    isMeaningful (leaf kind chars) = (!kind.isTrivia && !kind.isPunctuation) := rfl

theorem isMeaningful_of_kind {node : Node} {kind : Kind} (hkind : node.kind = kind) :
    isMeaningful node = (!kind.isTrivia && !kind.isPunctuation) := by
  rw [isMeaningful, hkind]

/-- Trivia between two nodes is not among those that carry meaning. -/
theorem meaning_of_trivia {nodes : List Node} (hnodes : ∀ node ∈ nodes, Proper (·.isTrivia) node)
    (hclean : ∀ node ∈ nodes, node.errors = []) : nodes.filter isMeaningful = [] := by
  rw [List.filter_eq_nil_iff]
  intro node hnode
  rw [Kind.isMeaningful_of_isTrivia ((hnodes node hnode).kind_of_clean (hclean node hnode))]
  exact Bool.false_ne_true

theorem Proper.of_last_error {kinds : Kind → Prop} (kind : Kind) (front : List Node)
    (chars : List Char) (message : String) :
    Proper kinds (inner kind (front ++ [Node.error chars message])) := by
  intro herrors
  have herror := (errors_eq_nil_iff.1 herrors).2 (Node.error chars message)
    (List.mem_append_right _ (List.mem_singleton_self _))
  cases herror

theorem proper_closing (kind : Kind) (delimiter : Char) (message : String) (chars : List Char)
    (hshape : ∀ chars, Shaped (leaf kind chars)) :
    Proper (· = kind) (Grammar.closing kind delimiter message chars).1 := by
  unfold Grammar.closing
  split
  · exact .error _ _
  · split
    · exact .leaf rfl (hshape _)
    · exact .error _ _

theorem proper_attachHash_of_leaf {node : Node} (hnode : Proper (·.isValue) node)
    (hchildren : node.children = []) : Proper (·.isMarkup) (Grammar.attachHash node) := by
  rw [Grammar.attachHash, hchildren]
  show Proper _ (inner .embedded [leaf .hash ['#'], node])
  refine .of_children rfl ?_ ?_
  · simpa using ⟨.leaf trivial ⟨rfl, trivial⟩, hnode.any⟩
  · intro hclean
    have hvalue := hnode.kind_of_clean (hclean node (by simp))
    refine ⟨node.kind, ?_, hvalue⟩
    simp [meaning, Kind.isPunctuation, Kind.isMeaningful_of_isValue hvalue]

/-- Kinds in front of whose children a hash may stand. -/
def Kind.TakesHash (kind : Kind) : Prop :=
  kind = funcCall ∨ kind = setRule ∨ kind = letBinding

/-- The hash is punctuation, so it does not change what the children mean. -/
theorem proper_attachHash_of_inner {node : Node} (hnode : Proper Kind.TakesHash node)
    (hchildren : node.children ≠ []) : Proper (·.isMarkup) (Grammar.attachHash node) := by
  rw [Grammar.attachHash, if_neg (by simpa using hchildren)]
  -- The node with the hash has errors exactly where the node without it has some.
  intro herrors
  obtain ⟨hkind, hclean⟩ := errors_eq_nil_iff.1 herrors
  have hinner : ∀ child ∈ node.children, child.errors = [] :=
    fun child hchild => hclean child (List.mem_cons_of_mem _ hchild)
  obtain ⟨htakes, hall⟩ := hnode (errors_eq_nil_iff.2 ⟨hkind, hinner⟩)
  obtain ⟨hshape, hall⟩ := everywhere_iff.1 hall
  have hhash : (leaf .hash ['#']).Everywhere Shaped :=
    everywhere_iff.2 ⟨⟨rfl, trivial⟩, by simp [leaf]⟩
  refine ⟨?_, everywhere_iff.2 ⟨?_, by simpa using ⟨hhash, hall⟩⟩⟩
  · obtain hcall | hset | hlet := htakes <;> simp_all [Kind.isMarkup]
  · obtain hcall | hset | hlet := htakes <;>
      simp_all [Shaped, Kind.Shape, meaning, Kind.isPunctuation]

theorem proper_call {node part : Node} (hnode : Proper (·.isValue) node)
    (hpart : Proper (fun kind => kind = .args ∨ kind = .contentBlock) part) :
    Proper (·.isValue) (inner .funcCall [node, part]) := by
  refine .of_children rfl ?_ fun hclean => ?_
  · simpa using ⟨hnode.any, hpart.any⟩
  · have hvalue := hnode.kind_of_clean (hclean node (by simp))
    have hkind := hpart.kind_of_clean (hclean part (by simp))
    have hmeans : isMeaningful part = true := by
      obtain hkind | hkind := hkind <;> exact isMeaningful_of_kind hkind
    refine ⟨node.kind, [part.kind], ?_, hvalue, by simpa using hkind⟩
    simp [meaning, Kind.isMeaningful_of_isValue hvalue, hmeans]

theorem proper_applyBlock {node block : Node} (hnode : Proper (·.isValue) node)
    (hblock : Proper (· = .contentBlock) block) :
    Proper (·.isValue) (Grammar.applyBlock node block) := by
  rw [Grammar.applyBlock]
  split
  · rename_i hcall
    intro herrors
    obtain ⟨hkind, hclean⟩ := errors_eq_nil_iff.1 herrors
    have hinner : ∀ child ∈ node.children, child.errors = [] :=
      fun child hchild => hclean child (List.mem_append_left _ hchild)
    obtain ⟨hvalue, hall⟩ := hnode (errors_eq_nil_iff.2 ⟨hkind, hinner⟩)
    obtain ⟨hshape, hall⟩ := everywhere_iff.1 hall
    obtain ⟨hlast, hinside⟩ := hblock (hclean block (by simp))
    have hmeans : isMeaningful block = true := isMeaningful_of_kind hlast
    refine ⟨hvalue, everywhere_iff.2 ⟨?_, ?_⟩⟩
    · simp only [Shaped, hcall, Kind.Shape] at hshape ⊢
      obtain ⟨callee, parts, hmeaning, hcallee, hparts⟩ := hshape
      refine ⟨callee, parts ++ [.contentBlock], ?_, hcallee, ?_⟩
      · rw [meaning] at hmeaning ⊢
        simp [hmeaning, hmeans, hlast]
      · simpa [or_imp, forall_and] using hparts
    · simpa [or_imp, forall_and] using ⟨hall, hinside⟩
  · exact proper_call hnode (hblock.mono fun _ => .inr)

/-- An item of an argument list, the trivia behind it and the items behind that. -/
theorem items_cons {first : Node} {gap items : List Node} (hfirst : Proper (·.isItem) first)
    (hgap : ∀ node ∈ gap, Proper (·.isTrivia) node)
    (hitems : ∀ node ∈ items, Proper (·.isItem) node) :
    ∀ node ∈ first :: gap ++ items, Proper (·.isItem) node := by
  intro node hnode
  obtain rfl | hnode | hnode : node = first ∨ node ∈ gap ∨ node ∈ items := by simpa using hnode
  · exact hfirst
  · refine (hgap node hnode).mono fun kind hkind => ?_
    rw [Kind.isItem, hkind, Bool.or_true]
    rfl
  · exact hitems node hnode

/-! ## What the rules build -/

theorem MarkupToken.proper {chars : List Char} {token : Step} (htoken : MarkupToken chars token) :
    Proper (·.isMarkup) token.1 := by
  cases htoken with
  | blank => exact proper_blank _
  | lineComment => exact (proper_lineComment _).mono (by rintro _ rfl; rfl)
  | blockComment => exact (proper_blockComment _).mono (by rintro _ rfl; rfl)
  | escape => exact proper_escape _
  | raw => exact proper_raw _
  | math => exact proper_math _
  | hash | bracket => exact .error _ _
  | text => exact proper_text _ _

theorem AtomToken.proper {chars : List Char} {token : Step} (htoken : AtomToken chars token) :
    Proper (·.isValue) token.1 := by
  cases htoken with
  | number hstarts => exact proper_number hstarts
  | string => exact proper_string _
  | missing | unexpected => exact .error _ _

theorem Delimits.shaped_marker {kind marker : Kind} {delimiter : Char}
    (hdelimits : Delimits kind marker delimiter) (chars : List Char) :
    Shaped (leaf marker chars) := by
  cases hdelimits <;> exact ⟨rfl, trivial⟩

theorem proper_delimited {kind marker : Kind} {delimiter : Char} {nodes : List Node}
    (hdelimits : Delimits kind marker delimiter)
    (hnodes : ∀ node ∈ nodes, Proper (·.isMarkup) node) (message : String) (chars : List Char) :
    Proper (·.isMarkup) (inner kind (leaf marker [delimiter] :: nodes ++
      [(Grammar.closing marker delimiter message chars).1])) := by
  have hopen : Proper (fun _ => True) (leaf marker [delimiter]) :=
    .leaf trivial (hdelimits.shaped_marker _)
  have hclose := proper_closing marker delimiter message chars hdelimits.shaped_marker
  generalize (Grammar.closing marker delimiter message chars).1 = close at hclose ⊢
  refine .of_children ?_ ?_ fun hclean => ?_
  · cases hdelimits <;> rfl
  · simpa [or_imp, forall_and] using ⟨hopen, Proper.all_any hnodes, hclose.any⟩
  · have hlast : close.kind = marker := hclose.kind_of_clean (hclean _ (by simp))
    have hinside : ∀ kind ∈ nodes.map Node.kind, kind.isMarkup = true :=
      List.forall_mem_map.2 fun node hnode =>
        (hnodes node hnode).kind_of_clean (hclean node (by simp [hnode]))
    cases hdelimits <;> exact ⟨nodes.map Node.kind, by simp [hlast], hinside⟩

theorem proper_contentBlock {nodes : List Node} (hnodes : ∀ node ∈ nodes, Proper (·.isMarkup) node)
    (message : String) (chars : List Char) :
    Proper (· = .contentBlock) (inner .contentBlock [leaf .leftBracket ['['], inner .markup nodes,
      (Grammar.closing .rightBracket ']' message chars).1]) := by
  have hopen : Proper (fun _ => True) (leaf .leftBracket ['[']) := .leaf trivial ⟨rfl, trivial⟩
  have hbody : Proper (· = .markup) (inner .markup nodes) := by
    refine .of_children rfl (Proper.all_any hnodes) fun hclean => ?_
    exact List.forall_mem_map.2 fun node hnode =>
      (hnodes node hnode).kind_of_clean (hclean node hnode)
  have hclose := proper_closing .rightBracket ']' message chars fun _ => ⟨rfl, trivial⟩
  generalize (Grammar.closing .rightBracket ']' message chars).1 = close at hclose ⊢
  refine .of_children rfl ?_ fun hclean => ?_
  · simpa using ⟨hopen, hbody.any, hclose.any⟩
  · have hlast := hclose.kind_of_clean (hclean close (by simp))
    simp [Shaped, Kind.Shape, hlast]

theorem proper_keyword {kind word : Kind} {keyword : List Char}
    (hkeyword : Introduces kind word keyword) (chars : List Char) :
    ∀ node ∈ leaf word keyword :: (spaces chars).1, Proper (fun _ => True) node := by
  refine List.forall_mem_cons.2 ⟨.leaf trivial ?_, Proper.all_any (proper_spaces chars)⟩
  cases hkeyword <;> exact ⟨rfl, trivial⟩

namespace Heads

variable {kind : Kind} {chars rest : List Char} {start : List Node}

theorem proper (hstart : Heads kind chars start rest) :
    ∀ node ∈ start, Proper (fun _ => True) node := by
  cases hstart with
  | mk chars hkeyword =>
    have hname : Proper (fun _ => True) (leaf .ident (name (spaces chars).2).1) :=
      .leaf trivial ⟨rfl, trivial⟩
    exact List.forall_mem_append.2
      ⟨proper_keyword hkeyword chars, List.forall_mem_singleton.2 hname⟩

/-- Between the keyword and the name stands nothing that carries meaning. -/
theorem meaning_eq (hstart : Heads kind chars start rest)
    (hclean : ∀ node ∈ start, node.errors = []) :
    ∃ word keyword, Introduces kind word keyword ∧
      (start.filter isMeaningful).map Node.kind = [word, .ident] := by
  cases hstart with
  | @mk word keyword chars hkeyword =>
    have hgap := meaning_of_trivia (proper_spaces chars) fun node hnode =>
      hclean node (by simp [hnode])
    refine ⟨word, keyword, hkeyword, ?_⟩
    cases hkeyword <;> simp [hgap, Kind.isTrivia, Kind.isPunctuation]

theorem proper_setRule {arguments : Node} (hstart : Heads .setRule chars start rest)
    (harguments : Proper (· = .args) arguments) :
    Proper (· = .setRule) (inner .setRule (start ++ [arguments])) := by
  refine .of_children rfl ?_ fun hclean => ?_
  · exact List.forall_mem_append.2 ⟨hstart.proper, List.forall_mem_singleton.2 harguments.any⟩
  · obtain ⟨word, keyword, hkeyword, hmeaning⟩ :=
      hstart.meaning_eq fun node hnode => hclean node (by simp [hnode])
    have hkind : arguments.kind = .args := harguments.kind_of_clean (hclean _ (by simp))
    have hmeans : isMeaningful arguments = true := isMeaningful_of_kind hkind
    cases hkeyword
    simp [Shaped, Kind.Shape, meaning, hmeaning, hmeans, hkind]

theorem proper_letNothing (hstart : Heads .letBinding chars start rest) :
    Proper (· = .letBinding) (inner .letBinding start) := by
  refine .of_children rfl hstart.proper fun hclean => ?_
  obtain ⟨word, keyword, hkeyword, hmeaning⟩ := hstart.meaning_eq hclean
  cases hkeyword
  exact .inl hmeaning

theorem proper_letBinding {before behind : List Node} {value : Node}
    (hstart : Heads .letBinding chars start rest)
    (hbefore : ∀ node ∈ before, Proper (·.isTrivia) node)
    (hbehind : ∀ node ∈ behind, Proper (·.isTrivia) node) (hvalue : Proper (·.isValue) value) :
    Proper (· = .letBinding)
      (inner .letBinding (start ++ before ++ leaf .eq ['='] :: behind ++ [value])) := by
  have hequals : Proper (fun _ => True) (leaf .eq ['=']) := .leaf trivial ⟨rfl, trivial⟩
  refine .of_children rfl ?_ fun hclean => ?_
  · simpa [or_imp, forall_and] using ⟨hstart.proper, Proper.all_any hbefore, hequals,
      Proper.all_any hbehind, hvalue.any⟩
  · obtain ⟨word, keyword, hkeyword, hmeaning⟩ :=
      hstart.meaning_eq fun node hnode => hclean node (by simp [hnode])
    have hkind := hvalue.kind_of_clean (hclean value (by simp))
    have hbefore := meaning_of_trivia hbefore fun node hnode => hclean node (by simp [hnode])
    have hbehind := meaning_of_trivia hbehind fun node hnode => hclean node (by simp [hnode])
    cases hkeyword
    refine .inr ⟨value.kind, ?_, hkind⟩
    simp [meaning, hmeaning, hbefore, hbehind, Kind.isMeaningful_of_isValue hkind, Kind.isTrivia,
      Kind.isPunctuation]

end Heads

theorem proper_args {gap items : List Node} (hgap : ∀ node ∈ gap, Proper (·.isTrivia) node)
    (hitems : ∀ node ∈ items, Proper (·.isItem) node) :
    Proper (· = .args) (inner .args (leaf .leftParen ['('] :: gap ++ items)) := by
  have hopen : Proper (·.isItem) (leaf .leftParen ['(']) := .leaf rfl ⟨rfl, trivial⟩
  have hall := items_cons hopen hgap hitems
  refine .of_children rfl (Proper.all_any hall) fun hclean => ?_
  refine List.forall_mem_map.2 fun child hchild => ?_
  obtain ⟨hchild, hmeans⟩ := List.mem_filter.1 hchild
  exact Kind.isArgument_of_isItem ((hall child hchild).kind_of_clean (hclean child hchild)) hmeans

theorem proper_named {gap : List Node} {value : Node} (name : List Char)
    (hgap : ∀ node ∈ gap, Proper (·.isTrivia) node) (hvalue : Proper (·.isValue) value) :
    Proper (·.isArgument)
      (inner .named (leaf .ident name :: leaf .colon [':'] :: gap ++ [value])) := by
  have hname : Proper (fun _ => True) (leaf .ident name) := .leaf trivial ⟨rfl, trivial⟩
  have hcolon : Proper (fun _ => True) (leaf .colon [':']) := .leaf trivial ⟨rfl, trivial⟩
  refine .of_children rfl ?_ fun hclean => ?_
  · simpa [or_imp, forall_and] using ⟨hname, hcolon, Proper.all_any hgap, hvalue.any⟩
  · have hkind := hvalue.kind_of_clean (hclean value (by simp))
    have hgap := meaning_of_trivia hgap fun node hnode => hclean node (by simp [hnode])
    refine ⟨value.kind, ?_, hkind⟩
    simp [meaning, hgap, Kind.isMeaningful_of_isValue hkind, Kind.isTrivia, Kind.isPunctuation]

theorem proper_binary {before behind : List Node} {left operator right : Node}
    (hleft : Proper (·.isValue) left) (hbefore : ∀ node ∈ before, Proper (·.isTrivia) node)
    (hoperator : Proper (·.isOperator) operator)
    (hbehind : ∀ node ∈ behind, Proper (·.isTrivia) node) (hright : Proper (·.isValue) right) :
    Proper (·.isValue) (inner .binary (left :: before ++ operator :: behind ++ [right])) := by
  refine .of_children rfl ?_ fun hclean => ?_
  · simpa [or_imp, forall_and] using
      ⟨hleft.any, Proper.all_any hbefore, hoperator.any, Proper.all_any hbehind, hright.any⟩
  · have hleft := hleft.kind_of_clean (hclean left (by simp))
    have hoperator := hoperator.kind_of_clean (hclean operator (by simp))
    have hright := hright.kind_of_clean (hclean right (by simp))
    have hbefore := meaning_of_trivia hbefore fun node hnode => hclean node (by simp [hnode])
    have hbehind := meaning_of_trivia hbehind fun node hnode => hclean node (by simp [hnode])
    refine ⟨left.kind, operator.kind, right.kind, ?_, hleft, hoperator, hright⟩
    simp [meaning, hbefore, hbehind, Kind.isMeaningful_of_isValue hleft,
      Kind.isMeaningful_of_isOperator hoperator, Kind.isMeaningful_of_isValue hright]

/-! ## Readings -/

/-- What each symbol is read as.  Embedded code is looked at with its hash, and a value that starts
with a name is a leaf or a call. -/
abbrev Symbol.Builds : (symbol : Symbol) → List Char → symbol.Result → Prop
  | .markup, _, nodes => ∀ node ∈ nodes, Proper (·.isMarkup) node
  | .markupNode, _, node => Proper (·.isMarkup) node
  | .embedded, _, node => Proper (·.isMarkup) (Grammar.attachHash node)
  | .value, chars, node => Proper (·.isValue) node ∧ (nextIs startsName chars = true →
      node.children = [] ∨ node.kind = .funcCall ∧ node.children ≠ [])
  | .args, _, node => Proper (· = .args) node
  | .argItems, _, nodes => ∀ node ∈ nodes, Proper (·.isItem) node
  | .arg, _, node => Proper (·.isArgument) node
  | .codeExpr, _, node | .codeAtom, _, node => Proper (·.isValue) node
  | .contentBlock, _, node => Proper (· = .contentBlock) node

/-- What is read has its shape. -/
theorem Reads.builds {symbol : Symbol} {chars rest : List Char} {result : symbol.Result}
    (hreads : Reads symbol chars result rest) : symbol.Builds chars result := by
  induction hreads with
  | markupNil => exact List.forall_mem_nil _
  | markupCons _ _ hnode hnodes => exact List.forall_mem_cons.2 ⟨hnode, hnodes⟩
  | markupToken htoken => exact htoken.proper
  | delimited hdelimits _ hnodes => exact proper_delimited hdelimits hnodes _ _
  | hash _ hnode => exact hnode
  | unnamed chars hkeyword =>
    refine proper_attachHash_of_inner (.of_last_error _ _ _ _) (by simp)
  | setRule hstart _ harguments =>
    refine proper_attachHash_of_inner ((hstart.proper_setRule harguments).mono ?_) (by simp)
    exact fun _ hkind => .inr (.inl hkind)
  | setNothing => exact proper_attachHash_of_inner (.of_last_error _ _ _ _) (by simp)
  | letBinding hstart _ _ hvalue =>
    refine proper_attachHash_of_inner ((hstart.proper_letBinding (proper_spaces _)
      (proper_spaces _) hvalue).mono ?_) (by simp)
    exact fun _ hkind => .inr (.inr hkind)
  | letNothing hstart =>
    refine proper_attachHash_of_inner (hstart.proper_letNothing.mono ?_) hstart.ne_nil
    exact fun _ hkind => .inr (.inr hkind)
  | embedded hstarts _ hnode =>
    obtain ⟨hvalue, hcalled⟩ := hnode
    obtain hleaf | ⟨hcall, hchildren⟩ := hcalled hstarts
    · exact proper_attachHash_of_leaf hvalue hleaf
    · refine proper_attachHash_of_inner (fun herrors => ?_) hchildren
      exact ⟨.inl hcall, (hvalue herrors).2⟩
  | word => exact ⟨proper_word _, fun _ => .inl (lexeme_word _).children_eq⟩
  | group _ harguments =>
    refine ⟨harguments.mono (by rintro _ rfl; rfl), fun hstarts => ?_⟩
    cases hstarts
  | call _ _ hnode harguments =>
    exact ⟨proper_call hnode.1 (harguments.mono fun _ => .inl), fun _ => .inr ⟨rfl, by simp⟩⟩
  | block _ _ hnode hblock =>
    exact ⟨proper_applyBlock hnode.1 hblock, fun _ => .inr (Grammar.called_applyBlock _ _)⟩
  | args _ hitems => exact proper_args (proper_trivia _) hitems
  | argsUnclosed => exact List.forall_mem_singleton.2 (.error _ _)
  | argsClosed => exact List.forall_mem_singleton.2 (.leaf rfl ⟨rfl, trivial⟩)
  | comma _ hitems => exact items_cons (.leaf rfl ⟨rfl, trivial⟩) (proper_trivia _) hitems
  | item _ _ _ hnode hitems =>
    refine items_cons (hnode.mono fun kind hkind => ?_) (proper_trivia _) hitems
    rw [Kind.isItem, hkind]
    rfl
  | named _ _ _ hvalue => exact proper_named _ (proper_trivia _) hvalue
  | unnamedArg _ hnode =>
    refine hnode.mono fun kind hkind => ?_
    rw [Kind.isArgument, hkind]
    rfl
  | codeExpr _ hnode => exact hnode
  | binary _ hoperator _ hleft hright =>
    exact proper_binary hleft (proper_trivia _) (proper_binaryOperator hoperator) (proper_trivia _)
      hright
  | atomToken htoken => exact htoken.proper
  | value _ hnode => exact hnode.1
  | content _ hnode => exact hnode.mono (by rintro _ rfl; rfl)
  | contentBlock _ hnodes => exact proper_contentBlock hnodes _ _

/-- A tree of a text without errors has its shape everywhere, however it is
numbered. -/
theorem shaped_of_erase_eq {root : Node} {text : String}
    (hroot : root.erase = (parse text).erase) (hclean : root.errors = []) :
    root.kind = .markup ∧ root.Everywhere Shaped := by
  have hnodes := (reads_topLevel text.toList).builds
  have hparsed : Proper (· = .markup) (inner .markup (Grammar.topLevel text.toList)) :=
    .of_children rfl (Proper.all_any hnodes) fun hclean =>
      List.forall_mem_map.2 fun node hnode => (hnodes node hnode).kind_of_clean (hclean node hnode)
  have hsame : root.withSpan detached =
      (inner .markup (Grammar.topLevel text.toList)).withSpan detached :=
    hroot.trans (erase_parse text)
  have herrors : (inner .markup (Grammar.topLevel text.toList)).errors = [] := by
    rwa [← errors_withSpan_eq_nil_iff detached, ← hsame, errors_withSpan_eq_nil_iff]
  constructor
  · rw [← kind_withSpan detached root, hsame]
    rfl
  · rw [← everywhere_withSpan_iff detached (shaped_withSpan_iff detached), hsame,
      everywhere_withSpan_iff detached (shaped_withSpan_iff detached)]
    exact (hparsed herrors).2

end Galley.Syntax
