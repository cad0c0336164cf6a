import Galley.Compile.Evaluation
import Galley.Proofs.Evaluation.Tree
import Galley.Proofs.Locality.TopLevel
import Galley.Proofs.Shape.Basic

/-!
# Printed strings read back

Printing a string puts a backslash in front of each backslash and each quote.  The reader of tokens
passes over both characters of such a pair, so it stops at the last quote, and resolving the escapes
of a pair gives its second character.  A backslash that was printed never stands in front of
anything but a backslash or a quote, so nothing in a string is taken for an escape by number.
-/

namespace Galley.Compile

open Syntax Document Text Node

/-! ## Quotes and escapes -/

/-- A character as it is printed between quotes. -/
def quotedChar (c : Char) : List Char :=
  if c = '\\' || c = '"' then ['\\', c] else [c]

theorem quoteString_eq (chars : List Char) :
    Value.quoteString chars = '"' :: chars.flatMap quotedChar ++ ['"'] := rfl

/-- A character has a backslash in front of it or needs none. -/
theorem quotedChar_cases (c : Char) :
    quotedChar c = ['\\', c] ∧ (c = '\\' ∨ c = '"') ∨
      quotedChar c = [c] ∧ c ≠ '\\' ∧ c ≠ '"' := by
  rw [quotedChar]
  split
  · rename_i hquoted
    exact .inl ⟨rfl, by simpa using hquoted⟩
  · rename_i hplain
    exact .inr ⟨rfl, by simpa using hplain⟩

/-- The pair of a backslash and a character that was printed stands for the character. -/
theorem unescapeAux_pair {c : Char} (hc : c = '\\' ∨ c = '"') (chars : List Char) :
    Literal.unescapeAux 0 ('\\' :: c :: chars) = c :: Literal.unescapeAux 0 chars := by
  obtain rfl | rfl := hc <;> rfl

theorem unescapeAux_plain {c : Char} (hc : c ≠ '\\') (chars : List Char) :
    Literal.unescapeAux 0 (c :: chars) = c :: Literal.unescapeAux 0 chars := by
  rw [Literal.unescapeAux]
  · rintro rfl
    exact absurd rfl hc
  · rintro _ _ rfl
    exact absurd rfl hc

/-- Resolving the escapes gives back what was printed. -/
theorem unescapeAux_quoted (chars : List Char) :
    Literal.unescapeAux 0 (chars.flatMap quotedChar) = chars := by
  induction chars with
  | nil => rfl
  | cons c chars ih =>
    rw [List.flatMap_cons]
    obtain ⟨hquoted, hc⟩ | ⟨hquoted, hc, -⟩ := quotedChar_cases c
    · rw [hquoted, List.cons_append, List.singleton_append, unescapeAux_pair hc, ih]
    · rw [hquoted, List.singleton_append, unescapeAux_plain hc, ih]

theorem string_quoteString (chars : List Char) :
    Literal.string (Value.quoteString chars) = chars := by
  have hinside : Literal.inside (Value.quoteString chars) = chars.flatMap quotedChar := by
    rw [quoteString_eq, Literal.inside, List.cons_append, List.drop_one, List.tail_cons,
      List.dropLast_concat]
  rw [Literal.string, hinside, unescapeAux_quoted]

end Galley.Compile

/-! ## Reading -/

namespace Galley.Syntax

open Galley.Text Node Document Compile

namespace Token

/-- Inside a string on one line no quote ends it before its last one. -/
theorem stringBody_quoted {chars : List Char} (hline : '\n' ∉ chars) (rest : List Char) :
    stringBody (chars.flatMap quotedChar ++ '"' :: rest) =
      ((chars.flatMap quotedChar ++ ['"'], true), rest) := by
  induction chars with
  | nil => rfl
  | cons c chars ih =>
    rw [List.mem_cons, not_or] at hline
    obtain ⟨hfirst, hline⟩ := hline
    rw [List.flatMap_cons, List.append_assoc]
    obtain ⟨hquoted, -⟩ | ⟨hquoted, hc, hquote⟩ := quotedChar_cases c
    · rw [hquoted, List.cons_append, List.singleton_append, stringBody, ih hline]
      rfl
    · rw [hquoted, List.singleton_append, stringBody, ih hline]
      · rfl
      · exact fun hnewline => hfirst hnewline.symm
      · exact hquote
      · exact fun hlast => absurd hlast hc
      · exact fun _ _ hescape => absurd hescape hc

theorem string_quoted {chars : List Char} (hline : '\n' ∉ chars) (rest : List Char) :
    string (chars.flatMap quotedChar ++ '"' :: rest) =
      (leaf .str (Value.quoteString chars), rest) := by
  rw [string, stringBody_quoted hline]
  rfl

end Token

namespace Grammar

open Token

variable {chars : List Char}

/-- A printed string is read as a single value. -/
theorem codeAtom_quoted (hline : '\n' ∉ chars) (fuel : Nat) (rest : List Char) :
    codeAtom (fuel + 1) ('"' :: (chars.flatMap quotedChar ++ '"' :: rest)) =
      some (leaf .str (Value.quoteString chars), rest) := by
  rw [codeAtom, string_quoted hline]
  rfl

theorem operations_closed (left : Node) (fuel : Nat) (rest : List Char) :
    operations (fuel + 1) left (')' :: rest) = some (left, ')' :: rest) := by
  have htrivia : trivia (')' :: rest) = ([], ')' :: rest) := trivia_of_token_eq_none rfl
  rw [operations, htrivia]
  rfl

theorem arg_quoted (hline : '\n' ∉ chars) (fuel : Nat) (rest : List Char) :
    arg (fuel + 3) ('"' :: (chars.flatMap quotedChar ++ '"' :: ')' :: rest)) =
      some (leaf .str (Value.quoteString chars), ')' :: rest) := by
  have hstarts : ∀ rest, nextIs startsName ('"' :: rest) = false := fun _ => rfl
  rw [arg, hstarts, if_neg Bool.false_ne_true, codeExpr, codeAtom_quoted hline]
  exact operations_closed _ fuel rest

/-- The argument list that holds a printed string. -/
def soleArgument (quoted : List Char) : Node :=
  inner .args [leaf .leftParen ['('], leaf .str quoted, leaf .rightParen [')']]

theorem args_quoted (hline : '\n' ∉ chars) (fuel : Nat) (rest : List Char) :
    args (fuel + 5) ('"' :: (chars.flatMap quotedChar ++ '"' :: ')' :: rest)) =
      some (soleArgument (Value.quoteString chars), rest) := by
  have hquote : ∀ rest, trivia ('"' :: rest) = ([], '"' :: rest) :=
    fun _ => trivia_of_token_eq_none rfl
  have hparen : trivia (')' :: rest) = ([], ')' :: rest) := trivia_of_token_eq_none rfl
  rw [args, hquote]
  dsimp only
  rw [argItems, if_neg (by decide), if_neg (by decide), if_neg (by decide), arg_quoted hline]
  simp only [Option.bind_eq_bind, Option.bind_some, hparen]
  rfl

/-- The call of a function with a printed string. -/
def callWith (quoted : List Char) : Node :=
  inner .funcCall [leaf .hash ['#'], leaf .ident ['f'], soleArgument quoted]

theorem embedded_callWith (hline : '\n' ∉ chars) (fuel : Nat) :
    embedded (fuel + 7) ('f' :: '(' :: (Value.quoteString chars ++ [')'])) =
      some (callWith (Value.quoteString chars), []) := by
  have hname : name ('f' :: '(' :: (Value.quoteString chars ++ [')'])) =
      (['f'], '(' :: (Value.quoteString chars ++ [')'])) := rfl
  have hquoted : Value.quoteString chars ++ [')'] =
      '"' :: (chars.flatMap quotedChar ++ '"' :: ')' :: []) := by
    rw [quoteString_eq, List.cons_append, List.cons_append, List.append_assoc]
    rfl
  have hstarts : ∀ rest, nextIs startsName ('f' :: rest) = true := fun _ => rfl
  rw [embedded, hstarts, if_pos rfl, hname]
  dsimp only
  rw [if_neg (by decide), if_neg (by decide), applications, hquoted, args_quoted hline]
  rfl

theorem topLevel_callWith (hline : '\n' ∉ chars) :
    topLevel ('#' :: 'f' :: '(' :: (Value.quoteString chars ++ [')'])) =
      [callWith (Value.quoteString chars)] := by
  have hnode : markupNode 8 [] '#' ('f' :: '(' :: (Value.quoteString chars ++ [')'])) =
      some (callWith (Value.quoteString chars), []) := embedded_callWith hline 0
  have hmarkup : markup 9 [] ('#' :: 'f' :: '(' :: (Value.quoteString chars ++ [')'])) =
      some ([callWith (Value.quoteString chars)], []) := by
    rw [markup, if_neg (by decide), hnode]
    rfl
  have henough : 9 ≤ budget ('#' :: 'f' :: '(' :: (Value.quoteString chars ++ [')'])) := by
    rw [budget, List.length_cons]
    omega
  rw [topLevel, markup_mono henough hmarkup]

end Grammar

/-! ## Reading back -/

/-- A tree without errors that calls a function with one string. -/
structure CallsWith (quoted : String) (root arguments leaf : Node) : Prop where
  errors : root.errors = []
  call : ∃ call hash callee, root.children = [call] ∧ call.kind = .funcCall ∧
    call.children = [hash, callee, arguments] ∧ hash.kind = .hash ∧
    callee.kind = .ident ∧ callee.text = "f"
  list : ∃ opening closing, arguments.kind = .args ∧
    arguments.children = [opening, leaf, closing] ∧ opening.kind = .leftParen ∧
    closing.kind = .rightParen
  string : leaf.kind = .str ∧ leaf.children = [] ∧ leaf.text = quoted

/-- A node that differs in numbers only has the kind and the text of the other, and so have its
children. -/
theorem parts_of_erase_eq {node : Node} {kind : Kind} {text : String} {children : List Node}
    {span : Int} {message : Option String}
    (herase : node.erase = ⟨kind, text, children, span, message⟩) :
    node.kind = kind ∧ node.text = text ∧ node.children.map erase = children := by
  rw [← children_erase, herase, ← kind_withSpan detached node, ← text_withSpan detached node]
  exact ⟨congrArg Node.kind herase, congrArg Node.text herase, rfl⟩

theorem callsWith_of_erase_eq {root : Node} {quoted : List Char}
    (herase : root.erase = inner .markup [Grammar.callWith quoted]) :
    ∃ arguments leaf, CallsWith (String.ofList quoted) root arguments leaf := by
  have herrors : root.errors = [] := by
    rw [← errors_withSpan_eq_nil_iff detached]
    exact (congrArg Node.errors herase).trans rfl
  obtain ⟨-, -, hroot⟩ := parts_of_erase_eq herase
  obtain ⟨call, hroot, hcall⟩ := List.map_eq_singleton_iff.1 hroot
  obtain ⟨hcallKind, -, hcall⟩ := parts_of_erase_eq hcall
  obtain ⟨hash, others, hchildren, hhash, hothers⟩ := List.map_eq_cons_iff.1 hcall
  obtain ⟨callee, others, rfl, hcallee, hothers⟩ := List.map_eq_cons_iff.1 hothers
  obtain ⟨arguments, rfl, harguments⟩ := List.map_eq_singleton_iff.1 hothers
  obtain ⟨hlistKind, -, hlist⟩ := parts_of_erase_eq harguments
  obtain ⟨opening, others, hitems, hopening, hothers⟩ := List.map_eq_cons_iff.1 hlist
  obtain ⟨leaf, others, rfl, hleaf, hothers⟩ := List.map_eq_cons_iff.1 hothers
  obtain ⟨closing, rfl, hclosing⟩ := List.map_eq_singleton_iff.1 hothers
  obtain ⟨hcalleeKind, hcalleeText, -⟩ := parts_of_erase_eq hcallee
  obtain ⟨hleafKind, hleafText, hleafChildren⟩ := parts_of_erase_eq hleaf
  exact ⟨arguments, leaf, herrors,
    ⟨call, hash, callee, hroot, hcallKind, hchildren, (parts_of_erase_eq hhash).1, hcalleeKind,
      hcalleeText⟩,
    ⟨opening, closing, hlistKind, hitems, (parts_of_erase_eq hopening).1,
      (parts_of_erase_eq hclosing).1⟩,
    hleafKind, List.map_eq_nil_iff.1 hleafChildren, hleafText⟩

end Galley.Syntax

namespace Galley.Compile

open Syntax Document Text Node

variable {root arguments leaf : Node} {text : String}

/-- The value of a printed string is the string, and nothing happens on the way to it. -/
theorem value_of_callsWith
    (hcalls : CallsWith (String.ofList (Value.quoteString text.toList)) root arguments leaf)
    (context : Context) (machine : Machine) :
    (evalNode context leaf).value machine = (.ok (.str text), machine) := by
  obtain ⟨hkind, hchildren, htext⟩ := hcalls.string
  obtain ⟨kind, own, children, span, message⟩ := leaf
  obtain rfl : kind = .str := hkind
  obtain rfl : own = _ := htext
  have hvalue : String.ofList (Literal.string
      (String.ofList (Value.quoteString text.toList)).toList) = text := by
    rw [String.toList_ofList, string_quoteString, String.ofList_toList]
  have hleaf : (evalNode context ⟨.str, String.ofList (Value.quoteString text.toList), children,
      span, message⟩).value machine = (.ok (.str (String.ofList (Literal.string
        (String.ofList (Value.quoteString text.toList)).toList))), machine) := rfl
  rw [hleaf, hvalue]

/-- It is the only argument of the call. -/
theorem arguments_of_callsWith
    (hcalls : CallsWith (String.ofList (Value.quoteString text.toList)) root arguments leaf)
    (context : Context) (machine : Machine) :
    (evalNode context arguments).arguments machine =
      (.ok [⟨none, .str text, leaf.span⟩], machine) := by
  have hkind : leaf.kind = .str := hcalls.string.1
  obtain ⟨opening, closing, -, hitems, hopening, hclosing⟩ := hcalls.list
  have hmeaningful : arguments.children.filter isMeaningful = [leaf] := by
    have hopening : isMeaningful opening = false := by rw [isMeaningful, hopening]; rfl
    have hleaf : isMeaningful leaf = true := by rw [isMeaningful, hkind]; rfl
    have hclosing : isMeaningful closing = false := by rw [isMeaningful, hclosing]; rfl
    simp [hitems, hopening, hleaf, hclosing]
  have hargument : (evalNode context leaf).argument machine =
      (.ok ⟨none, .str text, leaf.span⟩, machine) := by
    have hplain : (evalNode context leaf).argument = evalArgument leaf
        (leaf.children.map (evalNode context)) (evalNode context leaf).value := by
      rw [evalNode_eq]
      rfl
    rw [hplain, evalArgument, if_neg (by simp [hkind])]
    simp only [Eval.bind_apply, value_of_callsWith hcalls]
    rfl
  have hlist : (evalNode context arguments).arguments =
      Operand.list [evalNode context leaf] := by
    rw [evalNode_eq, ← List.map_singleton, ← hmeaningful, ← meaningful_map]
    rfl
  rw [hlist]
  simp only [Operand.list, Eval.bind_apply, hargument]
  rfl

/-- The printed form of a string without a newline is read as that string: as the only argument of
a call it is one leaf, and this has the string as its value. -/
theorem printed_string_reads_back (hline : '\n' ∉ text.toList) :
    ∃ quoted, (Value.str text).repr = .ok quoted ∧
      ∃ arguments leaf, CallsWith quoted (parse ("#f(" ++ quoted ++ ")")) arguments leaf ∧
        ∀ context machine,
          (evalNode context leaf).value machine = (.ok (.str text), machine) ∧
          (evalNode context arguments).arguments machine =
            (.ok [⟨none, .str text, leaf.span⟩], machine) := by
  have herase : (parse ("#f(" ++ String.ofList (Value.quoteString text.toList) ++ ")")).erase =
      inner .markup [Grammar.callWith (Value.quoteString text.toList)] := by
    have hchars : ("#f(" ++ String.ofList (Value.quoteString text.toList) ++ ")").toList =
        '#' :: 'f' :: '(' :: (Value.quoteString text.toList ++ [')']) := by
      simp [String.toList_append, String.toList_ofList]
    rw [erase_parse, hchars, Grammar.topLevel_callWith hline]
    rfl
  obtain ⟨arguments, leaf, hcalls⟩ := callsWith_of_erase_eq herase
  exact ⟨_, rfl, arguments, leaf, hcalls, fun context machine =>
    ⟨value_of_callsWith hcalls context machine, arguments_of_callsWith hcalls context machine⟩⟩

/-- Backslashes and quotes, and what looks like an escape by number. -/
theorem printed_string_reads_back_escapes :
    '\n' ∉ "a\\u\x7b41\x7d\"\\\\n\\".toList ∧
    ∃ quoted, (Value.str "a\\u\x7b41\x7d\"\\\\n\\").repr = .ok quoted ∧
      ∃ arguments leaf, CallsWith quoted (parse ("#f(" ++ quoted ++ ")")) arguments leaf ∧
        ∀ context machine,
          (evalNode context leaf).value machine =
            (.ok (.str "a\\u\x7b41\x7d\"\\\\n\\"), machine) ∧
          (evalNode context arguments).arguments machine =
            (.ok [⟨none, .str "a\\u\x7b41\x7d\"\\\\n\\", leaf.span⟩], machine) :=
  have hline : '\n' ∉ "a\\u\x7b41\x7d\"\\\\n\\".toList := by decide
  ⟨hline, printed_string_reads_back hline⟩

end Galley.Compile
