import Galley.File.Search
import Galley.Proofs.Image.Rendering
import Mathlib.Data.List.Infix

/-!
# Names with one ending

A search for an ending finds the names that end so, whatever is in front of it, while the stem of
a name ends in front of its last dot, unless the name starts there.  So names with an ending that
has a dot differ in their stems, but for one pair: the ending itself, if a dot is all it has in
front, and the ending behind itself.
-/

namespace Galley.Text

theorem splitWhen_of_none {separates : Char → Bool} {chars : List Char}
    (hnone : ∀ c ∈ chars, separates c = false) : splitWhen separates chars = [chars] := by
  induction chars with
  | nil => rfl
  | cons c chars ih =>
    obtain ⟨hc, hothers⟩ := List.forall_mem_cons.1 hnone
    rw [splitWhen, hc, ih hothers]
    rfl

theorem breakOn_of_not_mem {c : Char} {chars : List Char} (hc : c ∉ chars) (pattern : List Char) :
    breakOn (c :: pattern) chars = none := by
  induction chars with
  | nil => rfl
  | cons other chars ih =>
    obtain ⟨hne, hothers⟩ := not_or.1 (mt List.mem_cons.2 hc)
    rw [breakOn, ih hothers, List.isPrefixOf, beq_eq_false_iff_ne.2 hne]
    rfl

end Galley.Text

namespace Galley.File

/-! ## Stems -/

namespace Path

variable {front body suffix left right : List Char}

/-- What is behind the last dot of a name. -/
theorem takeWhile_reverse_of_dot (hdots : '.' ∉ body) :
    ((front ++ '.' :: body).reverse.takeWhile (· != '.')).reverse = body := by
  have hbody : ∀ c ∈ body.reverse, (c != '.') = true := by
    intro c hc
    rw [bne_iff_ne]
    rintro rfl
    exact hdots (List.mem_reverse.1 hc)
  rw [List.reverse_append, List.reverse_cons, List.append_assoc, List.takeWhile_append_of_pos hbody,
    List.singleton_append, List.takeWhile_cons_of_neg (by simp), List.append_nil,
    List.reverse_reverse]

/-- A name is split at its last dot if that leaves something on either side. -/
theorem splitSuffix_of_dot (hdots : '.' ∉ body) :
    splitSuffix (front ++ '.' :: body) =
      if body = [] ∨ front = [] then (front ++ '.' :: body, []) else (front, '.' :: body) := by
  have hstem : (front ++ '.' :: body).take ((front ++ '.' :: body).length - body.length - 1) =
      front := by
    rw [List.length_append, List.length_cons]
    exact List.take_left' (by omega)
  have hless : body.length < front.length + (body.length + 1) := by omega
  rw [splitSuffix, takeWhile_reverse_of_dot hdots, hstem]
  by_cases hbody : body = []
  · simp [hbody]
  · by_cases hfront : front = []
    · simp [hfront]
    · rw [if_pos (by simp [hbody, hfront, hless]), if_neg (by simp [hbody, hfront])]

/-- An ending that is all there is to a name: a dot in front of what has none. -/
def Bare (suffix : List Char) : Prop :=
  ∃ body, suffix = '.' :: body ∧ body ≠ [] ∧ '.' ∉ body

theorem exists_last_dot (hdot : '.' ∈ suffix) :
    ∃ front body, suffix = front ++ '.' :: body ∧ '.' ∉ body := by
  obtain ⟨body, front, hreverse, hbody⟩ := List.eq_append_cons_of_mem (List.mem_reverse.2 hdot)
  refine ⟨front.reverse, body.reverse, ?_, fun hmem => hbody (List.mem_reverse.1 hmem)⟩
  rw [← List.reverse_reverse suffix, hreverse, List.reverse_append, List.reverse_cons,
    List.append_assoc, List.singleton_append]

theorem bare_iff (hdots : '.' ∉ body) : Bare (front ++ '.' :: body) ↔ front = [] ∧ body ≠ [] := by
  constructor
  · rintro ⟨rest, hrest, hne, hnone⟩
    cases front with
    | nil => exact ⟨rfl, (List.cons.inj hrest).2 ▸ hne⟩
    | cons c front =>
      obtain ⟨-, rfl⟩ := List.cons.inj hrest
      exact absurd (List.mem_append_right front List.mem_cons_self) hnone
  · rintro ⟨rfl, hne⟩
    exact ⟨body, rfl, hne, hdots⟩

/-- Of two names with an ending that has a dot, both have the same stem just if one of them is a
bare ending and the other one has it twice. -/
theorem stem_eq_stem_iff (hdot : '.' ∈ suffix) (hleft : suffix <:+ left) (hright : suffix <:+ right)
    (hne : left ≠ right) :
    (splitSuffix left).1 = (splitSuffix right).1 ↔
      Bare suffix ∧
        (left = suffix ∧ right = suffix ++ suffix ∨ left = suffix ++ suffix ∧ right = suffix) := by
  obtain ⟨front, body, rfl, hbody⟩ := exists_last_dot hdot
  obtain ⟨l, rfl⟩ := hleft
  obtain ⟨r, rfl⟩ := hright
  have hends : l ≠ r := fun heq => hne (heq ▸ rfl)
  rw [bare_iff hbody, ← List.append_assoc, ← List.append_assoc, splitSuffix_of_dot hbody,
    splitSuffix_of_dot hbody]
  by_cases hempty : body = []
  · simp [hempty, hends]
  · cases front with
    | cons c front => simp [hempty, hends]
    | nil =>
      cases l with
      | nil =>
        cases r with
        | nil => exact absurd rfl hends
        | cons c r => simp [hempty, eq_comm]
      | cons c l =>
        cases r with
        | nil => simp [hempty]
        | cons d r =>
          have hlonger : ∀ rest, rest ++ '.' :: body ≠ body := by
            intro rest heq
            have hlength := congrArg List.length heq
            rw [List.length_append, List.length_cons] at hlength
            omega
          simpa [hempty, hlonger] using hends

end Path

/-! ## Searches for an ending -/

namespace NamePattern

variable {α : Type} {literals name : List Char}

theorem mem_ends {chars tail : List α} : tail ∈ ends chars ↔ tail <:+ chars := by
  induction chars with
  | nil => rw [ends, List.mem_singleton, List.suffix_nil]
  | cons c chars ih => rw [ends, List.mem_cons, ih, List.suffix_cons_iff]

theorem accepts_literals : accepts (literals.map .literal) name = true ↔ name = literals := by
  induction literals generalizing name with
  | nil => rw [List.map_nil, accepts, List.isEmpty_iff]
  | cons literal literals ih =>
    cases name with
    | nil => simp [accepts]
    | cons c name => simp [accepts, fits, ih]

/-- Behind a star, letters that stand for themselves accept the names that end with them. -/
theorem accepts_many_literals :
    accepts (.many :: literals.map .literal) name = true ↔ literals <:+ name := by
  simp only [accepts, List.any_eq_true, mem_ends, accepts_literals, exists_eq_right]

/-- Letters that stand for themselves in a pattern. -/
def Literal (chars : List Char) : Prop :=
  ∀ c ∈ chars, c ≠ '*' ∧ c ≠ '?' ∧ c ≠ '['

instance (chars : List Char) : Decidable (Literal chars) :=
  List.decidableBAll (fun c => c ≠ '*' ∧ c ≠ '?' ∧ c ≠ '[') chars

theorem readWithin_of_literal {chars : List Char} {fuel : Nat} (hfuel : chars.length ≤ fuel)
    (hliteral : Literal chars) : readWithin fuel chars = chars.map .literal := by
  induction chars generalizing fuel with
  | nil => cases fuel <;> rfl
  | cons c chars ih =>
    obtain ⟨⟨hmany, hsingle, hbracket⟩, hothers⟩ := List.forall_mem_cons.1 hliteral
    cases fuel with
    | zero => cases hfuel
    | succ fuel =>
      rw [List.map_cons, ← ih (Nat.le_of_succ_le_succ hfuel) hothers, readWithin] <;> assumption

end NamePattern

namespace Segment

open NamePattern

variable {suffix : String}

theorem read_of_literal {chars : List Char} (hliteral : Literal chars) :
    read ('*' :: chars) = .ok (.fitting (.many :: chars.map .literal)) := by
  have hstar : '*' ∉ chars := fun hmem => (hliteral '*' hmem).1 rfl
  have hone : '*' :: chars ≠ ['*', '*'] := by
    intro heq
    obtain rfl := (List.cons.inj heq).2
    exact hstar List.mem_cons_self
  have hnowhere : Text.occursIn ['*', '*'] ('*' :: chars) = false := by
    have hbehind : ['*'].isPrefixOf chars = false := by
      rw [Bool.eq_false_iff]
      exact fun hprefix => hstar ((List.isPrefixOf_iff_prefix.1 hprefix).subset List.mem_cons_self)
    rw [Text.occursIn, Text.breakOn, Text.breakOn_of_not_mem hstar, List.isPrefixOf, hbehind]
    rfl
  have hpattern : NamePattern.read ('*' :: chars) = .many :: chars.map .literal := by
    rw [NamePattern.read, List.length_cons, readWithin, readWithin_of_literal le_rfl hliteral]
  rw [read, if_neg hone, hnowhere, if_neg Bool.false_ne_true, if_pos (by simp), hpattern]
  rfl

/-- A suffix of letters that stand for themselves is searched for at the ends of names. -/
theorem forSuffix_of_literal (hliteral : Literal suffix.toList) (hslash : '/' ∉ suffix.toList) :
    forSuffix suffix = .ok [.anyDepth, .fitting (.many :: suffix.toList.map .literal)] := by
  have hpieces : (Text.splitWhen (· == '/') ('*' :: suffix.toList)).filter
      (fun piece => !piece.isEmpty && piece != ['.']) = ['*' :: suffix.toList] := by
    rw [Text.splitWhen_of_none]
    · rfl
    · intro c hc
      rw [beq_eq_false_iff_ne]
      rintro rfl
      exact hslash ((List.mem_cons.1 hc).resolve_left (by decide))
  have hlast : (suffix.toList.getLast? == some '/') = false := by
    rw [beq_eq_false_iff_ne]
    exact fun hlast => hslash (List.mem_of_getLast? hlast)
  rw [forSuffix]
  dsimp only
  rw [hpieces, hlast, List.mapM_cons, read_of_literal hliteral]
  rfl

variable {tree : Tree} {path directory : Path} {pattern : NamePattern} {found : List Path}

theorem exists_of_mem_mapM {α β : Type} {make : α → Except Failure β} {items : List α}
    {values : List β} {value : β} (hvalues : items.mapM make = .ok values)
    (hvalue : value ∈ values) : ∃ item ∈ items, make item = .ok value := by
  induction items generalizing values with
  | nil =>
    cases hvalues
    cases hvalue
  | cons item items ih =>
    obtain ⟨first, rest, hfirst, hrest, rfl⟩ := Image.exists_of_mapM_cons hvalues
    obtain rfl | hvalue := List.mem_cons.1 hvalue
    · exact ⟨item, List.mem_cons_self, hfirst⟩
    · obtain ⟨other, hother, hmake⟩ := ih hrest hvalue
      exact ⟨other, List.mem_cons_of_mem _ hother, hmake⟩

/-- What is selected is selected from somewhere that the first part leads to. -/
theorem exists_of_mem_select {segment : Segment} {segments : List Segment}
    (hselect : select tree (segment :: segments) directory = .ok found) (hpath : path ∈ found) :
    ∃ next middle rest, segment.step tree directory (!segments.isEmpty) = .ok next ∧
      middle ∈ next ∧ select tree segments middle = .ok rest ∧ path ∈ rest := by
  rw [select] at hselect
  obtain ⟨next, hnext, hselect⟩ := Image.exists_of_bind_eq_ok hselect
  obtain ⟨lists, hlists, hfound⟩ := Image.exists_of_bind_eq_ok hselect
  obtain rfl := Except.ok.inj hfound
  obtain ⟨rest, hrest, hpath⟩ := List.mem_flatten.1 hpath
  obtain ⟨middle, hmiddle, hselect⟩ := exists_of_mem_mapM hlists hrest
  exact ⟨next, middle, rest, hnext, hmiddle, hselect, hpath⟩

/-- What is selected at any depth by the form of its name has a name of that form. -/
theorem accepts_of_mem_select
    (hselect : select tree [.anyDepth, .fitting pattern] directory = .ok found)
    (hpath : path ∈ found) : pattern.accepts path.name.toList = true := by
  obtain ⟨-, middle, inside, -, -, hinside, hpath⟩ := exists_of_mem_select hselect hpath
  obtain ⟨next, last, rest, hnext, hlast, hrest, hpath⟩ := exists_of_mem_select hinside hpath
  obtain rfl := Except.ok.inj hrest
  obtain rfl := List.mem_singleton.1 hpath
  obtain rfl := Except.ok.inj hnext
  obtain ⟨⟨child, entry⟩, -, hkept⟩ := List.mem_filterMap.1 hlast
  dsimp only at hkept
  rw [Option.ite_none_right_eq_some] at hkept
  obtain ⟨hfits, hchild⟩ := hkept
  obtain rfl := Option.some.inj hchild
  exact (Bool.and_eq_true_iff.1 hfits).2

end Segment

end Galley.File
