import Galley.Proofs.Coverage.Parse
import Galley.Proofs.Locality.Grammar

/-!
# Top-level nodes one by one

A text is read as one top-level node and whatever its continuation is read as,
so the nodes of a text from a boundary on are the nodes of the text behind it.
Three top-level nodes always hide what differs behind them: a node in front of
them is read the same, because a run of blanks is never more than one node.
-/

namespace Galley.Syntax

open Galley.Text Node Token

/-- Characters in front of which nothing behind them can be told apart. -/
theorem Alike.of_front {front : List Char} (hlong : 3 ≤ front.length)
    (hbehind : 2 ≤ (front.dropWhile isBlank).length) (left right : List Char) :
    Alike (front ++ left) (front ++ right) := by
  have hlength := congrArg List.length (List.takeWhile_append_dropWhile (p := isBlank) (l := front))
  rw [List.length_append] at hlength
  have htake : (front.takeWhile isBlank).length ≠ front.length := by omega
  have hdrop : ¬(front.dropWhile isBlank).isEmpty = true := by
    rw [List.isEmpty_iff, ← List.length_eq_zero_iff]
    omega
  refine ⟨⟨?_⟩, ?_, ?_⟩
  · rw [List.take_append_of_le_length hlong, List.take_append_of_le_length hlong]
  · rw [List.takeWhile_append, List.takeWhile_append, if_neg htake, if_neg htake]
  · rw [List.dropWhile_append, List.dropWhile_append, if_neg hdrop, if_neg hdrop,
      List.take_append_of_le_length hbehind, List.take_append_of_le_length hbehind]

theorem length_le_dropWhile_append {holds : Char → Bool} {c : Char} (hstop : holds c = false)
    (front behind : List Char) :
    (c :: behind).length ≤ ((front ++ c :: behind).dropWhile holds).length := by
  induction front with
  | nil => simp [hstop]
  | cons first front ih =>
    rw [List.cons_append, List.dropWhile_cons]
    split
    · exact ih
    · simp only [List.length_cons, List.length_append]
      omega

namespace Grammar

/-- With more fuel a step that answers answers the same. -/
theorem markup_mono {fuel more : Nat} (hmore : fuel ≤ more) {stops chars : List Char}
    {answer : List Node × List Char} (hanswer : markup fuel stops chars = some answer) :
    markup more stops chars = some answer := by
  obtain ⟨extra, rfl⟩ := Nat.exists_eq_add_of_le' hmore
  exact ((locality fuel).markup extra stops chars).same .refl hanswer

theorem markupNode_mono {fuel more : Nat} (hmore : fuel ≤ more) {stops chars : List Char}
    {first : Char} {answer : Node × List Char}
    (hanswer : markupNode fuel stops first chars = some answer) :
    markupNode more stops first chars = some answer := by
  obtain ⟨extra, rfl⟩ := Nat.exists_eq_add_of_le' hmore
  exact ((locality fuel).markupNode extra stops first chars).same .refl hanswer

/-- The fuel that is known to be enough reads the top-level node. -/
theorem markupNode_eq_topNode (first : Char) {fuel : Nat} {chars : List Char}
    (hfuel : 8 * chars.length + 9 ≤ fuel) :
    markupNode fuel [] first chars = some (topNode first chars) ∧
      Covers [first] chars (topNode first chars).1 (topNode first chars).2 := by
  obtain ⟨node, rest, hanswer, hcovers⟩ :=
    (covering (8 * chars.length + 9)).markupNode [] first chars (Nat.le_refl _)
  have hbudget := markupNode_mono
    (show 8 * chars.length + 9 ≤ budget (first :: chars) by rw [budget, List.length_cons]; omega)
    hanswer
  have htop : topNode first chars = (node, rest) := by
    rw [topNode, hbudget]
    rfl
  rw [htop]
  exact ⟨markupNode_mono hfuel hanswer, hcovers⟩

theorem topNode_covers (first : Char) (chars : List Char) :
    Covers [first] chars (topNode first chars).1 (topNode first chars).2 :=
  (markupNode_eq_topNode first (Nat.le_refl _)).2

/-- A top-level node is the same in front of every continuation that it cannot
tell from its own. -/
theorem topNode_of_local {alike : List Char → List Char → Prop} {first : Char}
    {chars rest' : List Char}
    (hlocal : ∀ extra, LocalAt alike (markupNode (8 * chars.length + 9) [] first)
      (markupNode (extra + (8 * chars.length + 9)) [] first) chars)
    (halike : alike (topNode first chars).2 rest') :
    ∃ chars', (topNode first chars).1.chars ++ rest' = first :: chars' ∧
      topNode first chars' = ((topNode first chars).1, rest') := by
  obtain ⟨inside, hinside, hchars⟩ := topNode_covers first chars
  have hanswer := (markupNode_eq_topNode first (Nat.le_refl (8 * chars.length + 9))).1
  obtain ⟨consumed, hconsumed, hrepeat⟩ := hlocal (8 * rest'.length) _ _ hanswer
  obtain rfl : inside = consumed := List.append_cancel_right (hchars.trans hconsumed)
  refine ⟨inside ++ rest', by rw [hinside]; rfl, ?_⟩
  have hlength := length_rest hchars
  have henough : 8 * (inside ++ rest').length + 9 ≤ 8 * rest'.length + (8 * chars.length + 9) := by
    rw [List.length_append]
    omega
  have htop := (markupNode_eq_topNode first henough).1
  rw [hrepeat rest' halike] at htop
  exact (Option.some.inj htop).symm

theorem topNode_of_alike {first : Char} {chars rest' : List Char}
    (halike : Alike (topNode first chars).2 rest') :
    ∃ chars', (topNode first chars).1.chars ++ rest' = first :: chars' ∧
      topNode first chars' = ((topNode first chars).1, rest') :=
  topNode_of_local (fun extra => (locality _).markupNode extra [] first chars) halike

theorem topLevel_cons (first : Char) (chars : List Char) :
    topLevel (first :: chars) =
      (topNode first chars).1 :: topLevel (topNode first chars).2 := by
  have hwhole := (markup_budget (first :: chars)).1
  obtain ⟨hnode, hcovers⟩ := markupNode_eq_topNode first
    (show 8 * chars.length + 9 ≤ 8 * (chars.length + 1) + 7 by omega)
  have hshorter := hcovers.length_le
  have hrest := markup_mono
    (show budget (topNode first chars).2 ≤ 8 * (chars.length + 1) + 7 by rw [budget]; omega)
    (markup_budget (topNode first chars).2).1
  have hmarkup : markup (8 * (chars.length + 1) + 7 + 1) [] (first :: chars) =
      some ((topNode first chars).1 :: topLevel (topNode first chars).2, []) := by
    rw [markup, if_neg (by simp), hnode]
    dsimp only [Option.bind_eq_bind, Option.bind_some]
    rw [hrest]
    rfl
  rw [show budget (first :: chars) = 8 * (chars.length + 1) + 7 + 1 from rfl, hmarkup] at hwhole
  exact (Prod.mk.inj (Option.some.inj hwhole)).1.symm

/-- The nodes behind some top-level nodes are those of the text behind them. -/
theorem topLevel_charsOf_of_append {front behind : List Node} {chars : List Char}
    (hnodes : topLevel chars = front ++ behind) : topLevel (charsOf behind) = behind := by
  induction front generalizing chars with
  | nil =>
    rw [List.nil_append] at hnodes
    rw [← hnodes, charsOf_topLevel]
  | cons node front ih =>
    cases chars with
    | nil => cases hnodes
    | cons first chars =>
      rw [topLevel_cons] at hnodes
      exact ih (List.cons.inj hnodes).2

/-- White space is one node, so the next one starts with something else. -/
theorem nextIs_isSpace_topNode {first : Char} (hspace : isSpace first = true)
    (chars : List Char) : nextIs isSpace (topNode first chars).2 = false := by
  have hnode := (markupNode_eq_topNode first (Nat.le_refl (8 * chars.length + 9))).1
  rw [markupNode, if_pos hspace] at hnode
  rw [← Option.some.inj hnode]
  exact nextIs_dropWhile isSpace (first :: chars)

/-- The first two nodes that are not blank hold two characters together. -/
theorem two_le_length_dropWhile_isBlank {chars : List Char} {one two three : Node}
    {later : List Node} (hnodes : topLevel chars = one :: two :: three :: later) :
    2 ≤ ((charsOf [one, two, three]).dropWhile isBlank).length := by
  have hfull : ∀ node ∈ topLevel chars, node.chars ≠ [] :=
    fun _ => chars_ne_nil_of_mem_topLevel
  rw [hnodes] at hfull
  have htwo := hfull two (by simp)
  have hthree := List.length_pos_iff.2 (hfull three (by simp))
  cases chars with
  | nil => cases hnodes
  | cons first chars =>
    rw [topLevel_cons] at hnodes
    obtain ⟨rfl, hbehind⟩ := List.cons.inj hnodes
    by_cases hspace : isSpace first = true
    · obtain ⟨c, inside, hinside⟩ := List.exists_cons_of_ne_nil htwo
      have hstop := nextIs_isSpace_topNode hspace chars
      rw [← charsOf_topLevel (topNode first chars).2, hbehind, charsOf_cons, hinside] at hstop
      have hlong := length_le_dropWhile_append (isBlank_of_not_isSpace hstop)
        (topNode first chars).1.chars (inside ++ three.chars)
      rw [List.length_cons, List.length_append] at hlong
      simp only [charsOf_cons, charsOf_nil, hinside, List.append_nil, List.cons_append]
      omega
    · obtain ⟨inside, hinside, -⟩ := topNode_covers first chars
      have htwo' := List.length_pos_iff.2 htwo
      have hlong := length_le_dropWhile_append
        (isBlank_of_not_isSpace (Bool.eq_false_iff.2 hspace)) []
        (inside ++ (two.chars ++ three.chars))
      rw [List.nil_append, List.length_cons, List.length_append, List.length_append] at hlong
      simp only [charsOf_cons, charsOf_nil, hinside, List.append_nil, List.cons_append,
        List.nil_append]
      omega

/-- Three top-level nodes hide what stands behind them. -/
theorem alike_of_topLevel {shared left : List Char} {one two three : Node}
    {later : List Node} (hnodes : topLevel (shared ++ left) = one :: two :: three :: later)
    (hshared : (charsOf [one, two, three]).length ≤ shared.length) (right : List Char) :
    Alike (shared ++ left) (shared ++ right) := by
  have hchars := charsOf_topLevel (shared ++ left)
  have hfull : ∀ node ∈ topLevel (shared ++ left), node.chars ≠ [] :=
    fun _ => chars_ne_nil_of_mem_topLevel
  rw [hnodes] at hchars hfull
  have hbehind := two_le_length_dropWhile_isBlank hnodes
  have hlong : 3 ≤ (charsOf [one, two, three]).length := by
    have hone := List.length_pos_iff.2 (hfull one (by simp))
    have htwo := List.length_pos_iff.2 (hfull two (by simp))
    have hthree := List.length_pos_iff.2 (hfull three (by simp))
    simp only [charsOf_cons, charsOf_nil, List.length_append, List.length_nil]
    omega
  rw [show one :: two :: three :: later = [one, two, three] ++ later from rfl, charsOf_append]
    at hchars
  obtain ⟨inside, rfl⟩ : charsOf [one, two, three] <+: shared :=
    List.prefix_of_prefix_length_le ⟨_, hchars⟩ (List.prefix_append _ _) hshared
  rw [List.append_assoc, List.append_assoc]
  exact .of_front hlong hbehind _ _

/-- Any run of three or more top-level nodes will do. -/
theorem alike_of_three_le {shared left : List Char} {front later : List Node}
    (hnodes : topLevel (shared ++ left) = front ++ later) (hfront : 3 ≤ front.length)
    (hshared : (charsOf front).length ≤ shared.length) (right : List Char) :
    Alike (shared ++ left) (shared ++ right) := by
  match front, hfront with
  | one :: two :: three :: front, _ =>
    apply alike_of_topLevel hnodes
    calc
      (charsOf [one, two, three]).length ≤ (charsOf ([one, two, three] ++ front)).length := by
        rw [charsOf_append, List.length_append]
        exact Nat.le_add_right _ _
      _ ≤ shared.length := hshared

/-- A node is read the same after a change that three more nodes keep away. -/
theorem topLevel_common {front screen later : List Node} {shared left : List Char}
    (hnodes : topLevel (shared ++ left) = front ++ (screen ++ later))
    (hscreen : screen.length = 3)
    (hshared : (charsOf (front ++ screen)).length ≤ shared.length) (right : List Char) :
    ∃ inside, shared = charsOf front ++ inside ∧
      topLevel (shared ++ right) = front ++ topLevel (inside ++ right) := by
  induction front generalizing shared with
  | nil => exact ⟨shared, rfl, rfl⟩
  | cons node front ih =>
    cases hfirst : shared ++ left with
    | nil =>
      rw [hfirst] at hnodes
      cases hnodes
    | cons first chars =>
      rw [hfirst, topLevel_cons, List.cons_append] at hnodes
      obtain ⟨rfl, hbehind⟩ := List.cons.inj hnodes
      have hcovers := (topNode_covers first chars).chars_append
      rw [List.singleton_append, ← hfirst] at hcovers
      rw [List.cons_append, charsOf_cons, List.length_append] at hshared
      obtain ⟨shared, rfl⟩ : (topNode first chars).1.chars <+: shared :=
        List.prefix_of_prefix_length_le ⟨_, hcovers⟩ (List.prefix_append _ _) (by omega)
      rw [List.append_assoc] at hcovers
      have hafter := List.append_cancel_left hcovers
      rw [List.length_append] at hshared
      rw [hafter] at hbehind
      obtain ⟨inside, rfl, hright⟩ := ih hbehind (by omega)
      have halike : Alike (topNode first chars).2 (charsOf front ++ inside ++ right) := by
        rw [hafter]
        rw [← List.append_assoc] at hbehind
        exact alike_of_three_le hbehind (by rw [List.length_append]; omega) (by omega) right
      obtain ⟨chars', hchars', htop⟩ := topNode_of_alike halike
      refine ⟨inside, by simp, ?_⟩
      rw [List.append_assoc, hchars', topLevel_cons, htop]
      simpa using hright

/-- The first top-level nodes are the same after a change behind three more of them. -/
theorem topLevel_take_append {count : Nat} {chars shared left : List Char}
    (hchars : shared ++ left = chars) (hcount : count + 3 ≤ (topLevel chars).length)
    (hshared : (charsOf ((topLevel chars).take (count + 3))).length ≤ shared.length)
    (right : List Char) :
    ∃ inside, shared = charsOf ((topLevel chars).take count) ++ inside ∧
      topLevel (shared ++ right) = (topLevel chars).take count ++ topLevel (inside ++ right) := by
  have hnodes : topLevel chars = (topLevel chars).take count ++
      (((topLevel chars).drop count).take 3 ++ ((topLevel chars).drop count).drop 3) := by
    rw [List.take_append_drop, List.take_append_drop]
  have hscreen : (((topLevel chars).drop count).take 3).length = 3 := by
    rw [List.length_take, List.length_drop]
    omega
  rw [List.take_add] at hshared
  subst hchars
  exact topLevel_common hnodes hscreen hshared right

end Grammar

end Galley.Syntax
