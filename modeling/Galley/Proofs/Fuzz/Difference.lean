import Galley.Proofs.Fuzz.Trial
import Galley.Proofs.Shape.Basic

/-!
# What a comparison of trees tells

Two trees are compared from their roots on, child by child, and no further than
nodes of different kinds.  Every difference is one between two nodes at the same
place of both trees, and trees without a difference are equal apart from their
numbers.  A trial decides by this equality whether the reparsed tree is right,
so the differences that it reports with a divergence are never missing.
-/

namespace Galley.Syntax

namespace Node

/-- The parts in which two nodes differ, with the values of both. -/
inductive Differ (expected found : Node) : Aspect → Prop
  | kind (hkind : expected.kind ≠ found.kind) :
    Differ expected found (.kind expected.kind found.kind)
  | text (htext : expected.text ≠ found.text) :
    Differ expected found (.text expected.text found.text)
  | message (hmessage : expected.message ≠ found.message) :
    Differ expected found (.message expected.message found.message)
  | childCount (hcount : expected.children.length ≠ found.children.length) :
    Differ expected found (.childCount expected.children.length found.children.length)

/-- Two nodes at the same place of two trees, where the nodes above them agree in
kind. -/
inductive Paired : Node → Node → List Nat → Node → Node → Prop
  | here (expected found : Node) : Paired expected found [] expected found
  | child {expected found child child' inner inner' : Node} {index : Nat} {path : List Nat}
    (hkind : expected.kind = found.kind) (hchild : expected.children[index]? = some child)
    (hchild' : found.children[index]? = some child')
    (hinner : Paired child child' path inner inner') :
    Paired expected found (index :: path) inner inner'

/-- The place of a node as the indexes that lead to it. -/
theorem descendant?_cons (node : Node) (index : Nat) (path : List Nat) :
    node.descendant? ((index :: path).map Int.ofNat) =
      (node.children[index]?).bind fun child => child.descendant? (path.map Int.ofNat) := by
  have hitem : itemAt? node.children (Int.ofNat index) = node.children[index]? := by
    have hnonneg : ¬ Int.ofNat index < 0 := Int.not_lt.2 (Int.natCast_nonneg index)
    rw [itemAt?, if_neg hnonneg, if_neg hnonneg, Int.ofNat_eq_natCast, Int.toNat_natCast]
  rw [List.map_cons, descendant?, List.foldlM_cons, hitem]
  rfl

namespace Paired

variable {expected found inner inner' : Node} {path : List Nat}

theorem leads_left (hpaired : Paired expected found path inner inner') :
    expected.descendant? (path.map Int.ofNat) = some inner := by
  induction hpaired with
  | here => rfl
  | child _ hchild _ _ ih => rw [descendant?_cons, hchild, Option.bind_some, ih]

theorem leads_right (hpaired : Paired expected found path inner inner') :
    found.descendant? (path.map Int.ofNat) = some inner' := by
  induction hpaired with
  | here => rfl
  | child _ _ hchild' _ ih => rw [descendant?_cons, hchild', Option.bind_some, ih]

/-- Every place above a pair is one of a pair too, and the nodes there are of one
kind. -/
theorem above (hpaired : Paired expected found path inner inner') {front : List Nat} {index : Nat}
    (hfront : front ++ [index] <+: path) :
    ∃ outer outer', Paired expected found front outer outer' ∧ outer.kind = outer'.kind := by
  induction hpaired generalizing front with
  | here => simp at hfront
  | @child expected found _ _ _ _ _ _ hkind hchild hchild' _ ih =>
    cases front with
    | nil => exact ⟨expected, found, here expected found, hkind⟩
    | cons first front =>
      rw [List.cons_append, List.cons_prefix_cons] at hfront
      obtain ⟨rfl, hfront⟩ := hfront
      obtain ⟨outer, outer', houter, hagree⟩ := ih hfront
      exact ⟨outer, outer', child hkind hchild hchild' houter, hagree⟩

end Paired

/-- A mismatch names a place of two trees and a part in which the nodes there
differ. -/
def Tells (expected found : Node) (mismatch : Mismatch) : Prop :=
  ∃ inner inner', Paired expected found mismatch.path inner inner' ∧
    Differ inner inner' mismatch.aspect

/-! ## Every mismatch is one -/

theorem differ_of_mem_ownDifferences {path : List Nat} {expected found : Node}
    {mismatch : Mismatch} (hmismatch : mismatch ∈ ownDifferences path expected found) :
    mismatch.path = path ∧ Differ expected found mismatch.aspect := by
  simp only [ownDifferences, List.mem_append, or_assoc] at hmismatch
  obtain htext | hmessage | hcount := hmismatch
  · split at htext
    · cases htext
    · next hdiffers =>
      obtain rfl := List.mem_singleton.1 htext
      exact ⟨rfl, .text hdiffers⟩
  · split at hmessage
    · cases hmessage
    · next hdiffers =>
      obtain rfl := List.mem_singleton.1 hmessage
      exact ⟨rfl, .message hdiffers⟩
  · split at hcount
    · cases hcount
    · next hdiffers =>
      obtain rfl := List.mem_singleton.1 hcount
      exact ⟨rfl, .childCount hdiffers⟩

mutual

/-- What a comparison lists at and below a path is a difference between two nodes
below it. -/
theorem tells_of_mem_differencesAt (path : List Nat) : ∀ (expected found : Node)
    (mismatch : Mismatch), mismatch ∈ differencesAt path expected found →
      ∃ below, mismatch.path = path ++ below ∧ Tells expected found ⟨below, mismatch.aspect⟩
  | ⟨kind, text, children, span, message⟩, found, mismatch => by
    intro hmismatch
    rw [differencesAt] at hmismatch
    split at hmismatch
    · next hkind =>
      obtain hown | hbelow := List.mem_append.1 hmismatch
      · obtain ⟨hpath, hdiffer⟩ := differ_of_mem_ownDifferences hown
        exact ⟨[], by rw [hpath, List.append_nil], _, _, .here _ _, hdiffer⟩
      · obtain ⟨offset, below, child, child', hpath, hchild, hchild', inner, inner', hpaired,
          hdiffer⟩ := tells_of_mem_differencesIn path 0 children found.children mismatch hbelow
        rw [Nat.zero_add] at hpath
        exact ⟨offset :: below, hpath, inner, inner', .child hkind hchild hchild' hpaired, hdiffer⟩
    · next hkind =>
      obtain rfl := List.mem_singleton.1 hmismatch
      exact ⟨[], (List.append_nil path).symm, _, _, .here _ _, .kind hkind⟩

theorem tells_of_mem_differencesIn (path : List Nat) (index : Nat) :
    ∀ (expecteds founds : List Node) (mismatch : Mismatch),
      mismatch ∈ differencesIn path index expecteds founds →
        ∃ offset below child child', mismatch.path = path ++ (index + offset) :: below ∧
          expecteds[offset]? = some child ∧ founds[offset]? = some child' ∧
          Tells child child' ⟨below, mismatch.aspect⟩
  | [], _, _ => by simp [differencesIn]
  | _ :: _, [], _ => by simp [differencesIn]
  | expected :: expecteds, found :: founds, mismatch => by
    intro hmismatch
    rw [differencesIn] at hmismatch
    obtain hfirst | hbehind := List.mem_append.1 hmismatch
    · obtain ⟨below, hpath, htells⟩ :=
        tells_of_mem_differencesAt (path ++ [index]) expected found mismatch hfirst
      exact ⟨0, below, expected, found, by simpa using hpath, rfl, rfl, htells⟩
    · obtain ⟨offset, below, child, child', hpath, hchild, hchild', htells⟩ :=
        tells_of_mem_differencesIn path (index + 1) expecteds founds mismatch hbehind
      have hindex : index + 1 + offset = index + (offset + 1) := by omega
      exact ⟨offset + 1, below, child, child', by rw [hpath, hindex], hchild, hchild', htells⟩

end

/-! ## Trees without a mismatch are equal -/

/-- Trees are equal apart from their numbers if the roots agree in everything but
the number and the children are equal apart from theirs. -/
theorem erase_eq_iff {left right : Node} : left.erase = right.erase ↔
    left.kind = right.kind ∧ left.text = right.text ∧ left.message = right.message ∧
      left.children.map erase = right.children.map erase := by
  rcases left with ⟨kind, text, children, span, message⟩
  rcases right with ⟨kind', text', children', span', message'⟩
  have herase : (erase : Node → Node) = withSpan detached := rfl
  simp only [herase, withSpan, withSpanOf_eq_map, mk.injEq, true_and]
  rw [and_comm (a := children.map _ = _)]

theorem erase_erase (node : Node) : node.erase.erase = node.erase := by
  induction node using induction with
  | step node ih =>
    rw [erase_eq_iff, children_erase, List.map_map]
    refine ⟨kind_withSpan _ _, text_withSpan _ _, by cases node; rfl, ?_⟩
    exact List.map_congr_left ih

theorem ownDifferences_eq_nil_iff {path : List Nat} {expected found : Node} :
    ownDifferences path expected found = [] ↔ expected.text = found.text ∧
      expected.message = found.message ∧
      expected.children.length = found.children.length := by
  simp [ownDifferences]

mutual

theorem differencesAt_eq_nil_iff (path : List Nat) : ∀ expected found : Node,
    differencesAt path expected found = [] ↔ expected.erase = found.erase
  | ⟨kind, text, children, span, message⟩, found => by
    rw [differencesAt, erase_eq_iff]
    by_cases hkind : kind = found.kind
    · rw [if_pos hkind, List.append_eq_nil_iff, ownDifferences_eq_nil_iff]
      constructor
      · rintro ⟨⟨htext, hmessage, hlength⟩, hchildren⟩
        have hmap := (differencesIn_eq_nil_iff path 0 children found.children hlength).1 hchildren
        exact ⟨hkind, htext, hmessage, hmap⟩
      · rintro ⟨-, htext, hmessage, hmap⟩
        have hlength : children.length = found.children.length := by
          simpa using congrArg List.length hmap
        have hchildren := (differencesIn_eq_nil_iff path 0 children found.children hlength).2 hmap
        exact ⟨⟨htext, hmessage, hlength⟩, hchildren⟩
    · simp [hkind]

/-- The children are compared up to the shorter list, so nothing is left out only
where there are as many on both sides. -/
theorem differencesIn_eq_nil_iff (path : List Nat) (index : Nat) : ∀ expecteds founds : List Node,
    expecteds.length = founds.length →
      (differencesIn path index expecteds founds = [] ↔
        expecteds.map erase = founds.map erase)
  | [], [], _ => by simp [differencesIn]
  | [], _ :: _, hlength => by simp at hlength
  | _ :: _, [], hlength => by simp at hlength
  | expected :: expecteds, found :: founds, hlength => by
    have hfirst := differencesAt_eq_nil_iff (path ++ [index]) expected found
    have hbehind := differencesIn_eq_nil_iff path (index + 1) expecteds founds
      (Nat.succ.inj hlength)
    rw [differencesIn, List.append_eq_nil_iff, hfirst, hbehind, List.map_cons, List.map_cons,
      List.cons.injEq]

end

end Node

end Galley.Syntax

namespace Galley.Fuzz

open Syntax Node

/-- A divergence is found between the two trees without their numbers, and only if
these are not equal. -/
theorem Finding.of_divergence_mem_ofTrees {reference found expected left : Node}
    {text edited : String}
    (hdivergence : divergence expected left edited ∈ ofTrees reference found text) :
    expected = reference.erase ∧ left = found.erase ∧ reference.erase ≠ found.erase := by
  rw [ofTrees, List.mem_append] at hdivergence
  obtain hviolation | hdifferent := hdivergence
  · have hname : "reparse-divergence" = "span-order" :=
      kindName_of_mem_firstViolation hviolation
    exact absurd hname (by decide)
  · split at hdifferent
    · cases hdifferent
    · next hne =>
      cases List.mem_singleton.1 hdifferent
      exact ⟨rfl, rfl, hne⟩

/-- Every divergence of a trial lists a mismatch. -/
theorem mismatches_ne_nil {reparser : Reparser} {text : String} {mutation : Mutation}
    {failures : List TrialFailure} (hrun : runTrial reparser text mutation = .ok failures)
    {failure : TrialFailure} (hfailure : failure ∈ failures) {reference left : Node}
    {edited : String} (hdivergence : failure.finding = .divergence reference left edited) :
    failure.mismatches ≠ [] := by
  obtain ⟨source, -, rfl⟩ := exists_left_of_runTrial hrun
  obtain ⟨finding, hfinding, rfl⟩ := List.mem_map.1 hfailure
  subst hdivergence
  split at hfinding
  · next hlength =>
    -- A wrong length is found alone.
    rw [← List.mem_singleton.1 hfinding, Finding.ofLength?] at hlength
    split at hlength <;> cases hlength
  · obtain ⟨rfl, rfl, hne⟩ := Finding.of_divergence_mem_ofTrees hfinding
    intro hnone
    have herase := (differencesAt_eq_nil_iff [] _ _).1 hnone
    rw [erase_erase, erase_erase] at herase
    exact hne herase

/-- A comparison finds nothing exactly in trees that are equal apart from their
numbers.  Whatever it lists comes with a path that leads to a node in both trees,
through nodes that agree in kind, and with a part in which these two nodes differ
and their values of it.  So a trial never reports a divergence without one. -/
theorem comparison_exact (expected found : Node) :
    (expected.differences found = [] ↔ expected.erase = found.erase) ∧
    (∀ mismatch ∈ expected.differences found, ∃ inner inner',
      expected.descendant? (mismatch.path.map Int.ofNat) = some inner ∧
      found.descendant? (mismatch.path.map Int.ofNat) = some inner' ∧
      (∀ front index, front ++ [index] <+: mismatch.path → ∃ outer outer',
        expected.descendant? (front.map Int.ofNat) = some outer ∧
        found.descendant? (front.map Int.ofNat) = some outer' ∧ outer.kind = outer'.kind) ∧
      Differ inner inner' mismatch.aspect) ∧
    ∀ (reparser : Reparser) (text : String) (mutation : Mutation) (failures : List TrialFailure),
      runTrial reparser text mutation = .ok failures →
        ∀ failure ∈ failures, ∀ reference left edited,
          failure.finding = .divergence reference left edited → failure.mismatches ≠ [] := by
  refine ⟨differencesAt_eq_nil_iff [] expected found, ?_, ?_⟩
  · intro mismatch hmismatch
    obtain ⟨path, hpath, inner, inner', hpaired, hdiffer⟩ :=
      tells_of_mem_differencesAt [] expected found mismatch hmismatch
    rw [List.nil_append] at hpath
    rw [hpath]
    refine ⟨inner, inner', hpaired.leads_left, hpaired.leads_right, ?_, hdiffer⟩
    intro front index hfront
    obtain ⟨outer, outer', houter, hkind⟩ := hpaired.above hfront
    exact ⟨outer, outer', houter.leads_left, houter.leads_right, hkind⟩
  · intro reparser text mutation failures hrun failure hfailure reference left edited hdivergence
    exact mismatches_ne_nil hrun hfailure hdivergence

end Galley.Fuzz
