import Galley.Fuzz.Trial
import Galley.Proofs.Edit.Order

/-!
# A trial sees every fault and no other

A trial judges the tree that some reparser leaves in an edited source.  The clean
parse that it compares with has the length of its text and its spans in order,
so every finding is a fault of the tree that was left, and a tree without a
finding is the tree of its text with its spans in order.
-/

namespace Galley.Fuzz

open Syntax Node

/-- The reparser that always answers, with a tree or without one. -/
def answering (update : Node → List Char → Nat → Nat → Nat → Option Node) : Reparser :=
  fun root chars start oldEnd newEnd => .ok (update root chars start oldEnd newEnd)

/-- The mutation replaces whole characters of a text and makes another one of it. -/
def Mutation.Turns (mutation : Mutation) (text edited : String) : Prop :=
  ∃ before middle after,
    text.toList = before ++ middle ++ after ∧
    mutation.start = Text.byteLength before ∧
    mutation.stop = Text.byteLength (before ++ middle) ∧
    edited = String.ofList (before ++ mutation.replacement.toList ++ after)

/-- The edit of a trial is accepted, and what the source holds from then on is
the edited text with the tree that the reparser left. -/
theorem Mutation.Turns.exists_left {mutation : Mutation} {text edited : String}
    (hturns : mutation.Turns text edited)
    (update : Node → List Char → Nat → Nat → Nat → Option Node) :
    ∃ left, (Source.detached text).editWith (answering update) mutation.start mutation.stop
      mutation.replacement = .ok left ∧ left.text = edited := by
  obtain ⟨before, middle, after, hchars, hstart, hstop, rfl⟩ := hturns
  have hsource : (Source.detached text).chars = before ++ middle ++ after := hchars
  rw [hstart, hstop, Source.editWith_of_chars _ _ hsource]
  exact ⟨_, rfl, rfl⟩

namespace Finding

theorem ofLength?_eq_none_iff {source : Source} :
    ofLength? source = none ↔ source.root.byteLen = source.byteLen := by
  rw [ofLength?]
  split <;> simp_all

/-- The tree of a text has its length. -/
theorem ofLength?_detached (text : String) : ofLength? (Source.detached text) = none := by
  rw [ofLength?_eq_none_iff, Source.detached, Source.new, byteLen_eq, chars_parse]
  rfl

/-- A clean parse is in order, so a violation is one of the tree that was left. -/
theorem ofTrees_parse {edited : String} (hfits : Fits (parse edited)) (found : Node) :
    ofTrees (parse edited) found edited =
      (found.spanViolation.map fun violation => spanOrder violation.erase).toList ++
        if (parse edited).erase = found.erase then []
        else [divergence (parse edited).erase found.erase edited] := by
  have hclean : (parse edited).spanViolation = none := by
    have horder := (WellNumbered.numberRoot hfits).order
    rw [spanViolation, checkSpans_eq_none_iff]
    exact horder.mono (by decide) (by decide)
  rw [ofTrees, firstViolation, hclean]
  cases hfound : found.spanViolation <;> simp [firstViolation, hfound]

/-- The comparison finds nothing exactly in the tree of the text with its spans in
order. -/
theorem ofTrees_parse_eq_nil_iff {edited : String} (hfits : Fits (parse edited)) {found : Node} :
    ofTrees (parse edited) found edited = [] ↔
      found.erase = (parse edited).erase ∧ found.spanViolation = none := by
  rw [ofTrees_parse hfits, List.append_eq_nil_iff]
  cases hfound : found.spanViolation with
  | none =>
    by_cases hsame : (parse edited).erase = found.erase
    · simp [hsame]
    · simp [hsame, Ne.symm hsame]
  | some violation => simp

theorem kindName_of_mem_firstViolation {roots : List Node} {finding : Finding}
    (hfinding : finding ∈ firstViolation roots) : finding.kindName = "span-order" := by
  induction roots with
  | nil => cases hfinding
  | cons root roots ih =>
    rw [firstViolation] at hfinding
    split at hfinding
    · obtain rfl := List.mem_singleton.1 hfinding
      rfl
    · exact ih hfinding

/-- Nothing that the comparison finds is about lengths. -/
theorem kindName_of_mem_ofTrees {reference found : Node} {edited : String} {finding : Finding}
    (hfinding : finding ∈ ofTrees reference found edited) :
    finding.kindName ≠ "tree-length" := by
  rw [ofTrees, List.mem_append] at hfinding
  obtain hviolation | hdivergence := hfinding
  · rw [kindName_of_mem_firstViolation hviolation]
    decide
  · split at hdivergence
    · cases hdivergence
    · obtain rfl := List.mem_singleton.1 hdivergence
      exact (by decide : "reparse-divergence" ≠ "tree-length")

end Finding

/-- The tree in front of the mutation is never to blame, so a trial judges the
tree behind it: first its length, and then everything else about it. -/
theorem runTrial_of_left {reparser : Reparser} {text : String} {mutation : Mutation}
    {left : Source} (hleft : (Source.detached text).editWith reparser mutation.start
      mutation.stop mutation.replacement = .ok left) :
    runTrial reparser text mutation =
      .ok ((match Finding.ofLength? left with
        | some finding => [finding]
        | none => Finding.ofTrees (parse left.text) left.root left.text).map
          (TrialFailure.mk mutation)) := by
  rw [runTrial]
  dsimp only
  rw [Finding.ofLength?_detached, hleft]
  rfl

/-- A trial that comes to its end has judged the source that its edit left. -/
theorem exists_left_of_runTrial {reparser : Reparser} {text : String} {mutation : Mutation}
    {failures : List TrialFailure} (hrun : runTrial reparser text mutation = .ok failures) :
    ∃ left, (Source.detached text).editWith reparser mutation.start mutation.stop
        mutation.replacement = .ok left ∧
      failures = (match Finding.ofLength? left with
        | some finding => [finding]
        | none => Finding.ofTrees (parse left.text) left.root left.text).map
          (TrialFailure.mk mutation) := by
  cases hleft : (Source.detached text).editWith reparser mutation.start mutation.stop
      mutation.replacement with
  | error failure =>
    rw [runTrial] at hrun
    dsimp only at hrun
    rw [Finding.ofLength?_detached, hleft] at hrun
    cases hrun
  | ok left =>
    rw [runTrial_of_left hleft] at hrun
    exact ⟨left, rfl, (Except.ok.inj hrun).symm⟩

/-- A trial has no false alarms and misses nothing, whatever reparser it tries:
it finds something unless the tree that is left is the one of the edited text
with its spans in order, and a wrong length is found exactly where there is one,
and then alone. -/
theorem trial_exact (update : Node → List Char → Nat → Nat → Nat → Option Node)
    {text edited : String} {mutation : Mutation} (hturns : mutation.Turns text edited)
    (hfits : ((parse edited).size : Int) ≤ upperSpan - firstSpan) :
    ∃ left failures,
      (Source.detached text).editWith (answering update) mutation.start mutation.stop
        mutation.replacement = .ok left ∧
      left.text = edited ∧
      runTrial (answering update) text mutation = .ok failures ∧
      (failures = [] ↔
        left.root.erase = (parse edited).erase ∧ left.root.spanViolation = none) ∧
      (failures = [⟨mutation, .treeLength left.root.byteLen edited.utf8ByteSize⟩] ↔
        left.root.byteLen ≠ edited.utf8ByteSize) ∧
      ∀ failure ∈ failures, failure.finding.kindName = "tree-length" →
        left.root.byteLen ≠ edited.utf8ByteSize := by
  obtain ⟨left, hleft, rfl⟩ := hturns.exists_left update
  have hlength : left.byteLen = left.text.utf8ByteSize := byteLength_toList left.text
  refine ⟨left, _, hleft, rfl, runTrial_of_left hleft, ?_⟩
  by_cases hwrong : left.root.byteLen = left.byteLen
  · have hcheck : Finding.ofLength? left = none := Finding.ofLength?_eq_none_iff.2 hwrong
    rw [hcheck]
    dsimp only
    have hkind : ∀ failure ∈ (Finding.ofTrees (parse left.text) left.root left.text).map
        (TrialFailure.mk mutation), failure.finding.kindName ≠ "tree-length" := by
      intro failure hfailure
      obtain ⟨finding, hfinding, rfl⟩ := List.mem_map.1 hfailure
      exact Finding.kindName_of_mem_ofTrees hfinding
    refine ⟨?_, ⟨?_, ?_⟩, ?_⟩
    · rw [List.map_eq_nil_iff, Finding.ofTrees_parse_eq_nil_iff hfits]
    · intro halone
      rw [halone] at hkind
      exact absurd rfl (hkind _ List.mem_cons_self)
    · intro hother
      exact absurd (hwrong.trans hlength) hother
    · intro failure hfailure htree
      exact absurd htree (hkind failure hfailure)
  · have hdiffers : left.root.erase ≠ (parse left.text).erase := by
      intro hsame
      apply hwrong
      rw [byteLen_eq, chars_eq_of_erase_eq hsame, chars_parse]
      rfl
    rw [Finding.ofLength?, if_pos hwrong, hlength]
    rw [hlength] at hwrong
    simp [hdiffers, hwrong]

/-- A reparser that leaves the tree as it was, in front of a mutation that keeps the
length and changes the text. -/
theorem trial_exact_stale :
    Mutation.Turns ⟨2, 4, "x "⟩ "a é*" "a x *" ∧
    ((parse "a x *").size : Int) ≤ upperSpan - firstSpan ∧
    ∃ left failures,
      (Source.detached "a é*").editWith (answering fun root _ _ _ _ => some root) 2 4 "x " =
        .ok left ∧
      left.text = "a x *" ∧
      runTrial (answering fun root _ _ _ _ => some root) "a é*" ⟨2, 4, "x "⟩ = .ok failures ∧
      (failures = [] ↔
        left.root.erase = (parse "a x *").erase ∧ left.root.spanViolation = none) ∧
      (failures = [⟨⟨2, 4, "x "⟩, .treeLength left.root.byteLen "a x *".utf8ByteSize⟩] ↔
        left.root.byteLen ≠ "a x *".utf8ByteSize) ∧
      ∀ failure ∈ failures, failure.finding.kindName = "tree-length" →
        left.root.byteLen ≠ "a x *".utf8ByteSize :=
  have hturns : Mutation.Turns ⟨2, 4, "x "⟩ "a é*" "a x *" :=
    ⟨['a', ' '], ['é'], ['*'], by decide, by decide, by decide, by decide⟩
  have hfits : ((parse "a x *").size : Int) ≤ upperSpan - firstSpan := by decide +kernel
  ⟨hturns, hfits, trial_exact (fun root _ _ _ _ => some root) hturns hfits⟩

end Galley.Fuzz
