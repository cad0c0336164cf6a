import Galley.Note.Basic
import Mathlib.Data.List.Basic

/-!
# Comparing notes

Notes are compared after they are sorted by where they start.  The sort keeps
notes that start together in the order in which they came, so two lists compare
equal if they hold the same notes at every start and in the same order there.
-/

namespace Galley.Note

theorem startsBefore_iff {first second : Note} :
    startsBefore first second = true ↔ first.start ≤ second.start :=
  decide_eq_true_iff

theorem startsBefore_trans (first second third : Note) (hfirst : startsBefore first second = true)
    (hsecond : startsBefore second third = true) : startsBefore first third = true :=
  startsBefore_iff.2 (Int.le_trans (startsBefore_iff.1 hfirst) (startsBefore_iff.1 hsecond))

theorem startsBefore_total (first second : Note) :
    (startsBefore first second || startsBefore second first) = true := by
  rw [Bool.or_eq_true, startsBefore_iff, startsBefore_iff]
  exact Int.le_total _ _

theorem perm_sorted (notes : List Note) : (sorted notes).Perm notes :=
  List.mergeSort_perm _ _

theorem pairwise_sorted (notes : List Note) :
    (sorted notes).Pairwise fun first second => first.start ≤ second.start :=
  (List.pairwise_mergeSort startsBefore_trans startsBefore_total notes).imp startsBefore_iff.1

/-- The notes that start at one place. -/
def startingAt (start : Int) (notes : List Note) : List Note :=
  notes.filter fun note => note.start = start

theorem mem_startingAt {start : Int} {notes : List Note} {note : Note} :
    note ∈ startingAt start notes ↔ note ∈ notes ∧ note.start = start := by
  rw [startingAt, List.mem_filter, decide_eq_true_iff]

/-- Notes that start together keep their order. -/
theorem startingAt_sorted (start : Int) (notes : List Note) :
    startingAt start (sorted notes) = startingAt start notes := by
  have htogether : (startingAt start notes).Pairwise
      fun first second => startsBefore first second = true := by
    refine List.pairwise_of_forall_mem_list fun first hfirst second hsecond => ?_
    have hsame := (mem_startingAt.1 hfirst).2.trans (mem_startingAt.1 hsecond).2.symm
    exact startsBefore_iff.2 (Int.le_of_eq hsame)
  have hsublist : (startingAt start notes).Sublist (sorted notes) :=
    List.sublist_mergeSort startsBefore_trans startsBefore_total htogether List.filter_sublist
  have hinner : (startingAt start notes).Sublist (startingAt start (sorted notes)) := by
    have hfilter := hsublist.filter fun note => decide (note.start = start)
    rwa [List.filter_eq_self.2 fun note hnote => decide_eq_true (mem_startingAt.1 hnote).2]
      at hfilter
  exact (hinner.eq_of_length ((perm_sorted notes).filter _).length_eq.symm).symm

theorem mem_iff_of_startingAt_eq {left right : List Note}
    (hsame : ∀ start, startingAt start left = startingAt start right) (note : Note) :
    note ∈ left ↔ note ∈ right := by
  have hnote := congrArg (note ∈ ·) (hsame note.start)
  simpa only [mem_startingAt, and_true, eq_iff_iff] using hnote

/-- Sorted lists are told apart by what starts at some place. -/
theorem eq_of_startingAt_eq {left right : List Note}
    (hleft : left.Pairwise fun first second => first.start ≤ second.start)
    (hright : right.Pairwise fun first second => first.start ≤ second.start)
    (hsame : ∀ start, startingAt start left = startingAt start right) : left = right := by
  have hmem := mem_iff_of_startingAt_eq hsame
  induction left generalizing right with
  | nil =>
    cases right with
    | nil => rfl
    | cons first right => cases (hmem first).2 List.mem_cons_self
  | cons first left ih =>
    cases right with
    | nil => cases (hmem first).1 List.mem_cons_self
    | cons second right =>
      obtain ⟨hfirst, hleftRest⟩ := List.pairwise_cons.1 hleft
      obtain ⟨hsecond, hrightRest⟩ := List.pairwise_cons.1 hright
      -- Each head comes before all of the other list, so both start at the same place.
      have hle : first.start ≤ second.start := by
        obtain rfl | hmem := List.mem_cons.1 ((hmem second).2 List.mem_cons_self)
        · exact Int.le_refl _
        · exact hfirst _ hmem
      have hge : second.start ≤ first.start := by
        obtain rfl | hmem := List.mem_cons.1 ((hmem first).1 List.mem_cons_self)
        · exact Int.le_refl _
        · exact hsecond _ hmem
      have hstart : second.start = first.start := Int.le_antisymm hge hle
      have hheads := hsame first.start
      rw [startingAt, startingAt, List.filter_cons_of_pos (by simp),
        List.filter_cons_of_pos (by simpa using hstart)] at hheads
      obtain rfl := (List.cons_eq_cons.1 hheads).1
      have htails : ∀ start, startingAt start left = startingAt start right := by
        intro start
        have hboth := hsame start
        rw [startingAt, startingAt, List.filter_cons, List.filter_cons] at hboth
        split at hboth
        · exact (List.cons_eq_cons.1 hboth).2
        · exact hboth
      rw [ih hleftRest hrightRest htails (mem_iff_of_startingAt_eq htails)]

variable {expected emitted : List Note}

theorem ok_compare_iff :
    (compare expected emitted).ok = true ↔ sorted expected = sorted emitted := by
  rw [compare]
  split <;> simp_all

theorem perm_of_sorted_eq (hsorted : sorted expected = sorted emitted) :
    expected.Perm emitted :=
  (perm_sorted expected).symm.trans ((List.Perm.of_eq hsorted).trans (perm_sorted emitted))

/-- Notes that are equal wherever they start together have one order only. -/
theorem startingAt_eq_of_perm
    (halone : ∀ first ∈ expected, ∀ second ∈ expected, first.start = second.start → first = second)
    (hperm : expected.Perm emitted) (start : Int) :
    startingAt start expected = startingAt start emitted := by
  have hinner : (startingAt start expected).Perm (startingAt start emitted) := hperm.filter _
  cases hnotes : startingAt start expected with
  | nil =>
    rw [hnotes] at hinner
    exact hinner.nil_eq
  | cons first rest =>
    have hall : ∀ note ∈ startingAt start expected, note = first := by
      intro note hnote
      have hfirst : first ∈ startingAt start expected := hnotes ▸ List.mem_cons_self
      obtain ⟨hfirst, hstart⟩ := mem_startingAt.1 hfirst
      obtain ⟨hnote, hsame⟩ := mem_startingAt.1 hnote
      exact halone note hnote first hfirst (hsame.trans hstart.symm)
    have hreplicate := List.eq_replicate_iff.2 ⟨rfl, hall⟩
    rw [hreplicate] at hinner
    rw [← hnotes, hreplicate]
    exact (List.perm_replicate.1 hinner.symm).symm

/-- A list can be put in an order that begins with any of its notes. -/
theorem head_of_startingAt_erase (notes : List Note) (note : Note) :
    ∃ rest, startingAt note.start (note :: notes.erase note) = note :: rest := by
  rw [startingAt, List.filter_cons_of_pos (by simp)]
  exact ⟨_, rfl⟩

/-- The comparison accepts two lists exactly if they hold the same notes at every start
and in the same order there.  So the order of the lists does not matter exactly for
those in which notes that start together are equal. -/
theorem compare_respects_ties (notes : List Note) :
    (∀ expected emitted, (compare expected emitted).ok = true ↔
      ∀ start, startingAt start expected = startingAt start emitted) ∧
    ((∀ expected emitted, expected.Perm notes →
        ((compare expected emitted).ok = true ↔ expected.Perm emitted)) ↔
      ∀ first ∈ notes, ∀ second ∈ notes, first.start = second.start → first = second) := by
  have hok : ∀ expected emitted, (compare expected emitted).ok = true ↔
      ∀ start, startingAt start expected = startingAt start emitted := by
    intro expected emitted
    rw [ok_compare_iff]
    constructor
    · intro hsorted start
      rw [← startingAt_sorted, hsorted, startingAt_sorted]
    · intro hsame
      refine eq_of_startingAt_eq (pairwise_sorted _) (pairwise_sorted _) fun start => ?_
      rw [startingAt_sorted, startingAt_sorted, hsame]
  refine ⟨hok, ?_, ?_⟩
  · intro hblind first hfirst second hsecond hstart
    have hone := List.perm_cons_erase hfirst
    have hother := List.perm_cons_erase hsecond
    have hsame := (hok _ _).1 ((hblind _ _ hone.symm).2 (hone.symm.trans hother)) first.start
    obtain ⟨rest, hrest⟩ := head_of_startingAt_erase notes first
    obtain ⟨others, hothers⟩ := head_of_startingAt_erase notes second
    rw [hrest, hstart, hothers] at hsame
    exact (List.cons_eq_cons.1 hsame).1
  · intro halone expected emitted hexpected
    refine ⟨fun haccepted => perm_of_sorted_eq (ok_compare_iff.1 haccepted), fun hperm => ?_⟩
    refine (hok _ _).2 (startingAt_eq_of_perm ?_ hperm)
    intro first hfirst second hsecond
    exact halone first (hexpected.mem_iff.1 hfirst) second (hexpected.mem_iff.1 hsecond)

/-- Two notes at one start, expected in one order and emitted in the other, are
rejected, and nothing is left to show for it. -/
theorem compare_rejects_swapped :
    [(⟨0, 1, "a"⟩ : Note), ⟨0, 1, "b"⟩].Perm [⟨0, 1, "b"⟩, ⟨0, 1, "a"⟩] ∧
    compare [⟨0, 1, "a"⟩, ⟨0, 1, "b"⟩] [⟨0, 1, "b"⟩, ⟨0, 1, "a"⟩] = ⟨false, [], []⟩ := by
  have hexpected : sorted [⟨0, 1, "a"⟩, ⟨0, 1, "b"⟩] = [⟨0, 1, "a"⟩, ⟨0, 1, "b"⟩] :=
    List.mergeSort_of_pairwise (by decide)
  have hemitted : sorted [⟨0, 1, "b"⟩, ⟨0, 1, "a"⟩] = [⟨0, 1, "b"⟩, ⟨0, 1, "a"⟩] :=
    List.mergeSort_of_pairwise (by decide)
  refine ⟨.swap _ _ _, ?_⟩
  rw [compare, hexpected, hemitted]
  decide

end Galley.Note
