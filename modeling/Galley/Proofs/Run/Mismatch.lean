import Galley.Proofs.Note.Comparison
import Galley.Proofs.Run.Findings
import Mathlib.Data.Multiset.AddSub

/-!
# What a mismatch shows

The verdict on two lists of notes depends on how often a note stands in them and
on the order of notes that start together.  What is shown for a mismatch depends
only on which notes stand in them at all: each note of one list that the other
one lacks, as often as it stands there.  So what is shown is the difference of the
lists exactly if no note that both have is more frequent on the side it is taken
from, and nothing is shown exactly if both lists have the same notes.
-/

namespace Galley.Note

variable {expected emitted : List Note}

theorem mem_sorted {note : Note} {notes : List Note} : note ∈ sorted notes ↔ note ∈ notes :=
  (perm_sorted notes).mem_iff

theorem count_sorted (note : Note) (notes : List Note) :
    (sorted notes).count note = notes.count note :=
  (perm_sorted notes).count_eq note

/-! ## What one list has and the other one lacks -/

/-- The notes of a list that another list lacks, by where they start. -/
def lackedBy (others notes : List Note) : List Note :=
  (sorted notes).filter fun note => !others.contains note

theorem mem_lackedBy {others notes : List Note} {note : Note} :
    note ∈ lackedBy others notes ↔ note ∈ notes ∧ note ∉ others := by
  rw [lackedBy, List.mem_filter, mem_sorted, Bool.not_eq_true', ← Bool.not_eq_true,
    List.contains_iff_mem]

theorem lackedBy_sorted (others notes : List Note) :
    lackedBy (sorted others) notes = lackedBy others notes :=
  List.filter_congr fun _ _ => congrArg _ ((perm_sorted others).contains_eq)

theorem count_lackedBy (others notes : List Note) (note : Note) :
    (lackedBy others notes).count note = if note ∈ others then 0 else notes.count note := by
  split
  · rename_i hothers
    exact List.count_eq_zero.2 fun hlacked => (mem_lackedBy.1 hlacked).2 hothers
  · rename_i hothers
    rw [lackedBy, List.count_filter (by simpa using hothers), count_sorted]

theorem lackedBy_eq_nil_iff {others notes : List Note} :
    lackedBy others notes = [] ↔ ∀ note ∈ notes, note ∈ others := by
  rw [List.eq_nil_iff_forall_not_mem]
  refine forall_congr' fun note => ?_
  rw [mem_lackedBy, not_and, not_not]

/-- The notes that are lacking are the difference of the lists if the notes that are not
lacking are no more frequent than in the other list. -/
theorem coe_lackedBy_eq_sub_iff (others notes : List Note) :
    (lackedBy others notes : Multiset Note) = (notes : Multiset Note) - (others : Multiset Note) ↔
      ∀ note ∈ others, notes.count note ≤ others.count note := by
  rw [Multiset.ext]
  refine forall_congr' fun note => ?_
  rw [Multiset.coe_count, Multiset.count_sub, Multiset.coe_count, Multiset.coe_count,
    count_lackedBy]
  by_cases hothers : note ∈ others
  · rw [if_pos hothers]
    exact ⟨fun hzero _ => Nat.sub_eq_zero_iff_le.1 hzero.symm,
      fun hle => (Nat.sub_eq_zero_of_le (hle hothers)).symm⟩
  · rw [if_neg hothers, List.count_eq_zero.2 hothers, Nat.sub_zero]
    exact ⟨fun _ hmem => absurd hmem hothers, fun _ => rfl⟩

/-! ## What a comparison shows -/

/-- A comparison shows what each list lacks, whether or not it accepts them. -/
theorem compare_shows (expected emitted : List Note) :
    (compare expected emitted).unexpected = lackedBy expected emitted ∧
      (compare expected emitted).missing = lackedBy emitted expected := by
  rw [compare]
  split
  · rename_i hsorted
    have hperm := perm_of_sorted_eq hsorted
    exact ⟨(lackedBy_eq_nil_iff.2 fun note => hperm.mem_iff.2).symm,
      (lackedBy_eq_nil_iff.2 fun note => hperm.mem_iff.1).symm⟩
  · exact ⟨lackedBy_sorted expected emitted, lackedBy_sorted emitted expected⟩

end Galley.Note

namespace Galley.Run

open Compile File Check

variable {α : Type}

/-- A step comes to its end and adds some entries to the report. -/
def Tells (action : Check Unit) (entries : List Entry) : Prop :=
  ∀ progress, ∃ after, action progress = (.ok (), after) ∧
    after.report.entries = progress.report.entries ++ entries

namespace Tells

theorem pure : Tells (pure ()) [] :=
  fun progress => ⟨progress, rfl, (List.append_nil _).symm⟩

theorem blame (entry : Entry) : Tells (blame entry) [entry] :=
  fun progress => ⟨(Check.blame entry progress).2, rfl, rfl⟩

theorem seq {first second : Check Unit} {front behind : List Entry} (hfirst : Tells first front)
    (hsecond : Tells second behind) : Tells (first >>= fun _ => second) (front ++ behind) := by
  intro progress
  obtain ⟨middle, hmiddle, hfront⟩ := hfirst progress
  obtain ⟨after, hafter, hbehind⟩ := hsecond middle
  refine ⟨after, ?_, by rw [hbehind, hfront, List.append_assoc]⟩
  rw [Check.bind_apply, hmiddle]
  exact hafter

theorem forM_blame (items : List α) (entry : α → Entry) :
    Tells (items.forM fun item => Check.blame (entry item)) (items.map entry) := by
  induction items with
  | nil => exact pure
  | cons item items ih => exact (blame (entry item)).seq ih

end Tells

/-- The entries for notes that do not match: that they do not, and then each note that is
shown, those in front that were not expected. -/
def mismatchEntries (subtest : Subtest) (source : Syntax.Source) (found : Note.Comparison) :
    List Entry :=
  if found.ok then []
  else [.mismatch subtest.index] ++
    (found.unexpected.map (fun note => .unexpected (Note.describe source subtest.line note)) ++
      found.missing.map fun note => .missing (Note.describe source subtest.line note))

theorem tells_checkNotes (subtest : Subtest) (source : Syntax.Source)
    (expected emitted : List Note) :
    Tells (checkNotes subtest source expected emitted)
      (mismatchEntries subtest source (Note.compare expected emitted)) := by
  rw [checkNotes, mismatchEntries]
  split
  · exact Tells.pure
  · exact (Tells.blame _).seq ((Tells.forM_blame _ _).seq (Tells.forM_blame _ _))

/-- The report of a subtest shows what its comparison finds: the notes of each list that the
other one lacks, as often as they stand there.  This is the difference of the lists exactly if
no note of both is more frequent on the side it is taken from.  A mismatch shows nothing
exactly if both lists have the same notes but are not the same when they are sorted. -/
theorem mismatch_shows_lacking (subtest : Subtest) (source : Syntax.Source)
    (expected emitted : List Note) (progress : Progress) :
    let found := Note.compare expected emitted
    (∃ after, checkNotes subtest source expected emitted progress = (.ok (), after) ∧
      after.report.entries =
        progress.report.entries ++ mismatchEntries subtest source found) ∧
    (∀ note, found.unexpected.count note = if note ∈ expected then 0 else emitted.count note) ∧
    (∀ note, found.missing.count note = if note ∈ emitted then 0 else expected.count note) ∧
    ((found.unexpected : Multiset Note) = (emitted : Multiset Note) - (expected : Multiset Note) ↔
      ∀ note ∈ expected, emitted.count note ≤ expected.count note) ∧
    ((found.missing : Multiset Note) = (expected : Multiset Note) - (emitted : Multiset Note) ↔
      ∀ note ∈ emitted, expected.count note ≤ emitted.count note) ∧
    (found.ok = false ∧ found.unexpected = [] ∧ found.missing = [] ↔
      Note.sorted expected ≠ Note.sorted emitted ∧ ∀ note, note ∈ expected ↔ note ∈ emitted) := by
  obtain ⟨hunexpected, hmissing⟩ := Note.compare_shows expected emitted
  dsimp only
  rw [hunexpected, hmissing]
  refine ⟨tells_checkNotes subtest source expected emitted progress,
    Note.count_lackedBy expected emitted, Note.count_lackedBy emitted expected,
    Note.coe_lackedBy_eq_sub_iff expected emitted, Note.coe_lackedBy_eq_sub_iff emitted expected,
    ?_⟩
  rw [← Bool.not_eq_true, Note.ok_compare_iff, Note.lackedBy_eq_nil_iff,
    Note.lackedBy_eq_nil_iff]
  refine and_congr_right fun _ => ⟨fun hall note => ?_, fun hsame => ?_⟩
  · exact ⟨hall.2 note, hall.1 note⟩
  · exact ⟨fun note => (hsame note).2, fun note => (hsame note).1⟩

/-- A note that is emitted twice and expected once is a mismatch that shows nothing, although
the lists differ by that note. -/
theorem mismatch_hides_repeated :
    Note.compare [⟨0, 1, "a"⟩] [⟨0, 1, "a"⟩, ⟨0, 1, "a"⟩] = ⟨false, [], []⟩ ∧
    (([⟨0, 1, "a"⟩, ⟨0, 1, "a"⟩] : List Note) : Multiset Note) -
      (([⟨0, 1, "a"⟩] : List Note) : Multiset Note) = {⟨0, 1, "a"⟩} := by
  have hexpected : Note.sorted [⟨0, 1, "a"⟩] = [⟨0, 1, "a"⟩] :=
    List.mergeSort_of_pairwise (by decide)
  have hemitted : Note.sorted [⟨0, 1, "a"⟩, ⟨0, 1, "a"⟩] = [⟨0, 1, "a"⟩, ⟨0, 1, "a"⟩] :=
    List.mergeSort_of_pairwise (by decide)
  refine ⟨?_, by decide⟩
  rw [Note.compare, hexpected, hemitted]
  decide

end Galley.Run
