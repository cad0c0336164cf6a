import Galley.Fuzz.Session
import Galley.Proofs.Fuzz.Pick
import Galley.Proofs.Fuzz.Trial
import Galley.Proofs.Shape.Size
import Galley.Proofs.Span.Lookup

/-!
# Sessions that find nothing

Whatever its generator draws, a session tries mutations that replace whole
characters of the text.  The incremental parser leaves the tree of the edited text
behind each of them, with its spans in order, so there is nothing to be found.
-/

namespace Galley.Fuzz

open Syntax Node

/-! ## Draws -/

/-- What a draw between two bounds comes to: something below the upper one, or just the
lower one. -/
structure Drawn (start stop value : Int) : Prop where
  le : start ≤ value
  lt : value < stop ∨ value = start

/-- A draw stays between its bounds. -/
theorem drawn_pick {start : Nat} (hstart : start ≤ 2 ^ 53) (stop : Int) (generator : Generator) :
    Drawn start stop (pick start stop generator).1 := by
  rw [pick, Generator.pick]
  cases hpoint : Generator.pointAt generator.step.fraction start stop with
  | error failure => exact ⟨Int.le_refl _, .inr rfl⟩
  | ok point =>
    show Drawn start stop (if start < stop then min point (stop - 1) else start)
    split
    · rename_i hless
      obtain ⟨width, hwidth⟩ := Int.le.dest hless.le
      rw [← hwidth, ← Int.natCast_add] at hpoint
      have hle := Generator.le_of_pointAt generator.step.fraction_nonneg hstart hpoint
      exact ⟨le_min hle (Int.le_sub_one_of_lt hless),
        .inl ((min_le_right _ _).trans_lt (sub_one_lt stop))⟩
    · exact ⟨Int.le_refl _, .inr rfl⟩

theorem pickFragment_mem (generator : Generator) : (pickFragment generator).1 ∈ fragments := by
  have hdrawn := drawn_pick (Nat.zero_le _) fragments.length generator
  change fragments.getD (pick 0 fragments.length generator).1.toNat "" ∈ fragments
  generalize (pick 0 fragments.length generator).1 = index at hdrawn ⊢
  have hindex : index.toNat < fragments.length := by
    have hlength : fragments.length = 25 := rfl
    obtain ⟨hle, hlt | rfl⟩ := hdrawn <;> omega
  rw [List.getD_eq_getElem?_getD, List.getElem?_eq_getElem hindex, Option.getD_some]
  exact List.getElem_mem hindex

/-- A mutation that puts a fragment in the place of whole characters. -/
def Mutation.Fair (text : String) (mutation : Mutation) : Prop :=
  mutation.replacement ∈ fragments ∧ ∃ edited, mutation.Turns text edited

theorem exists_turns_of_isCut {text : String} {start stop : Nat} (hle : start ≤ stop)
    (hstart : Text.isCut text.toList start = true) (hstop : Text.isCut text.toList stop = true)
    (fragment : String) : ∃ edited, Mutation.Turns ⟨start, stop, fragment⟩ text edited := by
  obtain ⟨⟨before, rest⟩, hbefore⟩ := Option.isSome_iff_exists.1 hstart
  obtain ⟨⟨covered, after⟩, hcovered⟩ := Option.isSome_iff_exists.1 hstop
  obtain ⟨hfirst, hlength⟩ := Text.splitAtByte_eq_some hbefore
  obtain ⟨hlast, hlength'⟩ := Text.splitAtByte_eq_some hcovered
  obtain ⟨middle, rfl⟩ := prefix_of_byteLength_le ⟨_, hfirst⟩ ⟨_, hlast⟩ (by omega)
  exact ⟨_, before, middle, after, hlast.symm, by rw [hlength], by rw [hlength'], rfl⟩

theorem fst_drawBulk (chars : List Char) (generator : Generator) :
    let fragment := pickFragment generator
    let start := pick 0 (Text.byteLength chars) fragment.2
    let stop := pick start.1 (Text.byteLength chars) start.2
    (drawBulk chars generator).1 =
      if Text.isCut chars start.1.toNat && Text.isCut chars stop.1.toNat then
        some ⟨start.1, stop.1, fragment.1⟩
      else none := by
  intro fragment start stop
  rw [drawBulk]
  change ((if Text.isCut chars start.1.toNat && Text.isCut chars stop.1.toNat then
    pure (some ⟨start.1, stop.1, fragment.1⟩) else pure none : Draw (Option Mutation)) stop.2).1 = _
  split <;> rfl

theorem fair_of_drawBulk {text : String} {generator : Generator} {mutation : Mutation}
    (hshort : text.utf8ByteSize ≤ 2 ^ 53)
    (hdraw : (drawBulk text.toList generator).1 = some mutation) : mutation.Fair text := by
  have hlength : Text.byteLength text.toList = text.utf8ByteSize := byteLength_toList text
  rw [← hlength] at hshort
  have hfragment := pickFragment_mem generator
  rw [fst_drawBulk] at hdraw
  have hstart : Drawn 0 (Text.byteLength text.toList)
      (pick 0 (Text.byteLength text.toList) (pickFragment generator).2).1 :=
    drawn_pick (Nat.zero_le _) _ _
  generalize pick 0 (Text.byteLength text.toList) (pickFragment generator).2 = low at hdraw hstart
  obtain ⟨start, hlow⟩ := Int.eq_ofNat_of_zero_le hstart.le
  rw [hlow] at hdraw hstart
  have hbound : start ≤ 2 ^ 53 := by
    refine le_trans ?_ hshort
    obtain hless | hzero := hstart.lt <;> omega
  have hstop := drawn_pick hbound (Text.byteLength text.toList) low.2
  generalize pick start (Text.byteLength text.toList) low.2 = high at hdraw hstop
  obtain ⟨stop, hhigh⟩ := Int.eq_ofNat_of_zero_le ((Int.natCast_nonneg start).trans hstop.le)
  rw [hhigh] at hdraw hstop
  split at hdraw
  · rename_i hcuts
    obtain ⟨hfirst, hlast⟩ := Bool.and_eq_true_iff.1 hcuts
    obtain rfl := Option.some.inj hdraw
    exact ⟨hfragment, exists_turns_of_isCut (Int.ofNat_le.1 hstop.le) hfirst hlast _⟩
  · cases hdraw

/-- What holds of every mutation that may be drawn in bulk holds of all that are. -/
theorem forall_of_drawBulks {chars : List Char} {holds : Mutation → Prop}
    (hdraw : ∀ generator mutation, (drawBulk chars generator).1 = some mutation → holds mutation)
    (count : Nat) (generator : Generator) {mutation : Mutation}
    (hmutation : some mutation ∈ (drawBulks chars count generator).1) : holds mutation := by
  induction count generalizing generator with
  | zero => cases hmutation
  | succ count ih =>
    change some mutation ∈ (drawBulk chars generator).1 ::
      (drawBulks chars count (drawBulk chars generator).2).1 at hmutation
    obtain hfirst | hrest := List.mem_cons.1 hmutation
    · exact hdraw generator mutation hfirst.symm
    · exact ih _ hrest

/-- Wherever a span is looked up, its range starts with a leaf. -/
theorem exists_leaf_of_range {text : String} {span : Int} {range : Nat × Nat}
    (hrange : (Source.detached text).range span = some range) :
    ∃ before leaf after, (Source.detached text).root.leaves = before ++ leaf :: after ∧
      range.1 = leafBytes before := by
  obtain ⟨before, leaf, after, hleaves, hstart⟩ := exists_leaves_of_rangeFrom span 0 _ hrange
  exact ⟨before, leaf, after, hleaves, by rw [hstart, Nat.zero_add]⟩

/-- An insertion happens at the start of a leaf. -/
theorem exists_leaf_drawInsertion (text : String) (generator : Generator) :
    ∃ before leaf after fragment,
      (Source.detached text).root.leaves = before ++ leaf :: after ∧ fragment ∈ fragments ∧
      (drawInsertion (.detached text) generator).1 =
        ⟨leafBytes before, leafBytes before, fragment⟩ := by
  let source := Source.detached text
  let index := pick 0 source.root.leaves.length generator
  let leaf? := source.root.leaves[index.1.toNat]?
  let place := ((leaf?.bind fun leaf => source.range leaf.span).map Prod.fst).getD 0
  have hplace : ∃ before leaf after, source.root.leaves = before ++ leaf :: after ∧
      place = leafBytes before := by
    cases hrange : leaf?.bind fun leaf => source.range leaf.span with
    | none =>
      obtain ⟨leaf, after, hleaves⟩ := List.exists_cons_of_ne_nil (leaves_ne_nil source.root)
      refine ⟨[], leaf, after, hleaves, ?_⟩
      exact congrArg (fun range => (Option.map Prod.fst range).getD 0) hrange
    | some range =>
      obtain ⟨leaf, -, hfound⟩ := Option.bind_eq_some_iff.1 hrange
      rw [show place = range.1 from
        congrArg (fun range => (Option.map Prod.fst range).getD 0) hrange]
      exact exists_leaf_of_range hfound
  obtain ⟨before, leaf, after, hleaves, hstart⟩ := hplace
  refine ⟨before, leaf, after, (pickFragment index.2).1, hleaves, pickFragment_mem index.2, ?_⟩
  rw [← hstart]
  rfl

theorem fair_drawInsertion (text : String) (generator : Generator) :
    (drawInsertion (.detached text) generator).1.Fair text := by
  obtain ⟨before, leaf, after, fragment, hleaves, hfragment, hdrawn⟩ :=
    exists_leaf_drawInsertion text generator
  have hchars : text.toList = before.flatMap (fun leaf => leaf.text.toList) ++
      (leaf :: after).flatMap fun leaf => leaf.text.toList := by
    rw [← List.flatMap_append, ← hleaves, ← chars_eq_flatMap_leaves]
    exact (chars_parse text).symm
  have hcut : Text.isCut text.toList (leafBytes before) = true := by
    rw [Text.isCut, leafBytes, hchars, Text.splitAtByte_append]
    rfl
  rw [hdrawn]
  exact ⟨hfragment, exists_turns_of_isCut (Nat.le_refl _) hcut hcut fragment⟩

/-- Everything that is planned for a text is fair. -/
theorem fair_of_mem_mutations {text : String} (hshort : text.utf8ByteSize ≤ 2 ^ 53)
    (generator : Generator) {mutation : Mutation}
    (hmutation : mutation ∈ (Plan.draw text generator).1.mutations) : mutation.Fair text := by
  rw [Plan.mutations, List.mem_append, List.mem_singleton] at hmutation
  obtain hbulk | rfl := hmutation
  · obtain ⟨drawn, hdrawn, hsome⟩ := List.mem_filterMap.1 hbulk
    obtain rfl : drawn = some mutation := hsome
    exact forall_of_drawBulks (fun _ _ => fair_of_drawBulk hshort) _ generator hdrawn
  · exact fair_drawInsertion text _

/-! ## Trials -/

/-- A text of up to eight tebibytes.  There are doubles for all places in it, and enough
numbers for all texts that a session makes of it. -/
def InReach (text : String) : Prop :=
  text.utf8ByteSize ≤ 2 ^ 43

instance : DecidablePred InReach :=
  fun text => inferInstanceAs (Decidable (text.utf8ByteSize ≤ 2 ^ 43))

theorem utf8ByteSize_le_of_mem_fragments {fragment : String} (hfragment : fragment ∈ fragments) :
    fragment.utf8ByteSize ≤ 16 := by
  have hall : ∀ fragment ∈ fragments, fragment.utf8ByteSize ≤ 16 := by decide
  exact hall fragment hfragment

/-- A fair mutation makes a text that still fits. -/
theorem InReach.fits_of_turns {text edited : String} {mutation : Mutation}
    (hreach : InReach text) (hfragment : mutation.replacement ∈ fragments)
    (hturns : mutation.Turns text edited) : Fits (parse edited) := by
  obtain ⟨before, middle, after, hchars, -, -, rfl⟩ := hturns
  have hreplacement := utf8ByteSize_le_of_mem_fragments hfragment
  rw [InReach, ← byteLength_toList, hchars] at hreach
  rw [← byteLength_toList] at hreplacement
  apply fits_parse
  rw [← byteLength_toList, String.toList_ofList]
  simp only [Text.byteLength_append] at hreach ⊢
  omega

/-- The incremental parser passes every fair trial. -/
theorem InReach.runTrial_eq_nil {text : String} (hreach : InReach text) {mutation : Mutation}
    (hfair : mutation.Fair text) : runTrial .incremental text mutation = .ok [] := by
  obtain ⟨hfragment, edited, hturns⟩ := hfair
  obtain ⟨left, hleft, rfl⟩ := hturns.exists_left reparse
  have hfits := hreach.fits_of_turns hfragment hturns
  have hchange : (Change.edit mutation.start mutation.stop mutation.replacement).apply
      (Source.detached text) = .ok left := hleft
  have herase : left.root.erase = (parse left.text).erase := Change.erase_root_apply rfl hchange
  have hleftFits : Fits left.root := by
    rw [Fits, size_eq_of_erase_eq herase]
    exact hfits
  have hnumbered : WellNumbered left.root :=
    (WellNumbered.numberRoot (fits_parse (hreach.trans (by decide)))).apply hleftFits hchange
  have horder : left.root.spanViolation = none := by
    rw [spanViolation, checkSpans_eq_none_iff]
    exact hnumbered.order.mono (by decide) (by decide)
  have hlength : Finding.ofLength? left = none := by
    rw [Finding.ofLength?_eq_none_iff, byteLen_eq, chars_eq_of_erase_eq herase, chars_parse]
    rfl
  have hedit : (Source.detached text).editWith Reparser.incremental mutation.start mutation.stop
      mutation.replacement = .ok left := hleft
  rw [runTrial_of_left hedit, hlength]
  dsimp only
  rw [(Finding.ofTrees_parse_eq_nil_iff hfits).2 ⟨herase, horder⟩]
  rfl

/-- Trials that all find nothing. -/
theorem mapM_runTrial {reparser : Reparser} {text : String} {mutations : List Mutation}
    (htrials : ∀ mutation ∈ mutations, runTrial reparser text mutation = .ok []) :
    ∃ failures, mutations.mapM (runTrial reparser text) = .ok failures ∧ failures.flatten = [] := by
  induction mutations with
  | nil => exact ⟨[], rfl, rfl⟩
  | cons mutation mutations ih =>
    obtain ⟨hfirst, hrest⟩ := List.forall_mem_cons.1 htrials
    obtain ⟨failures, hfailures, hnil⟩ := ih hrest
    refine ⟨[] :: failures, ?_, hnil⟩
    rw [List.mapM_cons, hfirst, hfailures]
    rfl

/-- Sessions on a text find nothing, whatever they draw. -/
def Quiet (reparser : Reparser) (text : String) : Prop :=
  ∀ generator, ∃ report next,
    runSession reparser text generator = .ok (report, next) ∧ report.failures = []

theorem InReach.quiet {text : String} (hreach : InReach text) : Quiet .incremental text := by
  intro generator
  have htrials : ∀ mutation ∈ (Plan.draw text generator).1.mutations,
      runTrial .incremental text mutation = .ok [] := fun mutation hmutation =>
    hreach.runTrial_eq_nil
      (fair_of_mem_mutations (hreach.trans (by decide)) generator hmutation)
  obtain ⟨failures, hfailures, hnil⟩ := mapM_runTrial htrials
  refine ⟨⟨(Plan.draw text generator).1.skipped, (Plan.draw text generator).1.mutations,
    failures.flatten⟩, (Plan.draw text generator).2, ?_, hnil⟩
  rw [runSession]
  change ((Plan.draw text generator).1.mutations.mapM (runTrial .incremental text) >>= _) = _
  rw [hfailures]
  rfl

end Galley.Fuzz
