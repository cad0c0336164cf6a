import Galley.Proofs.Fuzz.Session
import Mathlib.Algebra.Order.Floor.Div
import Mathlib.GroupTheory.GroupAction.Ring

/-!
# The account of a session

Every draw takes one step of the generator, whatever it comes to, and what is drawn
decides on nothing but the places and the texts of mutations.  So a session takes as
many steps as the length of its text says, each of its draws ends as a trial or is
skipped, and the sessions behind it go on from a state that only lengths have led to.
-/

namespace Galley.Fuzz

open Syntax Node

/-! ## Steps -/

/-- A draw takes so many steps of every generator. -/
def Takes {α : Type} (draw : Draw α) (count : Nat) : Prop :=
  ∀ generator, (draw generator).2 = Generator.step^[count] generator

namespace Takes

variable {α β : Type} {m n : Nat}

theorem pure (value : α) : Takes (pure value) 0 :=
  fun _ => rfl

theorem bind {draw : Draw α} {next : α → Draw β} (hdraw : Takes draw m)
    (hnext : ∀ value, Takes (next value) n) : Takes (draw >>= next) (m + n) := by
  intro generator
  change (next (draw generator).1 (draw generator).2).2 = _
  rw [hnext, hdraw, Nat.add_comm, Function.iterate_add_apply]

theorem map {draw : Draw α} (hdraw : Takes draw m) (make : α → β) :
    Takes (draw >>= fun value => Pure.pure (make value)) m :=
  bind (n := 0) hdraw fun value => pure (make value)

/-- An empty range and a draw that fails take a step as well. -/
theorem pick (start stop : Int) : Takes (pick start stop) 1 := by
  intro generator
  rw [Fuzz.pick, Generator.pick]
  cases Generator.pointAt generator.step.fraction start stop <;> rfl

theorem pickFragment : Takes pickFragment 1 :=
  (pick 0 fragments.length).map _

/-- A mutation that splits a character has used up its draws. -/
theorem drawBulk (chars : List Char) : Takes (drawBulk chars) 3 := by
  apply bind (m := 1) (n := 2) pickFragment
  intro fragment
  apply bind (m := 1) (n := 1) (pick _ _)
  intro start
  apply bind (m := 1) (n := 0) (pick _ _)
  intro stop
  split
  · exact pure _
  · exact pure _

theorem drawBulks (chars : List Char) (count : Nat) :
    Takes (drawBulks chars count) (3 * count) := by
  induction count with
  | zero => exact pure []
  | succ count ih =>
    rw [Nat.mul_succ, Nat.add_comm (3 * count)]
    apply bind (drawBulk chars)
    intro mutation
    exact ih.map (mutation :: ·)

theorem drawInsertion (source : Source) : Takes (drawInsertion source) 2 := by
  apply bind (m := 1) (n := 1) (pick _ _)
  intro index
  exact pickFragment.map _

end Takes

/-- One trial in bulk for every 400 bytes, rounded up. -/
theorem bulkCount_detached (text : String) :
    bulkCount (Source.detached text).byteLen = text.utf8ByteSize ⌈/⌉ 400 := by
  have hlength : (Source.detached text).byteLen = text.utf8ByteSize := byteLength_toList text
  rw [bulkCount, bytesPerTrial, hlength, Nat.ceilDiv_eq_add_pred_div]
  rfl

/-- The length of a text tells how many steps its session takes. -/
theorem takes_draw (text : String) :
    Takes (Plan.draw text) (3 * (text.utf8ByteSize ⌈/⌉ 400) + 2) := by
  rw [← bulkCount_detached]
  apply Takes.bind (Takes.drawBulks _ _)
  intro bulk
  exact (Takes.drawInsertion _).map _

/-! ## Trials and skips -/

theorem length_drawBulks (chars : List Char) (count : Nat) (generator : Generator) :
    (drawBulks chars count generator).1.length = count := by
  induction count generalizing generator with
  | zero => rfl
  | succ count ih => exact congrArg Nat.succ (ih (drawBulk chars generator).2)

theorem length_filterMap_add_countP_isNone {α : Type} (items : List (Option α)) :
    (items.filterMap id).length + items.countP Option.isNone = items.length := by
  induction items with
  | nil => rfl
  | cons item items ih =>
    cases item with
    | none => rw [List.filterMap_cons_none rfl, List.countP_cons_of_pos rfl, ← Nat.add_assoc, ih,
        List.length_cons]
    | some value =>
      have hkept : (some value :: items).filterMap id = value :: items.filterMap id := rfl
      rw [hkept, List.countP_cons_of_neg (by simp), List.length_cons, Nat.add_right_comm, ih,
        List.length_cons]

/-- What is drawn in bulk is tried or skipped, and the insertion is tried in any
case. -/
theorem Plan.length_mutations_add_skipped (plan : Plan) :
    plan.mutations.length + plan.skipped = plan.bulk.length + 1 := by
  rw [mutations, skipped, List.length_append, List.length_singleton, Nat.add_right_comm,
    length_filterMap_add_countP_isNone]

theorem length_bulk_draw (text : String) (generator : Generator) :
    (Plan.draw text generator).1.bulk.length = text.utf8ByteSize ⌈/⌉ 400 := by
  rw [← bulkCount_detached]
  exact length_drawBulks _ _ generator

/-! ## Mutations -/

theorem replacement_mem_of_drawBulk {chars : List Char} {generator : Generator}
    {mutation : Mutation} (hdraw : (drawBulk chars generator).1 = some mutation) :
    mutation.replacement ∈ fragments := by
  rw [fst_drawBulk] at hdraw
  split at hdraw
  · rw [← Option.some.inj hdraw]
    exact pickFragment_mem generator
  · cases hdraw

theorem replacement_mem_of_mem_mutations {text : String} {generator : Generator}
    {mutation : Mutation} (hmutation : mutation ∈ (Plan.draw text generator).1.mutations) :
    mutation.replacement ∈ fragments := by
  rw [Plan.mutations, List.mem_append, List.mem_singleton] at hmutation
  obtain hbulk | rfl := hmutation
  · obtain ⟨drawn, hdrawn, hsome⟩ := List.mem_filterMap.1 hbulk
    obtain rfl : drawn = some mutation := hsome
    exact forall_of_drawBulks (fun _ _ => replacement_mem_of_drawBulk) _ generator hdrawn
  · exact (fair_drawInsertion text _).1

/-- A mutation that is a proper edit of a text: it replaces a range within the text
that splits no character, and it inserts one of the fragments. -/
structure Mutation.Valid (text : String) (mutation : Mutation) : Prop where
  start_nonneg : 0 ≤ mutation.start
  start_le_stop : mutation.start ≤ mutation.stop
  stop_le : mutation.stop ≤ text.utf8ByteSize
  start_cut : Text.isCut text.toList mutation.start.toNat = true
  stop_cut : Text.isCut text.toList mutation.stop.toNat = true
  replacement_mem : mutation.replacement ∈ fragments

/-- An edit that is accepted stays within its text and splits no character. -/
theorem Mutation.Valid.of_editWith {reparser : Reparser} {text : String} {mutation : Mutation}
    {left : Source} (hleft : (Source.detached text).editWith reparser mutation.start mutation.stop
      mutation.replacement = .ok left) (hreplacement : mutation.replacement ∈ fragments) :
    mutation.Valid text := by
  rw [Source.editWith] at hleft
  have hlength : (Source.detached text).byteLen = text.utf8ByteSize := byteLength_toList text
  split at hleft
  · next hrange =>
    split at hleft
    · next hfirst hlast =>
      rw [hlength] at hrange
      exact ⟨hrange.1, hrange.2.1, hrange.2.2, Option.isSome_iff_exists.2 ⟨_, hfirst⟩,
        Option.isSome_iff_exists.2 ⟨_, hlast⟩, hreplacement⟩
    · cases hleft
  · cases hleft

/-! ## Sessions -/

theorem mapM_eq_ok_iff {α β : Type} {make : α → Except Failure β} {items : List α}
    {values : List β} : items.mapM make = .ok values ↔
      List.Forall₂ (fun item value => make item = .ok value) items values := by
  induction items generalizing values with
  | nil =>
    rw [List.forall₂_nil_left_iff, List.mapM_nil]
    exact ⟨fun hvalues => (Except.ok.inj hvalues).symm, fun hvalues => congrArg _ hvalues.symm⟩
  | cons item items ih =>
    rw [List.forall₂_cons_left_iff, List.mapM_cons]
    cases hitem : make item with
    | error failure => simp [bind, Except.bind]
    | ok value =>
      cases hitems : items.mapM make with
      | error failure => simp [bind, Except.bind, ← ih, hitems]
      | ok rest => simp [bind, Except.bind, pure, Except.pure, ← ih, hitems, eq_comm]

/-- A session that comes to its end has tried all that was drawn. -/
theorem runSession_eq_ok_iff {reparser : Reparser} {text : String} {generator next : Generator}
    {report : Report} : runSession reparser text generator = .ok (report, next) ↔
      ∃ found, List.Forall₂ (fun mutation failures =>
          runTrial reparser text mutation = .ok failures)
          (Plan.draw text generator).1.mutations found ∧
        report = ⟨(Plan.draw text generator).1.skipped, (Plan.draw text generator).1.mutations,
          found.flatten⟩ ∧
        next = (Plan.draw text generator).2 := by
  have hrun : (Plan.draw text).run generator = Plan.draw text generator := rfl
  rw [runSession, hrun]
  generalize Plan.draw text generator = drawn
  obtain ⟨plan, after⟩ := drawn
  simp only [← mapM_eq_ok_iff]
  cases plan.mutations.mapM (runTrial reparser text) with
  | error failure => simp [bind, Except.bind]
  | ok found => simp [bind, Except.bind, pure, Except.pure, eq_comm]

/-- No text is too long for a session as long as there are doubles for all places in
it.  Beyond that a rounded draw may fall in front of its lower bound, and an edit that
ends before it starts is refused. -/
theorem exists_runSession (update : Node → List Char → Nat → Nat → Nat → Option Node)
    {text : String} (hshort : text.utf8ByteSize ≤ 2 ^ 53) (generator : Generator) :
    ∃ report next, runSession (answering update) text generator = .ok (report, next) := by
  have htrials : ∀ mutation ∈ (Plan.draw text generator).1.mutations,
      ∃ failures, runTrial (answering update) text mutation = .ok failures := by
    intro mutation hmutation
    obtain ⟨-, edited, hturns⟩ := fair_of_mem_mutations hshort generator hmutation
    obtain ⟨left, hleft, -⟩ := hturns.exists_left update
    exact ⟨_, runTrial_of_left hleft⟩
  choose! found hfound using htrials
  have hall : List.Forall₂ (fun mutation failures =>
      runTrial (answering update) text mutation = .ok failures)
        (Plan.draw text generator).1.mutations
        ((Plan.draw text generator).1.mutations.map found) := by
    rw [List.forall₂_map_right_iff, List.forall₂_same]
    exact hfound
  exact ⟨_, _, runSession_eq_ok_iff.2 ⟨_, hall, rfl, rfl⟩⟩

/-- The account of a session: the steps of the generator, what has become of the draws,
the trials behind the mutations in their order, and the mutations themselves, of which
the last one is an insertion at the start of a leaf. -/
structure Accounted (reparser : Reparser) (text : String) (generator : Generator)
    (report : Report) (next : Generator) : Prop where
  steps : next = Generator.step^[3 * (text.utf8ByteSize ⌈/⌉ 400) + 2] generator
  total : report.trials + report.skipped = text.utf8ByteSize ⌈/⌉ 400 + 1
  executed : ∃ found, List.Forall₂ (fun mutation failures =>
      runTrial reparser text mutation = .ok failures) report.mutations found ∧
    report.failures = found.flatten
  valid : ∀ mutation ∈ report.mutations, mutation.Valid text
  insertion : ∃ bulk before leaf after fragment,
    report.mutations = bulk ++ [⟨leafBytes before, leafBytes before, fragment⟩] ∧
    (Source.detached text).root.leaves = before ++ leaf :: after

theorem Accounted.of_runSession {reparser : Reparser} {text : String}
    {generator next : Generator} {report : Report}
    (hrun : runSession reparser text generator = .ok (report, next)) :
    Accounted reparser text generator report next := by
  obtain ⟨found, htrials, rfl, rfl⟩ := runSession_eq_ok_iff.1 hrun
  constructor
  case steps => exact takes_draw text generator
  case total =>
    rw [← length_bulk_draw text generator]
    exact Plan.length_mutations_add_skipped _
  case executed => exact ⟨found, htrials, rfl⟩
  case valid =>
    have htried := (List.forall₂_and_left
      (p := fun mutation => ∃ failures, runTrial reparser text mutation = .ok failures) _ _).1
        (htrials.imp fun _ failures htrial => ⟨⟨failures, htrial⟩, htrial⟩)
    intro mutation hmutation
    obtain ⟨failures, htrial⟩ := htried.1 mutation hmutation
    obtain ⟨left, hleft, -⟩ := exists_left_of_runTrial htrial
    exact .of_editWith hleft (replacement_mem_of_mem_mutations hmutation)
  case insertion =>
    obtain ⟨before, leaf, after, fragment, hleaves, -, hdrawn⟩ :=
      exists_leaf_drawInsertion text (drawBulks (Source.detached text).chars
        (bulkCount (Source.detached text).byteLen) generator).2
    exact ⟨_, before, leaf, after, fragment, congrArg (_ ++ [·]) hdrawn, hleaves⟩

/-! ## Sessions in a row -/

/-- Sessions on some texts, one after the other and each with a reparser of its own,
have taken a generator from one state to another. -/
inductive Sessions : List String → Generator → Generator → Prop
  | nil (generator : Generator) : Sessions [] generator generator
  | cons {reparser : Reparser} {text : String} {texts : List String}
    {generator middle next : Generator} {report : Report}
    (hrun : runSession reparser text generator = .ok (report, middle))
    (hrest : Sessions texts middle next) : Sessions (text :: texts) generator next

/-- The lengths of the texts tell how many steps the generator has taken. -/
theorem Sessions.steps {texts : List String} {generator next : Generator}
    (hsessions : Sessions texts generator next) :
    next = Generator.step^[((texts.map String.utf8ByteSize).map fun length =>
      3 * (length ⌈/⌉ 400) + 2).sum] generator := by
  induction hsessions with
  | nil => rfl
  | cons hrun _ ih =>
    rw [ih, (Accounted.of_runSession hrun).steps, List.map_cons, List.map_cons, List.sum_cons,
      Nat.add_comm (3 * _ + 2), ← Function.iterate_add_apply Generator.step _ (3 * _ + 2)]

/-- What is drawn depends on the text and on the state of the generator alone. -/
theorem mutations_eq {reparser reparser' : Reparser} {text : String}
    {generator next next' : Generator} {report report' : Report}
    (hrun : runSession reparser text generator = .ok (report, next))
    (hrun' : runSession reparser' text generator = .ok (report', next')) :
    report.mutations = report'.mutations := by
  obtain ⟨found, -, rfl, -⟩ := runSession_eq_ok_iff.1 hrun
  obtain ⟨found', -, rfl, -⟩ := runSession_eq_ok_iff.1 hrun'
  rfl

/-- A session comes to its end whatever its reparser answers, and every session that
does is accounted for.  Those in front of it have a say in its mutations by the lengths
of their texts only. -/
theorem sessions_accounted :
    (∀ update text generator, text.utf8ByteSize ≤ 2 ^ 53 →
      ∃ report next, runSession (answering update) text generator = .ok (report, next)) ∧
    (∀ reparser text generator report next,
      runSession reparser text generator = .ok (report, next) →
        Accounted reparser text generator report next) ∧
    ∀ earlier earlier' generator middle middle',
      earlier.map String.utf8ByteSize = earlier'.map String.utf8ByteSize →
      Sessions earlier generator middle → Sessions earlier' generator middle' →
        ∀ reparser reparser' text report report' next next',
          runSession reparser text middle = .ok (report, next) →
          runSession reparser' text middle' = .ok (report', next') →
            report.mutations = report'.mutations := by
  refine ⟨?_, ?_, ?_⟩
  · intro update text generator hshort
    exact exists_runSession update hshort generator
  · intro reparser text generator report next hrun
    exact .of_runSession hrun
  · intro earlier earlier' generator middle middle' hlengths hsessions hsessions'
      reparser reparser' text report report' next next' hrun hrun'
    have hmiddle : middle = middle' := by
      rw [hsessions.steps, hsessions'.steps, hlengths]
    rw [← hmiddle] at hrun'
    exact mutations_eq hrun hrun'

/-- A letter of two bytes counts as much as two letters. -/
theorem sessions_accounted_twoBytes : ∃ middle middle' report report' next next',
    Sessions ["ab"] .new middle ∧ Sessions ["é"] .new middle' ∧
    runSession (answering fun _ _ _ _ _ => none) "c" middle = .ok (report, next) ∧
    runSession (answering fun root _ _ _ _ => some root) "c" middle' = .ok (report', next') ∧
    Accounted (answering fun _ _ _ _ _ => none) "c" middle report next ∧
    report.mutations = report'.mutations := by
  obtain ⟨hends, haccounted, hmutations⟩ := sessions_accounted
  obtain ⟨_, middle, hfirst⟩ := hends (fun _ _ _ _ _ => none) "ab" .new (by decide +kernel)
  obtain ⟨_, middle', hfirst'⟩ := hends (fun _ _ _ _ _ => none) "é" .new (by decide +kernel)
  obtain ⟨report, next, hrun⟩ := hends (fun _ _ _ _ _ => none) "c" middle (by decide +kernel)
  obtain ⟨report', next', hrun'⟩ :=
    hends (fun root _ _ _ _ => some root) "c" middle' (by decide +kernel)
  have hsessions : Sessions ["ab"] .new middle := .cons hfirst (.nil middle)
  have hsessions' : Sessions ["é"] .new middle' := .cons hfirst' (.nil middle')
  refine ⟨middle, middle', report, report', next, next', hsessions, hsessions', hrun, hrun',
    haccounted _ _ _ _ _ hrun, ?_⟩
  exact hmutations ["ab"] ["é"] .new middle middle' (by decide +kernel) hsessions hsessions' _ _ _
    _ _ _ _ hrun hrun'

end Galley.Fuzz
