import Mathlib.Data.List.Perm.Subperm
import Galley.Proofs.Evaluation.Located
import Galley.Proofs.World.Loadable

/-!
# No document asks for itself

A source is evaluated at the end of the chain of sources that led to it, and a
document on the chain is refused.  So no source is on a chain twice, chains are
no longer than there are sources, and there are never more sources than before
and files that can be loaded.
-/

namespace Galley.Compile

open Syntax Document Eval

/-- A chain of sources of a world, none of which is on it twice. -/
def World.Chained (world : World) (chain : List Nat) : Prop :=
  chain.Nodup ∧ (∀ id ∈ chain, id < world.sources.length) ∧ chain.length ≤ world.sources.length

instance (world : World) (chain : List Nat) : Decidable (world.Chained chain) :=
  inferInstanceAs (Decidable (_ ∧ _ ∧ _))

/-- Distinct ids below a number are no more than that. -/
theorem World.Chained.of_nodup {world : World} {chain : List Nat} (hnodup : chain.Nodup)
    (hchain : ∀ id ∈ chain, id < world.sources.length) : world.Chained chain := by
  refine ⟨hnodup, hchain, ?_⟩
  have hsubset : chain ⊆ List.range world.sources.length :=
    fun id hid => List.mem_range.2 (hchain id hid)
  simpa using (hnodup.subperm hsubset).length_le

/-- A source that is not on a chain may be put at its end, also when files have been
loaded since. -/
theorem World.Chained.concat {before : World} {chain : List Nat} (hchain : before.Chained chain)
    {world : World} (hgrown : Grown before.sources world.sources) {id : Nat} (hnew : id ∉ chain)
    (hid : id < world.sources.length) : world.Chained (chain ++ [id]) := by
  have hnodup : (chain ++ [id]).Nodup :=
    List.nodup_append.2 ⟨hchain.1, List.nodup_cons.2 ⟨List.not_mem_nil, List.nodup_nil⟩,
      fun other hother added hadded heq => hnew (List.mem_singleton.1 hadded ▸ heq ▸ hother)⟩
  refine .of_nodup hnodup fun other hother => ?_
  obtain hother | hother := List.mem_append.1 hother
  · exact Nat.lt_of_lt_of_le (hchain.2.1 other hother) hgrown.isPrefix.length_le
  · rwa [List.mem_singleton.1 hother]

/-- As long as a chain can grow, it is shorter than there can be sources. -/
theorem World.Chained.length_lt {world : World} {route : List Nat} {id : Nat}
    (hchain : world.Chained (route ++ [id])) {paths : List File.Path} {bound : Nat}
    (hreach : world.reach paths ≤ bound) : route.length < bound := by
  have hlength := hchain.2.2
  rw [List.length_append, List.length_singleton] at hlength
  exact Nat.lt_of_lt_of_le hlength (Nat.le_trans (Nat.le_add_right ..) hreach)

/-- Evaluation that goes astray, in whatever way, when it is entered with a chain
that is not as it should be, or with one too many sources on it. -/
def evaluateGuarded
    (astray : List Nat → Source → Surroundings → Except Failure Module × Surroundings)
    (files : File.Tree) :
    Nat → List Nat → Source → Surroundings → Except Failure Module × Surroundings
  | 0, route, source, outside => astray route source outside
  | depth + 1, route, source, outside =>
    let chain := route ++ [source.id]
    if outside.world.Chained chain then
      evaluateOn files chain (evaluateGuarded astray files depth chain) source outside
    else astray route source outside

/-- Files are loaded as long as there are any, and no chain gets too long. -/
def bounded (source : Nat) (sources : List Source) (paths : List File.Path) (bound : Nat) :
    Promise source where
  keeps world _ := Grown sources world.sources ∧ world.reach paths ≤ bound
  spans _ := True
  fails failure := failure ≠ .endlessChain
  keeps_report hkeeps _ _ := hkeeps
  fails_of_document := by
    rintro failure hfailure rfl
    exact hfailure

section Guarded

variable {files : File.Tree} {paths : List File.Path}

/-- A chain that is as it should be stays so, and as long as the depths leave room for
all sources that there can be, they do not matter. -/
theorem evaluateGuarded_eq (hpaths : ∀ path, Loadable files path → path ∈ paths)
    (astray : List Nat → Source → Surroundings → Except Failure Module × Surroundings)
    {bound : Nat} (depth depth' : Nat) (route : List Nat) {source : Source}
    {outside : Surroundings} (hfaithful : Faithful outside.world.sources)
    (hnumbered : Numbered outside.world.sources)
    (hsource : outside.world.sources[source.id]? = some source)
    (hchain : outside.world.Chained (route ++ [source.id]))
    (hreach : outside.world.reach paths ≤ bound) (hdepth : bound ≤ depth + route.length)
    (hdepth' : bound ≤ depth' + route.length) :
    evaluateGuarded astray files depth' route source outside =
        evaluate files depth route source outside ∧
      (bounded source.id outside.world.sources paths bound).Admits
        (evaluate files depth route source outside) := by
  -- Each document makes the chain longer and the depths smaller by one, and a chain
  -- of distinct sources is shorter than the bound, so the depths never come to zero.
  induction depth generalizing depth' route source outside with
  | zero =>
    have hroute := hchain.length_lt hreach
    omega
  | succ depth ih =>
    have hroute := hchain.length_lt hreach
    obtain _ | depth' := depth'
    · omega
    · rw [evaluateGuarded, evaluate, if_pos hchain]
      refine evaluateOn_alike (hfaithful source (List.mem_of_getElem? hsource)) ?_
        (fun _ _ => trivial) ⟨.refl, hreach⟩ ⟨.refl, hreach⟩
      intro span path hspan
      apply runs_loadDocument hspan
      · rintro world diagnostics path ⟨hgrown, hworld⟩
        exact ⟨hgrown.trans (world.grown_resolve files path),
          Nat.le_trans (world.reach_resolve_le hpaths path) hworld⟩
      · rintro world diagnostics id asked printed computations ⟨hgrown, hworld⟩ hid hasked
        have hfound := World.source_eq_ok_iff.1 hasked
        obtain rfl := hgrown.numbered hnumbered id asked hfound
        have hlonger : world.Chained (route ++ [source.id] ++ [asked.id]) :=
          hchain.concat hgrown hid (List.getElem?_eq_some_iff.1 hfound).1
        have hlength : (route ++ [source.id]).length = route.length + 1 := List.length_append
        obtain ⟨hsame, hadmits⟩ := @ih depth' (route ++ [source.id]) asked
          ⟨world, printed, computations⟩ (hgrown.faithful hfaithful) (hgrown.numbered hnumbered)
          hfound hlonger hworld (by omega) (by omega)
        refine ⟨hsame, hadmits.absorbs ?_ fun _ hfails => hfails⟩
        rintro after reported ⟨hafter, hless⟩
        exact ⟨⟨hgrown.trans hafter, hless⟩, hgrown.trans hafter, hless⟩

end Guarded

section Cyclic

variable {files : File.Tree} {chain : List Nat}
  {enter : Source → Surroundings → Except Failure Module × Surroundings} {span : Int}
  {path : String} {machine : Machine}

/-- A document on the chain is refused, and nothing else happens. -/
theorem loadDocument_of_mem {id : Nat} (hid : id ∈ chain)
    (hresolve : machine.world.resolve files (.ofString path) = (.ok id, machine.world)) :
    loadDocument files chain enter span path machine =
      (.error (.report span .cyclicInclude), machine) := by
  rw [loadDocument, Eval.bind_apply]
  have hat : resolveAt files span path machine = (.ok id, machine) := by
    rw [resolveAt, hresolve]
  rw [hat]
  dsimp only
  rw [if_pos (List.contains_iff_mem.2 hid)]
  rfl

/-- What is entered reports for itself, so a document is refused only if it is on the
chain itself. -/
theorem mem_of_loadDocument {place : Int}
    (hload : (loadDocument files chain enter span path machine).1 =
      .error (.report place .cyclicInclude)) :
    place = span ∧ ∃ id ∈ chain, (machine.world.resolve files (.ofString path)).1 = .ok id := by
  rw [loadDocument, Eval.bind_apply, resolveAt] at hload
  generalize machine.world.resolve files (.ofString path) = answer at hload ⊢
  obtain ⟨failure | id, world⟩ := answer
  · cases failure <;> cases hload
  · dsimp only at hload
    split at hload
    · rename_i hid
      cases hload
      exact ⟨rfl, id, List.contains_iff_mem.1 hid, rfl⟩
    · -- From here on there are failures and values, but no more reports.
      generalize { machine with world } = opened at hload
      rw [Eval.bind_apply] at hload
      change (((lift (opened.world.source id) : Eval Source) >>= _) opened).1 = _ at hload
      cases hasked : opened.world.source id with
      | error failure =>
        rw [hasked] at hload
        cases hload
      | ok asked =>
        rw [hasked, show (lift (.ok asked) : Eval Source) = pure asked from rfl,
          pure_bind] at hload
        generalize enter asked ⟨opened.world, opened.printed, opened.computations⟩ = outcome
          at hload
        obtain ⟨failure | module, after⟩ := outcome <;> cases hload

end Cyclic

/-- Documents may ask for each other in any way, and still nothing goes round in
circles. -/
structure NeverLoops (files : File.Tree) (outside : Surroundings) (paths : List File.Path) :
    Prop where
  /-- Evaluation cannot be told apart from one that goes astray as soon as it is
  entered with a chain that has a source twice or is longer than there are sources. -/
  chained : ∀ source ∈ outside.world.sources, ∀ astray depth depth',
    outside.world.sources.length + paths.length ≤ depth →
      outside.world.sources.length + paths.length ≤ depth' →
        evaluateGuarded astray files depth' [] source outside =
          evaluate files depth [] source outside
  /-- A document on the chain is refused at the span of the call, and nothing else
  happens. -/
  refused : ∀ (machine : Machine) (chain : List Nat), machine.world.Chained chain →
    ∀ enter source span path place, ∀ id ∈ chain,
      (machine.world.resolve files (.ofString path)).1 = .ok id →
        call ⟨source, loadDocument files chain enter⟩ .load span [⟨none, .str path, place⟩]
          machine = (.error (.report span .cyclicInclude), machine)
  /-- No other document is refused, even if it has been asked for before. -/
  admitted : ∀ machine chain enter source span path place reported,
    (call ⟨source, loadDocument files chain enter⟩ .load span [⟨none, .str path, place⟩]
      machine).1 = .error (.report reported .cyclicInclude) →
        reported = span ∧ ∃ id ∈ chain, (machine.world.resolve files (.ofString path)).1 = .ok id
  /-- Evaluation comes to an end, and a larger bound would change nothing. -/
  ends : ∀ source ∈ outside.world.sources, ∀ depth,
    outside.world.sources.length + paths.length ≤ depth →
      evaluateSource files source outside = evaluate files depth [] source outside ∧
        (evaluate files depth [] source outside).1 ≠ .error .endlessChain
  /-- So does compiling. -/
  compiles : (compile files outside).1 ≠ .error .endlessChain

theorem call_load (source : Nat) (load : Int → String → Eval Content) (span place : Int)
    (path : String) :
    call ⟨source, load⟩ .load span [⟨none, .str path, place⟩] =
      (do return .content (← load span path)) := rfl

section Compile

variable {files : File.Tree} {outside : Surroundings} {paths : List File.Path}

/-- The main source is on a chain of its own. -/
theorem evaluateGuarded_alone (hfaithful : Faithful outside.world.sources)
    (hnumbered : Numbered outside.world.sources)
    (hpaths : ∀ path, Loadable files path → path ∈ paths)
    (astray : List Nat → Source → Surroundings → Except Failure Module × Surroundings)
    {source : Source} (hsource : source ∈ outside.world.sources) {depth depth' : Nat}
    (hdepth : outside.world.sources.length + paths.length ≤ depth)
    (hdepth' : outside.world.sources.length + paths.length ≤ depth') :
    evaluateGuarded astray files depth' [] source outside =
        evaluate files depth [] source outside ∧
      (evaluate files depth [] source outside).1 ≠ .error .endlessChain := by
  obtain ⟨id, hid⟩ := List.mem_iff_getElem?.1 hsource
  obtain rfl := hnumbered id source hid
  have hchain : outside.world.Chained ([] ++ [source.id]) :=
    .of_nodup (by simp) (by simpa using (List.getElem?_eq_some_iff.1 hid).1)
  obtain ⟨hsame, hadmits⟩ := evaluateGuarded_eq hpaths astray depth depth' [] hfaithful
    hnumbered hid hchain (outside.world.reach_le paths) hdepth hdepth'
  exact ⟨hsame, fun hendless => hadmits.fails_of_eq_error hendless rfl⟩

theorem evaluateGuarded_nil (hworld : outside.world.Reached fun _ => True)
    (hpaths : ∀ path, Loadable files path → path ∈ paths)
    (astray : List Nat → Source → Surroundings → Except Failure Module × Surroundings)
    {source : Source} (hsource : source ∈ outside.world.sources) {depth depth' : Nat}
    (hdepth : outside.world.sources.length + paths.length ≤ depth)
    (hdepth' : outside.world.sources.length + paths.length ≤ depth') :
    evaluateGuarded astray files depth' [] source outside =
        evaluate files depth [] source outside ∧
      (evaluate files depth [] source outside).1 ≠ .error .endlessChain :=
  evaluateGuarded_alone hworld.faithful hworld.numbered hpaths astray hsource hdepth hdepth'

/-- The bound that compiling takes is large enough, and any other one that is does
the same. -/
theorem evaluateSource_eq_of_numbered (hfaithful : Faithful outside.world.sources)
    (hnumbered : Numbered outside.world.sources)
    (hpaths : ∀ path, Loadable files path → path ∈ paths) {source : Source}
    (hsource : source ∈ outside.world.sources) {depth : Nat}
    (hdepth : outside.world.sources.length + paths.length ≤ depth) :
    evaluateSource files source outside = evaluate files depth [] source outside := by
  have hentries : ∀ path, Loadable files path → path ∈ files.paths := fun _ => Loadable.mem_paths
  have hbound : outside.world.sources.length + files.paths.length ≤
      chainBound files outside.world + 1 := by
    rw [File.Tree.paths, List.length_map]
    exact Nat.le_succ _
  obtain ⟨enough, hgiven, hown⟩ : ∃ enough,
      outside.world.sources.length + paths.length ≤ enough ∧
        chainBound files outside.world + 1 ≤ enough :=
    ⟨max _ _, Nat.le_max_left .., Nat.le_max_right ..⟩
  have hsame := (evaluateGuarded_alone hfaithful hnumbered hpaths (evaluate files 0) hsource
    hdepth hgiven).1
  have hsame' := (evaluateGuarded_alone hfaithful hnumbered hentries (evaluate files 0) hsource
    hbound (Nat.le_trans hbound hown)).1
  exact hsame'.symm.trans hsame

theorem evaluateSource_eq (hworld : outside.world.Reached fun _ => True)
    (hpaths : ∀ path, Loadable files path → path ∈ paths) {source : Source}
    (hsource : source ∈ outside.world.sources) {depth : Nat}
    (hdepth : outside.world.sources.length + paths.length ≤ depth) :
    evaluateSource files source outside = evaluate files depth [] source outside :=
  evaluateSource_eq_of_numbered hworld.faithful hworld.numbered hpaths hsource hdepth

/-- There is a main source, or there is none for another reason than a chain. -/
theorem main_ne_endlessChain (world : World) : world.main ≠ .error .endlessChain := by
  intro hmain
  rw [World.main] at hmain
  split at hmain
  · cases hmain
  · split at hmain
    · cases hmain
    · rw [World.source] at hmain
      split at hmain <;> cases hmain

theorem compile_ne_endlessChain (hworld : outside.world.Reached fun _ => True) :
    (compile files outside).1 ≠ .error .endlessChain := by
  rw [compile]
  split
  · rename_i failure hmain
    exact fun heq => main_ne_endlessChain _ (Except.error.inj heq ▸ hmain)
  · rename_i source hmain
    have hentries : ∀ path, Loadable files path → path ∈ files.paths := fun _ => Loadable.mem_paths
    have hsource := main_mem_sources hmain
    have hends := (evaluateGuarded_nil hworld hentries (evaluate files 0) hsource
      (Nat.le_refl _) (Nat.le_refl _)).2
    rw [← evaluateSource_eq hworld hentries hsource (Nat.le_refl _)] at hends
    generalize evaluateSource files source outside = outcome at hends ⊢
    obtain ⟨failure | module, after⟩ := outcome
    · exact fun heq => hends (congrArg _ (Except.error.inj heq))
    · intro heq
      cases heq

/-- Includes never loop, however the files ask for each other: in a reachable world no
source is ever evaluated within itself, exactly the documents on the chain are
refused, and as only finitely many paths can be loaded, evaluation ends. -/
theorem includes_never_loop (files : File.Tree) (outside : Surroundings) (paths : List File.Path)
    (hworld : outside.world.Reached fun _ => True)
    (hpaths : ∀ path, Loadable files path → path ∈ paths) : NeverLoops files outside paths where
  chained source hsource astray depth depth' hdepth hdepth' :=
    (evaluateGuarded_nil hworld hpaths astray hsource hdepth hdepth').1
  refused machine chain hchain enter source span path place id hid hresolve := by
    rw [call_load, Eval.bind_apply, loadDocument_of_mem hid
      (machine.world.resolve_eq_self hresolve (hchain.2.1 id hid))]
  admitted machine chain enter source span path place reported hreport := by
    rw [call_load, Eval.bind_apply] at hreport
    cases hload : loadDocument files chain enter span path machine with
    | mk result after =>
      rw [hload] at hreport
      cases result with
      | ok content => cases hreport
      | error stop =>
        cases hreport
        exact mem_of_loadDocument (congrArg Prod.fst hload)
  ends source hsource depth hdepth :=
    ⟨evaluateSource_eq hworld hpaths hsource hdepth,
      (evaluateGuarded_nil hworld hpaths (evaluate files 0) hsource hdepth hdepth).2⟩
  compiles := compile_ne_endlessChain hworld

/-- Two documents ask for a third one, and one of them for the main source too. -/
def diamond : File.Tree × Surroundings :=
  (⟨[(["a"], .file (.bytes "#include(\"c\")".toUTF8)),
     (["b"], .file (.bytes "#include(\"c\")#include(\"m\")".toUTF8)),
     (["c"], .file (.bytes "x".toUTF8))]⟩,
    { world := (World.set { root := .current } { names := ["m"] }
        "#include(\"a\")#include(\"b\")").2 })

/-- The third document is evaluated twice, and only the main source is refused. -/
theorem includes_never_loop_diamond :
    diamond.2.world.Reached (fun _ => True) ∧
    NeverLoops diamond.1 diamond.2 diamond.1.paths ∧
    ∃ compiled, (compile diamond.1 diamond.2).1 = .ok compiled ∧
      compiled.module.content.length = 2 ∧
      compiled.module.diagnostics.map Diagnostic.source = [3] ∧
      compiled.module.diagnostics.map Diagnostic.message = ["cyclic include"] := by
  have hworld : diamond.2.world.Reached fun _ => True :=
    .step (.new _) (.set _ _ _) (by decide +kernel)
  have hrun : (match (compile diamond.1 diamond.2).1 with
      | .ok compiled =>
        decide (compiled.module.content.length = 2 ∧
          compiled.module.diagnostics.map Diagnostic.source = [3] ∧
          compiled.module.diagnostics.map Diagnostic.message = ["cyclic include"])
      | .error _ => false) = true := by
    decide +kernel
  refine ⟨hworld, includes_never_loop diamond.1 diamond.2 diamond.1.paths hworld
    fun _ => Loadable.mem_paths, ?_⟩
  cases hcompile : (compile diamond.1 diamond.2).1 with
  | error failure =>
    rw [hcompile] at hrun
    cases hrun
  | ok compiled =>
    rw [hcompile] at hrun
    exact ⟨compiled, rfl, of_decide_eq_true hrun⟩

end Compile

end Galley.Compile
