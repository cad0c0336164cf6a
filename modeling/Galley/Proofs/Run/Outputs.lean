import Galley.Proofs.CommandLine.Ending
import Galley.Proofs.File.Joined
import Galley.Proofs.File.Suffix

/-!
# Fixtures that share their outputs

The outputs of a fixture are named after its stem, whatever it is found by.  So two fixtures of
one directory share their outputs as soon as they share their stem.  Among names with an ending
such as the usual one this leaves one pair; endings without a dot leave more.
-/

namespace Galley.Run

open File CommandLine

variable {files : Tree} {directory path inside left right : Path} {suffix : String}
  {selection : Selection} {paths : List Path} {setup : Setup}

/-! ## What is found -/

theorem nodup_eraseDups {α : Type} [DecidableEq α] (items : List α) : items.eraseDups.Nodup := by
  match items with
  | [] => exact List.nodup_nil
  | item :: items =>
    rw [List.eraseDups_cons, List.nodup_cons]
    constructor
    · rw [List.mem_eraseDups]
      simp
    · exact nodup_eraseDups (items.filter fun other => !other == item)
termination_by items.length
decreasing_by exact Nat.lt_succ_of_le (List.length_filter_le _ _)

theorem exists_of_filterAuxM {α : Type} {test : α → Except Failure Bool} {items seen kept : List α}
    (hkept : items.filterAuxM test seen = .ok kept) :
    ∃ passed : List α, kept = passed.reverse ++ seen ∧ passed.Sublist items ∧
      ∀ item ∈ passed, test item = .ok true := by
  induction items generalizing seen with
  | nil => exact ⟨[], (Except.ok.inj hkept).symm, .slnil, nofun⟩
  | cons item items ih =>
    obtain ⟨passes, htest, hkept⟩ := Image.exists_of_bind_eq_ok hkept
    obtain ⟨passed, rfl, hsublist, hpassed⟩ := ih hkept
    cases passes with
    | false => exact ⟨passed, rfl, hsublist.cons item, hpassed⟩
    | true =>
      refine ⟨item :: passed, ?_, hsublist.cons_cons item, List.forall_mem_cons.2 ⟨htest, hpassed⟩⟩
      rw [List.reverse_cons, List.append_assoc]
      rfl

/-- A filter keeps what passes its test. -/
theorem sublist_of_filterM {α : Type} {test : α → Except Failure Bool} {items kept : List α}
    (hkept : items.filterM test = .ok kept) :
    kept.Sublist items ∧ ∀ item ∈ kept, test item = .ok true := by
  obtain ⟨_, haux, hkept⟩ := Image.exists_of_bind_eq_ok hkept
  obtain ⟨passed, rfl, hsublist, hpassed⟩ := exists_of_filterAuxM haux
  rw [List.append_nil] at hkept
  obtain rfl := (Except.ok.inj hkept).symm
  rw [List.reverse_reverse]
  exact ⟨hsublist, hpassed⟩

section Search

variable {pattern : List Segment} {found : List Path}
  (hsearch : files.search directory pattern = .ok found)

include hsearch

/-- Nothing is found where there is no directory.  Elsewhere it is what is selected, in order and
without repetition. -/
theorem search_cases :
    found = [] ∨ files.isDirectory directory = .ok true ∧
      ∃ selected, Segment.select files pattern directory = .ok selected ∧
        found = selected.eraseDups.mergeSort Path.precedes := by
  rw [Tree.search] at hsearch
  obtain ⟨isDirectory, hdirectory, hsearch⟩ := Image.exists_of_bind_eq_ok hsearch
  cases isDirectory with
  | false => exact .inl (Except.ok.inj hsearch).symm
  | true =>
    obtain ⟨selected, hselect, hsearch⟩ := Image.exists_of_bind_eq_ok hsearch
    exact .inr ⟨hdirectory, selected, hselect, (Except.ok.inj hsearch).symm⟩

theorem nodup_search : found.Nodup := by
  obtain rfl | ⟨-, selected, -, rfl⟩ := search_cases hsearch
  · exact List.nodup_nil
  · exact (List.mergeSort_perm _ _).nodup_iff.2 (nodup_eraseDups selected)

/-- What is found is selected from a directory. -/
theorem exists_of_mem_search (hpath : path ∈ found) :
    files.isDirectory directory = .ok true ∧
      ∃ selected, Segment.select files pattern directory = .ok selected ∧ path ∈ selected := by
  obtain rfl | ⟨hdirectory, selected, hselect, rfl⟩ := search_cases hsearch
  · cases hpath
  · have hmem := (List.mergeSort_perm _ _).mem_iff.1 hpath
    exact ⟨hdirectory, selected, hselect, List.mem_eraseDups.1 hmem⟩

end Search

/-! ## Places below the fixture directory -/

/-- A path that leads on from a directory, and how it does. -/
structure Below (directory path inside : Path) : Prop where
  anchor : path.anchor = directory.anchor
  names : path.names = directory.names ++ inside.names
  relative : inside.anchor = .relative
  named : inside.names ≠ []

namespace Below

variable (hbelow : Below directory path inside)

include hbelow

theorem relativeTo? : path.relativeTo? directory = some inside := by
  have hprefix : directory.names.isPrefixOf path.names = true := by
    rw [List.isPrefixOf_iff_prefix, hbelow.names]
    exact List.prefix_append _ _
  rw [Path.relativeTo?, hbelow.anchor, hprefix, hbelow.names, List.drop_left, ← hbelow.relative,
    decide_eq_true rfl]
  rfl

theorem name_eq : path.name = inside.name := by
  rw [Path.name, Path.name, hbelow.names, List.getLast?_append_of_ne_nil _ hbelow.named]

theorem stem_eq : path.stem = inside.stem := by
  rw [Path.stem, Path.stem, hbelow.name_eq]

theorem names_parent : path.parent.names = directory.names ++ inside.names.dropLast := by
  rw [Path.parent, hbelow.names, List.dropLast_append_of_ne_nil hbelow.named]

theorem names_ne_nil : path.names ≠ [] := by
  rw [hbelow.names]
  exact List.append_ne_nil_of_right_ne_nil _ hbelow.named

end Below

/-- A path that leads on by nothing is the path of the directory. -/
theorem below_or_eq_of_relativeTo? (hinside : path.relativeTo? directory = some inside) :
    path = directory ∨ Below directory path inside := by
  rw [Path.relativeTo?, Option.ite_none_right_eq_some, Bool.and_eq_true_iff, decide_eq_true_iff,
    List.isPrefixOf_iff_prefix] at hinside
  obtain ⟨⟨hanchor, rest, hnames⟩, hinside⟩ := hinside
  obtain rfl := Option.some.inj hinside
  rw [← hnames, List.drop_left]
  cases rest with
  | nil =>
    left
    rw [List.append_nil] at hnames
    cases path
    cases directory
    exact congrArg₂ File.Path.mk hanchor hnames.symm
  | cons name names =>
    right
    exact ⟨hanchor, hnames.symm, rfl, List.cons_ne_nil _ _⟩

/-- What is discovered has been found, once, and lies below the directory. -/
theorem exists_of_discover (hfound : discover files directory suffix selection = .ok paths) :
    ∃ pattern found, Segment.forSuffix suffix = .ok pattern ∧
      files.search directory pattern = .ok found ∧ paths.Sublist found ∧
      ∀ path ∈ paths, ∃ inside, Below directory path inside := by
  obtain ⟨pattern, hpattern, hfound⟩ := Image.exists_of_bind_eq_ok hfound
  obtain ⟨found, hsearch, hfound⟩ := Image.exists_of_bind_eq_ok hfound
  obtain ⟨hsublist, hkept⟩ := sublist_of_filterM hfound
  refine ⟨pattern, found, hpattern, hsearch, hsublist, fun path hpath => ?_⟩
  obtain ⟨found?, hfile, hkept⟩ := Image.exists_of_bind_eq_ok (hkept path hpath)
  cases hinside : path.relativeTo? directory with
  | none =>
    rw [hinside] at hkept
    obtain _ | (_ | _) := found? <;> cases hkept
  | some inside =>
    obtain rfl | hbelow := below_or_eq_of_relativeTo? hinside
    · -- A directory is no file.
      obtain ⟨hdirectory, -⟩ := exists_of_mem_search hsearch (hsublist.subset hpath)
      rw [Tree.isDirectory, hfile] at hdirectory
      obtain _ | (_ | _) := found?
      · cases hkept
      · cases hdirectory
      · cases hkept
    · exact ⟨inside, hbelow⟩

/-! ## Outputs -/

/-- Fixtures of one directory with one stem. -/
def Twins (left right : Path) : Prop :=
  left.parent = right.parent ∧ left.stem = right.stem

theorem Below.twins_iff {inside' : Path} (hleft : Below directory left inside)
    (hright : Below directory right inside') :
    Twins left right ↔
      inside.names.dropLast = inside'.names.dropLast ∧ inside.stem = inside'.stem := by
  have hparent : left.parent = right.parent ↔ left.parent.names = right.parent.names := by
    rw [Path.parent, Path.parent, File.Path.mk.injEq, hleft.anchor, hright.anchor]
    exact and_iff_right rfl
  rw [Twins, hparent, hleft.names_parent, hright.names_parent, List.append_cancel_left_eq,
    hleft.stem_eq, hright.stem_eq]

/-- Where a place with a stem for a name is below a directory of outputs. -/
def placeIn (base inside : Path) (suffix : String) : Path :=
  base ++ ({ names := inside.names.dropLast ++ [inside.stem ++ suffix] } : Path)

theorem placeIn_eq_placeIn_iff {base inside inside' : Path} {suffix : String} :
    placeIn base inside suffix = placeIn base inside' suffix ↔
      inside.names.dropLast = inside'.names.dropLast ∧ inside.stem = inside'.stem := by
  rw [placeIn, placeIn, Path.append_of_relative _ rfl, Path.append_of_relative _ rfl]
  simp

/-- The outputs of a fixture lie at its place, with its stem for a name. -/
theorem outputPaths_eq (hbelow : Below setup.settings.fixtureDir path inside) :
    outputPaths setup path =
      if path.name = "" then .error (.emptyName inside.toString)
      else .ok
        { png := placeIn setup.settings.pngDir inside ".png"
          ref := placeIn setup.settings.refDir inside ".png"
          pdf := if setup.options.pdf then some (placeIn setup.settings.pdfDir inside ".pdf")
            else none } := by
  have hsuffix : ∀ suffix, inside.withSuffix suffix =
      if path.name = "" then .error (.emptyName inside.toString)
      else .ok { names := inside.names.dropLast ++ [inside.stem ++ suffix] } := by
    intro suffix
    rw [Path.withSuffix, hbelow.name_eq, hbelow.relative]
    simp only [String.isEmpty_iff]
    rfl
  rw [outputPaths, hbelow.relativeTo?]
  dsimp only [Option.getD_some]
  rw [hsuffix, hsuffix]
  split <;> rfl

theorem outputs_eq_iff {inside' : Path} {outputs outputs' : Outputs}
    (hbelow : Below setup.settings.fixtureDir left inside)
    (hbelow' : Below setup.settings.fixtureDir right inside')
    (houtputs : outputPaths setup left = .ok outputs)
    (houtputs' : outputPaths setup right = .ok outputs') :
    (outputs.png = outputs'.png ↔ Twins left right) ∧
      (outputs.ref = outputs'.ref ↔ Twins left right) := by
  rw [outputPaths_eq hbelow] at houtputs
  rw [outputPaths_eq hbelow'] at houtputs'
  split at houtputs
  · cases houtputs
  · split at houtputs'
    · cases houtputs'
    · obtain rfl := Except.ok.inj houtputs
      obtain rfl := Except.ok.inj houtputs'
      rw [hbelow.twins_iff hbelow']
      exact ⟨placeIn_eq_placeIn_iff, placeIn_eq_placeIn_iff⟩

/-! ## Twins -/

/-- A path is its last name below its parent. -/
theorem eq_of_parent_of_name (hleft : left.names ≠ []) (hright : right.names ≠ [])
    (hparent : left.parent = right.parent) (hname : left.name = right.name) : left = right := by
  obtain ⟨hanchor, hnames⟩ := File.Path.mk.inj hparent
  rw [Path.name, Path.name, List.getLast?_eq_some_getLast hleft,
    List.getLast?_eq_some_getLast hright] at hname
  have hlast : left.names.getLast hleft = right.names.getLast hright := hname
  have hall : left.names = right.names := by
    rw [← List.dropLast_append_getLast hleft, hnames, hlast, List.dropLast_append_getLast]
  cases left
  cases right
  exact congrArg₂ File.Path.mk hanchor hall

/-- Two names of which the second one is the first one twice, which is an ending. -/
def Doubled (suffix : String) (left right : Path) : Prop :=
  left.name = suffix ∧ right.name = suffix ++ suffix

/-- Among names with an ending that has a dot, only a bare ending has a twin: itself behind
itself. -/
theorem twins_iff_of_suffix (hdot : '.' ∈ suffix.toList)
    (hleft : suffix.toList <:+ left.name.toList) (hright : suffix.toList <:+ right.name.toList)
    (hnamed : left.names ≠ []) (hnamed' : right.names ≠ []) (hne : left ≠ right) :
    Twins left right ↔ left.parent = right.parent ∧ Path.Bare suffix.toList ∧
      (Doubled suffix left right ∨ Doubled suffix right left) := by
  apply and_congr_right
  intro hparent
  have hnames : left.name.toList ≠ right.name.toList := fun heq =>
    hne (eq_of_parent_of_name hnamed hnamed' hparent (String.toList_injective heq))
  rw [Path.stem, Path.stem, String.ofList_inj, Path.stem_eq_stem_iff hdot hleft hright hnames]
  simp only [Doubled, ← String.toList_inj, String.toList_append, and_comm]

/-- What is discovered by an ending of letters has that ending. -/
theorem suffix_of_mem_discover {pattern : List Segment} {found : List Path}
    (hliteral : NamePattern.Literal suffix.toList) (hslash : '/' ∉ suffix.toList)
    (hpattern : Segment.forSuffix suffix = .ok pattern)
    (hsearch : files.search directory pattern = .ok found) (hpath : path ∈ found) :
    suffix.toList <:+ path.name.toList := by
  rw [Segment.forSuffix_of_literal hliteral hslash] at hpattern
  obtain rfl := Except.ok.inj hpattern
  obtain ⟨-, selected, hselect, hpath⟩ := exists_of_mem_search hsearch hpath
  exact NamePattern.accepts_many_literals.1 (Segment.accepts_of_mem_select hselect hpath)

/-- Every file is discovered once, and the outputs of two of them are the same just if the files
lie in one directory and have one stem.  With an ending of letters and a dot, such as the usual
one, that takes two files of which one has the ending for its name and the other one has it
twice. -/
theorem outputs_shared_iff_twins
    (hfound : discover files setup.settings.fixtureDir setup.settings.fixtureSuffix selection =
      .ok paths) :
    paths.Nodup ∧
      (∀ path ∈ paths, path.name ≠ "" → ∃ outputs, outputPaths setup path = .ok outputs) ∧
      ∀ left ∈ paths, ∀ right ∈ paths,
        (∀ outputs outputs', outputPaths setup left = .ok outputs →
          outputPaths setup right = .ok outputs' →
          (outputs.png = outputs'.png ↔ Twins left right) ∧
            (outputs.ref = outputs'.ref ↔ Twins left right)) ∧
        (NamePattern.Literal setup.settings.fixtureSuffix.toList →
          '/' ∉ setup.settings.fixtureSuffix.toList → '.' ∈ setup.settings.fixtureSuffix.toList →
          left ≠ right →
          (Twins left right ↔ left.parent = right.parent ∧
            Path.Bare setup.settings.fixtureSuffix.toList ∧
            (Doubled setup.settings.fixtureSuffix left right ∨
              Doubled setup.settings.fixtureSuffix right left))) := by
  obtain ⟨pattern, found, hpattern, hsearch, hsublist, hbelow⟩ := exists_of_discover hfound
  refine ⟨hsublist.nodup (nodup_search hsearch), ?_, ?_⟩
  · intro path hpath hname
    obtain ⟨inside, hinside⟩ := hbelow path hpath
    rw [outputPaths_eq hinside, if_neg hname]
    exact ⟨_, rfl⟩
  · intro left hleft right hright
    obtain ⟨inside, hinside⟩ := hbelow left hleft
    obtain ⟨inside', hinside'⟩ := hbelow right hright
    constructor
    · intro outputs outputs' houtputs houtputs'
      exact outputs_eq_iff hinside hinside' houtputs houtputs'
    · intro hliteral hslash hdot hne
      have hends : ∀ path ∈ paths, setup.settings.fixtureSuffix.toList <:+ path.name.toList :=
        fun path hpath =>
          suffix_of_mem_discover hliteral hslash hpattern hsearch (hsublist.subset hpath)
      exact twins_iff_of_suffix hdot (hends left hleft) (hends right hright) hinside.names_ne_nil
        hinside'.names_ne_nil hne

/-- Two files in one directory, the usual ending and the same behind itself. -/
def twinFiles : Tree :=
  ⟨[(["typ"], .directory), (["typ", ".pbt"], .file (.bytes "".toUTF8)),
    (["typ", ".pbt.pbt"], .file (.bytes "".toUTF8))]⟩

theorem below_twinFiles : twinFiles.below (.ofString "typ") =
    [(.ofString "typ/.pbt", .file (.bytes "".toUTF8)),
      (.ofString "typ/.pbt.pbt", .file (.bytes "".toUTF8))] := by
  apply List.mergeSort_of_pairwise
  decide +kernel

theorem select_twinFiles : Segment.select twinFiles fixturePattern (.ofString "typ") =
    .ok [.ofString "typ/.pbt", .ofString "typ/.pbt.pbt"] := by
  have hdirectories : twinFiles.directories (.ofString "typ") = [.ofString "typ"] := by
    rw [Tree.directories, below_twinFiles]
    rfl
  have hinside : Segment.select twinFiles
      [.fitting [.many, .literal '.', .literal 'p', .literal 'b', .literal 't']]
      (.ofString "typ") = .ok [.ofString "typ/.pbt", .ofString "typ/.pbt.pbt"] := by
    rw [Segment.select, Segment.step, Tree.children, below_twinFiles]
    rfl
  rw [fixturePattern, Segment.select, Segment.step, hdirectories]
  change (List.mapM (Segment.select twinFiles _) [Path.ofString "typ"] >>= fun lists =>
    pure lists.flatten) = _
  rw [List.mapM_cons, hinside]
  rfl

theorem discover_twinFiles : discover twinFiles (.ofString "typ") ".pbt" {} =
    .ok [.ofString "typ/.pbt", .ofString "typ/.pbt.pbt"] := by
  have hsearch : twinFiles.search (.ofString "typ") fixturePattern =
      .ok [.ofString "typ/.pbt", .ofString "typ/.pbt.pbt"] := by
    rw [Tree.search]
    change (Segment.select twinFiles fixturePattern (.ofString "typ") >>= fun found => pure _) = _
    rw [select_twinFiles]
    apply congrArg Except.ok
    apply List.mergeSort_of_pairwise
    decide +kernel
  change (twinFiles.search (.ofString "typ") fixturePattern >>= fun found => _) = _
  rw [hsearch]
  rfl

/-- Both files are discovered, and they have one picture and one reference. -/
theorem outputs_shared_iff_twins_twinFiles :
    discover twinFiles (.ofString "typ") ".pbt" {} =
        .ok [.ofString "typ/.pbt", .ofString "typ/.pbt.pbt"] ∧
      ∃ outputs outputs', outputPaths ownDirectories (.ofString "typ/.pbt") = .ok outputs ∧
        outputPaths ownDirectories (.ofString "typ/.pbt.pbt") = .ok outputs' ∧
        outputs.png = outputs'.png ∧ outputs.ref = outputs'.ref := by
  have hfound : discover twinFiles ownDirectories.settings.fixtureDir
      ownDirectories.settings.fixtureSuffix {} =
        .ok [.ofString "typ/.pbt", .ofString "typ/.pbt.pbt"] := discover_twinFiles
  obtain ⟨-, houtputs, hshared⟩ := outputs_shared_iff_twins hfound
  obtain ⟨outputs, hleft⟩ := houtputs (.ofString "typ/.pbt") (by decide) (by decide +kernel)
  obtain ⟨outputs', hright⟩ := houtputs (.ofString "typ/.pbt.pbt") (by decide) (by decide +kernel)
  obtain ⟨hsame, htwins⟩ := hshared (.ofString "typ/.pbt") (by decide)
    (.ofString "typ/.pbt.pbt") (by decide)
  have hbare : Path.Bare ".pbt".toList := ⟨"pbt".toList, rfl, by decide, by decide⟩
  have htwins : Twins (.ofString "typ/.pbt") (.ofString "typ/.pbt.pbt") :=
    (htwins (by decide) (by decide) (by decide) (by decide)).2 ⟨rfl, hbare, .inl ⟨rfl, rfl⟩⟩
  obtain ⟨hpng, href⟩ := hsame outputs outputs' hleft hright
  exact ⟨discover_twinFiles, outputs, outputs', hleft, hright, hpng.2 htwins, href.2 htwins⟩

end Galley.Run
