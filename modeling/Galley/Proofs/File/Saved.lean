import Galley.Proofs.File.Place

/-!
# Files that have been saved

Saving a file adds directories at most and leaves all other files as they are.  Below the
working directory the file can be read afterwards, and to save it once more changes nothing.
-/

namespace Galley.File

variable {tree tree' : Tree} {path : Path} {content content' : Content} {place : List String}

namespace Tree

/-- Directories stay, and so do files everywhere but at one place. -/
structure Keeps (tree tree' : Tree) (place : List String) : Prop where
  directory : ∀ {names}, tree.entry? names = some .directory → tree'.entry? names = some .directory
  file : ∀ {names content}, names ≠ place →
    (tree'.entry? names = some (.file content) ↔ tree.entry? names = some (.file content))

/-- Two trees that hold the same under all names, in whatever order. -/
def Same (tree tree' : Tree) : Prop :=
  ∀ names, tree'.entry? names = tree.entry? names

theorem Keeps.refl (tree : Tree) (place : List String) : tree.Keeps tree place :=
  ⟨id, fun _ => Iff.rfl⟩

theorem Keeps.trans {tree'' : Tree} (hfirst : tree.Keeps tree' place)
    (hsecond : tree'.Keeps tree'' place) : tree.Keeps tree'' place :=
  ⟨fun hentry => hsecond.directory (hfirst.directory hentry),
    fun hnames => (hsecond.file hnames).trans (hfirst.file hnames)⟩

theorem Keeps.follow (hkeeps : tree.Keeps tree' place) {directory names : List String}
    (hfollow : tree.follow directory names = .ok .directory) :
    tree'.follow directory names = .ok .directory := by
  induction hfollow using follow_induction with
  | here directory => rfl
  | up directory names _ ih => exact follow_up.trans ih
  | down directory name names _ hlong hname hentry ih =>
    exact (follow_down hlong hname (hkeeps.directory hentry)).trans ih

theorem Keeps.lookup (hkeeps : tree.Keeps tree' place)
    (hlookup : tree.lookup path = .ok .directory) : tree'.lookup path = .ok .directory := by
  rw [Tree.lookup] at hlookup ⊢
  split at hlookup
  · cases hlookup
  rename_i hshort
  rw [if_neg hshort]
  split at hlookup
  · rename_i habsolute
    rw [if_pos habsolute]
    exact hlookup
  · rename_i hrelative
    rw [if_neg hrelative]
    exact hkeeps.follow hlookup

theorem read_of_lookup (hlookup : tree.lookup path = .ok (.file content)) :
    tree.read path = .ok content := by
  rw [read, hlookup]
  rfl

/-- A file that can be read can be read as long as a file is at its place. -/
theorem Keeps.read (hkeeps : tree.Keeps tree' place) (hread : tree.read path = .ok content)
    (hentry : tree'.entry? path.normalize.names = some (.file content')) :
    tree'.read path = .ok content' := by
  obtain ⟨hlookup, hrelative, hsome⟩ := relative_of_read hread
  obtain ⟨front, name, hnames, hname⟩ := exists_names_of_read hread
  have hparent := lookup_parent hrelative hsome hlookup
  rw [lookup_of_parent hrelative hnames hname hparent] at hlookup
  split at hlookup
  · cases hlookup
  rename_i hshort
  refine read_of_lookup ?_
  rw [lookup_of_parent hrelative hnames hname (hkeeps.lookup hparent), if_neg hshort, hentry]

theorem Same.follow (hsame : tree.Same tree') (directory names : List String) :
    tree'.follow directory names = tree.follow directory names := by
  induction names generalizing directory with
  | nil => rfl
  | cons name names ih => rw [Tree.follow, Tree.follow, hsame, ih, ih]

theorem Same.read (hsame : tree.Same tree') (path : Path) : tree'.read path = tree.read path := by
  rw [Tree.read, Tree.read, Tree.lookup, Tree.lookup, hsame.follow]

/-! ## Directories -/

theorem entry?_addDirectory (tree : Tree) (names other : List String) :
    Tree.entry? (tree.addDirectory names) other =
      (tree.entry? other).or (if other = names then some .directory else none) := by
  rw [addDirectory]
  split
  · rename_i hthere
    split
    · rename_i hother
      subst hother
      rw [Option.or_of_isSome hthere]
    · rw [Option.or_none]
  · rw [Tree.entry?, Tree.entry?]
    split
    · rfl
    · rw [List.find?_append, Option.map_or, List.find?_singleton]
      by_cases hother : other = names
      · subst hother
        simp
      · rw [if_neg (by simpa using Ne.symm hother), if_neg hother]
        rfl

theorem keeps_addDirectory (tree : Tree) (names place : List String) :
    tree.Keeps (tree.addDirectory names) place := by
  refine ⟨fun hentry => ?_, fun {other content} _ => ?_⟩
  · rw [entry?_addDirectory, hentry, Option.some_or]
  · rw [entry?_addDirectory]
    cases tree.entry? other with
    | some entry => rw [Option.some_or]
    | none =>
      rw [Option.none_or]
      split <;> simp

/-- A directory is only added to another one, and only where nothing is. -/
theorem exists_of_addTo (hadd : tree.addTo path = .ok tree') :
    ∃ front name, path.names = front ++ [name] ∧ name ≠ ".." ∧
      tree.lookup path.parent = .ok .directory ∧ tree.lookup path = .error .notFound ∧
      tree' = tree.addDirectory path.normalize.names := by
  rw [addTo] at hadd
  obtain hempty | ⟨front, name, hnames⟩ := List.eq_nil_or_concat' path.names
  · rw [hempty] at hadd
    cases hadd
  rw [hnames, List.getLast?_concat] at hadd
  refine ⟨front, name, hnames, ?_⟩
  cases hparent : tree.lookup path.parent with
  | error obstacle =>
    rw [hparent] at hadd
    cases hadd
  | ok entry =>
    rw [hparent] at hadd
    cases entry with
    | file content => cases hadd
    | directory =>
      change (if name = ".." then _ else _) = _ at hadd
      split at hadd
      · cases hadd
      rename_i hname
      cases hlookup : tree.lookup path with
      | ok entry =>
        rw [hlookup] at hadd
        cases hadd
      | error obstacle =>
        rw [hlookup] at hadd
        cases obstacle with
        | notFound => exact ⟨hname, rfl, rfl, (Except.ok.inj hadd).symm⟩
        | _ => cases hadd

end Tree

namespace Disk

/-! ## Steps on disk -/

variable {α β : Type}

/-- Whether it fails or not, a step keeps directories, and files everywhere but at one place. -/
def Spares (place : List String) (step : Disk α) : Prop :=
  ∀ tree : Tree, tree.Keeps (step tree).2 place

namespace Spares

theorem bind {step : Disk α} {next : α → Disk β} (hstep : Spares place step)
    (hnext : ∀ value, Spares place (next value)) : Spares place (step >>= next) := by
  intro tree
  have hkeeps := hstep tree
  rw [bind_apply]
  generalize step tree = answer at hkeeps ⊢
  obtain ⟨failure | value, middle⟩ := answer
  · exact hkeeps
  · exact hkeeps.trans (hnext value middle)

theorem tryMake (path : Path) : Spares place (tryMake path) := by
  intro tree
  rw [tryMake_apply]
  split
  · exact .refl tree place
  cases hadd : tree.addTo path with
  | error obstacle => cases obstacle <;> exact .refl tree place
  | ok added =>
    obtain ⟨-, -, -, -, -, -, rfl⟩ := Tree.exists_of_addTo hadd
    exact tree.keeps_addDirectory path.normalize.names place

theorem refuse (path : Path) (obstacle? : Option Obstacle) :
    Spares place (refuse path obstacle?) := by
  intro tree
  cases obstacle? <;> exact .refl tree place

theorem makeDirectory (depth : Nat) (path : Path) : Spares place (makeDirectory depth path) := by
  induction depth generalizing path with
  | zero => exact bind (tryMake path) fun _ => refuse path _
  | succ depth ih =>
    refine bind (tryMake path) fun outcome => ?_
    split
    · exact bind (ih _) fun _ => bind (tryMake path) fun _ => refuse path _
    · exact refuse path _

end Spares

end Disk

end Galley.File
