import Mathlib.Data.List.Forall2
import Galley.File.Disk

/-!
# Trees that differ in contents

What a file system allows depends on its names and on which of them are
directories, but not on what the files hold.  So steps that save different
contents under the same names succeed and fail alike.
-/

namespace Galley

/-- The same failure, or values that belong together. -/
inductive Matched {ε α : Type} (same : α → α → Prop) : Except ε α → Except ε α → Prop
  | failure (failure : ε) : Matched same (.error failure) (.error failure)
  | value {value value' : α} (hsame : same value value') : Matched same (.ok value) (.ok value')

namespace Matched

variable {ε α β : Type} {same : α → α → Prop} {same' : β → β → Prop}

theorem refl (result : Except ε α) :
    Matched (fun value value' => value = value') result result := by
  cases result with
  | error failure => exact .failure failure
  | ok value => exact .value rfl

theorem bind {result result' : Except ε α} {next next' : α → Except ε β}
    (hresult : Matched same result result')
    (hnext : ∀ value value', same value value' → Matched same' (next value) (next' value')) :
    Matched same' (result >>= next) (result' >>= next') := by
  cases hresult with
  | failure failure => exact .failure failure
  | value hsame => exact hnext _ _ hsame

end Matched

namespace File

variable {same : Content → Content → Prop}

/-- Two directories, or two files whose contents belong together. -/
inductive Entry.Alike (same : Content → Content → Prop) : Entry → Entry → Prop
  | file {content content' : Content} (hsame : same content content') :
    Alike same (.file content) (.file content')
  | directory : Alike same .directory .directory

namespace Tree

/-- Trees with the same names, in which what stands under each name is alike. -/
def Alike (same : Content → Content → Prop) (tree tree' : Tree) : Prop :=
  List.Forall₂ (fun entry entry' => entry.1 = entry'.1 ∧ entry.2.Alike same entry'.2) tree.entries
    tree'.entries

variable {tree tree' : Tree}

theorem Alike.refl (hrefl : ∀ content, same content content) (tree : Tree) :
    Alike same tree tree := by
  refine List.forall₂_same.2 ?_
  rintro ⟨names, content | _⟩ _
  · exact ⟨rfl, .file (hrefl content)⟩
  · exact ⟨rfl, .directory⟩

namespace Alike

theorem append {entry entry' : Entry} (halike : Alike same tree tree') (names : List String)
    (hentry : entry.Alike same entry') :
    Alike same { entries := tree.entries ++ [(names, entry)] }
      { entries := tree'.entries ++ [(names, entry')] } :=
  List.rel_append halike (.cons ⟨rfl, hentry⟩ .nil)

theorem filter (halike : Alike same tree tree') (keep : List String → Bool) :
    Alike same { entries := tree.entries.filter fun entry => keep entry.1 }
      { entries := tree'.entries.filter fun entry => keep entry.1 } := by
  obtain ⟨entries⟩ := tree
  obtain ⟨entries'⟩ := tree'
  change List.Forall₂ _ entries entries' at halike
  show List.Forall₂ _ (entries.filter _) (entries'.filter _)
  induction halike with
  | nil => exact .nil
  | @cons entry entry' rest rest' hentry _ ih =>
    rw [List.filter_cons, List.filter_cons, hentry.1]
    split
    · exact .cons hentry ih
    · exact ih

/-! ## Looking up -/

theorem entry? (halike : Alike same tree tree') (names : List String) :
    Option.Rel (Entry.Alike same) (tree.entry? names) (tree'.entry? names) := by
  rw [Tree.entry?, Tree.entry?]
  split
  · exact .some .directory
  · obtain ⟨entries⟩ := tree
    obtain ⟨entries'⟩ := tree'
    change List.Forall₂ _ entries entries' at halike
    dsimp only
    induction halike with
    | nil => exact .none
    | @cons entry entry' rest rest' hentry _ ih =>
      rw [List.find?_cons, List.find?_cons, hentry.1]
      cases entry'.1 == names with
      | true => exact .some hentry.2
      | false => exact ih

theorem follow (halike : Alike same tree tree') (directory names : List String) :
    Matched (Entry.Alike same) (tree.follow directory names) (tree'.follow directory names) := by
  induction names generalizing directory with
  | nil => exact .value .directory
  | cons name names ih =>
    have hentry := halike.entry? (directory ++ [name])
    rw [Tree.follow, Tree.follow]
    split
    · exact .failure _
    split
    · exact ih _
    generalize tree.entry? (directory ++ [name]) = found at hentry ⊢
    generalize tree'.entry? (directory ++ [name]) = found' at hentry ⊢
    cases hentry with
    | none => exact .failure _
    | some hentry =>
      cases hentry with
      | directory => exact ih _
      | file hsame =>
        dsimp only
        split
        · exact .value (.file hsame)
        · exact .failure _

theorem lookup (halike : Alike same tree tree') (path : Path) :
    Matched (Entry.Alike same) (tree.lookup path) (tree'.lookup path) := by
  rw [Tree.lookup, Tree.lookup]
  split
  · exact .failure _
  · split
    · split
      · exact .value .directory
      · exact .failure _
    · exact halike.follow [] path.names

theorem isDirectory (halike : Alike same tree tree') (path : Path) :
    tree'.isDirectory path = tree.isDirectory path := by
  have hlookup := halike.lookup path
  rw [Tree.isDirectory, Tree.isDirectory, Tree.find?, Tree.find?]
  split
  · rfl
  · generalize tree.lookup path = found at hlookup ⊢
    generalize tree'.lookup path = found' at hlookup ⊢
    cases hlookup with
    | failure obstacle => cases obstacle <;> rfl
    | value hentry => cases hentry <;> rfl

/-- What is read belongs together. -/
theorem read (halike : Alike same tree tree') (path : Path) :
    Matched same (tree.read path) (tree'.read path) := by
  have hlookup := halike.lookup path
  rw [Tree.read, Tree.read]
  generalize tree.lookup path = found at hlookup ⊢
  generalize tree'.lookup path = found' at hlookup ⊢
  cases hlookup with
  | failure obstacle => exact .failure obstacle
  | value hentry =>
    cases hentry with
    | file hsame => exact .value hsame
    | directory => exact .failure _

/-! ## Changing -/

theorem addDirectory (halike : Alike same tree tree') (names : List String) :
    Alike same (tree.addDirectory names) (tree'.addDirectory names) := by
  have hentry := halike.entry? names
  rw [Tree.addDirectory, Tree.addDirectory]
  generalize tree.entry? names = found at hentry ⊢
  generalize tree'.entry? names = found' at hentry ⊢
  cases hentry with
  | none => exact halike.append names .directory
  | some => exact halike

theorem addTo (halike : Alike same tree tree') (path : Path) :
    Matched (Alike same) (tree.addTo path) (tree'.addTo path) := by
  have hparent := halike.lookup path.parent
  have hpath := halike.lookup path
  rw [Tree.addTo, Tree.addTo]
  cases path.names.getLast? with
  | none => exact .failure _
  | some name =>
    dsimp only
    generalize tree.lookup path.parent = found at hparent ⊢
    generalize tree'.lookup path.parent = found' at hparent ⊢
    cases hparent with
    | failure obstacle => exact .failure obstacle
    | value hentry =>
      cases hentry with
      | file => exact .failure _
      | directory =>
        change Matched _ (if name = ".." then _ else _) (if name = ".." then _ else _)
        split
        · exact .failure _
        generalize tree.lookup path = found at hpath ⊢
        generalize tree'.lookup path = found' at hpath ⊢
        cases hpath with
        | value => exact .failure _
        | failure obstacle =>
          cases obstacle with
          | notFound => exact .value (halike.addDirectory _)
          | _ => exact .failure _

theorem write {content content' : Content} (halike : Alike same tree tree') (path : Path)
    (hsame : same content content') :
    Alike same (tree.write path content) (tree'.write path content') := by
  have hparents : ∀ directories : List (List String), ∀ {tree tree' : Tree},
      Alike same tree tree' → Alike same (directories.foldl Tree.addDirectory tree)
        (directories.foldl Tree.addDirectory tree') := by
    intro directories
    induction directories with
    | nil => exact id
    | cons names directories ih => exact fun halike => ih (halike.addDirectory names)
  exact ((hparents (parents path.normalize.names) halike).filter
    (· != path.normalize.names)).append path.normalize.names (.file hsame)

theorem save {content content' : Content} (halike : Alike same tree tree') (path : Path)
    (hsame : same content content') :
    Matched (Alike same) (tree.save path content) (tree'.save path content') := by
  have hlookup := halike.lookup path
  rw [Tree.save, Tree.save]
  generalize tree.lookup path = found at hlookup ⊢
  generalize tree'.lookup path = found' at hlookup ⊢
  cases hlookup with
  | value hentry =>
    cases hentry with
    | file => exact .value (halike.write path hsame)
    | directory => exact .failure _
  | failure obstacle =>
    cases obstacle with
    | notFound => exact .value (halike.write path hsame)
    | _ => exact .failure _

end Alike

end Tree

/-! ## Steps on disk -/

namespace Disk

variable {α β : Type}

theorem bind_apply (action : Disk α) (next : α → Disk β) (tree : Tree) :
    (action >>= next) tree =
      match action tree with
      | (.ok value, after) => next value after
      | (.error failure, after) => (.error failure, after) := by
  show ExceptT.bindCont next (action tree).1 (action tree).2 = _
  rcases action tree with ⟨failure | value, after⟩ <;> rfl

theorem eq_ok_of_bind {step : Disk α} {next : α → Disk β} {value : β}
    {files after : Tree} (hrun : (step >>= next) files = (.ok value, after)) :
    ∃ first middle, step files = (.ok first, middle) ∧ next first middle = (.ok value, after) := by
  rw [bind_apply] at hrun
  cases hstep : step files with
  | mk result middle =>
    rw [hstep] at hrun
    cases result with
    | error failure => cases hrun
    | ok first => exact ⟨first, middle, rfl, hrun⟩

theorem get_apply (tree : Tree) : (get : Disk Tree) tree = (.ok tree, tree) :=
  rfl

theorem change_apply (step : Tree → Except Failure Tree) (tree : Tree) :
    change step tree =
      match step tree with
      | .ok files => (.ok (), files)
      | .error failure => (.error failure, tree) := by
  rw [change, bind_apply, get_apply]
  dsimp only
  cases step tree <;> rfl

theorem tryMake_apply (path : Path) (tree : Tree) :
    tryMake path tree =
      if path.hasNull then (.error .nullCharacter, tree)
      else
        match tree.addTo path with
        | .ok files => (.ok none, files)
        | .error .notFound => (.ok (some .notFound), tree)
        | .error obstacle =>
          ((tree.isDirectory path).map fun isThere => if isThere then none else some obstacle,
            tree) := by
  rw [tryMake]
  split
  · rfl
  · rw [bind_apply, get_apply]
    dsimp only
    cases tree.addTo path with
    | ok files => rfl
    | error obstacle => cases obstacle <;> cases tree.isDirectory path <;> rfl

theorem read?_apply (path : Path) (tree : Tree) :
    read? path tree =
      if path.hasNull then (.error .nullCharacter, tree)
      else (.ok (tree.read path).toOption, tree) := by
  rw [read?]
  split <;> rfl

/-- Two steps have the same outcome on trees that are alike and leave such trees behind. -/
def Level (same : Content → Content → Prop) (left right : Disk α) : Prop :=
  ∀ tree tree', Tree.Alike same tree tree' →
    (right tree').1 = (left tree).1 ∧ (left tree).2.Alike same (right tree').2

namespace Level

theorem pure (value : α) : Level same (pure value) (pure value) :=
  fun _ _ halike => ⟨rfl, halike⟩

theorem throw (failure : Failure) : Level same (throw failure : Disk α) (throw failure) :=
  fun _ _ halike => ⟨rfl, halike⟩

theorem bind {left right : Disk α} {next next' : α → Disk β} (hstep : Level same left right)
    (hnext : ∀ value, Level same (next value) (next' value)) :
    Level same (left >>= next) (right >>= next') := by
  intro tree tree' halike
  have hresult := hstep tree tree' halike
  rw [bind_apply, bind_apply]
  generalize left tree = answer at hresult ⊢
  generalize right tree' = answer' at hresult ⊢
  obtain ⟨result, after⟩ := answer
  obtain ⟨result', after'⟩ := answer'
  obtain ⟨rfl, hafter⟩ := hresult
  cases result' with
  | error failure => exact ⟨rfl, hafter⟩
  | ok value => exact hnext value after after' hafter

theorem change {step step' : Tree → Except Failure Tree}
    (hstep : ∀ tree tree', Tree.Alike same tree tree' →
      Matched (Tree.Alike same) (step tree) (step' tree')) :
    Level same (change step) (change step') := by
  intro tree tree' halike
  have hmatched := hstep tree tree' halike
  rw [change_apply, change_apply]
  generalize step tree = result at hmatched ⊢
  generalize step' tree' = result' at hmatched ⊢
  cases hmatched with
  | failure failure => exact ⟨rfl, halike⟩
  | value hafter => exact ⟨rfl, hafter⟩

theorem tryMake (path : Path) : Level same (tryMake path) (tryMake path) := by
  intro tree tree' halike
  have hadded := halike.addTo path
  have hdirectory := halike.isDirectory path
  rw [tryMake_apply, tryMake_apply, hdirectory]
  split
  · exact ⟨rfl, halike⟩
  generalize tree.addTo path = result at hadded ⊢
  generalize tree'.addTo path = result' at hadded ⊢
  cases hadded with
  | value hafter => exact ⟨rfl, hafter⟩
  | failure obstacle => cases obstacle <;> exact ⟨rfl, halike⟩

theorem refuse (path : Path) (obstacle? : Option Obstacle) :
    Level same (refuse path obstacle?) (refuse path obstacle?) := by
  cases obstacle? with
  | none => exact pure ()
  | some obstacle => exact throw _

theorem makeDirectory (depth : Nat) (path : Path) :
    Level same (makeDirectory depth path) (makeDirectory depth path) := by
  induction depth generalizing path with
  | zero => exact bind (tryMake path) fun _ => refuse path _
  | succ depth ih =>
    refine bind (tryMake path) fun outcome => ?_
    split
    · exact bind (ih _) fun _ => bind (tryMake path) fun _ => refuse path _
    · exact refuse path _

/-- Files may be saved with contents that belong together. -/
theorem save {content content' : Content} (path : Path) (hsame : same content content') :
    Level same (save path content) (save path content') := by
  refine bind (makeDirectory _ _) fun _ => ?_
  split
  · exact throw _
  · exact change fun _ _ halike => halike.save path hsame

end Level

end Disk

end File

end Galley
