import Galley.Proofs.File.Alike

/-!
# Files that are there

A file that can be read stands in a directory.  So there is room for it, and it can
be replaced without anything else being made or moved.
-/

namespace Galley.File

variable {tree : Tree} {path : Path} {content : Content}

namespace Tree

/-- What following a name has done if it leads somewhere: one goes up, or down into a directory, or
the last name is that of a file. -/
theorem follow_cons_cases {directory names : List String} {name : String} {entry : Entry}
    (hfollow : tree.follow directory (name :: names) = .ok entry) :
    ¬nameLimit < name.utf8ByteSize ∧
      (name = ".." ∧ tree.follow (ascend directory) names = .ok entry ∨
        name ≠ ".." ∧ (tree.entry? (directory ++ [name]) = some .directory ∧
            tree.follow (directory ++ [name]) names = .ok entry ∨
          ∃ content, tree.entry? (directory ++ [name]) = some (.file content) ∧ names = [] ∧
            entry = .file content)) := by
  rw [Tree.follow] at hfollow
  split at hfollow
  · cases hfollow
  rename_i hlong
  refine ⟨hlong, ?_⟩
  split at hfollow
  · rename_i hup
    exact .inl ⟨hup, hfollow⟩
  rename_i hup
  refine .inr ⟨hup, ?_⟩
  cases hentry : tree.entry? (directory ++ [name]) with
  | none =>
    rw [hentry] at hfollow
    cases hfollow
  | some found =>
    rw [hentry] at hfollow
    cases found with
    | directory => exact .inl ⟨rfl, hfollow⟩
    | file content =>
      dsimp only at hfollow
      split at hfollow
      · rename_i hlast
        exact .inr ⟨content, rfl, List.isEmpty_iff.1 hlast, (Except.ok.inj hfollow).symm⟩
      · cases hfollow

theorem follow_up {directory names : List String} :
    tree.follow directory (".." :: names) = tree.follow (ascend directory) names := by
  rw [Tree.follow, if_neg (by decide), if_pos rfl]

theorem follow_down {directory names : List String} {name : String}
    (hlong : ¬nameLimit < name.utf8ByteSize) (hname : name ≠ "..")
    (hentry : tree.entry? (directory ++ [name]) = some .directory) :
    tree.follow directory (name :: names) = tree.follow (directory ++ [name]) names := by
  rw [Tree.follow, if_neg hlong, if_neg hname, hentry]

/-- The way to a directory goes up and down through directories. -/
theorem follow_induction
    {motive : ∀ directory names, tree.follow directory names = .ok .directory → Prop}
    (here : ∀ directory, motive directory [] rfl)
    (up : ∀ directory names hrest, motive (ascend directory) names hrest →
      motive directory (".." :: names) (follow_up.trans hrest))
    (down : ∀ directory name names hrest (hlong : ¬nameLimit < name.utf8ByteSize)
      (hname : name ≠ "..") (hentry : tree.entry? (directory ++ [name]) = some .directory),
        motive (directory ++ [name]) names hrest →
          motive directory (name :: names) ((follow_down hlong hname hentry).trans hrest))
    {directory names : List String} (hfollow : tree.follow directory names = .ok .directory) :
    motive directory names hfollow := by
  induction names generalizing directory with
  | nil => exact here directory
  | cons name names ih =>
    obtain ⟨hlong, ⟨rfl, hrest⟩ | ⟨hname, ⟨hentry, hrest⟩ | ⟨content, -, -, hfile⟩⟩⟩ :=
      follow_cons_cases hfollow
    · exact up directory names hrest (ih hrest)
    · exact down directory name names hrest hlong hname hentry (ih hrest)
    · cases hfile

/-- Names in front of others on a way that leads somewhere lead to a directory. -/
theorem follow_of_append {directory front : List String} {name : String} {entry : Entry}
    (hfollow : tree.follow directory (front ++ [name]) = .ok entry) :
    tree.follow directory front = .ok .directory := by
  induction front generalizing directory with
  | nil => rfl
  | cons first front ih =>
    obtain ⟨hlong, ⟨rfl, hrest⟩ | ⟨hname, ⟨hentry, hrest⟩ | ⟨content, -, hlast, -⟩⟩⟩ :=
      follow_cons_cases hfollow
    · rw [follow_up]
      exact ih hrest
    · rw [follow_down hlong hname hentry]
      exact ih hrest
    · cases (List.append_eq_nil_iff.1 hlast).2

end Tree

namespace Path

/-- The path of a directory is written no longer than that of what stands in it. -/
theorem utf8ByteSize_toString_parent (hrelative : path.isAbsolute = false)
    (hnames : path.names ≠ []) :
    path.parent.toString.utf8ByteSize ≤ max 1 path.toString.utf8ByteSize := by
  obtain ⟨anchor, names⟩ := path
  obtain rfl : anchor = .relative := by simpa [isAbsolute] using hrelative
  obtain ⟨front, name, rfl⟩ := (List.eq_nil_or_concat' names).resolve_left hnames
  cases front with
  | nil => exact Nat.le_max_left _ _
  | cons first front =>
    refine Nat.le_trans ?_ (Nat.le_max_right _ _)
    have hparent : (Path.mk .relative (first :: front ++ [name])).parent.toString =
        "/".intercalate (first :: front) := by
      rw [parent, List.dropLast_concat]
      rfl
    have hpath : (Path.mk .relative (first :: front ++ [name])).toString =
        "/".intercalate (first :: front) ++ "/" ++ name := by
      have hsplit := String.intercalate_append_of_ne_nil (s := "/") (List.cons_ne_nil first front)
        (List.cons_ne_nil name [])
      simpa [toString] using hsplit
    rw [hparent, hpath, String.append_assoc, String.utf8ByteSize_append]
    exact Nat.le_add_right _ _

theorem hasNull_parent (hnull : path.hasNull = false) : path.parent.hasNull = false := by
  rw [hasNull, List.any_eq_false] at hnull ⊢
  exact fun name hname => hnull name (List.dropLast_subset _ hname)

end Path

namespace Tree

/-- What leads somewhere stands in a directory. -/
theorem lookup_parent {entry : Entry} (hrelative : path.isAbsolute = false)
    (hnames : path.names ≠ []) (hlookup : tree.lookup path = .ok entry) :
    tree.lookup path.parent = .ok .directory := by
  have hsize := path.utf8ByteSize_toString_parent hrelative hnames
  have hone : 1 < pathLimit := by decide
  obtain ⟨front, name, hsplit⟩ := (List.eq_nil_or_concat' path.names).resolve_left hnames
  rw [lookup] at hlookup ⊢
  split at hlookup
  · cases hlookup
  rename_i hshort
  rw [if_neg (by omega), if_neg (by simpa [Path.isAbsolute, Path.parent] using hrelative)]
  rw [hrelative, if_neg Bool.false_ne_true, hsplit] at hlookup
  rw [Path.parent, hsplit, List.dropLast_concat]
  exact follow_of_append hlookup

/-- A file has a name and stands below the working directory. -/
theorem relative_of_read (hread : tree.read path = .ok content) :
    tree.lookup path = .ok (.file content) ∧ path.isAbsolute = false ∧ path.names ≠ [] := by
  have hlookup : tree.lookup path = .ok (.file content) := by
    rw [read] at hread
    cases hfound : tree.lookup path with
    | error obstacle =>
      rw [hfound] at hread
      cases hread
    | ok entry =>
      rw [hfound] at hread
      cases entry with
      | directory => cases hread
      | file found => rw [Except.ok.inj hread]
  refine ⟨hlookup, ?_, ?_⟩ <;> rw [lookup] at hlookup <;> split at hlookup
  · cases hlookup
  · refine Bool.eq_false_iff.2 fun habsolute => ?_
    rw [if_pos habsolute] at hlookup
    split at hlookup <;> cases hlookup
  · cases hlookup
  · intro hnames
    rw [hnames] at hlookup
    split at hlookup <;> cases hlookup

end Tree

namespace Disk

/-- A directory that is there is not made again. -/
theorem tryMake_of_directory (hnull : path.hasNull = false) (hrelative : path.isAbsolute = false)
    (hlookup : tree.lookup path = .ok .directory) : tryMake path tree = (.ok none, tree) := by
  have hadd : tree.addTo path = .error .alreadyExists := by
    rw [Tree.addTo]
    cases hnames : path.names.getLast? with
    | none => rfl
    | some name =>
      have hparent := Tree.lookup_parent hrelative
        (List.getLast?_isSome.1 (Option.isSome_of_eq_some hnames)) hlookup
      dsimp only
      rw [hparent, hlookup]
      change (if name = ".." then _ else _) = _
      split <;> rfl
  have hdirectory : tree.isDirectory path = .ok true := by
    rw [Tree.isDirectory, Tree.find?, hnull, hlookup]
    rfl
  rw [tryMake_apply, hnull, hadd, hdirectory]
  rfl

/-- There is room for a file that can be read. -/
theorem makeRoom_of_read (hnull : path.hasNull = false) (hread : tree.read path = .ok content) :
    makeRoom path tree = (.ok (), tree) := by
  obtain ⟨hlookup, hrelative, hnames⟩ := Tree.relative_of_read hread
  have htry : tryMake path.parent tree = (.ok none, tree) :=
    tryMake_of_directory (path.hasNull_parent hnull) hrelative
      (Tree.lookup_parent hrelative hnames hlookup)
  obtain ⟨depth, hdepth⟩ := Nat.exists_eq_succ_of_ne_zero
    fun hzero => hnames (List.eq_nil_of_length_eq_zero hzero)
  rw [makeRoom, hdepth, makeDirectory, bind_apply, htry]
  rfl

/-- A file that can be read can be replaced. -/
theorem save_of_read (hnull : path.hasNull = false) (hread : tree.read path = .ok content)
    (content' : Content) : save path content' tree = (.ok (), tree.write path content') := by
  have hlookup := (Tree.relative_of_read hread).1
  rw [save, bind_apply, makeRoom_of_read hnull hread, hnull]
  dsimp only
  rw [if_neg Bool.false_ne_true, change_apply, Tree.save, hlookup]
  rfl

end Disk

end Galley.File
