import Galley.Proofs.File.Room
import Mathlib.Data.List.Induction

/-!
# Where paths lead

Names that are followed one by one lead to the place that their path has once it is
normalized.  So what a path leads to is what the tree holds at that place, if the
directories on the way are there.
-/

namespace Galley.File

/-! ## Double dots -/

/-- Double dots stand in front only. -/
def DotsInFront (names : List String) : Prop :=
  names.Pairwise fun earlier later => later = ".." → earlier = ".."

theorem DotsInFront.concat {names : List String} {name : String} (hnames : DotsInFront names)
    (hname : name = ".." → ∀ earlier ∈ names, earlier = "..") : DotsInFront (names ++ [name]) :=
  List.pairwise_append.2 ⟨hnames, List.pairwise_singleton .., fun earlier hearlier _ hlater hup =>
    hname (List.mem_singleton.1 hlater ▸ hup) earlier hearlier⟩

/-- In front of a double dot there are double dots only. -/
theorem DotsInFront.eq_dots {names : List String} (hnames : DotsInFront (names ++ [".."])) :
    ∀ earlier ∈ names, earlier = ".." := fun earlier hearlier =>
  (List.pairwise_append.1 hnames).2.2 earlier hearlier ".." (List.mem_singleton_self _) rfl

namespace Tree

theorem ascend_of_dots {names : List String} (hnames : ∀ name ∈ names, name = "..") :
    ascend names = names ++ [".."] :=
  if_pos (List.all_eq_true.2 fun name hname => beq_iff_eq.2 (hnames name hname))

theorem ascend_concat {names : List String} {name : String} (hname : name ≠ "..") :
    ascend (names ++ [name]) = names := by
  rw [ascend, if_neg (by simp [hname]), List.dropLast_concat]

/-- Where names lead to from a directory, if they lead anywhere. -/
def reach (directory names : List String) : List String :=
  names.foldl (fun place name => if name = ".." then ascend place else place ++ [name]) directory

theorem reach_append (directory front rest : List String) :
    reach directory (front ++ rest) = reach (reach directory front) rest :=
  List.foldl_append

/-- Double dots take back what following the names before them has led to. -/
theorem collapse_eq_reach {kept : List String} (names : List String)
    (hkept : DotsInFront kept.reverse) :
    Path.collapse false kept names = reach kept.reverse names ∧
      DotsInFront (Path.collapse false kept names) := by
  fun_induction Path.collapse false kept names with
  | case1 kept => exact ⟨rfl, hkept⟩
  | case2 name names hup ih => simp at hup
  | case3 name names hup ih =>
    obtain ⟨hreach, hdots⟩ := ih (List.pairwise_singleton ..)
    refine ⟨hreach.trans ?_, hdots⟩
    by_cases hname : name = ".."
    · subst hname
      rfl
    · exact congrArg (reach · names) (if_neg hname).symm
  | case4 last kept name names hup ih =>
    obtain ⟨hname, hlast⟩ : name = ".." ∧ last ≠ ".." := by simpa using hup
    rw [List.reverse_cons] at hkept
    obtain ⟨hreach, hdots⟩ := ih (List.pairwise_append.1 hkept).1
    refine ⟨hreach.trans ?_, hdots⟩
    rw [List.reverse_cons, reach, reach, List.foldl_cons, if_pos hname, ascend_concat hlast]
  | case5 last kept name names hup ih =>
    have hup : name = ".." → last = ".." := by simpa using hup
    have hall : name = ".." → ∀ earlier ∈ (last :: kept).reverse, earlier = ".." := by
      intro hname
      rw [List.reverse_cons, hup hname] at hkept ⊢
      simpa [or_imp, forall_and] using hkept.eq_dots
    rw [List.reverse_cons (a := name)] at ih
    obtain ⟨hreach, hdots⟩ := ih (hkept.concat hall)
    refine ⟨hreach.trans ?_, hdots⟩
    rw [reach, reach, List.foldl_cons]
    split
    · rename_i hname
      rw [ascend_of_dots (hall hname), hname]
    · rfl

/-- Names without idle double dots are followed down one after the other. -/
theorem reach_of_dotsInFront {names : List String} (hnames : DotsInFront names) :
    reach [] names = names := by
  induction names using List.reverseRecOn with
  | nil => rfl
  | append_singleton names name ih =>
    rw [reach_append, ih (List.pairwise_append.1 hnames).1, reach, List.foldl_cons, List.foldl_nil]
    split
    · rename_i hname
      subst hname
      exact ascend_of_dots hnames.eq_dots
    · rfl

variable {tree : Tree} {path : Path} {content : Content}

theorem collapse_path (hrelative : path.isAbsolute = false) :
    path.normalize.names = reach [] path.names ∧ DotsInFront path.normalize.names := by
  have hnil : DotsInFront ([] : List String).reverse := List.Pairwise.nil
  rw [Path.normalize, hrelative]
  exact collapse_eq_reach path.names hnil

/-- The names under which a tree holds what stands at a relative path. -/
theorem names_normalize (hrelative : path.isAbsolute = false) :
    path.normalize.names = reach [] path.names :=
  (collapse_path hrelative).1

theorem dotsInFront_normalize (hrelative : path.normalize.isAbsolute = false) :
    DotsInFront path.normalize.names :=
  (collapse_path (show path.isAbsolute = false from hrelative)).2

/-! ## Following -/

/-- Names that lead to a directory lead to the place that they reach. -/
theorem follow_append {directory front : List String} (rest : List String)
    (hfront : tree.follow directory front = .ok .directory) :
    tree.follow directory (front ++ rest) = tree.follow (reach directory front) rest := by
  induction hfront using follow_induction with
  | here directory => rfl
  | up directory front _ ih => exact follow_up.trans ih
  | down directory name front _ hlong hname hentry ih =>
    rw [List.cons_append, follow_down hlong hname hentry, ih, reach, reach, List.foldl_cons,
      if_neg hname]

theorem follow_singleton (directory : List String) {name : String} (hname : name ≠ "..") :
    tree.follow directory [name] =
      if nameLimit < name.utf8ByteSize then .error .nameTooLong
      else
        match tree.entry? (directory ++ [name]) with
        | none => .error .notFound
        | some entry => .ok entry := by
  rw [follow, if_neg hname]
  cases tree.entry? (directory ++ [name]) with
  | none => rfl
  | some entry => cases entry <;> rfl

theorem follow_of_parent {front : List String} {name : String}
    (hrelative : path.isAbsolute = false) (hnames : path.names = front ++ [name])
    (hparent : tree.lookup path.parent = .ok .directory) :
    tree.follow [] front = .ok .directory := by
  rw [lookup, Path.parent, hnames, List.dropLast_concat] at hparent
  split at hparent
  · cases hparent
  · rwa [if_neg (by simpa [Path.isAbsolute] using hrelative)] at hparent

/-- What stands in a directory is found under the names of its place. -/
theorem lookup_of_parent {front : List String} {name : String}
    (hrelative : path.isAbsolute = false) (hnames : path.names = front ++ [name])
    (hname : name ≠ "..") (hparent : tree.lookup path.parent = .ok .directory) :
    tree.lookup path =
      if pathLimit ≤ path.toString.utf8ByteSize ∨ nameLimit < name.utf8ByteSize then
        .error .nameTooLong
      else
        match tree.entry? path.normalize.names with
        | none => .error .notFound
        | some entry => .ok entry := by
  have hfront := follow_of_parent hrelative hnames hparent
  have hplace : path.normalize.names = reach [] front ++ [name] := by
    rw [names_normalize hrelative, hnames, reach_append]
    exact if_neg hname
  rw [lookup, hrelative, if_neg Bool.false_ne_true, hnames, follow_append _ hfront,
    follow_singleton _ hname, hplace]
  by_cases hsize : pathLimit ≤ path.toString.utf8ByteSize
  · rw [if_pos hsize, if_pos (.inl hsize)]
    rfl
  · by_cases hlong : nameLimit < name.utf8ByteSize
    · rw [if_neg hsize, if_pos hlong, if_pos (.inr hlong)]
    · rw [if_neg hsize, if_neg hlong, if_neg (not_or.2 ⟨hsize, hlong⟩)]

/-- The last name on the way to a file is the name of the file. -/
theorem exists_names_of_read (hread : tree.read path = .ok content) :
    ∃ front name, path.names = front ++ [name] ∧ name ≠ ".." := by
  obtain ⟨hlookup, hrelative, hnames⟩ := relative_of_read hread
  obtain ⟨front, name, hsplit⟩ := (List.eq_nil_or_concat' path.names).resolve_left hnames
  refine ⟨front, name, hsplit, ?_⟩
  rintro rfl
  rw [lookup] at hlookup
  split at hlookup
  · cases hlookup
  rw [hrelative, if_neg Bool.false_ne_true, hsplit] at hlookup
  rw [follow_append _ (follow_of_append hlookup), follow, if_neg (by decide), if_pos rfl] at hlookup
  cases hlookup

/-- A file that can be read stands at the place of its path. -/
theorem entry?_of_read (hread : tree.read path = .ok content) :
    tree.entry? path.normalize.names = some (.file content) := by
  obtain ⟨hlookup, hrelative, hsome⟩ := relative_of_read hread
  obtain ⟨front, name, hnames, hname⟩ := exists_names_of_read hread
  rw [lookup_of_parent hrelative hnames hname (lookup_parent hrelative hsome hlookup)] at hlookup
  split at hlookup
  · cases hlookup
  cases hentry : tree.entry? path.normalize.names with
  | none =>
    rw [hentry] at hlookup
    cases hlookup
  | some entry =>
    rw [hentry] at hlookup
    rw [Except.ok.inj hlookup]

end Tree

end Galley.File
