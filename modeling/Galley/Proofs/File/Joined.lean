import Galley.File.Path

/-!
# Joined paths

Double dots take back names of the path that they are joined to once there are no names of their
own left.  A relative path that has none in front once it is normalized stays below whatever it is
joined to, so the places of two such paths differ as the paths do.
-/

namespace Galley.File.Path

variable {absolute : Bool} {kept inner names : List String}

theorem collapse_append (front rest : List String) :
    collapse absolute kept (front ++ rest) =
      collapse absolute (collapse absolute kept front).reverse rest := by
  fun_induction collapse absolute kept front with
  | case1 kept => rw [List.nil_append, List.reverse_reverse]
  | case2 name names hup ih => rw [List.cons_append, collapse, if_pos hup, ih]
  | case3 name names hup ih => rw [List.cons_append, collapse, if_neg hup, ih]
  | case4 last kept name names hup ih => rw [List.cons_append, collapse, if_pos hup, ih]
  | case5 last kept name names hup ih => rw [List.cons_append, collapse, if_neg hup, ih]

theorem collapse_push {name : String} (hname : name ≠ "..") :
    collapse absolute kept (name :: names) = collapse absolute (name :: kept) names := by
  cases kept <;> rw [collapse, if_neg (by simp [hname])]

theorem collapse_pop {last : String} (hlast : last ≠ "..") :
    collapse absolute (last :: kept) (".." :: names) = collapse absolute kept names := by
  rw [collapse, if_pos (by simpa using hlast)]

/-- A double dot that leads out of where a relative path starts stays. -/
theorem mem_collapse_of_mem (hmem : ".." ∈ kept) : ".." ∈ collapse false kept names := by
  fun_induction collapse false kept names with
  | case1 kept => exact List.mem_reverse.2 hmem
  | case2 name names hup ih => cases hmem
  | case3 name names hup ih => cases hmem
  | case4 last kept name names hup ih =>
    refine ih ((List.mem_cons.1 hmem).resolve_left ?_)
    rintro rfl
    simp at hup
  | case5 last kept name names hup ih => exact ih (List.mem_cons_of_mem _ hmem)

/-- What does not lead out stays behind what was there before. -/
theorem collapse_of_below (hbelow : ".." ∉ collapse false inner names) :
    collapse absolute (inner ++ kept) names = kept.reverse ++ collapse false inner names := by
  fun_induction collapse false inner names with
  | case1 inner => rw [collapse, List.reverse_append]
  | case2 name names hup ih => simp at hup
  | case3 name names hup ih =>
    have hname : name ≠ ".." := by
      rintro rfl
      exact hbelow (mem_collapse_of_mem (List.mem_singleton_self _))
    rw [List.nil_append, collapse_push hname]
    exact ih hbelow
  | case4 last inner name names hup ih =>
    obtain ⟨rfl, hlast⟩ : name = ".." ∧ last ≠ ".." := by simpa using hup
    rw [List.cons_append, collapse_pop hlast]
    exact ih hbelow
  | case5 last inner name names hup ih =>
    have hname : name ≠ ".." := by
      rintro rfl
      exact hbelow (mem_collapse_of_mem List.mem_cons_self)
    rw [List.cons_append, collapse_push hname]
    exact ih hbelow

/-- Names may be collapsed on their own before they are joined to others. -/
theorem collapse_collapse :
    collapse absolute kept (collapse false inner names) =
      collapse absolute kept (inner.reverse ++ names) := by
  fun_induction collapse false inner names with
  | case1 inner => rw [List.append_nil]
  | case2 name names hup ih => simp at hup
  | case3 name names hup ih => exact ih
  | case4 last inner name names hup ih =>
    obtain ⟨rfl, hlast⟩ : name = ".." ∧ last ≠ ".." := by simpa using hup
    rw [ih, List.reverse_cons, List.append_assoc, collapse_append, collapse_append _ ([last] ++ _),
      List.singleton_append, collapse_push hlast, collapse_pop hlast]
  | case5 last inner name names hup ih =>
    rw [ih, List.reverse_cons (a := name), List.append_assoc]
    rfl

/-! ## Paths -/

variable {base path : Path}

theorem append_of_isAbsolute (base : Path) (habsolute : path.isAbsolute = true) :
    base ++ path = path :=
  if_pos habsolute

theorem append_of_relative (base : Path) (hrelative : path.isAbsolute = false) :
    base ++ path = ⟨base.anchor, base.names ++ path.names⟩ :=
  if_neg (Bool.eq_false_iff.1 hrelative)

theorem append_assoc (base middle path : Path) :
    base ++ (middle ++ path) = base ++ middle ++ path := by
  cases hpath : path.isAbsolute with
  | true => simp only [append_of_isAbsolute _ hpath]
  | false =>
    simp only [append_of_relative _ hpath]
    cases hmiddle : middle.isAbsolute with
    | true =>
      rw [append_of_isAbsolute base hmiddle]
      exact append_of_isAbsolute base hmiddle
    | false =>
      have hnames : isAbsolute ⟨middle.anchor, middle.names ++ path.names⟩ = false := hmiddle
      rw [append_of_relative base hmiddle, append_of_relative base hnames, List.append_assoc]

theorem isAbsolute_append (base path : Path) :
    (base ++ path).isAbsolute = (base.isAbsolute || path.isAbsolute) := by
  cases hpath : path.isAbsolute with
  | true => rw [append_of_isAbsolute base hpath, hpath, Bool.or_true]
  | false => rw [append_of_relative base hpath, Bool.or_false, isAbsolute, isAbsolute]

/-- A relative path may be normalized on its own before it is joined to another one. -/
theorem normalize_append_normalize (base : Path) (hrelative : path.isAbsolute = false) :
    (base ++ path.normalize).normalize = (base ++ path).normalize := by
  have hnormal : path.normalize = ⟨path.anchor, collapse false [] path.names⟩ := by
    rw [normalize, hrelative]
  rw [append_of_relative base (show path.normalize.isAbsolute = false from hrelative),
    append_of_relative base hrelative, hnormal, normalize, normalize]
  dsimp only
  rw [collapse_append, collapse_collapse, ← collapse_append]
  rfl

/-- A path that does not lead out of where it starts. -/
def StaysBelow (path : Path) : Prop :=
  path.isAbsolute = false ∧ ".." ∉ path.normalize.names

/-- Such a path leads further down from wherever the other one leads to. -/
theorem StaysBelow.normalize_append (hbelow : path.StaysBelow) (base : Path) :
    (base ++ path).normalize = ⟨base.anchor, base.normalize.names ++ path.normalize.names⟩ := by
  obtain ⟨hrelative, hnone⟩ := hbelow
  have hnames : path.normalize.names = collapse false [] path.names := by
    rw [normalize, hrelative]
  rw [hnames] at hnone ⊢
  rw [append_of_relative base hrelative, normalize]
  dsimp only
  rw [collapse_append]
  exact congrArg _
    ((collapse_of_below hnone).trans (congrArg (· ++ _) (List.reverse_reverse _)))

/-- A file below a root has one path from where one works and another one from the root. -/
structure Inside (here root path inside : Path) : Prop where
  absolute : here.isAbsolute = true
  below : inside.StaysBelow
  place : (here ++ path).normalize = (here ++ (root ++ inside)).normalize

variable {here root inside : Path}

namespace Inside

/-- An absolute path meets the other one behind an absolute root only. -/
theorem same_iff_of_isAbsolute (hinside : Inside here root path inside)
    (habsolute : path.isAbsolute = true) :
    (root ++ path).normalize = (root ++ inside).normalize ↔ root.isAbsolute = true := by
  have hbehind : (root ++ inside).isAbsolute = root.isAbsolute := by
    rw [isAbsolute_append, hinside.below.1, Bool.or_false]
  rw [append_of_isAbsolute root habsolute]
  constructor
  · intro hsame
    have hanchor := congrArg isAbsolute hsame
    change path.isAbsolute = (root ++ inside).isAbsolute at hanchor
    rw [← hbehind, ← hanchor, habsolute]
  · intro hroot
    have hplace := hinside.place
    rwa [append_of_isAbsolute here habsolute,
      append_of_isAbsolute here (hbehind.trans hroot)] at hplace

/-- Where the two paths meet, the path leads to the file from the root as well. -/
theorem place_of_same (hinside : Inside here root path inside)
    (hsame : (root ++ path).normalize = (root ++ inside).normalize) :
    (here ++ (root ++ path)).normalize = (here ++ path).normalize := by
  rw [hinside.place]
  cases hroot : root.isAbsolute with
  | true =>
    have habsolute : ∀ path : Path, (root ++ path).isAbsolute = true := fun path => by
      rw [isAbsolute_append, hroot, Bool.true_or]
    rw [append_of_isAbsolute here (habsolute path), append_of_isAbsolute here (habsolute inside),
      hsame]
  | false =>
    have hbehind : (root ++ inside).isAbsolute = false := by
      rw [isAbsolute_append, hroot, hinside.below.1, Bool.or_self]
    have hpath : (root ++ path).isAbsolute = false := by
      have hanchor := congrArg isAbsolute hsame
      exact hanchor.trans hbehind
    rw [← normalize_append_normalize here hpath, hsame, normalize_append_normalize here hbehind]

/-- A relative path meets the other one exactly if the root is where one works. -/
theorem same_iff (hinside : Inside here root path inside) (hbelow : path.StaysBelow) :
    (root ++ path).normalize = (root ++ inside).normalize ↔
      (here ++ root).normalize = here.normalize := by
  have hplace := hinside.place
  rw [append_assoc, hbelow.normalize_append, hinside.below.normalize_append] at hplace
  obtain ⟨hanchor, hnames⟩ := Path.mk.inj hplace
  rw [hbelow.normalize_append, hinside.below.normalize_append, mk.injEq]
  constructor
  · rintro ⟨-, hsame⟩
    rw [List.append_cancel_left hsame] at hnames
    exact mk.injEq .. ▸ ⟨hanchor.symm, (List.append_cancel_right hnames).symm⟩
  · intro hroot
    rw [hroot] at hnames
    exact ⟨rfl, congrArg _ (List.append_cancel_left hnames)⟩

end Inside

end Galley.File.Path
