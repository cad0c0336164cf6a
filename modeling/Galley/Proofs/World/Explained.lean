import Galley.Proofs.Text.Line
import Galley.Proofs.World.Told

/-!
# Why documents are missing

A slot without a source remembers what was wrong with its path when it was first asked for.  What is
said of it shows the path, so it only holds a newline if the root of the world does or the path that
was asked for.
-/

namespace Galley.File

open Text

namespace Path

variable {name : String} {names : List String}

theorem mem_of_mem_collapse {absolute : Bool} {kept : List String}
    (hname : name ∈ collapse absolute kept names) : name ∈ kept ∨ name ∈ names := by
  fun_induction collapse absolute kept names with
  | case1 kept => exact .inl (List.mem_reverse.1 hname)
  | case2 first names hup ih =>
    exact .inr (List.mem_cons_of_mem _ ((ih hname).resolve_left List.not_mem_nil))
  | case3 first names hup ih =>
    obtain hfirst | hrest := ih hname
    · exact .inr (List.mem_singleton.1 hfirst ▸ List.mem_cons_self)
    · exact .inr (List.mem_cons_of_mem _ hrest)
  | case4 last kept first names hup ih =>
    obtain hkept | hrest := ih hname
    · exact .inl (List.mem_cons_of_mem _ hkept)
    · exact .inr (List.mem_cons_of_mem _ hrest)
  | case5 last kept first names hup ih =>
    obtain hkept | hrest := ih hname
    · obtain rfl | hkept := List.mem_cons.1 hkept
      · exact .inr List.mem_cons_self
      · exact .inl hkept
    · exact .inr (List.mem_cons_of_mem _ hrest)

/-- The names of a written path hold its characters. -/
theorem mem_of_mem_ofString {text : String} (hname : name ∈ (ofString text).names) {c : Char}
    (hc : c ∈ name.toList) : c ∈ text.toList := by
  obtain ⟨piece, hpiece, rfl⟩ := List.mem_map.1 hname
  rw [String.toList_ofList] at hc
  exact (mem_of_mem_splitWhen (List.mem_of_mem_filter hpiece) hc).1

/-- A newline in a written path is one in a name. -/
theorem exists_of_mem_toString {path : Path} (hnewline : '\n' ∈ path.toString.toList) :
    ∃ name ∈ path.names, '\n' ∈ name.toList := by
  have hnames : '\n' ∈ ("/".intercalate path.names).toList → _ := fun hjoined =>
    (exists_of_mem_intercalate hjoined).resolve_left (by decide)
  rw [toString] at hnewline
  split at hnewline
  · split at hnewline
    · simp at hnewline
    · exact hnames hnewline
  · exact hnames (by simpa using hnewline)
  · exact hnames (by simpa using hnewline)

end Path

end Galley.File

namespace Galley.Compile

open Syntax Text File

namespace World

variable {world : World} {files : Tree} {path : Path} {error : LoadError}

/-! ## Load errors -/

theorem exists_of_mem_display (hnewline : '\n' ∈ (world.display path).toList) :
    ∃ name ∈ path.names, '\n' ∈ name.toList := by
  rw [display] at hnewline
  split at hnewline
  · rename_i inside hinside
    obtain ⟨name, hname, hline⟩ := Path.exists_of_mem_toString hnewline
    rw [Path.relativeTo?] at hinside
    split at hinside
    · obtain rfl := Option.some.inj hinside
      exact ⟨name, List.mem_of_mem_drop hname, hline⟩
    · cases hinside
  · exact Path.exists_of_mem_toString hnewline

/-- A normalized path takes its names from the root and from the path that was asked for. -/
theorem exists_of_mem_normalize {asked : String}
    (hnewline : ∃ name ∈ (world.normalize (.ofString asked)).names, '\n' ∈ name.toList) :
    '\n' ∈ asked.toList ∨ ∃ name ∈ world.root.names, '\n' ∈ name.toList := by
  obtain ⟨name, hname, hline⟩ := hnewline
  have hmem := (Path.mem_of_mem_collapse hname).resolve_left List.not_mem_nil
  split at hmem
  · exact .inl (Path.mem_of_mem_ofString hmem hline)
  · rename_i hrelative
    have happend : (world.root ++ Path.ofString asked).names =
        world.root.names ++ (Path.ofString asked).names := by
      show (Path.append _ _).names = _
      rw [Path.append, if_neg hrelative]
    rw [happend, List.mem_append] at hmem
    obtain hroot | hasked := hmem
    · exact .inr ⟨name, hroot, hline⟩
    · exact .inl (Path.mem_of_mem_ofString hasked hline)

/-- A sentence whose line breaks are those of a path. -/
abbrev ShowsPath (path : Path) (message : String) : Prop :=
  LinedBut (∃ name ∈ path.names, '\n' ∈ name.toList) message.toList

theorem showsPath_display (world : World) (path : Path) {front behind : String}
    (hhead : SolidHead front.toList) (hlast : SolidLast behind.toList)
    (hopening : '\n' ∉ front.toList) (hclosing : '\n' ∉ behind.toList) :
    ShowsPath path (front ++ world.display path ++ behind) := by
  rw [ShowsPath, String.toList_append, String.toList_append]
  exact (linedBut_between hhead hlast hopening hclosing).mono exists_of_mem_display

/-- What is said of a path that cannot be loaded shows the path at most. -/
theorem message_of_load (hload : world.load files path = .error (.error error)) :
    ShowsPath path error.message := by
  rw [load] at hload
  split at hload
  · cases hload
  · split at hload
    · cases hload
    · cases hload
      exact Lined.linedBut (by decide)
    · cases hload
      have hmessage : (LoadError.notFound (world.display path)).message =
          "file not found (searched at " ++ world.display path ++ ")" := rfl
      rw [hmessage]
      exact showsPath_display world path (by decide) (by decide) (by decide) (by decide)
    · rename_i obstacle _ _ _ _
      cases hload
      have hmessage : (LoadError.other (world.display path) obstacle.message).message =
          "failed to load file " ++ world.display path ++ " (" ++ obstacle.message ++ ")" := rfl
      rw [hmessage, @String.append_assoc ("failed to load file " ++ world.display path),
        @String.append_assoc ("failed to load file " ++ world.display path)]
      have hbehind : SolidLast (" (" ++ obstacle.message ++ ")").toList ∧
          '\n' ∉ (" (" ++ obstacle.message ++ ")").toList := by
        cases obstacle <;> decide
      exact showsPath_display world path (by decide) hbehind.1 (by decide) hbehind.2
    · split at hload
      · cases hload
      · cases hload
        exact Lined.linedBut (by decide)
    · cases hload
      exact Lined.linedBut (by decide)

/-! ## Slots -/

/-- Every load error that a world remembers is what its path came to once. -/
def Explained (world : World) : Prop :=
  ∀ path error, world.slot? path = some (.failed error) →
    ∃ files, world.load files path = .error (.error error)

namespace Explained

/-- A slot for one path leaves the others alone. -/
theorem of_others {after : World} (hworld : world.Explained) (hroot : after.root = world.root)
    (hothers : ∀ {other : Path}, other ≠ path → after.slot? other = world.slot? other)
    (hself : ∀ {error}, after.slot? path = some (.failed error) →
      ∃ files, world.load files path = .error (.error error)) : after.Explained := by
  intro other error hslot
  by_cases hsame : other = path
  · subst hsame
    obtain ⟨files, hload⟩ := hself hslot
    exact ⟨files, (load_eq_of_root hroot files other).trans hload⟩
  · rw [hothers hsame] at hslot
    obtain ⟨files, hload⟩ := hworld other error hslot
    exact ⟨files, (load_eq_of_root hroot files other).trans hload⟩

theorem resolve (hworld : world.Explained) (files : Tree) (path : Path) :
    (world.resolve files path).2.Explained := by
  obtain ⟨slot, -, hresolve⟩ | ⟨-, ⟨text, -, hresolve⟩ | ⟨error, hload, hresolve⟩ |
    ⟨failure, -, hresolve⟩⟩ := resolve_cases world files path <;> rw [hresolve]
  · exact hworld
  · refine hworld.of_others (root_setSlot ..) (fun hother => slot?_setSlot_of_ne _ _ hother) ?_
    intro error hslot
    rw [slot?_setSlot_self] at hslot
    cases hslot
  · refine hworld.of_others (root_setSlot ..) (fun hother => slot?_setSlot_of_ne _ _ hother) ?_
    intro other hslot
    rw [slot?_setSlot_self] at hslot
    cases hslot
    exact ⟨files, hload⟩
  · refine hworld.of_others (root_setSlot ..) (fun hother => slot?_setSlot_of_ne _ _ hother) ?_
    intro error hslot
    rw [slot?_setSlot_self] at hslot
    cases hslot

/-- So a load error of a request is what the path that was asked for came to once. -/
theorem of_resolve (hworld : world.Explained)
    (hresolve : (world.resolve files path).1 = .error (.load error)) :
    ∃ files, world.load files (world.normalize path) = .error (.error error) := by
  obtain ⟨slot, hslot, hcase⟩ | ⟨-, ⟨text, -, hcase⟩ | ⟨other, hload, hcase⟩ |
    ⟨failure, hload, hcase⟩⟩ := resolve_cases world files path <;> rw [hcase] at hresolve
  · cases slot with
    | failed other =>
      cases hresolve
      exact hworld _ _ hslot
    | pending => cases hresolve
    | source id => cases hresolve
  · cases hresolve
  · cases hresolve
    exact ⟨files, hload⟩
  · exact absurd (Except.error.inj hresolve) (ne_load_of_load hload error)

end Explained

theorem Reached.explained {fine : Source → Prop} (hworld : world.Reached fine) :
    world.Explained := by
  induction hworld with
  | new root => exact nofun
  | @step world next hbefore hstep _ ih =>
    have htidy := hbefore.tidy
    cases hstep with
    | set _ path text =>
      have hset := htidy.hasSet path text
      refine ih.of_others hset.root (fun hother => (hset.others hother).1) fun hslot => ?_
      rw [hset.slot] at hslot
      cases hslot
    | resolve _ files path => exact ih.resolve files path
    | edit hedit =>
      obtain ⟨source, -, -, rfl⟩ := exists_of_edit hedit
      exact ih
    | replace hsource text => exact ih
    | @evaluate outside source files depth route hsource =>
      let holds (after : World) : Prop := after.Tidy ∧ after.Explained
      have hresolve : ∀ after path, holds after → holds (after.resolve files path).2 :=
        fun after path ⟨htidy, hexplained⟩ =>
          ⟨(htidy.resolved files path).tidy, hexplained.resolve files path⟩
      have hboth : holds (evaluate files depth route source outside).2.world :=
        holds_evaluate (fun _ hafter => hafter.1.faithful) hresolve depth route
          (htidy.faithful source hsource) ⟨htidy, ih⟩
      exact hboth.2

end World

end Galley.Compile
