import Mathlib.Data.List.Forall2
import Galley.Image.Rendering
import Galley.Proofs.File.Alike

/-!
# Rendering some of the pages

The number of a page tells its lettering apart and nothing else.  So pages that can
be rendered together with others can be rendered without them, and take up no more
room.
-/

namespace Galley.Image

open Document

/-! ## Lists of results -/

theorem exists_of_bind_eq_ok {α β : Type} {result : Except Failure α} {next : α → Except Failure β}
    {value : β} (hbind : (result >>= next) = .ok value) :
    ∃ first, result = .ok first ∧ next first = .ok value := by
  cases result with
  | error failure => cases hbind
  | ok first => exact ⟨first, rfl, hbind⟩

theorem exists_of_mapM_cons {α β : Type} {make : α → Except Failure β} {item : α} {items : List α}
    {values : List β} (hvalues : (item :: items).mapM make = .ok values) :
    ∃ value rest, make item = .ok value ∧ items.mapM make = .ok rest ∧ values = value :: rest := by
  rw [List.mapM_cons] at hvalues
  obtain ⟨value, hvalue, hvalues⟩ := exists_of_bind_eq_ok hvalues
  obtain ⟨rest, hrest, hvalues⟩ := exists_of_bind_eq_ok hvalues
  exact ⟨value, rest, hvalue, hrest, (Except.ok.inj hvalues).symm⟩

/-- What succeeds on a list succeeds on a part of it. -/
theorem exists_mapM_of_sublist {α β γ δ : Type} {make : α → Except Failure γ}
    {make' : β → Except Failure δ} {same : γ → δ → Prop} {items : List α} {all : List β}
    {values : List δ}
    (hitems : List.SublistForall₂ (fun item item' => ∀ value', make' item' = .ok value' →
      ∃ value, make item = .ok value ∧ same value value') items all)
    (hvalues : all.mapM make' = .ok values) :
    ∃ made, items.mapM make = .ok made ∧ List.SublistForall₂ same made values := by
  induction hitems generalizing values with
  | nil => exact ⟨[], rfl, .nil⟩
  | cons hitem _ ih =>
    obtain ⟨value', rest, hfirst, hrest, rfl⟩ := exists_of_mapM_cons hvalues
    obtain ⟨value, hvalue, hsame⟩ := hitem value' hfirst
    obtain ⟨made, hmade, hpart⟩ := ih hrest
    exact ⟨value :: made, by rw [List.mapM_cons, hvalue, hmade]; rfl, .cons hsame hpart⟩
  | cons_right _ ih =>
    obtain ⟨value', rest, -, hrest, rfl⟩ := exists_of_mapM_cons hvalues
    obtain ⟨made, hmade, hpart⟩ := ih hrest
    exact ⟨made, hmade, .cons_right hpart⟩

theorem sublist_of_sublistForall₂ {α : Type} {items all : List α}
    (hitems : List.SublistForall₂ (· = ·) items all) : items.Sublist all := by
  obtain ⟨middle, hmiddle, hsublist⟩ := List.sublistForall₂_iff.1 hitems
  rw [List.forall₂_eq_eq_eq] at hmiddle
  exact hmiddle ▸ hsublist

theorem sublistForall₂_zipIdx {α : Type} {same : α × Nat → α × Nat → Prop} {items all : List α}
    (hitems : items.Sublist all)
    (hsame : ∀ item number number', same (item, number) (item, number')) (start start' : Nat) :
    List.SublistForall₂ same (items.zipIdx start) (all.zipIdx start') := by
  induction hitems generalizing start start' with
  | slnil => exact .nil
  | cons item _ ih => exact .cons_right (ih _ _)
  | cons_cons item _ ih => exact .cons (hsame item _ _) (ih _ _)

/-! ## Numbers of pages -/

/-- Sheets that differ in their lettering only. -/
structure Sheet.Alike (sheet sheet' : Sheet) : Prop where
  raster : sheet'.raster = sheet.raster
  shapes : sheet'.shapes = sheet.shapes

theorem Sheet.Alike.set {sheet sheet' : Sheet} (halike : sheet.Alike sheet')
    (lettering lettering' : Lettering) : (sheet.set lettering).Alike (sheet'.set lettering') := by
  rw [Sheet.set, Sheet.set]
  split <;> split <;> exact ⟨halike.raster, halike.shapes⟩

/-- Whether a text can be set does not depend on the page. -/
theorem matched_ofText (page page' : Nat) (x y : Float) (setting : Setting) (text : String) :
    Matched (fun lettering? lettering?' => lettering?'.isSome = lettering?.isSome)
      (Lettering.ofText page x y setting text) (Lettering.ofText page' x y setting text) := by
  rw [Lettering.ofText, Lettering.ofText]
  split
  · exact .value rfl
  · cases Number.nearest (x * Lettering.fineness) with
    | error failure => exact .failure failure
    | ok column =>
      cases Number.nearest (y * Lettering.fineness) with
      | error failure => exact .failure failure
      | ok row =>
        cases Number.truncate x with
        | error failure => exact .failure failure
        | ok left =>
          cases Number.truncate y with
          | error failure => exact .failure failure
          | ok top => exact .value rfl

theorem Sheet.Alike.fill {sheet sheet' : Sheet} (halike : sheet.Alike sheet') (box : Box)
    (color : Color) : (sheet.fill box color).Alike (sheet'.fill box color) :=
  ⟨congrArg (·.paint box color.clip) halike.raster, congrArg (_ :: ·) halike.shapes⟩

theorem Sheet.Alike.setAny {sheet sheet' : Sheet} (halike : sheet.Alike sheet')
    {lettering? lettering?' : Option Lettering}
    (hsome : lettering?'.isSome = lettering?.isSome) :
    Sheet.Alike ((lettering?.map sheet.set).getD sheet)
      ((lettering?'.map sheet'.set).getD sheet') := by
  cases lettering? with
  | none =>
    rw [Option.not_isSome_iff_eq_none.1 (Bool.eq_false_iff.1 hsome)]
    exact halike
  | some lettering =>
    obtain ⟨lettering', rfl⟩ := Option.isSome_iff_exists.1 hsome
    exact halike.set lettering lettering'

theorem Sheet.Alike.drawItem {sheet sheet' : Sheet} (halike : sheet.Alike sheet')
    (page page' : Nat) (point : Point) (item : Item) :
    Matched Sheet.Alike (drawItem page sheet point item) (drawItem page' sheet' point item) := by
  cases item with
  | shape width height fill =>
    rw [Image.drawItem, Image.drawItem]
    split
    · generalize boxBetween _ _ _ _ = result
      cases result with
      | error failure => exact .failure failure
      | ok box => exact .value (halike.fill box fill)
    · exact .value halike
  | text text size strong emph raw =>
    rw [Image.drawItem, Image.drawItem]
    refine .bind (.refl _) fun pixels _ hpixels => .bind (.refl _) fun _ _ _ => ?_
    obtain rfl := hpixels
    refine .bind (matched_ofText page page' _ _ _ text) fun lettering? lettering?' hsome => ?_
    have hset := halike.setAny hsome
    dsimp only
    split
    · refine .value ⟨?_, hset.shapes⟩
      show Raster.paint _ _ _ = Raster.paint _ _ _
      rw [hset.raster]
    · exact .value hset
  | link width height dest => exact .value halike

theorem Sheet.Alike.drawItems {sheet sheet' : Sheet} (halike : sheet.Alike sheet')
    (page page' : Nat) (items : List (Point × Item)) :
    Matched Sheet.Alike
      (items.foldlM (fun sheet (point, item) => Image.drawItem page sheet point item) sheet)
      (items.foldlM (fun sheet (point, item) => Image.drawItem page' sheet point item) sheet') := by
  induction items generalizing sheet sheet' with
  | nil => exact .value halike
  | cons item items ih =>
    rw [List.foldlM_cons, List.foldlM_cons]
    exact .bind (halike.drawItem page page' item.1 item.2) fun _ _ halike => ih halike

/-- The pixels of a page do not depend on its number. -/
theorem matched_renderPlain (number number' : Nat) (frame : Frame) :
    Matched (fun page page' => page'.raster = page.raster) (renderPlain number frame)
      (renderPlain number' frame) := by
  rw [renderPlain, renderPlain]
  refine .bind (.refl _) fun pixels _ hpixels => ?_
  obtain rfl := hpixels
  exact .bind (Sheet.Alike.drawItems ⟨rfl, rfl⟩ number number' frame.items)
    fun _ _ halike => .value halike.raster

theorem matched_renderPage (number number' : Nat) (frame : Frame) :
    Matched (fun page page' => page'.raster = page.raster) (renderPage number frame)
      (renderPage number' frame) := by
  rw [renderPage, renderPage]
  split
  · exact .failure _
  · refine .bind (matched_renderPlain number number' frame) fun page page' hraster => ?_
    rw [hraster]
    exact .bind (.refl _) fun _ _ hlinks => .value (by rw [hlinks])

/-! ## Stacks -/

theorem maxWidth_le_of_sublist {rasters all : List Raster} (hrasters : rasters.Sublist all) :
    Raster.maxWidth rasters ≤ Raster.maxWidth all := by
  have hwider : ∀ {width width' : Nat}, width ≤ width' →
      rasters.foldl (fun width raster => max width raster.width) width ≤
        all.foldl (fun width raster => max width raster.width) width' := by
    induction hrasters with
    | slnil => exact id
    | cons raster _ ih => exact fun hwidth => ih (Nat.le_trans hwidth (Nat.le_max_left _ _))
    | cons_cons raster _ ih =>
      refine fun hwidth => ih ?_
      dsimp only
      omega
  exact hwider (Nat.le_refl 0)

theorem stackedHeight_le_of_sublist (padding : Nat) {rasters all : List Raster}
    (hrasters : rasters.Sublist all) :
    Raster.stackedHeight padding rasters ≤ Raster.stackedHeight padding all := by
  induction hrasters with
  | slnil => exact Nat.le_refl _
  | cons raster _ ih => exact Nat.le_trans ih (Nat.le_add_left _ _)
  | cons_cons raster _ ih => exact Nat.add_le_add_left ih _

/-- Rendered pages are a stack. -/
theorem exists_of_renderPages {frames : List Frame} {picture : Picture}
    (hpicture : renderPages frames = .ok picture) :
    ∃ pages, (frames.zipIdx.mapM fun item => renderPage item.2 item.1) = .ok pages ∧
      picture.raster = .stack padding canvasColor (pages.map Picture.raster) := by
  rw [renderPages] at hpicture
  obtain ⟨pages, hpages, hpicture⟩ := exists_of_bind_eq_ok hpicture
  obtain rfl := Except.ok.inj hpicture
  exact ⟨pages, hpages, rfl⟩

/-- There is padding around all pages. -/
theorem pixels_ne_zero_of_renderPages {frames : List Frame} {picture : Picture}
    (hpicture : renderPages frames = .ok picture) :
    picture.raster.width * picture.raster.height ≠ 0 := by
  obtain ⟨pages, -, hraster⟩ := exists_of_renderPages hpicture
  have hpadding : padding ≠ 0 := by decide
  rw [hraster]
  exact Nat.mul_ne_zero (by dsimp only [Raster.stack]; omega) (by dsimp only [Raster.stack]; omega)

/-- Some of the pages that are rendered can be rendered alone, and take up no more room. -/
theorem exists_renderPages_of_sublist {frames all : List Frame} {whole : Picture}
    (hframes : frames.Sublist all) (hwhole : renderPages all = .ok whole) :
    ∃ picture, renderPages frames = .ok picture ∧
      picture.raster.width ≤ whole.raster.width ∧
      picture.raster.height ≤ whole.raster.height := by
  obtain ⟨pages, hpages, hraster⟩ := exists_of_renderPages hwhole
  have hitems : List.SublistForall₂ (fun item item' => ∀ page', renderPage item'.2 item'.1 =
      .ok page' → ∃ page, renderPage item.2 item.1 = .ok page ∧ page.raster = page'.raster)
      frames.zipIdx all.zipIdx := by
    refine sublistForall₂_zipIdx hframes (fun frame number number' page' hpage => ?_) 0 0
    have hmatched := matched_renderPage number' number frame
    rw [hpage] at hmatched
    generalize renderPage number frame = result at hmatched ⊢
    cases hmatched with
    | value hraster => exact ⟨_, rfl, hraster⟩
  obtain ⟨made, hmade, hpart⟩ := exists_mapM_of_sublist hitems hpages
  have hrasters : (made.map Picture.raster).Sublist (pages.map Picture.raster) :=
    sublist_of_sublistForall₂
      (List.sublistForall₂_map_left_iff.2 (List.sublistForall₂_map_right_iff.2 hpart))
  refine ⟨⟨.stack padding canvasColor (made.map Picture.raster), made.flatMap Picture.lettering⟩,
    ?_, ?_, ?_⟩
  · exact congrArg (· >>= _) hmade
  · rw [hraster]
    exact Nat.add_le_add_left (maxWidth_le_of_sublist hrasters) _
  · rw [hraster]
    exact Nat.add_le_add_left (stackedHeight_le_of_sublist padding hrasters) _

end Galley.Image
