import Galley.Proofs.Fuzz.Account
import Galley.Proofs.Image.Rendering
import Galley.Proofs.Note.Malformed
import Mathlib.Algebra.Order.BigOperators.Group.List
import Mathlib.Algebra.Order.Group.Nat

/-!
# Stacks of pages

A page of a stack starts behind all pages in front of it and the padding that belongs to them, so
pages share no place, every one of them is shown whole, and there is padding on all sides.  What
cannot be drawn ends the stack: the first such page decides on the failure, and only a page that
is too large is called so.
-/

namespace Galley.Image

open Document

/-! ## Places in a stack -/

namespace Raster

variable {first page : Raster} {pages : List Raster} {padding index : Nat} {ground : Color}

/-- The row at which a page starts. -/
def startOf (padding : Nat) (pages : List Raster) (index : Nat) : Nat :=
  padding + ((pages.take index).map fun page => page.height + padding).sum

/-- Whether a place lies in the rectangle of a page. -/
def OnPage (padding : Nat) (pages : List Raster) (index : Nat) (page : Raster) (x y : Nat) : Prop :=
  padding ≤ x ∧ x < padding + page.width ∧
    startOf padding pages index ≤ y ∧ y < startOf padding pages index + page.height

theorem startOf_zero (padding : Nat) (pages : List Raster) : startOf padding pages 0 = padding :=
  rfl

/-- The pages behind the first one are a stack of their own. -/
theorem startOf_cons_succ (padding : Nat) (first : Raster) (pages : List Raster) (index : Nat) :
    startOf padding (first :: pages) (index + 1) =
      padding + first.height + startOf padding pages index := by
  rw [startOf, startOf, List.take_succ_cons, List.map_cons, List.sum_cons]
  omega

/-- The next page starts behind the page and its padding. -/
theorem startOf_succ (hpage : pages[index]? = some page) :
    startOf padding pages (index + 1) = startOf padding pages index + page.height + padding := by
  rw [startOf, startOf, List.take_add_one, hpage, List.map_append, List.sum_append]
  simp only [Option.toList_some, List.map_cons, List.map_nil, List.sum_cons, List.sum_nil]
  omega

/-- Behind all pages there is the height of the stack. -/
theorem startOf_length (padding : Nat) (pages : List Raster) :
    startOf padding pages pages.length =
      padding + (pages.map fun page => page.height + padding).sum := by
  rw [startOf, List.take_length]

theorem startOf_mono {later : Nat} (hle : index ≤ later) :
    startOf padding pages index ≤ startOf padding pages later := by
  have hsublist := (List.take_prefix_take_left hle (l := pages)).sublist
  apply Nat.add_le_add_left
  exact (hsublist.map fun page => page.height + padding).sum_le_sum fun _ _ => Nat.zero_le _

theorem stackedHeight_eq (padding : Nat) (pages : List Raster) :
    stackedHeight padding pages = (pages.map fun page => page.height + padding).sum := by
  induction pages with
  | nil => rfl
  | cons first pages ih => rw [stackedHeight, ih, List.map_cons, List.sum_cons]

theorem maxWidth_eq (pages : List Raster) :
    maxWidth pages = (pages.map Raster.width).max?.getD 0 := by
  calc
    maxWidth pages = (pages.map Raster.width).foldl max 0 := List.foldl_map.symm
    _ = max 0 ((pages.map Raster.width).max?.getD 0) := List.foldl_max
    _ = (pages.map Raster.width).max?.getD 0 := Nat.zero_max _

/-- A place on a page shows what the page shows there. -/
theorem stackedPixel_of_onPage {x y : Nat} (hpage : pages[index]? = some page)
    (hplace : OnPage padding pages index page x y) :
    stackedPixel padding ground pages x y =
      page.pixel (x - padding) (y - startOf padding pages index) := by
  induction pages generalizing index y with
  | nil => cases hpage
  | cons first pages ih =>
    obtain ⟨hleft, hright, hstart, hend⟩ := hplace
    cases index with
    | zero =>
      obtain rfl : first = page := Option.some.inj hpage
      rw [startOf_zero] at hstart hend ⊢
      rw [stackedPixel, if_neg (by omega), if_pos ⟨hstart, hleft, hright⟩]
    | succ index =>
      rw [startOf_cons_succ] at hstart hend ⊢
      rw [stackedPixel, if_pos (by omega), ih hpage ⟨hleft, hright, by omega, by omega⟩,
        Nat.sub_sub]

/-- Elsewhere there is the ground. -/
theorem stackedPixel_of_not_onPage {x y : Nat}
    (hplace : ∀ index page, pages[index]? = some page → ¬ OnPage padding pages index page x y) :
    stackedPixel padding ground pages x y = ground := by
  induction pages generalizing y with
  | nil => rfl
  | cons first pages ih =>
    rw [stackedPixel]
    split
    · rename_i hbelow
      apply ih
      intro index page hpage hon
      apply hplace (index + 1) page hpage
      obtain ⟨hleft, hright, hstart, hend⟩ := hon
      refine ⟨hleft, hright, ?_, ?_⟩ <;> rw [startOf_cons_succ] <;> omega
    · rename_i habove
      apply if_neg
      intro hinside
      apply hplace 0 first rfl
      rw [OnPage, startOf_zero]
      omega

/-- A raster on which pages stand one below the other. -/
structure Stacked (padding : Nat) (ground : Color) (pages : List Raster) (raster : Raster) :
    Prop where
  width_eq : raster.width = 2 * padding + (pages.map Raster.width).max?.getD 0
  height_eq : raster.height = padding + (pages.map fun page => page.height + padding).sum
  /-- Every page is shown whole, with padding around it. -/
  fits : ∀ index page, pages[index]? = some page →
    padding + page.width + padding ≤ raster.width ∧
      startOf padding pages index + page.height + padding ≤ raster.height
  /-- Pages stand in order and apart. -/
  apart : ∀ index page, pages[index]? = some page → ∀ later, index < later →
    startOf padding pages index + page.height + padding ≤ startOf padding pages later
  pixel_eq : ∀ index page x y, pages[index]? = some page → OnPage padding pages index page x y →
    raster.pixel x y = page.pixel (x - padding) (y - startOf padding pages index)
  ground_eq : ∀ x y,
    (∀ index page, pages[index]? = some page → ¬ OnPage padding pages index page x y) →
    raster.pixel x y = ground

theorem stacked (padding : Nat) (ground : Color) (pages : List Raster) :
    Stacked padding ground pages (stack padding ground pages) where
  width_eq := congrArg (2 * padding + ·) (maxWidth_eq pages)
  height_eq := congrArg (padding + ·) (stackedHeight_eq padding pages)
  fits index page hpage := by
    have hwidth : page.width ≤ maxWidth pages := by
      rw [maxWidth_eq]
      exact List.le_max?_getD_of_mem (List.mem_map_of_mem (List.mem_of_getElem? hpage))
    have hheight : startOf padding pages (index + 1) ≤ padding + stackedHeight padding pages := by
      rw [stackedHeight_eq, ← startOf_length]
      exact startOf_mono (List.getElem?_eq_some_iff.1 hpage).1
    rw [startOf_succ hpage] at hheight
    exact ⟨by dsimp only [stack]; omega, hheight⟩
  apart index page hpage later hless := by
    rw [← startOf_succ hpage]
    exact startOf_mono hless
  pixel_eq index page x y hpage hplace := stackedPixel_of_onPage hpage hplace
  ground_eq x y hplace := stackedPixel_of_not_onPage hplace

end Raster

/-! ## Pages that are too large -/

/-- Whether a page is larger than it may be, in either direction. -/
def isOverlarge (frame : Frame) : Bool :=
  frame.width > sizeLimit || frame.height > sizeLimit

/-- No failure of a result is about a page that is too large. -/
def NeverOverlarge {α : Type} (result : Except Failure α) : Prop :=
  ∀ width height, result ≠ .error (.overlargeFrame width height)

namespace NeverOverlarge

variable {α β : Type} {result : Except Failure α} {next : α → Except Failure β}

theorem ok (value : α) : NeverOverlarge (.ok value : Except Failure α) :=
  fun _ _ => nofun

theorem error {failure : Failure} (hother : ∀ width height, failure ≠ .overlargeFrame width height) :
    NeverOverlarge (.error failure : Except Failure α) :=
  fun width height heq => hother width height (Except.error.inj heq)

theorem bind (hresult : NeverOverlarge result) (hnext : ∀ value, NeverOverlarge (next value)) :
    NeverOverlarge (result >>= next) := by
  cases result with
  | error failure => exact error fun width height heq => hresult width height (congrArg _ heq)
  | ok value => exact hnext value

theorem foldlM {step : β → α → Except Failure β}
    (hstep : ∀ state item, NeverOverlarge (step state item)) (items : List α) (state : β) :
    NeverOverlarge (items.foldlM step state) := by
  induction items generalizing state with
  | nil => exact ok state
  | cons item items ih =>
    rw [List.foldlM_cons]
    exact bind (hstep state item) ih

theorem roundWith (rounding : Int → Nat → Int) (x : Float) :
    NeverOverlarge (Number.roundWith rounding x) := by
  rw [Number.roundWith]
  cases Number.FloatParts.of x with
  | nan => exact error nofun
  | infinite => exact error nofun
  | finite negative mantissa exponent => exact ok _

theorem pagePixels (frame : Frame) : NeverOverlarge (pagePixels frame) := by
  have hcount : ∀ points, NeverOverlarge (pixelCount points) := fun points =>
    bind (roundWith _ _) fun _ => ok _
  apply bind (hcount frame.width)
  intro width
  apply bind (hcount frame.height)
  intro height
  split
  · exact error nofun
  · split
    · exact error nofun
    · exact ok _

theorem boxBetween (left top right bottom : Float) :
    NeverOverlarge (boxBetween left top right bottom) := by
  rw [Image.boxBetween]
  split
  · exact error nofun
  · split
    · exact error nofun
    · exact ok _

theorem fontPixels (size : Float) : NeverOverlarge (fontPixels size) := by
  apply bind (roundWith _ _)
  intro pixels
  dsimp only
  split
  · exact error nofun
  · split
    · exact error nofun
    · exact ok _

theorem checkPlace (x y : Float) : NeverOverlarge (checkPlace x y) := by
  apply bind (roundWith _ _)
  intro column
  apply bind (roundWith _ _)
  intro row
  split
  · exact ok _
  · exact error nofun

theorem ofText (page : Nat) (x y : Float) (setting : Setting) (text : String) :
    NeverOverlarge (Lettering.ofText page x y setting text) := by
  rw [Lettering.ofText]
  split
  · exact ok _
  · apply bind (roundWith _ _)
    intro column
    apply bind (roundWith _ _)
    intro row
    apply bind (roundWith _ _)
    intro left
    exact bind (roundWith _ _) fun _ => ok _

theorem drawItem (page : Nat) (sheet : Sheet) (point : Point) (item : Item) :
    NeverOverlarge (drawItem page sheet point item) := by
  cases item with
  | shape width height fill =>
    rw [Image.drawItem]
    split
    · exact bind (boxBetween _ _ _ _) fun _ => ok _
    · exact ok _
  | text text size strong emph raw =>
    rw [Image.drawItem]
    apply bind (fontPixels size)
    intro pixels
    apply bind (checkPlace _ _)
    intro place
    apply bind (ofText _ _ _ _ _)
    intro lettering?
    split
    · exact ok _
    · exact ok _
  | link width height dest => exact ok _

theorem drawLink (raster : Raster) (point : Point) (item : Item) :
    NeverOverlarge (drawLink raster point item) := by
  cases item with
  | link width height dest =>
    rw [Image.drawLink]
    split
    · exact bind (boxBetween _ _ _ _) fun _ => ok _
    · exact ok _
  | shape width height fill => exact ok _
  | text text size strong emph raw => exact ok _

theorem renderPlain (number : Nat) (frame : Frame) : NeverOverlarge (renderPlain number frame) := by
  apply bind (pagePixels frame)
  intro sides
  apply bind
  · apply foldlM
    intro sheet item
    exact drawItem number sheet item.1 item.2
  · exact fun _ => ok _

theorem renderPage {frame : Frame} (hfits : isOverlarge frame = false) (number : Nat) :
    NeverOverlarge (renderPage number frame) := by
  rw [Image.renderPage]
  split
  · rename_i hlarge
    exact absurd hlarge (Bool.eq_false_iff.1 hfits)
  · apply bind (renderPlain number frame)
    intro page
    apply bind
    · apply foldlM
      intro raster item
      exact drawLink raster item.1 item.2
    · exact fun _ => ok _

end NeverOverlarge

variable {number : Nat} {frame : Frame} {failure : Failure}

/-- A picture on which pages stand one below the other, with the lettering of all of them. -/
structure Picture.Shows (picture : Picture) (pages : List Picture) : Prop where
  stacked : Raster.Stacked padding canvasColor (pages.map Picture.raster) picture.raster
  lettering : picture.lettering = pages.flatMap Picture.lettering

end Galley.Image
