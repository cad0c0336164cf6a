import Galley.Proofs.Layout.Marks
import Mathlib.Data.List.Induction

/-!
# Pages that are full

With a page height, what does not fit starts a new page.  Room is made for the first word of a line
and for a rectangle, as long as the page holds anything, and the item goes where there was room,
except that a rectangle is moved by the block spacing afterwards and that further words of a line
stand beside its first one, however high they are.  Nothing else reaches below the bottom margin,
and apart from page breaks no page is left for another reason.
-/

namespace Galley.Document

/-! ## Content as moves -/

/-- How far down the items of a page reach at most. -/
def bottom (styles : Styles) (height : Length) : Float :=
  height.pt - styles.margin.pt

/-- How high a mark stands: a word as high as a line of its size. -/
def Mark.height : Mark → Float
  | .word _ size .. => size * leading
  | .rect _ height _ => height

/-- What content asks of a flow, one thing at a time. -/
inductive Move
  | mark (mark : Mark)
  | space (size : Float)
  | linebreak (size : Float)
  | parbreak
  | vertical (amount : Float)
  | pagebreak

/-- The moves of words with spaces between them. -/
def wordMoves (size : Float) (raw : Bool) (link : Option String) : List (List Char) → List Move
  | [] => []
  | [last] => [.mark (.word (String.ofList last) size false false raw link)]
  | first :: rest =>
    .mark (.word (String.ofList first) size false false raw link) :: .space size ::
      wordMoves size raw link rest

mutual

/-- The moves of an element inside a link, if there is one. -/
def Elem.moves (link : Option String) : Elem → List Move
  | .text word size strong emph => [.mark (.word word size.pt strong emph false link)]
  | .raw body size => wordMoves size.pt true link (Text.words body.toList)
  | .math body size => wordMoves size.pt false link (Text.words body.toList)
  | .space size => [.space size.pt]
  | .linebreak size => [.linebreak size.pt]
  | .parbreak => [.parbreak]
  | .link dest body => movesOf (some dest) body
  | .rect width height fill => [.mark (.rect width.pt height.pt fill)]
  | .vertical amount => [.vertical amount.pt]
  | .pagebreak => [.pagebreak]

def Elem.movesOf (link : Option String) : List Elem → List Move
  | [] => []
  | first :: rest => first.moves link ++ movesOf link rest

end

namespace Flow

/-- Makes a move. -/
def move (flow : Flow) : Move → Flow
  | .mark (.word text size strong emph raw link) => flow.word text size strong emph raw link
  | .mark (.rect width height fill) => flow.rect (.points width) (.points height) fill
  | .space size => flow.space size
  | .linebreak size => flow.linebreak size
  | .parbreak => flow.parbreak
  | .vertical amount => flow.vertical (.points amount)
  | .pagebreak => flow.finishPage

theorem words_eq_foldl (size : Float) (raw : Bool) (link : Option String) (flow : Flow)
    (pieces : List (List Char)) :
    words size raw link flow pieces = (wordMoves size raw link pieces).foldl move flow := by
  induction flow, pieces using words.induct size raw link with
  | case1 flow => rfl
  | case2 flow last => rfl
  | case3 flow first rest hrest ih =>
    rw [words, wordMoves, ih, List.foldl_cons, List.foldl_cons]
    · rfl
    · exact hrest
    · exact hrest

mutual

theorem elem_eq_foldl (link : Option String) (flow : Flow) : ∀ elem : Elem,
    Flow.elem link flow elem = (elem.moves link).foldl move flow
  | .text .. => rfl
  | .raw .. => words_eq_foldl ..
  | .math .. => words_eq_foldl ..
  | .space _ => rfl
  | .linebreak _ => rfl
  | .parbreak => rfl
  | .link dest body => elems_eq_foldl (some dest) flow body
  | .rect .. => rfl
  | .vertical _ => rfl
  | .pagebreak => rfl

/-- Layout makes the moves of the content one after another. -/
theorem elems_eq_foldl (link : Option String) (flow : Flow) : ∀ content : List Elem,
    Flow.elems link flow content = (Elem.movesOf link content).foldl move flow
  | [] => rfl
  | first :: rest => by
    rw [elems, elem_eq_foldl link flow first, elems_eq_foldl link _ rest, Elem.movesOf,
      List.foldl_append]

end

/-! ## Room for marks -/

/-- The flow where a mark would stand on the current page.  A word that is too wide for the rest of
its line goes to the next one, and a rectangle has a block of its own. -/
def opened (flow : Flow) : Mark → Flow
  | .word text size .. =>
    if flow.x > 0 && flow.x + wordWidth text size > flow.innerWidth then flow.finishLine else flow
  | .rect .. => flow.finishLine

/-- The flow in which room has been made for a mark, as far as it is made at all: only where a line
starts. -/
def roomy (flow : Flow) (mark : Mark) : Flow :=
  if (flow.opened mark).x == 0 && !(flow.opened mark).fits mark.height then
    (flow.opened mark).finishPage
  else flow.opened mark

theorem word_eq (flow : Flow) (text : String) (size : Float) (strong emph raw : Bool)
    (link : Option String) :
    flow.word text size strong emph raw link =
      let room := flow.roomy (.word text size strong emph raw link)
      { room with
        items := room.items ++
          (Mark.word text size strong emph raw link).items ⟨room.styles.margin.pt + room.x, room.y⟩
        x := room.x + wordWidth text size
        lineHeight := greater room.lineHeight (size * leading) } := by
  cases link with
  | none => rfl
  | some dest =>
    simp only [word, place, List.append_assoc]
    rfl

theorem rect_eq (flow : Flow) (width height : Float) (fill : Color) :
    flow.rect (.points width) (.points height) fill =
      let room := flow.roomy (.rect width height fill)
      let y := if room.items.isEmpty then room.y else room.y + blockSpacing
      { room with
        items := room.items ++ (Mark.rect width height fill).items ⟨room.styles.margin.pt, y⟩
        y := y + height } := by
  have hroom : flow.roomy (.rect width height fill) =
      if flow.finishLine.fits height then flow.finishLine else flow.finishLine.finishPage := by
    have hstart : (flow.finishLine.x == 0) = true := by
      change ((0.0 : Float) == 0) = true
      decide
    rw [roomy, opened, hstart, Bool.true_and, Mark.height]
    cases flow.finishLine.fits height <;> rfl
  unfold rect
  extract_lets opened room spaced placed room' y
  have hsame : room' = room := hroom
  simp only [placed, spaced, y, hsame]
  clear_value room
  cases hempty : room.items.isEmpty
  · simp only [Bool.false_eq_true, if_false]
    rfl
  · simp only [if_true]
    rfl

theorem styles_opened (flow : Flow) (mark : Mark) : (flow.opened mark).styles = flow.styles := by
  cases mark with
  | word text size strong emph raw link =>
    rw [opened]
    split <;> rfl
  | rect width height fill => rfl

theorem fits_eq_false_iff {flow : Flow} {height : Length} {room : Float}
    (hheight : flow.styles.pageHeight = some height) :
    flow.fits room = false ↔ flow.items ≠ [] ∧ ¬flow.y + room ≤ bottom flow.styles height := by
  rw [fits, hheight]
  simp [bottom]

/-- Where a line starts, a mark has room, or it is the first one on its page. -/
theorem fits_roomy {flow : Flow} (mark : Mark) {height : Length}
    (hheight : flow.styles.pageHeight = some height)
    (hstart : ((flow.roomy mark).x == 0) = true) (hitems : (flow.roomy mark).items ≠ []) :
    (flow.roomy mark).y + mark.height ≤ bottom (flow.roomy mark).styles height := by
  rw [roomy] at hstart hitems ⊢
  split at hstart
  · rename_i hfull
    rw [if_pos hfull] at hitems
    exact absurd rfl hitems
  · rename_i hroom
    rw [if_neg hroom] at hitems ⊢
    rw [hstart, Bool.true_and, Bool.not_eq_true', fits_eq_false_iff (by rwa [styles_opened])]
      at hroom
    exact not_not.1 fun hfull => hroom ⟨hitems, hfull⟩

theorem x_roomy_rect (flow : Flow) (width height : Float) (fill : Color) :
    (flow.roomy (.rect width height fill)).x = 0.0 := by
  rw [roomy]
  split <;> rfl

end Flow

/-! ## Full pages -/

/-- A line of words has been begun at a place of a page: its first word fits, or it is the first
item of the page. -/
def LineBegun (bottom : Float) (items : List (Point × Item)) (y : Float) : Prop :=
  ∃ (point : Point) (text : String) (size : Float) (strong emph raw : Bool),
    (point, .text text size strong emph raw) ∈ items ∧ point.y = y ∧
      (y + size * leading ≤ bottom ∨ items.head? = some (point, .text text size strong emph raw))

/-- How an item stands behind others on a page. -/
inductive Stands (bottom : Float) (front : List (Point × Item)) (point : Point) : Item → Prop
  | word {text : String} {size : Float} {strong emph raw : Bool}
      (hfits : point.y + size * leading ≤ bottom) :
      Stands bottom front point (.text text size strong emph raw)
  /-- A word further on in a line is as high as it is. -/
  | inLine {text : String} {size : Float} {strong emph raw : Bool}
      (hline : LineBegun bottom front point.y) :
      Stands bottom front point (.text text size strong emph raw)
  /-- A rectangle fits where it would stand without the block spacing. -/
  | rect {width height : Float} {fill : Color} (y : Float) (hspaced : point.y = y + blockSpacing)
      (hfits : y + height ≤ bottom) : Stands bottom front point (.shape width height fill)
  /-- The area of a link lies under its word. -/
  | link {width height : Float} {dest : String} :
      Stands bottom front point (.link width height dest)

/-- Every item but the first one stands behind the ones in front of it. -/
def Filled (bottom : Float) (items : List (Point × Item)) : Prop :=
  ∀ front point item back, items = front ++ (point, item) :: back → front ≠ [] →
    Stands bottom front point item

theorem Filled.nil (bottom : Float) : Filled bottom [] := by
  intro front point item back hitems
  simp at hitems

theorem Filled.concat {bottom : Float} {items : List (Point × Item)} {point : Point} {item : Item}
    (hfilled : Filled bottom items) (hitem : items ≠ [] → Stands bottom items point item) :
    Filled bottom (items ++ [(point, item)]) := by
  intro front point' item' back hitems hfront
  obtain rfl | ⟨init, last, rfl⟩ := List.eq_nil_or_concat' back
  · obtain ⟨rfl, hlast⟩ := List.append_inj' hitems rfl
    cases hlast
    exact hitem hfront
  · rw [← List.cons_append, ← List.append_assoc] at hitems
    obtain ⟨rfl, -⟩ := List.append_inj' hitems rfl
    exact hfilled _ _ _ _ rfl hfront

theorem Filled.concat_link {bottom : Float} {items : List (Point × Item)}
    (hfilled : Filled bottom items) (point : Point) (width height : Float) (dest : String) :
    Filled bottom (items ++ [(point, .link width height dest)]) :=
  hfilled.concat fun _ => .link

theorem LineBegun.append {bottom y : Float} {items : List (Point × Item)}
    (hline : LineBegun bottom items y) (more : List (Point × Item)) :
    LineBegun bottom (items ++ more) y := by
  obtain ⟨point, text, size, strong, emph, raw, hmem, hy, hfits⟩ := hline
  refine ⟨point, text, size, strong, emph, raw, List.mem_append_left _ hmem, hy, ?_⟩
  exact hfits.imp_right fun hhead => by rw [List.head?_append, hhead, Option.some_or]

/-- A word goes on with its line, which has been begun with it at the latest. -/
theorem LineBegun.concat {bottom size : Float} {items : List (Point × Item)} {point : Point}
    {text : String} {strong emph raw : Bool}
    (hword : items ≠ [] → Stands bottom items point (.text text size strong emph raw)) :
    LineBegun bottom (items ++ [(point, .text text size strong emph raw)]) point.y := by
  by_cases hitems : items = []
  · rw [hitems, List.nil_append]
    exact ⟨_, _, _, _, _, _, List.mem_singleton_self _, rfl, .inr rfl⟩
  · cases hword hitems with
    | word hfits => exact ⟨_, _, _, _, _, _, List.mem_concat_self, rfl, .inl hfits⟩
    | inLine hline => exact hline.append _

namespace Flow

/-- What layout keeps on pages with a height. -/
structure Kept (height : Length) (flow : Flow) : Prop where
  pageHeight : flow.styles.pageHeight = some height
  pages : ∀ page ∈ flow.pages, Filled (bottom flow.styles height) page.items
  items : Filled (bottom flow.styles height) flow.items
  /-- Behind the start of a line, it has been begun. -/
  line : (flow.x == 0) = false ∨ 0 < flow.x →
    LineBegun (bottom flow.styles height) flow.items flow.y

variable {height : Length} {flow after : Flow}

theorem not_behind_start : ¬(((0.0 : Float) == 0) = false ∨ (0 : Float) < 0.0) := by
  decide

namespace Kept

/-- At the start of a line nothing has to be kept but the items. -/
theorem rest (hkept : Kept height flow) (hstyles : after.styles = flow.styles)
    (hpages : after.pages = flow.pages) (hitems : after.items = flow.items) (hx : after.x = 0.0) :
    Kept height after where
  pageHeight := hstyles ▸ hkept.pageHeight
  pages := by
    rw [hstyles, hpages]
    exact hkept.pages
  items := by
    rw [hstyles, hitems]
    exact hkept.items
  line hbehind := absurd (hx ▸ hbehind) not_behind_start

theorem finishLine (hkept : Kept height flow) : Kept height flow.finishLine :=
  hkept.rest rfl rfl rfl rfl

theorem finishPage (hkept : Kept height flow) : Kept height flow.finishPage where
  pageHeight := hkept.pageHeight
  pages := List.forall_mem_append.2 ⟨hkept.pages, List.forall_mem_singleton.2 hkept.items⟩
  items := .nil _
  line hbehind := absurd hbehind not_behind_start

theorem roomy (hkept : Kept height flow) (mark : Mark) : Kept height (flow.roomy mark) := by
  have hopened : Kept height (flow.opened mark) := by
    cases mark with
    | word text size strong emph raw link =>
      rw [opened]
      split
      · exact hkept.finishLine
      · exact hkept
    | rect width height fill => exact hkept.finishLine
  rw [Flow.roomy]
  split
  · exact hopened.finishPage
  · exact hopened

/-- Behind a word its line has been begun. -/
theorem word (hkept : Kept height flow) (text : String) (size : Float) (strong emph raw : Bool)
    (link : Option String) : Kept height (flow.word text size strong emph raw link) := by
  have hroom := hkept.roomy (.word text size strong emph raw link)
  have hfits := fits_roomy (.word text size strong emph raw link) hkept.pageHeight
  rw [word_eq]
  generalize flow.roomy (.word text size strong emph raw link) = room at hroom hfits ⊢
  extract_lets room'
  generalize hpoint : (⟨room.styles.margin.pt + room.x, room.y⟩ : Point) = point
  have hy : point.y = room.y := congrArg Point.y hpoint.symm
  have hstands : room.items ≠ [] → Stands (bottom room.styles height) room.items point
      (.text text size strong emph raw) := by
    intro hitems
    cases hstart : room.x == 0 with
    | true => exact .word (hy ▸ hfits hstart hitems)
    | false => exact .inLine (hy ▸ hroom.line (.inl hstart))
  have hline := hy ▸ LineBegun.concat hstands
  cases link with
  | none => exact ⟨hroom.pageHeight, hroom.pages, hroom.items.concat hstands, fun _ => hline⟩
  | some dest =>
    have hitems := (hroom.items.concat hstands).concat_link point (wordWidth text size)
      (size * leading) dest
    have hbegun := hline.append [(point, .link (wordWidth text size) (size * leading) dest)]
    rw [List.append_assoc] at hitems hbegun
    exact ⟨hroom.pageHeight, hroom.pages, hitems, fun _ => hbegun⟩

theorem rect (hkept : Kept height flow) (width tall : Float) (fill : Color) :
    Kept height (flow.rect (.points width) (.points tall) fill) := by
  have hroom := hkept.roomy (.rect width tall fill)
  have hfits := fits_roomy (.rect width tall fill) hkept.pageHeight
  have hx := x_roomy_rect flow width tall fill
  rw [rect_eq]
  generalize flow.roomy (.rect width tall fill) = room at hroom hfits hx ⊢
  extract_lets room' y
  refine ⟨hroom.pageHeight, hroom.pages, hroom.items.concat fun hitems => ?_, fun hbehind => ?_⟩
  · have hy : y = room.y + blockSpacing := if_neg fun hempty => hitems (List.isEmpty_iff.1 hempty)
    exact .rect room.y hy (hfits (by rw [hx]; decide) hitems)
  · exact absurd (hx ▸ hbehind) not_behind_start

/-- What one move keeps. -/
theorem move (hkept : Kept height flow) : ∀ move : Move, Kept height (flow.move move)
  | .mark (.word ..) => hkept.word ..
  | .mark (.rect ..) => hkept.rect ..
  | .space size => by
    rw [Flow.move, Flow.space]
    split
    · rename_i hbehind
      exact ⟨hkept.pageHeight, hkept.pages, hkept.items, fun _ => hkept.line (.inr hbehind)⟩
    · exact hkept
  | .linebreak size => by
    rw [Flow.move, Flow.linebreak]
    split
    · exact hkept.rest rfl rfl rfl rfl
    · exact hkept.finishLine
  | .parbreak => by
    rw [Flow.move, Flow.parbreak]
    split
    · exact hkept.finishLine
    · exact hkept.rest rfl rfl rfl rfl
  | .vertical amount => hkept.rest rfl rfl rfl rfl
  | .pagebreak => hkept.finishPage

theorem foldl (hkept : Kept height flow) (moves : List Move) :
    Kept height (moves.foldl Flow.move flow) := by
  induction moves generalizing flow with
  | nil => exact hkept
  | cons move moves ih => exact ih (hkept.move move)

end Kept

/-! ## Turned pages -/

/-- Why a page is left for the next one: there is a page break, or a mark for which the page, as far
as it has been filled, has no room and with which the next one starts. -/
inductive Turns (bottom : Float) (before : Flow) : Move → List (Point × Item) → Prop
  | pagebreak {next : List (Point × Item)} : Turns bottom before .pagebreak next
  | full {mark : Mark} {point : Point} {next : List (Point × Item)} (hitems : before.items ≠ [])
      (hfull : ¬(before.opened mark).y + mark.height ≤ bottom)
      (hnext : mark.items point <+: next) : Turns bottom before (.mark mark) next

theorem Turns.mono {bottom : Float} {move : Move} {next next' : List (Point × Item)}
    (hturns : Turns bottom flow move next) (hnext : next <+: next') :
    Turns bottom flow move next' := by
  cases hturns with
  | pagebreak => exact .pagebreak
  | full hitems hfull hmark => exact .full hitems hfull (hmark.trans hnext)

theorem opened_cases (flow : Flow) (mark : Mark) :
    (flow.opened mark).pages = flow.pages ∧ (flow.opened mark).items = flow.items := by
  cases mark with
  | word text size strong emph raw link =>
    rw [opened]
    split <;> exact ⟨rfl, rfl⟩
  | rect width height fill => exact ⟨rfl, rfl⟩

/-- A mark gets its items on the page on which room has been made. -/
theorem exists_move_mark (flow : Flow) (mark : Mark) :
    (flow.move (.mark mark)).pages = (flow.roomy mark).pages ∧
      ∃ point, (flow.move (.mark mark)).items = (flow.roomy mark).items ++ mark.items point := by
  cases mark with
  | word text size strong emph raw link =>
    rw [move, word_eq]
    exact ⟨rfl, _, rfl⟩
  | rect width height fill =>
    rw [move, rect_eq]
    exact ⟨rfl, _, rfl⟩

/-- A move stays on the page or turns it. -/
theorem move_cases (hheight : flow.styles.pageHeight = some height) (move : Move) :
    ((flow.move move).pages = flow.pages ∧ flow.items <+: (flow.move move).items) ∨
      ∃ page : Frame, (flow.move move).pages = flow.pages ++ [page] ∧ page.items = flow.items ∧
        Turns (bottom flow.styles height) flow move (flow.move move).items := by
  cases move with
  | mark mark =>
    obtain ⟨hpages, point, hitems⟩ := exists_move_mark flow mark
    obtain ⟨hopened, hold⟩ := opened_cases flow mark
    rw [hpages, hitems, roomy]
    split
    · rename_i hover
      obtain ⟨-, hfull⟩ := Bool.and_eq_true_iff.1 hover
      rw [Bool.not_eq_true', fits_eq_false_iff (by rwa [styles_opened]), styles_opened, hold]
        at hfull
      have hmark : mark.items point <+: mark.items point := List.prefix_rfl
      exact .inr ⟨_, congrArg (· ++ [_]) hopened, hold, .full hfull.1 hfull.2 hmark⟩
    · rw [hopened, hold]
      exact .inl ⟨rfl, List.prefix_append _ _⟩
  | space size =>
    rw [Flow.move, Flow.space]
    split <;> exact .inl ⟨rfl, List.prefix_rfl⟩
  | linebreak size =>
    rw [Flow.move, Flow.linebreak]
    split <;> exact .inl ⟨rfl, List.prefix_rfl⟩
  | parbreak =>
    rw [Flow.move, Flow.parbreak]
    split <;> exact .inl ⟨rfl, List.prefix_rfl⟩
  | vertical amount => exact .inl ⟨rfl, List.prefix_rfl⟩
  | pagebreak => exact .inr ⟨_, rfl, rfl, .pagebreak⟩

/-- The items of the finished pages and of the current one. -/
def shown (flow : Flow) : List (List (Point × Item)) :=
  flow.pages.map Frame.items ++ [flow.items]

/-- What is shown stays, and more comes behind it. -/
theorem exists_shown_of_prefix (hpages : after.pages = flow.pages)
    (hitems : flow.items <+: after.items) {index : Nat} {next : List (Point × Item)}
    (hnext : after.shown[index]? = some next) :
    ∃ old, flow.shown[index]? = some old ∧ old <+: next := by
  rw [shown, hpages] at hnext
  rw [shown]
  obtain hfront | hlast := Nat.lt_or_ge index (flow.pages.map Frame.items).length
  · rw [List.getElem?_append_left hfront] at hnext ⊢
    exact ⟨next, hnext, List.prefix_rfl⟩
  · rw [List.getElem?_append_right hlast] at hnext ⊢
    rw [List.getElem?_singleton] at hnext ⊢
    split at hnext
    · rename_i hzero
      rw [if_pos hzero]
      exact ⟨_, rfl, Option.some.inj hnext ▸ hitems⟩
    · cases hnext

theorem styles_move (flow : Flow) : ∀ move : Move, (flow.move move).styles = flow.styles
  | .mark (.word ..) => (takes_word ..).styles
  | .mark (.rect ..) => (takes_rect ..).styles
  | .space _ => (takes_space ..).styles
  | .linebreak _ => (takes_linebreak ..).styles
  | .parbreak => (takes_parbreak flow).styles
  | .vertical _ => rfl
  | .pagebreak => rfl

theorem styles_foldl (flow : Flow) (moves : List Move) :
    (moves.foldl Flow.move flow).styles = flow.styles := by
  induction moves generalizing flow with
  | nil => rfl
  | cons move moves ih => exact (ih _).trans (styles_move flow move)

/-- Where a run of moves turns its page. -/
def Turned (styles : Styles) (height : Length) (moves : List Move) (pages : List Frame)
    (index : Nat) (page : Frame) (next : List (Point × Item)) : Prop :=
  ∃ front move back, moves = front ++ move :: back ∧
    (front.foldl Flow.move (new styles)).pages = pages.take index ∧
    (front.foldl Flow.move (new styles)).items = page.items ∧
    Turns (bottom styles height) (front.foldl Flow.move (new styles)) move next

/-- Further moves turn no page that has been turned. -/
theorem Turned.concat {styles : Styles} {moves : List Move} {pages pages' : List Frame}
    {index : Nat} {page : Frame} {next next' : List (Point × Item)} (move : Move)
    (hturned : Turned styles height moves pages index page next)
    (hpages : pages'.take index = pages.take index) (hnext : next <+: next') :
    Turned styles height (moves ++ [move]) pages' index page next' := by
  obtain ⟨front, turning, back, rfl, hbefore, hitems, hturns⟩ := hturned
  exact ⟨front, turning, back ++ [move], List.append_assoc .., hbefore.trans hpages.symm, hitems,
    hturns.mono hnext⟩

theorem turned {styles : Styles} (hheight : styles.pageHeight = some height) (moves : List Move)
    {index : Nat} {page : Frame} {next : List (Point × Item)}
    (hpage : (moves.foldl Flow.move (new styles)).pages[index]? = some page)
    (hnext : (moves.foldl Flow.move (new styles)).shown[index + 1]? = some next) :
    Turned styles height moves (moves.foldl Flow.move (new styles)).pages index page next := by
  induction moves using List.reverseRecOn generalizing index page next with
  | nil => cases hpage
  | append_singleton moves move ih =>
    have hstyles := styles_foldl (new styles) moves
    have hlimited : (moves.foldl Flow.move (new styles)).styles.pageHeight = some height := by
      rw [hstyles]
      exact hheight
    have hcases := move_cases hlimited move
    rw [hstyles] at hcases
    rw [List.foldl_append, List.foldl_cons, List.foldl_nil] at hpage hnext ⊢
    obtain ⟨hpages, hitems⟩ | ⟨last, hpages, hitems, hturns⟩ := hcases
    · obtain ⟨old, hold, hprefix⟩ := exists_shown_of_prefix hpages hitems hnext
      rw [hpages] at hpage ⊢
      exact (ih hpage hold).concat move rfl hprefix
    · rw [shown, hpages, List.map_append, List.map_singleton, hitems] at hnext
      rw [hpages] at hpage ⊢
      obtain hfront | hlast := Nat.lt_or_ge index (moves.foldl Flow.move (new styles)).pages.length
      · rw [List.getElem?_append_left hfront] at hpage
        rw [List.getElem?_append_left (by simpa using hfront)] at hnext
        exact (ih hpage hnext).concat move
          (List.take_append_of_le_length (Nat.le_of_lt hfront)) List.prefix_rfl
      · -- The page that the move has finished is the last one.
        obtain ⟨hindex, -⟩ := List.getElem?_eq_some_iff.1 hpage
        rw [List.length_append, List.length_singleton] at hindex
        obtain rfl := Nat.le_antisymm (Nat.le_of_lt_succ hindex) hlast
        rw [List.getElem?_concat_length, Option.some_inj] at hpage
        rw [List.getElem?_append_right (by simp)] at hnext
        obtain rfl : _ = next := by simpa using hnext
        exact ⟨moves, move, [], rfl, List.take_left.symm, hpage ▸ hitems.symm, hturns⟩

/-- Two neighbouring pages of a finished flow are a page that has been turned and what is shown
behind it. -/
theorem shown_of_finishPage {pages rest : List Frame}
    (hrest : pages ++ rest = flow.finishPage.pages) {index : Nat} {page next : Frame}
    (hpage : pages[index]? = some page) (hnext : pages[index + 1]? = some next) :
    pages.take index = flow.pages.take index ∧ flow.pages[index]? = some page ∧
      flow.shown[index + 1]? = some next.items := by
  have hlength := (List.getElem?_eq_some_iff.1 hnext).1
  have hpage' : flow.finishPage.pages[index]? = some page := by
    rw [← hrest, List.getElem?_append_left (Nat.lt_of_succ_lt hlength)]
    exact hpage
  have hnext' : flow.finishPage.pages[index + 1]? = some next := by
    rw [← hrest, List.getElem?_append_left hlength]
    exact hnext
  have hbefore : index < flow.pages.length := by
    have hbound := (List.getElem?_eq_some_iff.1 hnext').1
    simpa [Flow.finishPage, Flow.finishLine] using hbound
  have htake : pages.take index = flow.finishPage.pages.take index := by
    rw [← hrest, List.take_append_of_le_length (Nat.le_of_lt (Nat.lt_of_succ_lt hlength))]
  refine ⟨htake.trans ?_, ?_, ?_⟩
  · exact List.take_append_of_le_length (Nat.le_of_lt hbefore)
  · exact (List.getElem?_append_left hbefore).symm.trans hpage'
  · have hshown : flow.shown = flow.finishPage.pages.map Frame.items := by
      simp [shown, finishPage, finishLine]
    rw [hshown, List.getElem?_map, hnext', Option.map_some]

end Flow

/-! ## The pages of a document -/

/-- Pages with a height hold content as layout promises. -/
structure Paged (content : Content) (styles : Styles) (height : Length) : Prop where
  /-- Every item but the first one of its page fits, a word further on in a line as far as the
  line's first one, and a rectangle before it is moved by the block spacing. -/
  filled : ∀ page ∈ layout content styles, Filled (bottom styles height) page.items
  /-- A page is left for the next one at a page break, or for an item that would not fit. -/
  turned : ∀ (index : Nat) (page next : Frame), (layout content styles)[index]? = some page →
    (layout content styles)[index + 1]? = some next →
      Flow.Turned styles height (Elem.movesOf none content) (layout content styles) index page
        next.items

/-- The pages are those of the run and the current one, unless that is dropped. -/
theorem layout_prefix (content : Content) (styles : Styles) :
    layout content styles <+:
      ((Elem.movesOf none content).foldl Flow.move (Flow.new styles)).finishPage.pages := by
  rw [layout, Flow.elems_eq_foldl, Flow.finish]
  split
  · exact List.prefix_append _ _
  · exact List.prefix_rfl

/-- What reaches below the bottom margin, other than the first item of a page, is a rectangle that
has been moved by the block spacing, or it stands in a line that was begun where there was room. -/
theorem overflow_explained (content : Content) (styles : Styles) {height : Length}
    (hheight : styles.pageHeight = some height) : Paged content styles height := by
  have hlayout := layout_prefix content styles
  have hstart : (Flow.new styles).Kept height :=
    ⟨hheight, List.forall_mem_nil _, .nil _, fun hbehind => absurd hbehind Flow.not_behind_start⟩
  have hkept := (hstart.foldl (Elem.movesOf none content)).finishPage
  have hstyles := Flow.styles_foldl (Flow.new styles) (Elem.movesOf none content)
  have hturned := @Flow.turned height styles hheight (Elem.movesOf none content)
  generalize (Elem.movesOf none content).foldl Flow.move (Flow.new styles) = flow
    at hlayout hkept hstyles hturned
  constructor
  · intro page hpage
    have hfilled := hkept.pages page (hlayout.subset hpage)
    rwa [show flow.finishPage.styles = styles from hstyles] at hfilled
  · intro index page next hpage hnext
    obtain ⟨rest, hrest⟩ := hlayout
    have hfront : (layout content styles).take index = flow.pages.take index ∧
        flow.pages[index]? = some page ∧ flow.shown[index + 1]? = some next.items :=
      Flow.shown_of_finishPage hrest hpage hnext
    obtain ⟨front, move, back, hmoves, hpages, hitems, hturns⟩ := hturned hfront.2.1 hfront.2.2
    exact ⟨front, move, back, hmoves, hpages.trans hfront.1.symm, hitems, hturns⟩

/-- Two words and two rectangles on pages that are too low for them. -/
theorem overflow_explained_low :
    ({ pageHeight := some (.points 40.0) } : Styles).pageHeight = some (.points 40.0) ∧
      Paged [.text "a" (.points 10.0) false false, .text "b" (.points 20.0) false false,
          .rect (.points 20.0) (.points 10.0) ⟨1, 2, 3, 255⟩,
          .rect (.points 20.0) (.points 10.0) ⟨1, 2, 3, 255⟩]
        { pageHeight := some (.points 40.0) } (.points 40.0) :=
  ⟨rfl, overflow_explained _ _ rfl⟩

/-- The second rectangle has room before the block spacing but not behind it, and stays. -/
theorem rectangle_overflows :
    (layout [.rect (.points 20.0) (.points 10.0) ⟨1, 2, 3, 255⟩,
          .rect (.points 20.0) (.points 10.0) ⟨1, 2, 3, 255⟩]
        { pageHeight := some (.points 40.0) }).map Frame.items =
      [[(⟨10.0, 10.0⟩, .shape 20.0 10.0 ⟨1, 2, 3, 255⟩),
        (⟨10.0, 24.0⟩, .shape 20.0 10.0 ⟨1, 2, 3, 255⟩)]] ∧
      ¬(24.0 : Float) + 10.0 ≤ bottom { pageHeight := some (.points 40.0) } (.points 40.0) :=
  ⟨rfl, by decide⟩

-- The second word is higher than the first one, beside which it stands.
set_option maxRecDepth 1000 in
example :
    (layout [.text "a" (.points 10.0) false false, .text "b" (.points 20.0) false false]
        { pageHeight := some (.points 40.0) }).map Frame.items =
      [[(⟨10.0, 10.0⟩, .text "a" 10.0 false false false),
        (⟨15.0, 10.0⟩, .text "b" 20.0 false false false)]] ∧
      ¬(10.0 : Float) + 20.0 * leading ≤
        bottom { pageHeight := some (.points 40.0) } (.points 40.0) :=
  ⟨rfl, by decide⟩

end Galley.Document
