import Galley.Document.Layout
import Mathlib.Data.List.Forall2

/-!
# What layout puts on pages

Content comes down to a feed of marks, which are words and rectangles, with page breaks between
them.  Layout takes the feed as it comes: a mark gets its items on the current page, a page break
ends the page, and apart from that a page ends only where pages have a height.  Everything that is
said about the pages is read off such a run.
-/

namespace Galley.Document

/-! ## The feed of content -/

/-- What content shows: a word, with the innermost link around it, or a rectangle. -/
inductive Mark
  | word (text : String) (size : Float) (strong emph raw : Bool) (link : Option String)
  | rect (width height : Float) (fill : Color)

/-- The items of a mark at a point.  A word inside a link is followed by the area that it covers,
which leads to where the link does. -/
def Mark.items (point : Point) : Mark → List (Point × Item)
  | .word text size strong emph raw none => [(point, .text text size strong emph raw)]
  | .word text size strong emph raw (some dest) =>
    [(point, .text text size strong emph raw),
      (point, .link (Flow.wordWidth text size) (size * leading) dest)]
  | .rect width height fill => [(point, .shape width height fill)]

theorem Mark.items_ne_nil (mark : Mark) (point : Point) : mark.items point ≠ [] := by
  rcases mark with ⟨text, size, strong, emph, raw, _ | dest⟩ | _ <;> exact List.cons_ne_nil _ _

/-- Marks and page breaks, in order. -/
abbrev Feed := List (Option Mark)

/-- The words of a text that is laid out word by word. -/
def wordFeed (text : String) (size : Float) (raw : Bool) (link : Option String) : Feed :=
  (Text.words text.toList).map fun word =>
    some (.word (String.ofList word) size false false raw link)

mutual

/-- The feed of an element inside a link, if there is one. -/
def Elem.feed (link : Option String) : Elem → Feed
  | .text word size strong emph => [some (.word word size.pt strong emph false link)]
  | .raw body size => wordFeed body size.pt true link
  | .math body size => wordFeed body size.pt false link
  | .rect width height fill => [some (.rect width.pt height.pt fill)]
  | .link dest body => feedOf (some dest) body
  | .pagebreak => [none]
  | .space _ | .linebreak _ | .parbreak | .vertical _ => []

def Elem.feedOf (link : Option String) : List Elem → Feed
  | [] => []
  | first :: rest => first.feed link ++ feedOf link rest

end

/-- The marks between the page breaks of a feed. -/
def Feed.sheets : Feed → List (List Mark)
  | [] => [[]]
  | none :: feed => [] :: sheets feed
  | some mark :: feed => (sheets feed).modifyHead (mark :: ·)

/-- The sheets that become pages.  An empty last one behind a page break does not. -/
def Feed.pages (feed : Feed) : List (List Mark) :=
  if 1 < feed.sheets.length && feed.sheets.getLast?.any List.isEmpty then feed.sheets.dropLast
  else feed.sheets

/-- Items show marks if they are those of the marks, one after another, each at some point. -/
inductive Shows : List Mark → List (Point × Item) → Prop
  | nil : Shows [] []
  | cons {mark : Mark} {marks : List Mark} {items : List (Point × Item)} (point : Point)
      (hrest : Shows marks items) : Shows (mark :: marks) (mark.items point ++ items)

theorem Shows.eq_nil_iff {marks : List Mark} {items : List (Point × Item)}
    (hshows : Shows marks items) : marks = [] ↔ items = [] := by
  cases hshows with
  | nil => exact iff_of_true rfl rfl
  | @cons mark marks items point hrest =>
    exact ⟨nofun, fun hnil => absurd (List.append_eq_nil_iff.1 hnil).1 (mark.items_ne_nil point)⟩

/-! ## Runs over a feed -/

/-- A page of the width and, if there is one, the height of the styles. -/
def Frame.Sized (styles : Styles) (page : Frame) : Prop :=
  page.width = styles.pageWidth.pt ∧
    ∀ height, styles.pageHeight = some height → page.height = height.pt

/-- How a feed changes the finished pages and the items of the current one. -/
inductive Lays (styles : Styles) :
    Feed → List Frame × List (Point × Item) → List Frame × List (Point × Item) → Prop
  | done {state : List Frame × List (Point × Item)} : Lays styles [] state state
  | place {mark : Mark} {feed : Feed} {pages : List Frame} {items : List (Point × Item)}
      {after : List Frame × List (Point × Item)} (point : Point)
      (hrest : Lays styles feed (pages, items ++ mark.items point) after) :
      Lays styles (some mark :: feed) (pages, items) after
  | turn {feed : Feed} {pages : List Frame} {page : Frame}
      {after : List Frame × List (Point × Item)} (hpage : page.Sized styles)
      (hrest : Lays styles feed (pages ++ [page], []) after) :
      Lays styles (none :: feed) (pages, page.items) after
  /-- A page that has a height may be full. -/
  | overflow {feed : Feed} {pages : List Frame} {page : Frame}
      {after : List Frame × List (Point × Item)} (hheight : styles.pageHeight ≠ none)
      (hpage : page.Sized styles) (hrest : Lays styles feed (pages ++ [page], []) after) :
      Lays styles feed (pages, page.items) after

namespace Lays

variable {styles : Styles} {feed feed' : Feed}
  {before between after : List Frame × List (Point × Item)}

theorem trans (hfirst : Lays styles feed before between)
    (hsecond : Lays styles feed' between after) : Lays styles (feed ++ feed') before after := by
  induction hfirst with
  | done => exact hsecond
  | place point _ ih => exact .place point (ih hsecond)
  | turn hpage _ ih => exact .turn hpage (ih hsecond)
  | overflow hheight hpage _ ih => exact .overflow hheight hpage (ih hsecond)

/-- All marks of the feed are shown in order, behind what was shown before. -/
theorem exists_shows (hlays : Lays styles feed before after) :
    ∃ items, Shows feed.reduceOption items ∧
      after.1.flatMap Frame.items ++ after.2 =
        before.1.flatMap Frame.items ++ before.2 ++ items := by
  induction hlays with
  | done => exact ⟨[], .nil, (List.append_nil _).symm⟩
  | place point _ ih =>
    obtain ⟨items, hshows, heq⟩ := ih
    refine ⟨_, .cons point hshows, ?_⟩
    simpa only [List.append_assoc] using heq
  | turn hpage _ ih =>
    obtain ⟨items, hshows, heq⟩ := ih
    exact ⟨items, hshows, by simpa using heq⟩
  | overflow hheight hpage _ ih =>
    obtain ⟨items, hshows, heq⟩ := ih
    exact ⟨items, hshows, by simpa using heq⟩

theorem sized (hlays : Lays styles feed before after)
    (hbefore : ∀ page ∈ before.1, page.Sized styles) : ∀ page ∈ after.1, page.Sized styles := by
  induction hlays with
  | done => exact hbefore
  | place point _ ih => exact ih hbefore
  | turn hpage _ ih =>
    exact ih (List.forall_mem_append.2 ⟨hbefore, List.forall_mem_singleton.2 hpage⟩)
  | overflow hheight hpage _ ih =>
    exact ih (List.forall_mem_append.2 ⟨hbefore, List.forall_mem_singleton.2 hpage⟩)

/-- Without a page height, nothing but page breaks separates pages. -/
theorem exists_sheets (hlays : Lays styles feed before after)
    (hheight : styles.pageHeight = none) :
    ∃ first rest, List.Forall₂ Shows feed.sheets (first :: rest) ∧
      after.1.map Frame.items ++ [after.2] =
        before.1.map Frame.items ++ (before.2 ++ first) :: rest := by
  induction hlays with
  | done => exact ⟨[], [], .cons .nil .nil, by simp⟩
  | @place mark feed _ _ _ point _ ih =>
    obtain ⟨first, rest, hshows, heq⟩ := ih
    refine ⟨mark.items point ++ first, rest, ?_, by simpa using heq⟩
    rw [Feed.sheets]
    cases hsheets : feed.sheets with
    | nil => exact nomatch hsheets ▸ hshows
    | cons sheet sheets =>
      rw [hsheets] at hshows
      obtain ⟨hfirst, hrest⟩ := List.forall₂_cons.1 hshows
      exact .cons (.cons point hfirst) hrest
  | turn hpage _ ih =>
    obtain ⟨first, rest, hshows, heq⟩ := ih
    exact ⟨[], first :: rest, .cons .nil hshows, by simpa using heq⟩
  | overflow hlimited => exact absurd hheight hlimited

end Lays

/-! ## The operations of a flow -/

namespace Flow

variable {flow before between after : Flow} {feed feed' : Feed}

/-- A flow has taken in a feed. -/
structure Takes (feed : Feed) (before after : Flow) : Prop where
  styles : after.styles = before.styles
  lays : Lays before.styles feed (before.pages, before.items) (after.pages, after.items)

namespace Takes

theorem trans (hfirst : Takes feed before between) (hsecond : Takes feed' between after) :
    Takes (feed ++ feed') before after :=
  ⟨hsecond.styles.trans hfirst.styles, hfirst.lays.trans (hfirst.styles ▸ hsecond.lays)⟩

/-- What only moves on takes nothing in. -/
theorem stay (hstyles : after.styles = before.styles) (hpages : after.pages = before.pages)
    (hitems : after.items = before.items) : Takes [] before after :=
  ⟨hstyles, by rw [hpages, hitems]; exact .done⟩

theorem finishLine (flow : Flow) : Takes [] flow flow.finishLine :=
  stay rfl rfl rfl

theorem ite {condition : Prop} [Decidable condition] (hthen : condition → Takes feed flow before)
    (helse : ¬condition → Takes feed flow after) :
    Takes feed flow (if condition then before else after) := by
  split
  · exact hthen ‹_›
  · exact helse ‹_›

end Takes

/-- A page has its size whatever has been reached on it. -/
theorem sized_finishPage (flow : Flow) :
    Frame.Sized flow.styles
      ⟨flow.styles.pageWidth.pt, pageHeight flow.styles flow.finishLine.y, flow.items⟩ := by
  refine ⟨rfl, fun height hheight => ?_⟩
  rw [pageHeight, hheight]

theorem takes_finishPage (flow : Flow) : Takes [none] flow flow.finishPage :=
  ⟨rfl, .turn (sized_finishPage flow) .done⟩

/-- What does not fit starts a new page, which only happens to pages with a height. -/
theorem takes_overflow {height : Float} (hfull : flow.fits height = false) :
    Takes [] flow flow.finishPage := by
  refine ⟨rfl, .overflow (fun hnone => ?_) (sized_finishPage flow) .done⟩
  rw [fits, hnone] at hfull
  cases hfull

theorem takes_space (flow : Flow) (size : Float) : Takes [] flow (flow.space size) :=
  .ite (fun _ => .stay rfl rfl rfl) fun _ => .stay rfl rfl rfl

/-- A mark gets its items on the current page. -/
theorem takes_mark (mark : Mark) (point : Point) (hstyles : after.styles = flow.styles)
    (hpages : after.pages = flow.pages) (hitems : after.items = flow.items ++ mark.items point) :
    Takes [some mark] flow after :=
  ⟨hstyles, .place point (by rw [hpages, hitems]; exact .done)⟩

theorem takes_word (flow : Flow) (text : String) (size : Float) (strong emph raw : Bool)
    (link : Option String) :
    Takes [some (.word text size strong emph raw link)] flow
      (flow.word text size strong emph raw link) := by
  unfold word
  extract_lets width height opened roomy point shown linked
  have hopened : Takes [] flow opened :=
    .ite (fun _ => .finishLine flow) fun _ => .stay rfl rfl rfl
  have hroomy : Takes [] opened roomy := by
    refine .ite (fun hover => ?_) fun _ => .stay rfl rfl rfl
    have hfull : opened.fits height = false := by simpa using (Bool.and_eq_true_iff.1 hover).2
    exact takes_overflow hfull
  have hlinked : linked = { roomy with
      items := roomy.items ++ (Mark.word text size strong emph raw link).items point } := by
    cases link with
    | none => rfl
    | some dest => exact congrArg (fun items => { roomy with items }) (List.append_assoc ..)
  refine (hopened.trans hroomy).trans ?_
  rw [hlinked]
  exact takes_mark _ point rfl rfl rfl

theorem takes_words (size : Float) (raw : Bool) (link : Option String) (flow : Flow)
    (pieces : List (List Char)) :
    Takes (pieces.map fun word => some (.word (String.ofList word) size false false raw link)) flow
      (words size raw link flow pieces) := by
  induction flow, pieces using words.induct size raw link with
  | case1 flow => exact .stay rfl rfl rfl
  | case2 flow last => exact takes_word ..
  | case3 flow first rest hrest ih =>
    rw [words]
    · exact ((takes_word ..).trans (takes_space ..)).trans ih
    · exact hrest

theorem takes_linebreak (flow : Flow) (size : Float) : Takes [] flow (flow.linebreak size) := by
  unfold linebreak
  extract_lets opened
  have hopened : Takes [] flow opened :=
    .ite (fun _ => .stay rfl rfl rfl) fun _ => .stay rfl rfl rfl
  exact hopened.trans (.finishLine _)

theorem takes_parbreak (flow : Flow) : Takes [] flow flow.parbreak :=
  (Takes.finishLine flow).trans (.ite (fun _ => .stay rfl rfl rfl) fun _ => .stay rfl rfl rfl)

theorem takes_rect (flow : Flow) (width height : Length) (fill : Color) :
    Takes [some (.rect width.pt height.pt fill)] flow (flow.rect width height fill) := by
  unfold rect
  extract_lets opened roomy spaced placed
  have hroomy : Takes [] opened roomy :=
    .ite (fun _ => .stay rfl rfl rfl) fun hfull => takes_overflow (Bool.eq_false_iff.2 hfull)
  have hspaced : Takes [] roomy spaced :=
    .ite (fun _ => .stay rfl rfl rfl) fun _ => .stay rfl rfl rfl
  exact (((Takes.finishLine flow).trans hroomy).trans hspaced).trans
    (takes_mark (.rect width.pt height.pt fill) _ rfl rfl rfl)

theorem takes_vertical (flow : Flow) (amount : Length) : Takes [] flow (flow.vertical amount) :=
  .stay rfl rfl rfl

mutual

theorem takes_elem (link : Option String) (flow : Flow) : ∀ elem : Elem,
    Takes (elem.feed link) flow (Flow.elem link flow elem)
  | .text .. => takes_word ..
  | .raw .. => takes_words ..
  | .math .. => takes_words ..
  | .space _ => takes_space ..
  | .linebreak _ => takes_linebreak ..
  | .parbreak => takes_parbreak flow
  | .link dest body => takes_elems (some dest) flow body
  | .rect .. => takes_rect ..
  | .vertical _ => takes_vertical ..
  | .pagebreak => takes_finishPage flow

theorem takes_elems (link : Option String) (flow : Flow) : ∀ content : List Elem,
    Takes (Elem.feedOf link content) flow (Flow.elems link flow content)
  | [] => .stay rfl rfl rfl
  | first :: rest => (takes_elem link flow first).trans (takes_elems link _ rest)

end

end Flow

/-! ## The pages of a document -/

/-- Pages show content as layout promises. -/
structure LaidOut (content : Content) (styles : Styles) (pages : List Frame) : Prop where
  /-- The items of the pages, read in order, are those of the words and rectangles of the content
  in order, and no others. -/
  shows : Shows (Elem.feedOf none content).reduceOption (pages.flatMap Frame.items)
  ne_nil : pages ≠ []
  sized : ∀ page ∈ pages, page.Sized styles
  /-- Without a page height, the pages are what stands between page breaks, at whatever depth. -/
  split : styles.pageHeight = none →
    List.Forall₂ Shows (Elem.feedOf none content).pages (pages.map Frame.items)

theorem layout_ne_nil (content : Content) (styles : Styles) : layout content styles ≠ [] := by
  rw [layout, Flow.finish]
  split
  · rename_i hdropped
    simpa using (Bool.and_eq_true_iff.1 hdropped).2
  · exact List.concat_ne_nil _ _

/-- The last sheet is on the last page. -/
theorem exists_concat {sheets : List (List Mark)} {shown : List (List (Point × Item))}
    {last : List (Point × Item)} (hshows : List.Forall₂ Shows sheets (shown ++ [last])) :
    ∃ front back, sheets = front ++ [back] ∧ List.Forall₂ Shows front shown ∧ Shows back last := by
  have hfront := List.forall₂_take_append _ _ _ hshows
  have hback := List.forall₂_drop_append _ _ _ hshows
  obtain ⟨back, _, hlast, hnil, hdrop⟩ := List.forall₂_cons_right_iff.1 hback
  obtain rfl := List.forall₂_nil_right_iff.1 hnil
  exact ⟨_, back, (hdrop ▸ List.take_append_drop _ _).symm, hfront, hlast⟩

theorem Feed.pages_of_concat {feed : Feed} {front : List (List Mark)} {back : List Mark}
    (hsheets : feed.sheets = front ++ [back]) :
    feed.pages = if !front.isEmpty && back.isEmpty then front else front ++ [back] := by
  rw [pages, hsheets, List.getLast?_concat, List.dropLast_concat]
  cases front <;> simp

/-- Layout loses, duplicates and reorders nothing, whatever elements the content mixes and
whatever their sizes are. -/
theorem layout_faithful (content : Content) (styles : Styles) :
    LaidOut content styles (layout content styles) := by
  have hne := layout_ne_nil content styles
  have htakes := Flow.takes_elems none (Flow.new styles) content
  rw [layout] at hne ⊢
  generalize Flow.elems none (Flow.new styles) content = flow at htakes hne ⊢
  obtain ⟨hstyles, hlays⟩ := htakes
  obtain ⟨items, hshows, hitems⟩ := hlays.exists_shows
  rw [show items = flow.pages.flatMap Frame.items ++ flow.items from hitems.symm] at hshows
  have hsized := hlays.sized (List.forall_mem_nil _)
  have hlast := Flow.sized_finishPage flow
  rw [show flow.styles = styles from hstyles] at hlast
  -- Without a page height the last sheet is what stands on the current page.
  have hsheets : styles.pageHeight = none → ∃ front back,
      (Elem.feedOf none content).sheets = front ++ [back] ∧
        List.Forall₂ Shows front (flow.pages.map Frame.items) ∧ Shows back flow.items := by
    intro hheight
    obtain ⟨first, rest, hsplit, heq⟩ := hlays.exists_sheets hheight
    exact exists_concat (heq ▸ hsplit)
  refine ⟨?_, hne, ?_, fun hheight => ?_⟩ <;> rw [Flow.finish]
  · split
    · rename_i hdropped
      have hnil := List.isEmpty_iff.1 (Bool.and_eq_true_iff.1 hdropped).1
      simpa [hnil] using hshows
    · simpa [Flow.finishPage, Flow.finishLine] using hshows
  · split
    · exact hsized
    · refine List.forall_mem_append.2 ⟨hsized, List.forall_mem_singleton.2 ?_⟩
      rw [show flow.finishLine.styles = styles from hstyles]
      exact hlast
  · obtain ⟨front, back, hsheets, hfront, hback⟩ := hsheets hheight
    have hempty : back.isEmpty = flow.items.isEmpty := by
      rw [Bool.eq_iff_iff, List.isEmpty_iff, List.isEmpty_iff, hback.eq_nil_iff]
    have hpages : front.isEmpty = flow.pages.isEmpty := by
      rw [Bool.eq_iff_iff, List.isEmpty_iff_length_eq_zero, List.isEmpty_iff_length_eq_zero,
        hfront.length_eq, List.length_map]
    rw [Feed.pages_of_concat hsheets, hempty, hpages, Bool.and_comm]
    split
    · exact hfront
    · rw [Flow.finishPage, List.map_append]
      exact List.rel_append hfront (.cons hback .nil)

/-- The page break inside the link ends a page like any other, and what moves on behind it keeps
the empty page in front of the last break. -/
example : (layout [.link "d" [.pagebreak], .vertical (.points 5.0), .pagebreak] {}).length = 2 :=
  rfl

end Galley.Document
