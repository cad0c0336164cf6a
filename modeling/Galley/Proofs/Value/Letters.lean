import Galley.Proofs.Value.Operations
import Galley.Proofs.Value.Printed

/-!
# The letters of values

Text stands in content and in the bodies of its links at every depth, and content stands in
arrays.  A link without a body shows its destination in plain letters, whatever stands around it;
those letters are left out.  Sums only have the letters of their operands, and the characters of
their strings.
-/

namespace Galley.Document

/-- A text as content shows it. -/
structure Letters where
  text : String
  strong : Bool
  emph : Bool
  deriving DecidableEq, Repr

namespace Elem

/-- Whether a body is what a link without one shows. -/
def isDestination (dest : String) : List Elem → Bool
  | [.text word _ false false] => word == dest
  | _ => false

mutual

/-- The letters of an element. -/
def letters : Elem → List Letters
  | .text word _ strong emph => [⟨word, strong, emph⟩]
  | .link dest body => if isDestination dest body then [] else lettersAll body
  | _ => []

def lettersAll : List Elem → List Letters
  | [] => []
  | elem :: elems => elem.letters ++ lettersAll elems

end

mutual

/-- The texts of an element, whether or not they are destinations. -/
def texts : Elem → List String
  | .text word _ _ _ => [word]
  | .link _ body => textsAll body
  | _ => []

def textsAll : List Elem → List String
  | [] => []
  | elem :: elems => elem.texts ++ textsAll elems

end

mutual

/-- The destinations that links show for want of a body. -/
def destinations : Elem → List String
  | .link dest body => if isDestination dest body then [dest] else destinationsAll body
  | _ => []

def destinationsAll : List Elem → List String
  | [] => []
  | elem :: elems => elem.destinations ++ destinationsAll elems

end

theorem textsAll_of_isDestination {dest : String} {body : List Elem}
    (hbody : isDestination dest body = true) : textsAll body = [dest] := by
  unfold isDestination at hbody
  split at hbody
  · rw [textsAll, textsAll, texts, List.append_nil, beq_iff_eq.1 hbody]
  · cases hbody

mutual

/-- A text is one of the letters, or it is a destination. -/
theorem mem_of_mem_texts {text : String} : ∀ elem : Elem, text ∈ elem.texts →
    text ∈ elem.letters.map Letters.text ∨ text ∈ elem.destinations
  | .text word _ _ _, htext => .inl htext
  | .link dest body, htext => by
    rw [letters, destinations]
    split
    · rename_i hbody
      rw [texts, textsAll_of_isDestination hbody] at htext
      exact .inr htext
    · exact mem_of_mem_textsAll body htext
  | .raw _ _, htext | .math _ _, htext | .space _, htext | .parbreak, htext
  | .linebreak _, htext | .rect _ _ _, htext | .vertical _, htext | .pagebreak, htext =>
    nomatch htext

theorem mem_of_mem_textsAll {text : String} : ∀ elems : List Elem, text ∈ textsAll elems →
    text ∈ (lettersAll elems).map Letters.text ∨ text ∈ destinationsAll elems
  | [], htext => nomatch htext
  | elem :: elems, htext => by
    rw [lettersAll, destinationsAll, List.map_append, List.mem_append, List.mem_append]
    obtain hfirst | hrest := List.mem_append.1 htext
    · exact (mem_of_mem_texts elem hfirst).imp .inl .inl
    · exact (mem_of_mem_textsAll elems hrest).imp .inr .inr

end

theorem lettersAll_append (front behind : List Elem) :
    lettersAll (front ++ behind) = lettersAll front ++ lettersAll behind := by
  induction front with
  | nil => rfl
  | cons elem elems ih => rw [List.cons_append, lettersAll, lettersAll, ih, List.append_assoc]

/-- A link shows the letters of its body. -/
theorem letters_link_subset (dest : String) (body : List Elem) :
    (Elem.link dest body).letters ⊆ lettersAll body := by
  rw [letters]
  split
  · exact List.nil_subset _
  · exact List.Subset.refl _

end Elem

namespace Value

mutual

/-- The letters of the content in a value. -/
def letters : Value → List Letters
  | .content elems => Elem.lettersAll elems
  | .array items => lettersAll items
  | _ => []

def lettersAll : List Value → List Letters
  | [] => []
  | item :: items => item.letters ++ lettersAll items

end

/-- The letters that a link shows for want of a body are left out. -/
theorem letters_link_destination (dest : String) (size : Length) :
    (Value.content [.link dest [.text dest size false false]]).letters = [] := by
  simp [letters, Elem.lettersAll, Elem.letters, Elem.isDestination]

theorem mem_lettersAll {letter : Letters} {items : List Value} :
    letter ∈ lettersAll items ↔ ∃ item ∈ items, letter ∈ item.letters := by
  induction items with
  | nil => simp [lettersAll]
  | cons item items ih => simp [lettersAll, ih]

theorem lettersAll_append (front behind : List Value) :
    lettersAll (front ++ behind) = lettersAll front ++ lettersAll behind := by
  induction front with
  | nil => rfl
  | cons item items ih => rw [List.cons_append, lettersAll, lettersAll, ih, List.append_assoc]

variable {origin : Nat} {left right value : Value}

theorem lettersAll_items {items : List Value} (hitems : value.items? = some items) :
    lettersAll items = value.letters := by
  cases value with
  | array own =>
    obtain rfl := Option.some.inj hitems
    rw [letters]
  | color shade =>
    obtain rfl := Option.some.inj hitems
    simp [letters, lettersAll, Color.channels]
  | _ => cases hitems

theorem stringsAll_items {items : List Value} (hitems : value.items? = some items) :
    stringsAll items = value.strings := by
  cases value with
  | array own =>
    obtain rfl := Option.some.inj hitems
    rw [strings]
  | color shade =>
    obtain rfl := Option.some.inj hitems
    simp [strings, stringsAll, Color.channels]
  | _ => cases hitems

/-- A value without letters and strings that is no function. -/
def isPlain : Value → Bool
  | .func _ => false
  | value => value.letters.isEmpty && value.strings.isEmpty

theorem isPlain_iff :
    value.isPlain = true ↔
      value.letters = [] ∧ value.strings = [] ∧ ∀ native, value ≠ .func native := by
  cases value <;> simp [isPlain, letters, strings]

/-- Numbers and lengths are plain. -/
theorem isPlain_of_typeName (htype : value.typeName ∈ ["integer", "float", "length"]) :
    value.isPlain = true := by
  cases value <;> simp [typeName] at htype <;> rfl

theorem isPlain_of_isNumber (hnumber : value.IsNumber) : value.isPlain = true :=
  isPlain_of_typeName (by obtain htype | htype := hnumber <;> simp [htype])

/-- What a value is made of comes from some others, and it is no function. -/
structure MadeOf (sources : List Value) (value : Value) : Prop where
  letters : value.letters ⊆ lettersAll sources
  chars : ∀ string ∈ value.strings, ∀ c ∈ string.toList,
    ∃ own ∈ stringsAll sources, c ∈ own.toList
  native : ∀ native, value ≠ .func native

theorem madeOf_of_isPlain {sources : List Value} (hplain : value.isPlain = true) :
    MadeOf sources value := by
  obtain ⟨hletters, hstrings, hnative⟩ := isPlain_iff.1 hplain
  exact ⟨hletters ▸ List.nil_subset _, hstrings ▸ List.forall_mem_nil _, hnative⟩

/-- A sum is made of its operands. -/
theorem madeOf_add (hadd : left.add origin right = some (.ok value)) :
    MadeOf [left, right] value := by
  unfold add at hadd
  split at hadd
  · rename_i hleft hright
    have hnumber : value.IsNumber :=
      (Ruled.of_combine hleft hright fun _ hnumber => hnumber).value value hadd
    exact madeOf_of_isPlain (isPlain_of_isNumber hnumber)
  · split at hadd
    · rename_i leftText rightText _
      cases hadd
      refine ⟨List.nil_subset _, List.forall_mem_singleton.2 fun c hc => ?_,
        fun _ => Value.noConfusion⟩
      rw [String.toList_append, List.mem_append] at hc
      obtain hc | hc := hc
      · exact ⟨leftText, by simp [stringsAll, strings], hc⟩
      · exact ⟨rightText, by simp [stringsAll, strings], hc⟩
    · cases hadd
      exact madeOf_of_isPlain rfl
    · cases hadd
      refine ⟨?_, List.forall_mem_nil _, fun _ => Value.noConfusion⟩
      simp [letters, lettersAll, Elem.lettersAll_append]
    · split at hadd
      · rename_i hleft hright
        cases hadd
        refine ⟨?_, fun string hstring c hc => ⟨string, ?_, hc⟩, fun _ => Value.noConfusion⟩
        · rw [letters, lettersAll_append, lettersAll_items hleft, lettersAll_items hright]
          simp [lettersAll]
        · rw [strings, stringsAll_append, stringsAll_items hleft, stringsAll_items hright]
            at hstring
          simpa [stringsAll] using hstring
      · cases hadd

theorem isPlain_sub (hsub : left.sub origin right = some (.ok value)) : value.isPlain = true := by
  obtain ⟨-, -, hnumber⟩ | ⟨-, -, hlength⟩ := (ruled_sub origin left right).value value hsub
  · exact isPlain_of_isNumber hnumber
  · exact isPlain_of_typeName (by simp [hlength])

/-- What every document knows is a function under its name, or it is plain. -/
theorem globals_cases {entry : String × Value} (hentry : entry ∈ globals) :
    (∃ native : Native, entry = (native.name, .func native)) ∨ entry.2.isPlain = true := by
  obtain hentry | hentry := List.mem_append.1 hentry
  · obtain ⟨native, -, rfl⟩ := List.mem_map.1 hentry
    exact .inl ⟨native, rfl⟩
  · obtain ⟨shade, -, rfl⟩ := List.mem_map.1 hentry
    exact .inr rfl

end Value

end Galley.Document
