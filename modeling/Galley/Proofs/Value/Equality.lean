import Galley.Proofs.Number.Exact
import Galley.Proofs.Value.Operations

/-!
# Equal values

Values are equal if they are numbers of one value, or have one type and are equal as such.  The
comparison behind the operators screens booleans off at the top only and takes colours for the lists
of their channels, so inside arrays it lets a boolean pass for a number, and everywhere a colour for
an array.
-/

namespace Galley.Document

open Galley.Number (Amount amount? beq_iff_amount?_eq floatEqualsInt_iff)

theorem sameFloat_iff {x y : Float} {origin origin' : Nat} (hnumber : x.isNaN = false) :
    sameFloat x origin y origin' = true ↔ amount? x = amount? y := by
  rw [sameFloat, hnumber, Bool.false_and, Bool.false_and, Bool.or_false,
    beq_iff_amount?_eq hnumber]

namespace Length

/-- Whether a length is a number. -/
def Defined (length : Length) : Prop :=
  length.pt.isNaN = false

/-- Two lengths of one value. -/
def Agree (left right : Length) : Prop :=
  amount? left.pt = amount? right.pt

theorem beq_iff {left right : Length} (hdefined : left.Defined) :
    (left == right) = true ↔ left.Agree right :=
  sameFloat_iff hdefined

end Length

/-! ## Content -/

namespace Elem

mutual

/-- Whether every length of an element is a number. -/
def Defined : Elem → Prop
  | .text _ size .. | .raw _ size | .math _ size | .space size | .linebreak size => size.Defined
  | .rect width height _ => width.Defined ∧ height.Defined
  | .link _ body => DefinedAll body
  | .vertical amount => amount.Defined
  | .parbreak | .pagebreak => True

def DefinedAll : List Elem → Prop
  | [] => True
  | elem :: elems => elem.Defined ∧ DefinedAll elems

end

/-- Elements that are the same but for how their lengths are held. -/
inductive Agree : Elem → Elem → Prop
  | text (word : String) {size size' : Length} (strong emph : Bool) (hsize : size.Agree size') :
      Agree (.text word size strong emph) (.text word size' strong emph)
  | raw (body : String) {size size' : Length} (hsize : size.Agree size') :
      Agree (.raw body size) (.raw body size')
  | math (body : String) {size size' : Length} (hsize : size.Agree size') :
      Agree (.math body size) (.math body size')
  | space {size size' : Length} (hsize : size.Agree size') : Agree (.space size) (.space size')
  | parbreak : Agree .parbreak .parbreak
  | linebreak {size size' : Length} (hsize : size.Agree size') :
      Agree (.linebreak size) (.linebreak size')
  | rect {width width' height height' : Length} (fill : Color) (hwidth : width.Agree width')
      (hheight : height.Agree height') : Agree (.rect width height fill) (.rect width' height' fill)
  | link (dest : String) {body body' : List Elem} (hbody : List.Forall₂ Agree body body') :
      Agree (.link dest body) (.link dest body')
  | vertical {amount amount' : Length} (hamount : amount.Agree amount') :
      Agree (.vertical amount) (.vertical amount')
  | pagebreak : Agree .pagebreak .pagebreak

mutual

theorem same_iff : ∀ (left right : Elem), left.Defined → (left.same right = true ↔ left.Agree right)
  | .text word size strong emph, right, hdefined => by
    cases right with
    | text word' size' strong' emph' =>
      simp only [same, Bool.and_eq_true, beq_iff_eq, Length.beq_iff hdefined]
      constructor
      · rintro ⟨⟨⟨rfl, hsize⟩, rfl⟩, rfl⟩
        exact .text _ _ _ hsize
      · rintro ⟨⟩
        simp [*]
    | _ => exact iff_of_false Bool.false_ne_true nofun
  | .raw body size, right, hdefined => by
    cases right with
    | raw body' size' =>
      simp only [same, Bool.and_eq_true, beq_iff_eq, Length.beq_iff hdefined]
      constructor
      · rintro ⟨rfl, hsize⟩
        exact .raw _ hsize
      · rintro ⟨⟩
        simp [*]
    | _ => exact iff_of_false Bool.false_ne_true nofun
  | .math body size, right, hdefined => by
    cases right with
    | math body' size' =>
      simp only [same, Bool.and_eq_true, beq_iff_eq, Length.beq_iff hdefined]
      constructor
      · rintro ⟨rfl, hsize⟩
        exact .math _ hsize
      · rintro ⟨⟩
        simp [*]
    | _ => exact iff_of_false Bool.false_ne_true nofun
  | .space size, right, hdefined => by
    cases right with
    | space size' =>
      rw [same, Length.beq_iff hdefined]
      exact ⟨.space, fun | .space hsize => hsize⟩
    | _ => exact iff_of_false Bool.false_ne_true nofun
  | .parbreak, right, _ => by
    cases right with
    | parbreak => exact iff_of_true rfl .parbreak
    | _ => exact iff_of_false Bool.false_ne_true nofun
  | .linebreak size, right, hdefined => by
    cases right with
    | linebreak size' =>
      rw [same, Length.beq_iff hdefined]
      exact ⟨.linebreak, fun | .linebreak hsize => hsize⟩
    | _ => exact iff_of_false Bool.false_ne_true nofun
  | .rect width height fill, right, hdefined => by
    cases right with
    | rect width' height' fill' =>
      simp only [same, Bool.and_eq_true, beq_iff_eq, Length.beq_iff hdefined.1,
        Length.beq_iff hdefined.2]
      constructor
      · rintro ⟨⟨hwidth, hheight⟩, rfl⟩
        exact .rect _ hwidth hheight
      · rintro ⟨⟩
        simp [*]
    | _ => exact iff_of_false Bool.false_ne_true nofun
  | .link dest body, right, hdefined => by
    cases right with
    | link dest' body' =>
      simp only [same, Bool.and_eq_true, beq_iff_eq, sameAll_iff body body' hdefined]
      constructor
      · rintro ⟨rfl, hbody⟩
        exact .link _ hbody
      · rintro ⟨⟩
        simp [*]
    | _ => exact iff_of_false Bool.false_ne_true nofun
  | .vertical amount, right, hdefined => by
    cases right with
    | vertical amount' =>
      rw [same, Length.beq_iff hdefined]
      exact ⟨.vertical, fun | .vertical hamount => hamount⟩
    | _ => exact iff_of_false Bool.false_ne_true nofun
  | .pagebreak, right, _ => by
    cases right with
    | pagebreak => exact iff_of_true rfl .pagebreak
    | _ => exact iff_of_false Bool.false_ne_true nofun

theorem sameAll_iff : ∀ (left right : List Elem), DefinedAll left →
    (sameAll left right = true ↔ List.Forall₂ Agree left right)
  | [], [], _ => iff_of_true rfl .nil
  | [], _ :: _, _ => iff_of_false Bool.false_ne_true nofun
  | _ :: _, [], _ => iff_of_false Bool.false_ne_true nofun
  | elem :: elems, elem' :: elems', hdefined => by
    rw [sameAll, Bool.and_eq_true, same_iff elem elem' hdefined.1,
      sameAll_iff elems elems' hdefined.2, List.forall₂_cons]

end

end Elem

/-! ## Values -/

namespace Value

variable {left right value : Value}

mutual

/-- Whether every float and every length of a value is a number. -/
def Defined : Value → Prop
  | .float x _ => x.isNaN = false
  | .length amount => amount.Defined
  | .content elems => Elem.DefinedAll elems
  | .array items => DefinedAll items
  | .none | .bool _ | .int _ | .str _ | .color _ | .func _ => True

def DefinedAll : List Value → Prop
  | [] => True
  | item :: items => item.Defined ∧ DefinedAll items

end

/-- What a number stands for. -/
def Number.amount? : Number → Option Amount
  | .int value => some (.rational value)
  | .float value _ => Galley.Number.amount? value

def amount? (value : Value) : Option Amount :=
  value.arithmetic?.bind Number.amount?

/-- Numbers of one value, or values of one type that are equal as such: arrays item by item. -/
inductive Agree : Value → Value → Prop
  | numbers {left right : Value} {amount : Amount} (hleft : left.amount? = some amount)
      (hright : right.amount? = some amount) : Agree left right
  | none : Agree .none .none
  | bool (value : Bool) : Agree (.bool value) (.bool value)
  | str (text : String) : Agree (.str text) (.str text)
  | length {length length' : Length} (hlength : length.Agree length') :
      Agree (.length length) (.length length')
  | color (shade : Color) : Agree (.color shade) (.color shade)
  | content {content content' : Content} (hcontent : List.Forall₂ Elem.Agree content content') :
      Agree (.content content) (.content content')
  | func (native : Native) : Agree (.func native) (.func native)
  | array {items items' : List Value} (hitems : List.Forall₂ Agree items items') :
      Agree (.array items) (.array items')

theorem isNumber_of_amount? {amount : Amount} (hamount : value.amount? = some amount) :
    value.IsNumber := by
  obtain ⟨number, hnumber, -⟩ := Option.bind_eq_some_iff.1 hamount
  exact isSome_arithmetic?_iff.1 (Option.isSome_iff_exists.2 ⟨number, hnumber⟩)

/-- The types of equal values are the same, but for numbers. -/
theorem Agree.typeName (hagree : left.Agree right) :
    left.typeName = right.typeName ∨ left.IsNumber ∧ right.IsNumber := by
  cases hagree with
  | numbers hleft hright => exact .inr ⟨isNumber_of_amount? hleft, isNumber_of_amount? hright⟩
  | _ => exact .inl rfl

mutual

/-- A value as arrays are compared: booleans are numbers, and colours are the arrays of their
channels. -/
def plain : Value → Value
  | .bool value => .int (if value then 1 else 0)
  | .color shade => .array (shade.channels.map fun channel => .int (channel : Nat))
  | .array items => .array (plainAll items)
  | value => value

def plainAll : List Value → List Value
  | [] => []
  | item :: items => item.plain :: plainAll items

end

theorem number?_eq (value : Value) : value.number? = value.plain.arithmetic? := by
  cases value <;> rfl

theorem Number.same_iff {number number' : Number} (hdefined : left.Defined)
    (hnumber : left.number? = some number) :
    number.same number' = true ↔ number.amount? = number'.amount? := by
  cases number with
  | int n =>
    cases number' with
    | int n' => simp [same, Number.amount?]
    | float x origin =>
      rw [same, floatEqualsInt_iff, Number.amount?, Number.amount?, eq_comm]
  | float x origin =>
    have hx : x.isNaN = false := by
      cases left <;> cases hnumber
      exact hdefined
    cases number' with
    | int n => rw [same, floatEqualsInt_iff, Number.amount?, Number.amount?]
    | float y origin' => exact sameFloat_iff hx

theorem Number.amount?_ne_none {number : Number} (hdefined : left.Defined)
    (hnumber : left.number? = some number) : number.amount? ≠ Option.none := by
  cases left <;> cases hnumber
  · nofun
  · nofun
  · exact Galley.Number.amount?_ne_none hdefined

/-- What a number is equal to. -/
theorem agree_iff_of_amount? {amount : Amount} (hleft : left.amount? = some amount) :
    left.Agree right ↔ right.amount? = some amount := by
  constructor
  · intro hagree
    cases hagree with
    | numbers hleft' hright => rwa [← hleft, hleft']
    | _ => cases hleft
  · exact .numbers hleft

theorem agree_iff_of_amount?_right {amount : Amount} (hright : right.amount? = some amount) :
    left.Agree right ↔ left.amount? = some amount := by
  constructor
  · intro hagree
    cases hagree with
    | numbers hleft hright' => rwa [← hright, hright']
    | _ => cases hright
  · exact fun hleft => .numbers hleft hright

theorem amount?_plain (value : Value) :
    value.plain.amount? = value.number?.bind Number.amount? := by
  rw [amount?, number?_eq]

theorem looselyEqual_of_number {number : Number} (hnumber : left.number? = some number) :
    left.looselyEqual right = right.number?.any number.same := by
  cases left <;> cases hnumber <;> cases right <;> rfl

/-- A number or a boolean is equal to the numbers and booleans of its value. -/
theorem looselyEqual_number_iff {number : Number} (hdefined : left.Defined)
    (hnumber : left.number? = some number) :
    left.looselyEqual right = true ↔ left.plain.Agree right.plain := by
  obtain ⟨amount, hamount⟩ := Option.ne_none_iff_exists'.1 (number.amount?_ne_none hdefined hnumber)
  have hleft : left.plain.amount? = some amount := by rw [amount?_plain, hnumber]; exact hamount
  rw [looselyEqual_of_number hnumber, agree_iff_of_amount? hleft, amount?_plain]
  cases right.number? with
  | none => exact iff_of_false Bool.false_ne_true nofun
  | some number' =>
    rw [Option.any_some, Number.same_iff hdefined hnumber, hamount, eq_comm]
    rfl

theorem agree_int_iff {n : Int} :
    (int n).Agree value ↔ value.amount? = some (.rational n) :=
  agree_iff_of_amount? rfl

theorem agree_int_iff_right {n : Int} :
    value.Agree (int n) ↔ value.amount? = some (.rational n) :=
  agree_iff_of_amount?_right rfl

theorem agree_str_iff {text text' : String} : (str text).Agree (str text') ↔ text = text' := by
  constructor
  · intro hagree
    cases hagree with
    | numbers hleft => cases hleft
    | str => rfl
  · rintro rfl
    exact .str text

theorem agree_length_iff {amount amount' : Length} :
    (length amount).Agree (length amount') ↔ amount.Agree amount' := by
  constructor
  · intro hagree
    cases hagree with
    | numbers hleft => cases hleft
    | length hlength => exact hlength
  · exact .length

theorem agree_content_iff {elems elems' : Content} :
    (content elems).Agree (content elems') ↔ List.Forall₂ Elem.Agree elems elems' := by
  constructor
  · intro hagree
    cases hagree with
    | numbers hleft => cases hleft
    | content hcontent => exact hcontent
  · exact .content

theorem agree_func_iff {native native' : Native} :
    (func native).Agree (func native') ↔ native = native' := by
  constructor
  · intro hagree
    cases hagree with
    | numbers hleft => cases hleft
    | func => rfl
  · rintro rfl
    exact .func native

theorem agree_array_iff {items items' : List Value} :
    (array items).Agree (array items') ↔ List.Forall₂ Agree items items' := by
  constructor
  · intro hagree
    cases hagree with
    | numbers hleft => cases hleft
    | array hitems => exact hitems
  · exact .array

/-! ### Channels -/

/-- The channels of a colour as the items of an array. -/
def channelItems (shade : Color) : List Value :=
  shade.channels.map fun channel => .int (channel : Nat)

theorem sameChannels_iff (channels : List Nat) (items : List Value) :
    sameChannels channels items = true ↔
      List.Forall₂ (fun channel item => item.amount? = some (.rational ((channel : Int) : ℚ)))
        channels (plainAll items) := by
  induction channels generalizing items with
  | nil => cases items <;> simp [sameChannels, plainAll]
  | cons channel channels ih =>
    cases items with
    | nil => simp [sameChannels, plainAll]
    | cons item items =>
      rw [sameChannels, plainAll, List.forall₂_cons, Bool.and_eq_true, ih, amount?_plain]
      refine and_congr_left fun _ => ?_
      cases item.number? with
      | none => exact iff_of_false Bool.false_ne_true nofun
      | some number =>
        exact (@Number.same_iff (.int channel) _ _ trivial rfl).trans eq_comm

theorem forall₂_channelItems_iff {shade : Color} {items : List Value} :
    List.Forall₂ Agree (channelItems shade) items ↔
      List.Forall₂ (fun channel item => item.amount? = some (.rational ((channel : Int) : ℚ)))
        shade.channels items := by
  rw [channelItems, List.forall₂_map_left_iff]
  simp only [agree_int_iff]

theorem forall₂_channelItems_iff_right {shade : Color} {items : List Value} :
    List.Forall₂ Agree items (channelItems shade) ↔
      List.Forall₂ (fun channel item => item.amount? = some (.rational ((channel : Int) : ℚ)))
        shade.channels items := by
  rw [channelItems, List.forall₂_map_right_iff]
  simp only [agree_int_iff_right]
  exact ⟨List.Forall₂.flip, List.Forall₂.flip⟩

theorem agree_channels_iff {shade shade' : Color} :
    List.Forall₂ Agree (channelItems shade) (channelItems shade') ↔ shade = shade' := by
  obtain ⟨red, green, blue, alpha⟩ := shade
  obtain ⟨red', green', blue', alpha'⟩ := shade'
  simp [channelItems, Color.channels, agree_int_iff, amount?, arithmetic?, Number.amount?, eq_comm]

theorem looselyEqual_iff_of_types (hfalse : left.looselyEqual right = false)
    (htypes : ¬(left.plain.typeName = right.plain.typeName ∨
      left.plain.IsNumber ∧ right.plain.IsNumber)) :
    left.looselyEqual right = true ↔ left.plain.Agree right.plain :=
  iff_of_false (hfalse ▸ Bool.false_ne_true) fun hagree => htypes hagree.typeName

mutual

theorem looselyEqual_iff : ∀ (left right : Value), left.Defined →
    (left.looselyEqual right = true ↔ left.plain.Agree right.plain)
  | .bool _, _, hdefined | .int _, _, hdefined | .float .., _, hdefined =>
    looselyEqual_number_iff hdefined rfl
  | .none, right, _ => by
    cases right with
    | none => exact iff_of_true rfl .none
    | _ => exact looselyEqual_iff_of_types rfl (by simp [typeName, IsNumber, plain])
  | .str text, right, _ => by
    cases right with
    | str text' =>
      rw [looselyEqual, beq_iff_eq]
      exact agree_str_iff.symm
    | _ => exact looselyEqual_iff_of_types rfl (by simp [typeName, IsNumber, plain])
  | .length amount, right, hdefined => by
    cases right with
    | length amount' =>
      rw [looselyEqual, Length.beq_iff hdefined]
      exact agree_length_iff.symm
    | _ => exact looselyEqual_iff_of_types rfl (by simp [typeName, IsNumber, plain])
  | .content elems, right, hdefined => by
    cases right with
    | content elems' =>
      rw [looselyEqual, Elem.sameAll_iff elems elems' hdefined]
      exact agree_content_iff.symm
    | _ => exact looselyEqual_iff_of_types rfl (by simp [typeName, IsNumber, plain])
  | .func native, right, _ => by
    cases right with
    | func native' =>
      rw [looselyEqual, beq_iff_eq]
      exact agree_func_iff.symm
    | _ => exact looselyEqual_iff_of_types rfl (by simp [typeName, IsNumber, plain])
  | .color shade, right, _ => by
    cases right with
    | color shade' =>
      rw [looselyEqual, beq_iff_eq, plain, plain, agree_array_iff]
      exact agree_channels_iff.symm
    | array items =>
      rw [looselyEqual, sameChannels_iff, plain, plain, agree_array_iff]
      exact forall₂_channelItems_iff.symm
    | _ => exact looselyEqual_iff_of_types rfl (by simp [typeName, IsNumber, plain])
  | .array items, right, hdefined => by
    cases right with
    | color shade =>
      rw [looselyEqual, sameChannels_iff, plain, plain, agree_array_iff]
      exact forall₂_channelItems_iff_right.symm
    | array items' =>
      rw [looselyEqual, plain, plain, agree_array_iff]
      exact looselyEqualAll_iff items items' hdefined
    | _ => exact looselyEqual_iff_of_types rfl (by simp [typeName, IsNumber, plain])

theorem looselyEqualAll_iff : ∀ (left right : List Value), DefinedAll left →
    (looselyEqualAll left right = true ↔ List.Forall₂ Agree (plainAll left) (plainAll right))
  | [], [], _ => iff_of_true rfl .nil
  | [], _ :: _, _ => iff_of_false Bool.false_ne_true nofun
  | _ :: _, [], _ => iff_of_false Bool.false_ne_true nofun
  | item :: items, item' :: items', hdefined => by
    rw [looselyEqualAll, plainAll, plainAll, List.forall₂_cons, Bool.and_eq_true,
      looselyEqual_iff item item' hdefined.1, looselyEqualAll_iff items items' hdefined.2]

end

/-- Equality at the top, where a boolean is screened off from numbers. -/
theorem equal_iff (hdefined : left.Defined) :
    left.equal right = true ↔ left.isBool = right.isBool ∧ left.plain.Agree right.plain := by
  rw [← looselyEqual_iff left right hdefined]
  unfold equal
  split
  · rename_i x origin y origin'
    change _ ↔ false = false ∧ sameFloat x origin y origin' = true
    rw [sameFloat_iff hdefined, beq_iff_amount?_eq hdefined]
    exact (and_iff_right rfl).symm
  · rw [Bool.and_eq_true, beq_iff_eq]

/-! ## Equality of types -/

theorem plain_of_amount? {amount : Amount} (hamount : value.amount? = some amount) :
    value.plain = value := by
  cases value <;> first | rfl | cases hamount

theorem isBool_of_amount? {amount : Amount} (hamount : value.amount? = some amount) :
    value.isBool = false := by
  cases value <;> first | rfl | cases hamount

theorem Agree.isBool (hagree : left.Agree right) : left.isBool = right.isBool := by
  cases hagree with
  | numbers hleft hright => rw [isBool_of_amount? hleft, isBool_of_amount? hright]
  | _ => rfl

theorem Agree.plain_of_flat (hagree : left.Agree right) (hflat : ∀ items, left ≠ .array items) :
    left.plain.Agree right.plain := by
  cases hagree with
  | numbers hleft hright =>
    rw [plain_of_amount? hleft, plain_of_amount? hright]
    exact .numbers hleft hright
  | none => exact .none
  | bool value => exact .numbers rfl rfl
  | str text => exact .str text
  | length hlength => exact .length hlength
  | color shade => exact .array (agree_channels_iff.2 rfl)
  | content hcontent => exact .content hcontent
  | func native => exact .func native
  | array hitems => exact absurd rfl (hflat _)

mutual

theorem Agree.plain : ∀ (left right : Value), left.Agree right → left.plain.Agree right.plain
  | .array items, right, hagree => by
    cases hagree with
    | numbers hleft => cases hleft
    | array hitems => exact .array (Agree.plainAll items _ hitems)
  | .none, _, hagree | .bool _, _, hagree | .int _, _, hagree | .float .., _, hagree
  | .str _, _, hagree | .length _, _, hagree | .color _, _, hagree | .content _, _, hagree
  | .func _, _, hagree => hagree.plain_of_flat nofun

theorem Agree.plainAll : ∀ (left right : List Value), List.Forall₂ Agree left right →
    List.Forall₂ Agree (plainAll left) (plainAll right)
  | [], _, hagree => by
    cases hagree
    exact .nil
  | item :: items, _, hagree => by
    cases hagree with
    | cons hitem hitems => exact .cons (Agree.plain item _ hitem) (Agree.plainAll items _ hitems)

end

/-- At one place of both values, a boolean stands beside a number or a colour beside an array. -/
inductive Mixed : Value → Value → Prop
  | boolean (value : Bool) {right : Value} (hnumber : right.IsNumber) : Mixed (.bool value) right
  | number {left : Value} (hnumber : left.IsNumber) (value : Bool) : Mixed left (.bool value)
  | color (shade : Color) (items : List Value) : Mixed (.color shade) (.array items)
  | items (items : List Value) (shade : Color) : Mixed (.array items) (.color shade)
  | array {items items' : List Value} {item item' : Value}
      (hplace : (item, item') ∈ items.zip items') (hmixed : Mixed item item') :
      Mixed (.array items) (.array items')

theorem agree_or_mixed_of_flat (hdefined : left.Defined) (hequal : left.looselyEqual right = true)
    (hflat : ∀ items, left ≠ .array items) : left.Agree right ∨ Mixed left right := by
  have hagree := (looselyEqual_iff left right hdefined).1 hequal
  cases left with
  | none => cases right <;> first | exact .inl hagree | cases hequal
  | bool value =>
    cases right with
    | bool value' =>
      cases value <;> cases value' <;>
        first | exact .inl (.bool _) | exact absurd hequal (by decide)
    | int n => exact .inr (.boolean value (.inl rfl))
    | float x origin => exact .inr (.boolean value (.inr rfl))
    | _ => cases hequal
  | int n =>
    cases right with
    | bool value => exact .inr (.number (.inl rfl) value)
    | int n' => exact .inl hagree
    | float x origin => exact .inl hagree
    | _ => cases hequal
  | float x origin =>
    cases right with
    | bool value => exact .inr (.number (.inr rfl) value)
    | int n' => exact .inl hagree
    | float x origin => exact .inl hagree
    | _ => cases hequal
  | str text => cases right <;> first | exact .inl hagree | cases hequal
  | length amount => cases right <;> first | exact .inl hagree | cases hequal
  | content elems => cases right <;> first | exact .inl hagree | cases hequal
  | func native => cases right <;> first | exact .inl hagree | cases hequal
  | color shade =>
    cases right with
    | color shade' =>
      obtain rfl := eq_of_beq (show (shade == shade') = true from hequal)
      exact .inl (.color shade)
    | array items => exact .inr (.color shade items)
    | _ => cases hequal
  | array items => exact absurd rfl (hflat items)

mutual

/-- What the comparison takes for equal is equal, unless types are mixed at some place. -/
theorem agree_or_mixed : ∀ (left right : Value), left.Defined → left.looselyEqual right = true →
    left.Agree right ∨ Mixed left right
  | .array items, .color shade, _, _ => .inr (.items items shade)
  | .array items, .array items', hdefined, hequal => by
    obtain hagree | ⟨place, hplace, hmixed⟩ := agree_or_mixedAll items items' hdefined hequal
    · exact .inl (.array hagree)
    · exact .inr (.array hplace hmixed)
  | .none, _, hdefined, hequal | .bool _, _, hdefined, hequal | .int _, _, hdefined, hequal
  | .float .., _, hdefined, hequal | .str _, _, hdefined, hequal | .length _, _, hdefined, hequal
  | .color _, _, hdefined, hequal | .content _, _, hdefined, hequal
  | .func _, _, hdefined, hequal => agree_or_mixed_of_flat hdefined hequal nofun

theorem agree_or_mixedAll : ∀ (left right : List Value), DefinedAll left →
    looselyEqualAll left right = true →
      List.Forall₂ Agree left right ∨ ∃ place ∈ left.zip right, Mixed place.1 place.2
  | [], [], _, _ => .inl .nil
  | item :: items, item' :: items', hdefined, hequal => by
    rw [looselyEqualAll, Bool.and_eq_true] at hequal
    obtain hagree | hmixed := agree_or_mixed item item' hdefined.1 hequal.1
    · obtain hothers | ⟨place, hplace, hmixed⟩ :=
        agree_or_mixedAll items items' hdefined.2 hequal.2
      · exact .inl (.cons hagree hothers)
      · exact .inr ⟨place, List.mem_cons_of_mem _ hplace, hmixed⟩
    · exact .inr ⟨(item, item'), List.mem_cons_self, hmixed⟩

end

theorem looselyEqual_of_equal (hdefined : left.Defined) (hequal : left.equal right = true) :
    left.looselyEqual right = true :=
  (looselyEqual_iff left right hdefined).2 ((equal_iff hdefined).1 hequal).2

/-- How the comparison of two values relates to their types. -/
structure Compared (left right : Value) : Prop where
  /-- What is equal is taken for equal. -/
  complete : left.Agree right → left.equal right = true
  /-- What is taken for equal is equal, unless types are mixed at some place. -/
  sound : left.equal right = true → left.Agree right ∨ Mixed left right
  /-- Exactly those values are taken for equal of which both or neither are booleans and which are
  equal once booleans are replaced by numbers and colours by arrays. -/
  equal_iff : left.equal right = true ↔ left.isBool = right.isBool ∧ left.plain.Agree right.plain

theorem compared (hdefined : left.Defined) : Compared left right where
  complete hagree := (equal_iff hdefined).2 ⟨hagree.isBool, hagree.plain⟩
  sound hequal := agree_or_mixed left right hdefined (looselyEqual_of_equal hdefined hequal)
  equal_iff := equal_iff hdefined

end Value

end Galley.Document
