/-!
# Byte positions in text

Positions in a text are counted in bytes of its UTF-8 form. A position is
usable where it falls between two characters; `splitAtByte` cuts a text there
and refuses every other position.
-/

namespace Galley.Text

/-- Number of bytes of the UTF-8 form. -/
def byteLength : List Char → Nat
  | [] => 0
  | c :: chars => c.utf8Size + byteLength chars

@[simp]
theorem byteLength_nil : byteLength [] = 0 := rfl

@[simp]
theorem byteLength_cons (c : Char) (chars : List Char) :
    byteLength (c :: chars) = c.utf8Size + byteLength chars := rfl

@[simp]
theorem byteLength_append (left right : List Char) :
    byteLength (left ++ right) = byteLength left + byteLength right := by
  induction left with
  | nil => simp
  | cons c left ih => simp [ih, Nat.add_assoc]

/-- The UTF-8 form. -/
def encode (chars : List Char) : List UInt8 :=
  chars.flatMap String.utf8EncodeChar

/-- Cuts a text behind the given number of bytes. There is no cut behind the
end and none inside a character. -/
def splitAtByte : Nat → List Char → Option (List Char × List Char)
  | 0, chars => some ([], chars)
  | _ + 1, [] => none
  | position + 1, c :: chars =>
    if c.utf8Size ≤ position + 1 then
      (splitAtByte (position + 1 - c.utf8Size) chars).map fun (before, after) =>
        (c :: before, after)
    else none

/-- A cut loses nothing and lies where it was asked for. -/
theorem splitAtByte_eq_some {position : Nat} {chars before after : List Char}
    (hcut : splitAtByte position chars = some (before, after)) :
    before ++ after = chars ∧ byteLength before = position := by
  induction chars generalizing position before after with
  | nil =>
    cases position with
    | zero => simp_all [splitAtByte]
    | succ position => simp [splitAtByte] at hcut
  | cons c chars ih =>
    cases position with
    | zero => simp_all [splitAtByte]
    | succ position =>
      rw [splitAtByte] at hcut
      split at hcut
      · rename_i hfits
        obtain ⟨⟨front, back⟩, hinner, hpair⟩ := Option.map_eq_some_iff.1 hcut
        simp only [Prod.mk.injEq] at hpair
        obtain ⟨rfl, rfl⟩ := hpair
        obtain ⟨happend, hlength⟩ := ih hinner
        refine ⟨by simp [happend], ?_⟩
        rw [byteLength_cons, hlength]
        omega
      · exact absurd hcut (by simp)

/-- Every prefix of a text is reached by a cut. -/
theorem splitAtByte_append (before after : List Char) :
    splitAtByte (byteLength before) (before ++ after) = some (before, after) := by
  induction before with
  | nil => simp [splitAtByte]
  | cons c before ih =>
    have hpos : 0 < c.utf8Size := c.utf8Size_pos
    have hsum : byteLength (c :: before) = (c.utf8Size - 1 + byteLength before) + 1 := by
      rw [byteLength_cons]; omega
    rw [hsum, List.cons_append, splitAtByte, if_pos (by omega)]
    have hrest : c.utf8Size - 1 + byteLength before + 1 - c.utf8Size = byteLength before := by
      omega
    rw [hrest, ih]
    rfl

/-- Whether the position falls between two characters of the text. -/
def isCut (chars : List Char) (position : Nat) : Bool :=
  (splitAtByte position chars).isSome

/-- Whether an index into raw bytes does not point into the middle of a
character: it is an end of the bytes, or the byte there continues nothing. -/
def isBoundary (bytes : List UInt8) (index : Int) : Bool :=
  if index < 0 then false
  else if index.toNat == 0 || index.toNat == bytes.length then true
  else match bytes[index.toNat]? with
    | some byte => byte &&& 0xc0 != 0x80
    | none => false

end Galley.Text
