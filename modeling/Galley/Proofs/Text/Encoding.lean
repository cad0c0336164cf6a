import Galley.Proofs.Span.Lookup
import Galley.Proofs.Text.Position

/-!
# The bytes of a text

The UTF-8 form of a character is one byte that starts it and up to three that continue it, and the
two sorts are told apart by their high bits.  A place between two bytes of a text therefore falls
between two of its characters exactly if no continuing byte stands behind it, and the bytes in
front of such a place are those of a text.  A newline is a byte of its own, so the lines of a text
start where its bytes say.
-/

namespace Galley.Text

@[simp]
theorem encode_cons (c : Char) (chars : List Char) :
    encode (c :: chars) = String.utf8EncodeChar c ++ encode chars := rfl

@[simp]
theorem encode_append (left right : List Char) :
    encode (left ++ right) = encode left ++ encode right :=
  List.flatMap_append

@[simp]
theorem length_encode (chars : List Char) : (encode chars).length = byteLength chars := by
  induction chars with
  | nil => rfl
  | cons c chars ih =>
    rw [encode_cons, List.length_append, String.length_utf8EncodeChar, ih, byteLength_cons]

/-- The bytes up to a place between two characters. -/
theorem take_encode (before after : List Char) :
    (encode (before ++ after)).take (byteLength before) = encode before := by
  rw [encode_append, ← length_encode, List.take_left]

/-- The bytes behind it. -/
theorem drop_encode (before after : List Char) :
    (encode (before ++ after)).drop (byteLength before) = encode after := by
  rw [encode_append, ← length_encode, List.drop_left]

/-! ## Starting and continuing bytes -/

theorem continues_ofNat (value : Nat) :
    UInt8.ofNat (value % 64 + 128) &&& 0xc0 = 0x80 := by
  have hall : ∀ rest < 64, UInt8.ofNat (rest + 128) &&& 0xc0 = 0x80 := by decide +kernel
  exact hall _ (Nat.mod_lt value (by decide))

/-- Behind its first byte a character has bytes with the high bits of a continuation only. -/
theorem continues_of_mem_tail {c : Char} {byte : UInt8}
    (hbyte : byte ∈ (String.utf8EncodeChar c).tail) : byte &&& 0xc0 = 0x80 := by
  unfold String.utf8EncodeChar at hbyte
  dsimp only at hbyte
  split_ifs at hbyte
  all_goals
    simp only [List.tail_cons, List.mem_cons, List.not_mem_nil, or_false] at hbyte
  · rw [hbyte]
    exact continues_ofNat _
  · obtain rfl | rfl := hbyte <;> exact continues_ofNat _
  · obtain rfl | rfl | rfl := hbyte <;> exact continues_ofNat _

theorem starts_of_isUTF8FirstByte {byte : UInt8} (hfirst : byte.IsUTF8FirstByte) :
    (byte &&& 0xc0 != 0x80) = true := by
  have hall : ∀ value < 256, (UInt8.ofNat value).IsUTF8FirstByte →
      (UInt8.ofNat value &&& 0xc0 != 0x80) = true := by decide +kernel
  have hbyte := hall byte.toNat byte.toNat_lt
  rw [UInt8.ofNat_toNat] at hbyte
  exact hbyte hfirst

/-- The first byte of a character has other high bits. -/
theorem exists_encodeChar (c : Char) :
    ∃ first rest, String.utf8EncodeChar c = first :: rest ∧ (first &&& 0xc0 != 0x80) = true := by
  have hfirst := UInt8.isUTF8FirstByte_getElem_zero_utf8EncodeChar (c := c)
  cases hbytes : String.utf8EncodeChar c with
  | nil => exact absurd hbytes String.utf8EncodeChar_ne_nil
  | cons first rest =>
    simp only [hbytes, List.getElem_cons_zero] at hfirst
    exact ⟨first, rest, rfl, starts_of_isUTF8FirstByte hfirst⟩

/-! ## Boundaries -/

theorem isBoundary_of_append (before after : List Char) :
    isBoundary (encode (before ++ after)) (byteLength before) = true := by
  rw [isBoundary, if_neg (by omega), Int.toNat_natCast]
  split
  · rfl
  · rename_i hends
    cases after with
    | nil => simp at hends
    | cons c after =>
      obtain ⟨first, rest, hc, hstarts⟩ := exists_encodeChar c
      rw [encode_append, ← length_encode, List.getElem?_append_right (Nat.le_refl _), Nat.sub_self,
        encode_cons, hc]
      exact hstarts

theorem isBoundary_of_splits {chars : List Char} {offset : Nat}
    (hsplits : SplitsCharacter chars offset) : isBoundary (encode chars) offset = false := by
  obtain ⟨before, c, after, rfl, hlow, hhigh⟩ := hsplits
  obtain ⟨inside, rfl⟩ := Nat.exists_eq_add_of_lt hlow
  have hinside : inside + 1 < (String.utf8EncodeChar c).length := by
    rw [String.length_utf8EncodeChar]
    omega
  have hbyte : (encode (before ++ c :: after))[byteLength before + inside + 1]? =
      some (String.utf8EncodeChar c)[inside + 1] := by
    rw [encode_append, List.getElem?_append_right (by rw [length_encode]; omega), length_encode,
      show byteLength before + inside + 1 - byteLength before = inside + 1 by omega, encode_cons,
      List.getElem?_append_left hinside, List.getElem?_eq_getElem hinside]
  have hends : ¬(byteLength before + inside + 1 == 0 ||
      byteLength before + inside + 1 == (encode (before ++ c :: after)).length) = true := by
    rw [length_encode, byteLength_append, byteLength_cons]
    simp
    omega
  have hcontinues : (String.utf8EncodeChar c)[inside + 1] &&& 0xc0 = 0x80 := by
    apply continues_of_mem_tail
    rw [← List.drop_one]
    exact List.mem_drop_iff_getElem.2 ⟨inside, by omega, by simp only [Nat.add_comm 1]⟩
  rw [isBoundary, if_neg (by omega), Int.toNat_natCast, if_neg hends, hbyte]
  simp [hcontinues]

/-- The boundaries of the bytes of a text are the places between its characters. -/
theorem isBoundary_encode_iff {chars : List Char} {offset : Int} :
    isBoundary (encode chars) offset = true ↔
      ∃ before after, chars = before ++ after ∧ offset = byteLength before := by
  constructor
  · intro hboundary
    by_cases hrange : 0 ≤ offset ∧ offset ≤ byteLength chars
    · obtain ⟨hnonneg, hle⟩ := hrange
      obtain ⟨offset, rfl⟩ := Int.eq_ofNat_of_zero_le hnonneg
      have hwithin : offset ≤ byteLength chars := Int.ofNat_le.1 hle
      obtain hsplits | ⟨before, after, hchars, rfl⟩ := splitsCharacter_or_exists hwithin
      · rw [isBoundary_of_splits hsplits] at hboundary
        cases hboundary
      · exact ⟨before, after, hchars, rfl⟩
    · rw [isBoundary] at hboundary
      split_ifs at hboundary with hneg hends
      · simp only [Bool.or_eq_true, beq_iff_eq, length_encode] at hends
        omega
      · rw [List.getElem?_eq_none (by rw [length_encode]; omega)] at hboundary
        cases hboundary
  · rintro ⟨before, after, rfl, rfl⟩
    exact isBoundary_of_append before after

theorem isBoundary_encode_iff_not_splits {chars : List Char} {offset : Int}
    (hlow : 0 ≤ offset) (hhigh : offset ≤ byteLength chars) :
    isBoundary (encode chars) offset = true ↔ ¬SplitsCharacter chars offset.toNat := by
  obtain ⟨offset, rfl⟩ := Int.eq_ofNat_of_zero_le hlow
  rw [Int.toNat_natCast, isBoundary_encode_iff]
  constructor
  · rintro ⟨before, after, hchars, hoffset⟩
    rw [Int.ofNat_inj.1 hoffset]
    exact not_splitsCharacter hchars
  · intro hsplits
    have hwithin : offset ≤ byteLength chars := Int.ofNat_le.1 hhigh
    obtain hinside | ⟨before, after, hchars, rfl⟩ := splitsCharacter_or_exists hwithin
    · exact absurd hinside hsplits
    · exact ⟨before, after, hchars, rfl⟩

/-! ## Decoding -/

/-- The bytes of a text decode to it. -/
theorem fromUTF8_encode (chars : List Char) :
    String.fromUTF8? (encode chars).toByteArray = some (String.ofList chars) := by
  have hbytes : (encode chars).toByteArray = (String.ofList chars).toByteArray := by
    rw [String.toByteArray_ofList]
    rfl
  rw [hbytes, String.fromUTF8?, dif_pos (String.ofList chars).isValidUTF8]
  rfl

/-! ## Lines -/

/-- Where the lines of some bytes start: at the first byte, whose position is given, and behind
every newline. -/
def lineTable (position : Nat) (bytes : List UInt8) : List Nat :=
  position :: ((bytes.zipIdx position).filter fun entry => entry.1 == 0x0a).map fun entry =>
    entry.2 + 1

/-- Only a newline has the byte of one. -/
theorem newline_mem_encodeChar_iff {c : Char} :
    (0x0a : UInt8) ∈ String.utf8EncodeChar c ↔ c = '\n' := by
  constructor
  · intro hbyte
    unfold String.utf8EncodeChar at hbyte
    dsimp only at hbyte
    split_ifs at hbyte
    all_goals
      simp only [List.mem_cons, List.not_mem_nil, or_false, ← UInt8.toNat_inj,
        UInt8.toNat_ofNat', UInt8.reduceToNat] at hbyte
    · apply Char.ext
      rw [← UInt32.toNat_inj]
      show c.val.toNat = 10
      omega
    all_goals omega
  · rintro rfl
    decide

/-- The lines of a text start where its bytes say. -/
theorem startsFrom_segments (position : Nat) (chars : List Char) :
    Syntax.Source.startsFrom position (segments chars) = lineTable position (encode chars) := by
  induction chars generalizing position with
  | nil => rfl
  | cons c chars ih =>
    have hlength := String.length_utf8EncodeChar c
    rw [lineTable, encode_cons, List.zipIdx_append, List.filter_append, List.map_append, hlength,
      segments]
    split
    · rename_i hnewline
      obtain rfl := beq_iff_eq.1 hnewline
      rw [Syntax.Source.startsFrom, ih]
      rfl
    · rename_i hother
      have hnone : ((String.utf8EncodeChar c).zipIdx position).filter
          (fun entry => entry.1 == 0x0a) = [] := by
        rw [List.filter_eq_nil_iff]
        intro entry hentry hbyte
        have hmem := List.fst_mem_of_mem_zipIdx hentry
        rw [beq_iff_eq.1 hbyte, newline_mem_encodeChar_iff] at hmem
        exact hother (beq_iff_eq.2 hmem)
      have hrest := ih (position + c.utf8Size)
      rw [hnone, List.map_nil, List.nil_append]
      cases hsegments : segments chars with
      | nil =>
        rw [hsegments] at hrest
        cases hrest
      | cons segment rest =>
        rw [hsegments, Syntax.Source.startsFrom, lineTable, List.cons.injEq] at hrest
        rw [consPiece, Syntax.Source.startsFrom, byteLength_cons, ← Nat.add_assoc, hrest.2]

end Galley.Text
