import Galley.Text.Quoted

/-!
# Bytes that are no text

Where bytes cease to be the UTF-8 form of a text, and why. The first byte of a
character decides how many others it has and within which bounds they lie, so
the first place that breaks these rules is found from left to right.
-/

namespace Galley.Text

/-- Why bytes are no character. -/
inductive DecodingReason
  /-- A byte that starts no character. -/
  | start
  /-- A byte out of the bounds of those that go on with a character. -/
  | continuation
  /-- The bytes end inside a character. -/
  | unfinished
  deriving DecidableEq, Repr

def DecodingReason.message : DecodingReason → String
  | start => "invalid start byte"
  | continuation => "invalid continuation byte"
  | unfinished => "unexpected end of data"

/-- The first bytes that are no character: the one that starts it, and those
that could still go on with it. -/
structure DecodingFault where
  position : Nat
  lead : UInt8
  followers : List UInt8
  reason : DecodingReason
  deriving DecidableEq, Repr

def DecodingFault.message (fault : DecodingFault) : String :=
  let place :=
    if fault.followers.isEmpty then
      let code := String.ofList (hexPadded 2 fault.lead.toNat)
      s!"byte 0x{code} in position {fault.position}"
    else s!"bytes in position {fault.position}-{fault.position + fault.followers.length}"
  s!"'utf-8' codec can't decode {place}: {fault.reason.message}"

/-- The bounds of the bytes that follow the first one of a character. -/
def followersOf (lead : UInt8) : Option (List (UInt8 × UInt8)) :=
  let other : UInt8 × UInt8 := (0x80, 0xbf)
  if lead < 0x80 then some []
  else if lead < 0xc2 then none
  else if lead < 0xe0 then some [other]
  else if lead = 0xe0 then some [(0xa0, 0xbf), other]
  else if lead = 0xed then some [(0x80, 0x9f), other]
  else if lead < 0xf0 then some [other, other]
  else if lead = 0xf0 then some [(0x90, 0xbf), other, other]
  else if lead < 0xf4 then some [other, other, other]
  else if lead = 0xf4 then some [(0x80, 0x8f), other, other]
  else none

/-- The bytes that keep within bounds one after the other, and why they do not
reach the last bound. -/
def keepBounds : List (UInt8 × UInt8) → List UInt8 → List UInt8 × Option DecodingReason
  | [], _ => ([], none)
  | _ :: _, [] => ([], some .unfinished)
  | (low, high) :: bounds, byte :: bytes =>
    if low ≤ byte && byte ≤ high then
      let (kept, reason) := keepBounds bounds bytes
      (byte :: kept, reason)
    else ([], some .continuation)

/-- Looks for the first fault behind the given position. The second argument
counts the bytes of a character that are still to be passed. -/
def decodingFaultFrom (position : Nat) : Nat → List UInt8 → Option DecodingFault
  | _, [] => none
  | skip + 1, _ :: bytes => decodingFaultFrom (position + 1) skip bytes
  | 0, lead :: bytes =>
    match followersOf lead with
    | none => some ⟨position, lead, [], .start⟩
    | some bounds =>
      match keepBounds bounds bytes with
      | (followers, some reason) => some ⟨position, lead, followers, reason⟩
      | (followers, none) => decodingFaultFrom (position + 1) followers.length bytes

/-- The first fault of bytes as a text. -/
def decodingFault? (bytes : List UInt8) : Option DecodingFault :=
  decodingFaultFrom 0 0 bytes

end Galley.Text
