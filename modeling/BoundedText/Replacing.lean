import BoundedText.Utf8

/-!
# Decoding with replacement

A second reading of UTF-8, the one used when bytes become a string. It takes the bytes one at a time and
holds what a lead byte announced until the sequence is complete. A byte that cannot carry on the sequence
puts one U+FFFD in its place and is read again as the first of the next one; so does the end of the bytes.
A byte order mark at the very start is left out.
-/

namespace BoundedText.Replacing

/-- A sequence that is not complete: the number its bits spell so far, how many bytes are missing after the
next one, and the bounds of the next one. -/
structure Pending where
  value : Nat
  more : Nat
  low : UInt8
  high : UInt8
deriving DecidableEq, Repr

/-- What a lead byte announces. The bounds of the byte after it leave out overlong forms, surrogates and
values past the last code point. -/
def announced (lead : UInt8) : Option Pending :=
  if 0xC2 ≤ lead ∧ lead ≤ 0xDF then some ⟨lead.toNat &&& 0x1F, 0, 0x80, 0xBF⟩
  else if 0xE0 ≤ lead ∧ lead ≤ 0xEF then
    some ⟨lead.toNat &&& 0x0F, 1, if lead = 0xE0 then 0xA0 else 0x80, if lead = 0xED then 0x9F else 0xBF⟩
  else if 0xF0 ≤ lead ∧ lead ≤ 0xF4 then
    some ⟨lead.toNat &&& 0x07, 2, if lead = 0xF0 then 0x90 else 0x80, if lead = 0xF4 then 0x8F else 0xBF⟩
  else none

/-- The code points that the first byte of a sequence gives, and the sequence it leaves incomplete. -/
def first (b : UInt8) : List Nat × Option Pending :=
  if b < 0x80 then ([b.toNat], none)
  else
    match announced b with
    | some pending => ([], some pending)
    | none => ([Utf8.replacement], none)

/-- The same for a byte after an incomplete sequence. -/
def Pending.next (pending : Pending) (b : UInt8) : List Nat × Option Pending :=
  if pending.low ≤ b ∧ b ≤ pending.high then
    let value := (pending.value <<< 6) ||| (b.toNat &&& 0x3F)
    match pending.more with
    | 0 => ([value], none)
    | more + 1 => ([], some ⟨value, more, 0x80, 0xBF⟩)
  else
    let (given, later) := first b
    (Utf8.replacement :: given, later)

/-- The code points of bytes that come after an incomplete sequence, or after none. -/
def codepointsAfter : Option Pending → Bytes → List Nat
  | none, [] => []
  | some _, [] => [Utf8.replacement]
  | none, b :: rest =>
    let (given, later) := first b
    given ++ codepointsAfter later rest
  | some pending, b :: rest =>
    let (given, later) := pending.next b
    given ++ codepointsAfter later rest

/-- The bytes without a byte order mark at their start. -/
def withoutMark : Bytes → Bytes
  | 0xEF :: 0xBB :: 0xBF :: rest => rest
  | bytes => bytes

end BoundedText.Replacing

namespace BoundedText

/-- The code points of the text from an offset on, decoded with replacement. -/
def decodeText (bytes : Bytes) (start : Nat) : List Nat :=
  Replacing.codepointsAfter none (Replacing.withoutMark (textOf (bytes.drop start)))

end BoundedText
