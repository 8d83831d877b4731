import BoundedText.Bytes

/-!
# UTF-8

The encoding of a code point and the decoding of the sequence at the head of a byte array. Decoding
accepts any bytes: a malformed sequence is read as U+FFFD and takes up its lead byte together with
the continuation bytes that follow it, so that a reader always moves on and never passes a NUL.
-/

namespace BoundedText.Utf8

def maxCodepoint : Nat := 0x10FFFF

/-- The code point that stands for what cannot be decoded. -/
def replacement : Nat := 0xFFFD

/-- The code points that UTF-16 keeps for its pairs. -/
def isSurrogate (c : Nat) : Bool := 0xD800 ≤ c && c ≤ 0xDFFF

/-- The code points that a text may hold. -/
def IsScalar (c : Nat) : Prop := c ≤ maxCodepoint ∧ isSurrogate c = false

instance (c : Nat) : Decidable (IsScalar c) := inferInstanceAs (Decidable (_ ∧ _))

/-- The number of bytes of an encoding, and zero for a number past the last code point. -/
def width (c : Nat) : Nat :=
  if c < 0x80 then 1
  else if c < 0x800 then 2
  else if c < 0x10000 then 3
  else if c ≤ maxCodepoint then 4
  else 0

/-- The width of an integer; a negative one has no encoding. -/
def widthOf (c : Int) : Nat := if c < 0 then 0 else width c.toNat

/-- A continuation byte with the low six bits of a number. -/
def trail (n : Nat) : UInt8 := UInt8.ofNat (0x80 ||| (n &&& 0x3F))

/-- The encoding of a code point. A number past the last code point is written with four bytes that
keep its low bits. -/
def encode (c : Nat) : Bytes :=
  if c < 0x80 then [UInt8.ofNat c]
  else if c < 0x800 then [UInt8.ofNat (0xC0 ||| (c >>> 6)), trail c]
  else if c < 0x10000 then [UInt8.ofNat (0xE0 ||| (c >>> 12)), trail (c >>> 6), trail c]
  else [UInt8.ofNat (0xF0 ||| (c >>> 18)), trail (c >>> 12), trail (c >>> 6), trail c]

/-- The encoding of an integer; a negative one is a single byte modulo 256. -/
def encodeOf (c : Int) : Bytes := if c < 0 then [byteOf c] else encode c.toNat

def encodeAll (codepoints : List Nat) : Bytes := codepoints.flatMap encode

/-- Writes a code point into an array; answers the array and the offset after what was written. -/
def put (array : Bytes) (offset c : Nat) : Bytes × Nat := (overwrite array offset (encode c), offset + (encode c).length)

/-- Writes code points into an array one after another. -/
def putAll (array : Bytes) (offset : Nat) (codepoints : List Nat) : Bytes × Nat :=
  codepoints.foldl (fun (array, offset) c => put array offset c) (array, offset)

/-- The bytes that continue a sequence: `10xxxxxx`. -/
def isContinuation (b : UInt8) : Bool := b &&& 0xC0 == 0x80

/-- The number of continuation bytes that a lead byte announces; none for a byte that leads nothing. -/
def trailCount (lead : UInt8) : Option Nat :=
  if 0xC2 ≤ lead ∧ lead ≤ 0xDF then some 1
  else if 0xE0 ≤ lead ∧ lead ≤ 0xEF then some 2
  else if 0xF0 ≤ lead ∧ lead ≤ 0xF4 then some 3
  else none

/-- A code point and the number of bytes it was read from. -/
structure Decoded where
  codepoint : Nat
  length : Nat
deriving DecidableEq, Repr

/-- The continuation bytes at the head of an array, at most as many as announced. -/
def continuations (announced : Nat) (rest : Bytes) : Bytes := (rest.take announced).takeWhile isContinuation

/-- The number that the payload bits of a sequence spell: those of the lead byte, then six of each
continuation byte. -/
def payload (lead : UInt8) (trails : Bytes) : Nat :=
  trails.foldl (fun value b => (value <<< 6) ||| (b.toNat &&& 0x3F)) (lead.toNat &&& (0x3F >>> trails.length))

/-- The least code point that needs a sequence of a length. -/
def leastOfLength : Nat → Nat
  | 2 => 0x80
  | 3 => 0x800
  | 4 => 0x10000
  | _ => 0

/-- Reads the sequence at the head of an array; none at the end of the text. Overlong forms,
surrogates and values past the last code point are malformed, as is a sequence that is cut short. -/
def decode : Bytes → Option Decoded
  | [] => none
  | lead :: rest =>
    if lead = 0 then none
    else if lead < 0x80 then some ⟨lead.toNat, 1⟩
    else
      match trailCount lead with
      | none => some ⟨replacement, 1⟩
      | some announced =>
        let trails := continuations announced rest
        let value := payload lead trails
        let length := trails.length + 1
        if trails.length = announced ∧ leastOfLength length ≤ value ∧ isSurrogate value = false ∧
            value ≤ maxCodepoint then
          some ⟨value, length⟩
        else some ⟨replacement, length⟩

theorem length_continuations_le (announced : Nat) (rest : Bytes) :
    (continuations announced rest).length ≤ rest.length :=
  Nat.le_trans (List.takeWhile_sublist _).length_le (List.length_take_le' ..)

/-- A sequence takes up at least one byte, and no more than there are. -/
theorem decode_length {bytes : Bytes} {d : Decoded} (found : decode bytes = some d) :
    0 < d.length ∧ d.length ≤ bytes.length := by
  cases bytes with
  | nil => simp [decode] at found
  | cons lead rest =>
    have short := fun n => length_continuations_le n rest
    simp only [decode] at found
    split at found
    · simp at found
    · split at found
      · cases found; simp
      · split at found
        · cases found; simp
        · rename_i announced _
          have := short announced
          split at found <;> cases found <;> simp <;> omega

end BoundedText.Utf8
