import BoundedText.Text
import BoundedText.Walk

/-!
# Latin-1 letters

Every Latin-1 letter but two has its other case among the first 256 code points. Bytes are mapped one
by one whatever their encoding; a string is mapped unit by unit, units past U+00FF are kept, and the
result is encoded as UTF-8.
-/

namespace BoundedText.Latin1

/-- The small letters that have a capital: `a` to `z`, and `à` to `þ` without the division sign. -/
def isLower (b : UInt8) : Bool := (0x61 ≤ b && b ≤ 0x7A) || (0xE0 ≤ b && b ≤ 0xFE && b != 0xF7)

/-- The capital letters: `A` to `Z`, and `À` to `Þ` without the multiplication sign. -/
def isUpper (b : UInt8) : Bool := (0x41 ≤ b && b ≤ 0x5A) || (0xC0 ≤ b && b ≤ 0xDE && b != 0xD7)

/-- The capital of a small letter; other bytes are kept. -/
def toUpper (b : UInt8) : UInt8 := if isLower b then b - 0x20 else b

/-- The small letter of a capital; other bytes are kept. -/
def toLower (b : UInt8) : UInt8 := if isUpper b then b + 0x20 else b

/-- What is done to the first character of a text, and what to the others. -/
structure Mapping where
  first : UInt8 → UInt8
  rest : UInt8 → UInt8

namespace Mapping

def upper : Mapping := ⟨toUpper, toUpper⟩
def lower : Mapping := ⟨toLower, toLower⟩

/-- A capital first and small letters after it. -/
def initial : Mapping := ⟨toUpper, toLower⟩

def mapBytes (mapping : Mapping) (bytes : Bytes) : Bytes :=
  match textOf bytes with
  | [] => []
  | b :: rest => mapping.first b :: rest.map mapping.rest

/-- A unit, mapped when it is a Latin-1 character. -/
def onUnit (letter : UInt8 → UInt8) (u : UInt16) : UInt16 :=
  if u ≤ 0xFF then (letter (UInt8.ofNat u.toNat)).toUInt16 else u

/-- A string up to its first NUL, mapped. -/
def mapUnits (mapping : Mapping) (units : Units) : Units :=
  match units.takeWhile (· != 0) with
  | [] => []
  | u :: rest => onUnit mapping.first u :: rest.map (onUnit mapping.rest)

def map (mapping : Mapping) : Option Text → Bytes
  | none => []
  | some (.string units) => Utf16.toUtf8 (mapping.mapUnits units)
  | some (.bytes bytes) => mapping.mapBytes bytes

/-- An array with its text mapped where it stands. -/
def mapInPlace (mapping : Mapping) (bytes : Bytes) : Bytes := overwrite bytes 0 (mapping.mapBytes bytes)

end Mapping

/-- The last offset up to a limit where no sequence is cut in two. -/
def boundary (bytes : Bytes) : Nat → Nat
  | 0 => 0
  | offset + 1 => if bytes[offset + 1]?.any Utf8.isContinuation then boundary bytes offset else offset + 1

end BoundedText.Latin1

namespace BoundedText

/-- Ends the text of an array with a NUL at an offset; answers the text and the array. -/
def endText (array : Bytes) (offset : Nat) : Bytes × Bytes :=
  let ended := overwrite array offset [0]
  (ended.take offset, ended)

/-- A text written at the start of an array and ended with a NUL: the text and the array. -/
def placeText (text array : Bytes) : Bytes × Bytes := endText (overwrite array 0 text) text.length

/-- A mapped text written into an array as far as it fits with its NUL. A string is not cut inside a
code point. -/
def Latin1.Mapping.mapInto (mapping : Latin1.Mapping) (text : Option Text) (array : Bytes) : Bytes × Bytes :=
  if array = [] then ([], [])
  else
    let mapped := mapping.map text
    let fitting := min mapped.length (array.length - 1)
    let stop :=
      match text with
      | some (.string _) => Latin1.boundary mapped fitting
      | _ => fitting
    placeText (mapped.take stop) array

/-- A text copied into an array as far as it fits with its NUL. -/
def copyInto (text : Option Text) (array : Bytes) : Bytes × Bytes :=
  match text with
  | none => ([], array)
  | some text => if array = [] then ([], []) else placeText ((textOf text.toBytes).take (array.length - 1)) array

end BoundedText
