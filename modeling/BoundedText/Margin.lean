import BoundedText.ControlSpans
import BoundedText.NameList
import BoundedText.Search

/-!
# Positions before an array

A caller may name a position before the first byte of an array. Those positions are its margin, and
nothing is kept there. A reader that begins in the margin finds at each position a byte that begins no
sequence and is equal to no other, and comes to the array after them. Where a piece is cut out of an
array, a negative position counts back from the end instead.
-/

namespace BoundedText.Margin

/-- The number of positions of the margin from a position on. -/
def width (position : Int) : Nat := (-position).toNat

/-- An array behind its margin, which is filled with a byte that begins no sequence. -/
def behind (bytes : Bytes) (position : Int) : Bytes := List.replicate (width position) 0xFF ++ bytes

/-- The position of an offset into an array behind its margin. -/
def positionOf (start : Int) (offset : Nat) : Int := offset - width start

/-- The offset of a position; a negative one counts back from the end. -/
def fromEnd (size : Nat) (position : Int) : Nat := if position < 0 then (size + position).toNat else position.toNat

/-- A position in the array itself has no margin before it. -/
theorem behind_ofNat (bytes : Bytes) (position : Nat) : behind bytes position = bytes := by simp [behind, width]

/-! ## Pieces of an array -/

/-- The offset of the first NUL from a position on. -/
def textEnd (bytes : Bytes) (start : Int) : Nat := BoundedText.textEnd bytes (fromEnd bytes.length start)

/-- The code points of the text from a position on, decoded with replacement. -/
def decodeText (bytes : Bytes) (start : Int) : List Nat := BoundedText.decodeText bytes (fromEnd bytes.length start)

def slice (bytes : Bytes) (start stop : Int) : Bytes :=
  BoundedText.slice bytes (fromEnd bytes.length start) (fromEnd bytes.length stop)

/-! ## Readers -/

/-- A code point, the position of its first byte and the number of its bytes. -/
structure Step where
  codepoint : Nat
  position : Int
  length : Nat
deriving DecidableEq, Repr

def walk (bytes : Bytes) (start : Int) : List Step :=
  (BoundedText.walk (behind bytes start) start.toNat).map
    (fun step => ⟨step.codepoint, positionOf start step.offset, step.length⟩)

/-- What is left of an array behind its margin from a position on. -/
def rest (bytes : Bytes) (position : Int) : Bytes := (behind bytes position).drop position.toNat

def nextOffset (bytes : Bytes) (position : Int) : Int :=
  positionOf position (BoundedText.nextOffset (behind bytes position) position.toNat)

/-- The position of the first occurrence of a code point, or of the end of the text. -/
def seekCodepoint (bytes : Bytes) (codepoint : Int) (start : Int) : Int :=
  positionOf start (BoundedText.seekCodepoint (behind bytes start) codepoint start.toNat)

def skipSpan (bytes : Bytes) (position : Int) : Int :=
  positionOf position (BoundedText.skipSpan (behind bytes position) position.toNat)

/-- The position past white space. There is none in the margin. -/
def skipSpace (bytes : Bytes) (start : Int) : Int :=
  positionOf start (BoundedText.skipSpace (behind bytes start) start.toNat)

/-- The offset of the first byte of a value, or the end of the text. No byte of the margin has one. -/
def seekByte (bytes : Bytes) (ch : Int) (start : Int) : Nat := BoundedText.seekByte bytes ch start.toNat

/-- Reads the next name of a list from a position on. A name that begins in the margin holds a NUL for
each position of it. -/
def nextName (list : Bytes) (start : Int) : ListedName :=
  if 0 ≤ start then BoundedText.nextName list start.toNat
  else
    let name := nameAt false (textOf list)
    ⟨longText [List.replicate (width start) 0 ++ name], name.length⟩

/-! ## Writers -/

/-- An array with bytes written from a position on; those that fall into the margin are lost. -/
def overwrite (array : Bytes) (position : Int) (bytes : Bytes) : Bytes :=
  (BoundedText.overwrite (behind array position) position.toNat bytes).drop (width position)

end BoundedText.Margin
