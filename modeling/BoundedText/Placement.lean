import BoundedText.Integers
import BoundedText.Margin

/-!
# Writing from the margin

A place to write that may lie before its buffer. A cursor writes there as it does elsewhere, but what
falls into the margin is lost.
-/

namespace BoundedText

/-- A buffer and the position where the next byte goes. -/
structure Placement where
  buffer : Bytes
  pos : Int
deriving DecidableEq, Repr

namespace Placement

/-- What a cursor does, done at a position. -/
def run {α : Type} (place : Placement) (write : Cursor → α × Cursor) : α × Placement :=
  let margin := Margin.width place.pos
  let (answer, after) := write ⟨Margin.behind place.buffer place.pos, place.pos.toNat⟩
  (answer, ⟨after.buffer.drop margin, Margin.positionOf place.pos after.pos⟩)

/-- Writes a NUL at the position, or over the last byte of the buffer when it is past the buffer. -/
def terminate (place : Placement) : Placement := (place.run (fun cursor => ((), cursor.terminate))).2

/-- Writes so many copies of a byte as fit; answers 1 when some did not. Two copies or more from the
margin on fill the buffer between the two positions as they count back from its end. -/
def appendFill (place : Placement) (ch count : Int) : Nat × Placement :=
  if 0 ≤ place.pos ∨ count < 2 then place.run (fun cursor => cursor.appendFill ch count)
  else
    let size := place.buffer.length
    let stop := min (place.pos + count) (size - 1)
    let first := Margin.fromEnd size place.pos
    let filling := List.replicate (Margin.fromEnd size stop - first) (byteOf ch)
    (if stop < place.pos + count then 1 else 0, ⟨overwrite place.buffer first filling, stop⟩)

/-- Writes a number in a base. The length of the destination may be given; it counts from the first byte
of the buffer. -/
def appendInteger (place : Placement) (value : Number) (base : Double) (length : Option Double) :
    (Nat × Option Diagnostic) × Placement :=
  place.run (fun cursor =>
    let (left, after, told) := cursor.appendInteger value base (length.map (·.plus (Margin.width place.pos)))
    ((left, told), after))

/-- The text written so far; from the margin the position counts back from the end of the buffer. -/
def text (place : Placement) : List Nat := decodeText (Margin.slice place.buffer 0 place.pos) 0

end Placement

end BoundedText
