import BoundedText.Cursor

/-!
# Writing integers

Integers are written as numerals of 64-bit words, as far as they fit. The most negative word has no
positive counterpart; it is written only in the three bases whose text for it is fixed.
-/

namespace BoundedText

/-- The base that a number stands for: rounded toward zero and kept between 2 and 36. -/
def clampBase (base : Double) : Nat :=
  match base with
  | .nan => 2
  | .infinite negative => if negative then 2 else 36
  | base => (max 2 (min 36 (base.trunc.getD 2))).toNat

/-- The text of the most negative word in the bases that have one: its decimal numeral, and its bits
in hexadecimal and octal. -/
def mostNegativeText (base : Nat) : Option Bytes :=
  if base = 10 then some (Numeral.ofInt 10 Numeral.mostNegative)
  else if base = 16 ∨ base = 8 then some (Numeral.digits base (Numeral.wrapUnsigned Numeral.mostNegative))
  else none

/-- What is told when the most negative word is asked for in another base. -/
def unsupportedBase (base : Nat) : Diagnostic :=
  ⟨.unsupportedIntegerBase, "Cannot render the most negative 64-bit integer in base " ++ toString base⟩

namespace Cursor

/-- Whether a destination of a length is full at a position. One whose length is not a number never is. -/
def isFull (length : Double) (pos : Nat) : Bool := length.le (pos + 1 : Nat)

/-- Writes bytes one at a time until the destination is full; answers 1 when some were left. -/
def appendBelow (length : Double) (cursor : Cursor) : Bytes → Nat × Cursor
  | [] => (0, cursor)
  | b :: rest => if isFull length cursor.pos then (1, cursor) else appendBelow length (cursor.write [b]) rest

/-- Writes a numeral into a destination as far as it fits; answers 1 when some of it did not. One that
leaves a byte to spare is written at once. -/
def appendNumeral (cursor : Cursor) (length : Double) (numeral : Bytes) : Nat × Cursor :=
  if length.gt (cursor.pos + numeral.length + 2 : Nat) then (0, cursor.write numeral)
  else cursor.appendBelow length numeral

/-- The length of a destination: that of the buffer, or the one that is given when it is less. -/
def destination (capacity : Nat) : Option Double → Double
  | none => (capacity : Int)
  | some length => length.orLess capacity

/-- Writes a number in a base. The length of the destination may be given. A number that is not finite is
refused, as is any number when the destination is full. -/
def appendInteger (cursor : Cursor) (value : Number) (base : Double) (length : Option Double) :
    Nat × Cursor × Option Diagnostic :=
  let length := destination cursor.buffer.length length
  if isFull length cursor.pos then (1, cursor, none)
  else
    match value.trunc with
    | none => (1, cursor, none)
    | some n =>
      let base := clampBase base
      let word := Numeral.wrapSigned n
      if word = Numeral.mostNegative then
        match mostNegativeText base with
        | some text =>
          let (left, after) := cursor.append text
          (left, after, none)
        | none => (0, cursor, some (unsupportedBase base))
      else
        let (left, after) := cursor.appendNumeral length (Numeral.ofInt base word)
        (left, after, none)

def appendSigned (cursor : Cursor) (value : Number) : Nat × Cursor :=
  let (left, after, _) := cursor.appendInteger value (.ofInt 10) none
  (left, after)

/-- Writes a number in decimal without a sign and answers how many digits did not fit. -/
def appendUnsigned (cursor : Cursor) (value : Number) : Nat × Cursor :=
  match value.trunc with
  | none => (1, cursor)
  | some n => cursor.appendSome (Numeral.digits 10 (Numeral.wrapUnsigned n))

/-- Writes the reference to an object, `#` and its number; when it does not fit the cursor goes back. -/
def appendReference (cursor : Cursor) (value : Number) : Nat × Cursor :=
  let (left, after) := cursor.appendInTurn [(appendByte · 0x23), (appendSigned · value)]
  if left = 0 then (0, after) else (1, { after with pos := cursor.pos })

end Cursor

end BoundedText
