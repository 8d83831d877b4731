import BoundedText.Characters
import BoundedText.Double
import BoundedText.Text

/-!
# Order of texts

Texts are ordered by their bytes, by their code points after a case folding, or by a collator. Every
comparison answers -1, 0 or 1.
-/

namespace BoundedText

/-- A collator compares two strings: the sign of what it answers is their order. -/
abbrev Collator := Units → Units → Double

def signOf (n : Int) : Int := if n < 0 then -1 else if 0 < n then 1 else 0

/-- The order of two lists of numbers, item by item; a list that runs out comes first. -/
def compareLists : List Nat → List Nat → Int
  | [], [] => 0
  | [], _ :: _ => -1
  | _ :: _, [] => 1
  | a :: as, b :: bs => if a < b then -1 else if b < a then 1 else compareLists as bs

/-- The bytes that a text is compared by: a string is encoded whole, an array up to its first NUL. -/
def comparedBytes : Text → Bytes
  | .string units => Utf16.toUtf8 units
  | .bytes array => textOf array

def compareBytes (a b : Text) : Int :=
  compareLists ((comparedBytes a).map UInt8.toNat) ((comparedBytes b).map UInt8.toNat)

def compareUnits (a b : Units) : Int := compareLists (Utf16.codepoints a) (Utf16.codepoints b)

/-- A way to put a string into capitals, and one into small letters. -/
structure Letters where
  capitals : Units → Units
  small : Units → Units

/-- A string without regard to case: in capitals first and then in small letters. -/
def Letters.fold (letters : Letters) (units : Units) : Units := letters.small (letters.capitals units)

def compareFolded (letters : Letters) (a b : Text) : Int :=
  compareUnits (letters.fold a.toUnits) (letters.fold b.toUnits)

def firstCodepoints (limit : Limit) (units : Units) : Units :=
  Utf16.ofCodepoints (limit.take (Utf16.codepoints units))

def compareFoldedFirst (letters : Letters) (limit : Limit) (a b : Text) : Int :=
  compareUnits (letters.fold (firstCodepoints limit a.toUnits)) (letters.fold (firstCodepoints limit b.toUnits))

/-- The order of two texts by a collator. -/
def compareCollated (collator : Collator) (a b : Text) : Int := (collator a.toUnits b.toUnits).sign

/-- A letter without regard to case. -/
def letterKey (u : UInt16) : Nat := if Characters.isUpper u.toNat then u.toNat + 0x20 else u.toNat

/-- The order of the first two characters that differ in case: the small letter first. -/
def compareCase : Units → Units → Int
  | a :: as, b :: bs => if a = b then compareCase as bs else if Characters.isLower a.toNat then -1 else 1
  | _, _ => 0

/-- The order of a dictionary: case does not count unless all else is equal, and digits come before
letters. -/
def dictionary : Collator := fun a b =>
  let primary := compareLists (a.map letterKey) (b.map letterKey)
  let order := if primary = 0 then compareCase a b else primary
  .finite (order < 0) order.natAbs 0

/-- The collator that compares the numbers of units. -/
def byLength : Collator := fun a b =>
  let difference : Int := (a.length : Int) - b.length
  .finite (difference < 0) difference.natAbs 0

end BoundedText
