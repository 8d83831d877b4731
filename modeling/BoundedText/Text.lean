import BoundedText.Replacing
import BoundedText.Utf16

/-!
# Texts

A text comes as a string or as bytes. As bytes a string is its UTF-8 encoding, and as a string bytes
are decoded with replacement up to their first NUL. A text that is not given is `none`; most readers
treat an empty string the same way, but not an empty byte array.
-/

namespace BoundedText

/-- A text in one of its two forms. -/
inductive Text where
  | string (units : Units)
  | bytes (array : Bytes)
deriving DecidableEq, Repr

namespace Text

/-- The bytes of a text: a string is encoded whole, bytes are taken as they are. -/
def toBytes : Text → Bytes
  | .string units => Utf16.toUtf8 units
  | .bytes array => array

/-- The string of a text: bytes are decoded up to their first NUL. -/
def toUnits : Text → Units
  | .string units => units
  | .bytes array => Utf16.ofCodepoints (decodeText array 0)

/-- The text if one is given at all; the empty string does not count. -/
def given : Option Text → Option Text
  | some (.string []) => none
  | text => text

def bytesOrEmpty (text : Option Text) : Bytes := (text.map toBytes).getD []

end Text

end BoundedText
