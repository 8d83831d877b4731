import BoundedText.Utf8

/-!
# UTF-16

A string is a list of UTF-16 code units. Two surrogates in order make one code point; a surrogate
that stands alone is kept as itself, and is encoded to UTF-8 as U+FFFD.
-/

namespace BoundedText

/-- A string of UTF-16 code units. -/
abbrev Units := List UInt16

namespace Utf16

def isHigh (u : UInt16) : Bool := 0xD800 ≤ u && u ≤ 0xDBFF
def isLow (u : UInt16) : Bool := 0xDC00 ≤ u && u ≤ 0xDFFF

/-- The code point of a pair of surrogates. -/
def combine (high low : UInt16) : Nat := 0x10000 + (high.toNat - 0xD800) * 0x400 + (low.toNat - 0xDC00)

/-- The code points of a string, surrogates that stand alone among them. -/
def codepoints : Units → List Nat
  | [] => []
  | [u] => [u.toNat]
  | high :: low :: rest =>
    if isHigh high ∧ isLow low then combine high low :: codepoints rest
    else high.toNat :: codepoints (low :: rest)

/-- The units of a code point: two past U+FFFF. -/
def ofCodepoint (c : Nat) : Units :=
  if c < 0x10000 then [UInt16.ofNat c]
  else [UInt16.ofNat (0xD800 + (c - 0x10000) / 0x400), UInt16.ofNat (0xDC00 + (c - 0x10000) % 0x400)]

def ofCodepoints (codepoints : List Nat) : Units := codepoints.flatMap ofCodepoint

/-- The code point written for one that may be a surrogate. -/
def scalarOf (c : Nat) : Nat := if Utf8.isSurrogate c then Utf8.replacement else c

def toUtf8 (units : Units) : Bytes := Utf8.encodeAll ((codepoints units).map scalarOf)

end Utf16

def unitsOf (literal : String) : Units := Utf16.ofCodepoints (literal.toList.map Char.toNat)

end BoundedText
