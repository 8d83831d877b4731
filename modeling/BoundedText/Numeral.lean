import BoundedText.Bytes

/-!
# Numerals

The text of an integer in a base from 2 to 36: digits and then letters in lower case, a minus sign
before a negative one, and no zeros in front. Integers are taken as 64-bit words.
-/

namespace BoundedText.Numeral

/-- The signed integer of a 64-bit word. -/
def wrapSigned (n : Int) : Int := n.bmod 0x10000000000000000

/-- The unsigned integer of a 64-bit word. -/
def wrapUnsigned (n : Int) : Nat := (n % 0x10000000000000000).toNat

/-- The signed integer that has no negative in 64 bits. -/
def mostNegative : Int := -0x8000000000000000

def digit (n : Nat) : UInt8 := UInt8.ofNat (if n < 10 then 0x30 + n else 0x61 + (n - 10))

/-- The values of the digits of a natural number in a base, first digit first. -/
def places (base n : Nat) : List Nat :=
  if n < base ∨ base < 2 then [n] else places base (n / base) ++ [n % base]
termination_by n
decreasing_by exact Nat.div_lt_self (by omega) (by omega)

def digits (base n : Nat) : Bytes := (places base n).map digit

def ofInt (base : Nat) (n : Int) : Bytes := (if n < 0 then [0x2D] else []) ++ digits base n.natAbs

end BoundedText.Numeral
