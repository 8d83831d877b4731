import BoundedText.Double

/-!
# Rounding to binary64

The binary64 value nearest to a ratio of natural numbers, ties to the even mantissa, and the
quotient and remainder of two values that are built on it.
-/

namespace BoundedText.Double

/-- The natural number nearest to a ratio, a half going to the even neighbour. -/
def roundHalfEven (num den : Nat) : Nat :=
  let down := num / den
  let twice := 2 * (num % den)
  if twice < den ∨ (twice = den ∧ down % 2 = 0) then down else down + 1

/-- The exponent of the power of two that is at or next below a positive ratio. -/
def binaryExponent (num den : Nat) : Int :=
  let guess : Int := (num.log2 : Int) - den.log2
  let (scaledNum, scaledDen) :=
    if 0 ≤ guess then (num, den * Nat.pow 2 guess.toNat) else (num * Nat.pow 2 (-guess).toNat, den)
  if scaledNum < scaledDen then guess - 1 else guess

/-- The value nearest to a ratio. -/
def ofRatio (negative : Bool) (num den : Nat) : Double :=
  if num = 0 then .finite negative 0 0
  else
    let place := max (binaryExponent num den - 52) (-1074)
    let mantissa :=
      if 0 ≤ place then roundHalfEven num (den * Nat.pow 2 place.toNat)
      else roundHalfEven (num * Nat.pow 2 (-place).toNat) den
    let (mantissa, place) := if mantissa = 0x20000000000000 then (0x10000000000000, place + 1) else (mantissa, place)
    if 971 < place then .infinite negative else .finite negative mantissa place

/-- The value nearest to an integer. -/
def ofInt (n : Int) : Double := ofRatio (n < 0) n.natAbs 1

/-- The value nearest to a decimal number. One far outside the range is not worked out. -/
def ofDecimal (negative : Bool) (digits : Nat) (exponent : Int) : Double :=
  if digits = 0 then .finite negative 0 0
  else
    let places := exponent + (digits.log2 * 30103 / 100000 : Nat)
    if 400 < places then .infinite negative
    else if places < -400 then .finite negative 0 0
    else if 0 ≤ exponent then ofRatio negative (digits * Nat.pow 10 exponent.toNat) 1
    else ofRatio negative digits (Nat.pow 10 (-exponent).toNat)

/-- The quotient of two finite values, the second not zero. -/
def quotient (negative : Bool) (m : Nat) (e : Int) (n : Nat) (f : Int) : Double :=
  let (num, den) := ratio m (e - f)
  ofRatio negative num (den * n)

/-- The value nearest to a mantissa times a power of two. -/
def ofScaled (negative : Bool) (mantissa : Nat) (exponent : Int) : Double :=
  let (num, den) := ratio mantissa exponent
  ofRatio negative num den

/-- A quotient and the remainder beside it. -/
structure QuotRem where
  quot : Double
  rem : Double

/-- The truncating quotient and the remainder, which has the sign of the dividend. Each of the three
steps rounds: the remainder, the dividend less the remainder, and that over the divisor. -/
def divMod : Double → Double → QuotRem
  | .finite negative m e, .finite negative₂ n f =>
    if n = 0 then ⟨.nan, .nan⟩
    else
      let place := min e f
      let dividend := m * Nat.pow 2 (e - place).toNat
      let divisor := n * Nat.pow 2 (f - place).toNat
      let rest := dividend % divisor
      let quot :=
        match ofScaled negative (dividend - rest) place with
        | .finite negative m e => quotient (negative != negative₂) m e n f
        | .infinite negative => .infinite (negative != negative₂)
        | .nan => .nan
      ⟨quot, ofScaled negative rest place⟩
  | .finite negative m e, .infinite negative₂ => ⟨.finite (negative != negative₂) 0 0, .finite negative m e⟩
  | _, _ => ⟨.nan, .nan⟩

end BoundedText.Double
