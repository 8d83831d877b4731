import BoundedText.Walk

/-!
# Binary64 numbers

A number that a caller hands over is a binary64 value: not a number, an infinity, or a signed
mantissa times a power of two. Comparisons and roundings to whole numbers are exact.
-/

namespace BoundedText

/-- A binary64 value. A finite one is its mantissa times two to its exponent, with a sign. -/
inductive Double where
  | nan
  | infinite (negative : Bool)
  | finite (negative : Bool) (mantissa : Nat) (exponent : Int)
deriving DecidableEq, Repr

namespace Double

/-- The value of 64 bits: a sign, eleven bits of exponent and 52 bits of fraction. -/
def ofBits (bits : Nat) : Double :=
  let negative := bits / 0x8000000000000000 % 2 == 1
  let exponent : Nat := bits / 0x10000000000000 % 0x800
  let fraction : Nat := bits % 0x10000000000000
  if exponent = 2047 then if fraction = 0 then .infinite negative else .nan
  else if exponent = 0 then .finite negative fraction (-1074)
  else .finite negative (0x10000000000000 + fraction) ((exponent : Int) - 1075)

def zero : Double := .finite false 0 0

/-- An integer as a value. -/
def ofWhole (n : Int) : Double := .finite (n < 0) n.natAbs 0

instance : Coe Int Double := ⟨ofWhole⟩

/-- A natural number times a power of two, as a numerator and a denominator. -/
def ratio (mantissa : Nat) (exponent : Int) : Nat × Nat :=
  if 0 ≤ exponent then (mantissa * Nat.pow 2 exponent.toNat, 1) else (mantissa, Nat.pow 2 (-exponent).toNat)

def signed (negative : Bool) (n : Nat) : Int := if negative then -n else n

/-- The number rounded toward zero; none when it is not finite. -/
def trunc : Double → Option Int
  | .finite negative mantissa exponent =>
    let (num, den) := ratio mantissa exponent
    some (signed negative (num / den))
  | _ => none

/-- The largest integer that is not above the number. -/
def floor : Double → Option Int
  | .finite negative mantissa exponent =>
    let (num, den) := ratio mantissa exponent
    some (signed negative num / den)
  | _ => none

/-- The least integer that is not below the number. -/
def ceil : Double → Option Int
  | .finite negative mantissa exponent =>
    let (num, den) := ratio mantissa exponent
    some (-(-signed negative num / den))
  | _ => none

def lt (x : Double) (n : Int) : Bool :=
  match x with
  | .nan => false
  | .infinite negative => negative
  | x => x.floor.any (· < n)

def le (x : Double) (n : Int) : Bool :=
  match x with
  | .nan => false
  | .infinite negative => negative
  | x => x.ceil.any (· ≤ n)

def gt (x : Double) (n : Int) : Bool :=
  match x with
  | .nan => false
  | .infinite negative => !negative
  | x => x.ceil.any (n < ·)

/-- The smaller one of a number and an integer; not a number when the first is not. -/
def orLess (x : Double) (n : Int) : Double :=
  match x with
  | .nan => .nan
  | x => if x.lt n then x else n

/-- A number and an integer together, not rounded. -/
def plus (x : Double) (n : Int) : Double :=
  match x with
  | .finite negative mantissa exponent =>
    let (num, den) := ratio mantissa exponent
    let sum := signed negative num + n * den
    .finite (sum < 0) sum.natAbs (min exponent 0)
  | x => x

def isWhole (x : Double) : Bool := x.trunc.isSome && x.floor == x.ceil

/-- The sign of a number as -1, 0 or 1; not a number has none. -/
def sign : Double → Int
  | .nan => 0
  | .infinite negative => signed negative 1
  | .finite negative mantissa _ => if mantissa = 0 then 0 else signed negative 1

/-- How many items may be taken while a count that goes down from the number is above zero. -/
def limitUp : Double → Limit
  | .nan => .atMost 0
  | .infinite negative => if negative then .atMost 0 else .unlimited
  | x => .atMost ((x.ceil.getD 0).toNat)

/-- How many whole items a number allows. -/
def limitDown : Double → Limit
  | .nan => .atMost 0
  | .infinite negative => if negative then .atMost 0 else .unlimited
  | x => .atMost ((x.trunc.getD 0).toNat)

/-- The number of bytes in the encoding of a code point given as a number. -/
def utf8Width (x : Double) : Nat :=
  if x.lt 0 then 0
  else if x.lt 0x80 then 1
  else if x.lt 0x800 then 2
  else if x.lt 0x10000 then 3
  else if x.le Utf8.maxCodepoint then 4
  else 0

/-! ## Rounding and order -/

theorem signed_natAbs (n : Int) : signed (n < 0) n.natAbs = n := by
  by_cases negative : n < 0
  · simp only [signed, negative, decide_true, if_true]
    omega
  · simp only [signed, negative, decide_false, Bool.false_eq_true, if_false]
    omega

theorem floor_ofWhole (n : Int) : (ofWhole n).floor = some n := by simp [ofWhole, floor, ratio, signed_natAbs]

theorem ceil_ofWhole (n : Int) : (ofWhole n).ceil = some n := by simp [ofWhole, ceil, ratio, signed_natAbs]

theorem ratio_pos (mantissa : Nat) (exponent : Int) : 0 < (ratio mantissa exponent).2 := by
  rw [ratio]
  split
  · exact Nat.one_pos
  · exact Nat.two_pow_pos _

theorem orLess_eq {x : Double} (number : x ≠ .nan) (n : Int) : x.orLess n = if x.lt n then x else n := by
  cases x with
  | nan => exact absurd rfl number
  | infinite | finite => rfl

/-- A finite number lies between two integers that are at most one apart. -/
theorem rounded_finite (negative : Bool) (mantissa : Nat) (exponent : Int) :
    ∃ below above : Int, (finite negative mantissa exponent).floor = some below ∧
      (finite negative mantissa exponent).ceil = some above ∧ below ≤ above ∧ above ≤ below + 1 := by
  have positive : (0 : Int) < (ratio mantissa exponent).2 := Int.natCast_pos.2 (ratio_pos mantissa exponent)
  simp only [floor, ceil, Option.some.injEq, Int.neg_ediv, Int.sign_eq_one_of_pos positive]
  refine ⟨_, _, rfl, rfl, ?_⟩
  split <;> omega

theorem lt_iff {x : Double} {below : Int} (rounded : x.floor = some below) (n : Int) : x.lt n = true ↔ below < n := by
  cases x with
  | nan | infinite => cases rounded
  | finite => simp [lt, rounded]

theorem le_iff {x : Double} {above : Int} (rounded : x.ceil = some above) (n : Int) : x.le n = true ↔ above ≤ n := by
  cases x with
  | nan | infinite => cases rounded
  | finite => simp [le, rounded]

theorem gt_iff {x : Double} {above : Int} (rounded : x.ceil = some above) (n : Int) : x.gt n = true ↔ n < above := by
  cases x with
  | nan | infinite => cases rounded
  | finite => simp [gt, rounded]

theorem isWhole_iff {x : Double} {below above : Int} (down : x.floor = some below) (up : x.ceil = some above) :
    x.isWhole = true ↔ below = above := by
  cases x with
  | nan | infinite => cases down
  | finite => simp [isWhole, trunc, down, up]

end Double

/-- A number that a caller hands over: a binary64 value or an integer of any size. -/
inductive Number where
  | double (value : Double)
  | integer (value : Int)
deriving DecidableEq, Repr

namespace Number

/-- The number rounded toward zero; none when it is not finite. -/
def trunc : Number → Option Int
  | .double x => x.trunc
  | .integer n => some n

/-- The largest whole number below which every whole number is a binary64 value. -/
def maxSafe : Int := 0x1FFFFFFFFFFFFF

/-- The number as a size: a whole binary64 value of at least one and at most `maxSafe`. -/
def asSize : Number → Option Nat
  | .double x =>
    match x.trunc with
    | some n => if x.isWhole ∧ 1 ≤ n ∧ n ≤ maxSafe then some n.toNat else none
    | none => none
  | .integer _ => none

end Number

end BoundedText
