import BoundedText.Numeral
import BoundedText.Rounding
import BoundedText.Utf16

/-!
# The text of a number

A number is written with the fewest decimal digits that read back as the same binary64 value, and of
those the nearest ones. The decimal point is written out while it lies within 21 digits of the first
one or at most six zeros before it; other numbers have an exponent.
-/

namespace BoundedText.Shortest

/-- A decimal number `0.d₁d₂…dₖ · 10^point`, without zeros at its end. -/
structure Decimal where
  digits : List Nat
  point : Int
deriving DecidableEq, Repr

/-- The reals that round to a positive value, in units of a power of two: the value, the two ends,
and whether the ends belong to them. Below a power of two the neighbour is half as far. -/
structure Interval where
  value : Nat
  low : Nat
  high : Nat
  closed : Bool
  unit : Int

/-- The interval of a mantissa times a power of two. -/
def intervalOf (mantissa : Nat) (exponent : Int) : Interval where
  value := 4 * mantissa
  low := if mantissa = 0x10000000000000 ∧ -1074 < exponent then 4 * mantissa - 1 else 4 * mantissa - 2
  high := 4 * mantissa + 2
  closed := mantissa % 2 == 0
  unit := exponent - 2

def powerOfTen (exponent : Int) : Nat × Nat :=
  if 0 ≤ exponent then (Nat.pow 10 exponent.toNat, 1) else (1, Nat.pow 10 (-exponent).toNat)

/-- The least power of ten above a positive ratio, looked for upward from a guess. -/
def pointFrom (num den : Nat) : Nat → Int → Int
  | 0, guess => guess
  | budget + 1, guess =>
    let (up, down) := powerOfTen guess
    if num * down < den * up then guess else pointFrom num den budget (guess + 1)

/-- The decimal point of a positive ratio: `10^(point-1) ≤ num/den < 10^point`. -/
def pointOf (num den : Nat) : Int :=
  pointFrom num den 5 ((Double.binaryExponent num den) * 30103 / 100000 - 1)

/-- The nearest of the two neighbours of a value on the grid of a power of ten that round to it. -/
def onGrid (interval : Interval) (grid : Int) : Option Nat :=
  let (unitNum, unitDen) := Double.ratio 1 interval.unit
  let (gridNum, gridDen) := powerOfTen grid
  let step := gridNum * unitDen
  let scale := unitNum * gridDen
  let inside := fun d =>
    if interval.closed then interval.low * scale ≤ d * step ∧ d * step ≤ interval.high * scale
    else interval.low * scale < d * step ∧ d * step < interval.high * scale
  let value := interval.value * scale
  let down := value / step
  let up := down + 1
  let below := value - down * step
  let above := up * step - value
  if inside down ∧ (below < above ∨ (below = above ∧ down % 2 = 0) ∨ ¬ inside up) then some down
  else if inside up then some up
  else none

/-- The digits on the first grid that holds a decimal number of the value, finer grid by finer. -/
def search (interval : Interval) (point : Int) : Nat → Nat → Nat × Int
  | 0, _ => (0, 0)
  | budget + 1, count =>
    let grid := point - count
    match onGrid interval grid with
    | some digits => (digits, grid)
    | none => search interval point budget (count + 1)

/-- The shortest decimal number of a positive value. -/
def decimalOf (mantissa : Nat) (exponent : Int) : Decimal :=
  let interval := intervalOf mantissa exponent
  let (num, den) := Double.ratio mantissa exponent
  let (digits, grid) := search interval (pointOf num den) 17 1
  let written := Numeral.places 10 digits
  ⟨(written.reverse.dropWhile (· == 0)).reverse, grid + written.length⟩

end BoundedText.Shortest

namespace BoundedText

def digitUnits (digits : List Nat) : Units := digits.map (fun d => (Numeral.digit d).toUInt16)

def integerUnits (n : Int) : Units := (Numeral.ofInt 10 n).map UInt8.toUInt16

/-- The text of a decimal number: written out from 10^-7 up to 10^21, with an exponent otherwise. -/
def Shortest.Decimal.text (decimal : Shortest.Decimal) : Units :=
  let count : Int := decimal.digits.length
  let zeros := fun n : Int => digitUnits (List.replicate n.toNat 0)
  let point := decimal.point
  if count ≤ point ∧ point ≤ 21 then digitUnits decimal.digits ++ zeros (point - count)
  else if 0 < point ∧ point ≤ 21 then
    digitUnits (decimal.digits.take point.toNat) ++ unitsOf "." ++ digitUnits (decimal.digits.drop point.toNat)
  else if -6 < point ∧ point ≤ 0 then unitsOf "0." ++ zeros (-point) ++ digitUnits decimal.digits
  else
    let fraction := decimal.digits.drop 1
    digitUnits (decimal.digits.take 1) ++ (if fraction.isEmpty then [] else unitsOf "." ++ digitUnits fraction)
      ++ unitsOf "e" ++ (if 0 < point then unitsOf "+" else []) ++ integerUnits (point - 1)

/-- The text of a number; both zeros are `0`. -/
def Double.text : Double → Units
  | .nan => unitsOf "NaN"
  | .infinite negative => unitsOf (if negative then "-Infinity" else "Infinity")
  | .finite negative mantissa exponent =>
    if mantissa = 0 then unitsOf "0"
    else (if negative then unitsOf "-" else []) ++ (Shortest.decimalOf mantissa exponent).text

end BoundedText
