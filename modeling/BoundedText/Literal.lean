import BoundedText.Shortest

/-!
# Reading numbers

Three readings of a text as a number. `number` wants the whole text to be a literal, `leadingReal`
and `leadingInteger` take the longest literal at its start. Blanks around a literal do not count, and
what is no literal is not a number.
-/

namespace BoundedText.Literal

/-- Spaces, tabs and line ends of any script. -/
def isBlank (u : UInt16) : Bool :=
  (0x09 ≤ u && u ≤ 0x0D) || u == 0x20 || u == 0xA0 || u == 0x1680 || (0x2000 ≤ u && u ≤ 0x200A) ||
    u == 0x2028 || u == 0x2029 || u == 0x202F || u == 0x205F || u == 0x3000 || u == 0xFEFF

def trimStart (text : Units) : Units := text.dropWhile isBlank

def trim (text : Units) : Units := (trimStart (trimStart text).reverse).reverse

def digitValue (u : UInt16) : Option Nat :=
  if 0x30 ≤ u ∧ u ≤ 0x39 then some (u.toNat - 0x30)
  else if 0x61 ≤ u ∧ u ≤ 0x7A then some (u.toNat - 0x61 + 10)
  else if 0x41 ≤ u ∧ u ≤ 0x5A then some (u.toNat - 0x41 + 10)
  else none

/-- The digits of a base at the start of a text, and what follows them. -/
def digits (base : Nat) : Units → List Nat × Units
  | [] => ([], [])
  | u :: text =>
    match digitValue u with
    | some d =>
      if d < base then
        let (more, rest) := digits base text
        (d :: more, rest)
      else ([], u :: text)
    | none => ([], u :: text)

def valueOf (base : Nat) (digits : List Nat) : Nat := digits.foldl (fun value d => value * base + d) 0

/-- Whether a text begins with a minus sign, and what follows a sign. -/
def signOf : Units → Bool × Units
  | 0x2D :: rest => (true, rest)
  | 0x2B :: rest => (false, rest)
  | text => (false, text)

/-- The exponent after a decimal number, when one is there, and what follows. -/
def exponentOf (text : Units) : Int × Units :=
  match text with
  | u :: rest =>
    if u = 0x65 ∨ u = 0x45 then
      let (negative, rest) := signOf rest
      match digits 10 rest with
      | ([], _) => (0, text)
      | (found, rest) => (Double.signed negative (valueOf 10 found), rest)
    else (0, text)
  | [] => (0, text)

/-- The digits after a decimal point, when one is there, and what follows. -/
def fractionOf : Units → List Nat × Units
  | 0x2E :: rest => digits 10 rest
  | text => ([], text)

/-- The decimal literal at the start of a text, and what follows it. -/
def decimal (text : Units) : Option (Double × Units) :=
  let (negative, body) := signOf text
  let infinity := unitsOf "Infinity"
  if body.take infinity.length = infinity then some (.infinite negative, body.drop infinity.length)
  else
    let (whole, rest) := digits 10 body
    let (fraction, rest) := fractionOf rest
    if whole.isEmpty ∧ fraction.isEmpty then none
    else
      let (exponent, rest) := exponentOf rest
      some (.ofDecimal negative (valueOf 10 (whole ++ fraction)) (exponent - fraction.length), rest)

/-- The base that the start of an unsigned literal announces, and what follows. -/
def radixOf : Units → Option (Nat × Units)
  | 0x30 :: mark :: rest =>
    if mark = 0x78 ∨ mark = 0x58 then some (16, rest)
    else if mark = 0x6F ∨ mark = 0x4F then some (8, rest)
    else if mark = 0x62 ∨ mark = 0x42 then some (2, rest)
    else none
  | _ => none

/-- The number that a whole text is a literal of; an empty one is zero. -/
def number (text : Units) : Double :=
  let text := trim text
  if text.isEmpty then .zero
  else
    match radixOf text with
    | some (base, rest) =>
      match digits base rest with
      | (found@(_ :: _), []) => .ofRatio false (valueOf base found) 1
      | _ => .nan
    | none =>
      match decimal text with
      | some (value, []) => value
      | _ => .nan

/-- The real number at the start of a text. -/
def leadingReal (text : Units) : Double :=
  match decimal (trimStart text) with
  | some (value, _) => value
  | none => .nan

/-- The whole number at the start of a text, in decimal or after `0x` in hexadecimal. -/
def leadingInteger (text : Units) : Double :=
  let (negative, body) := signOf (trimStart text)
  let (base, body) :=
    match radixOf body with
    | some (16, rest) => (16, rest)
    | _ => (10, body)
  match digits base body with
  | ([], _) => .nan
  | (found, _) => .ofRatio negative (valueOf base found) 1

end BoundedText.Literal
