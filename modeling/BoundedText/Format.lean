import BoundedText.Literal

/-!
# Formatted text

A format is a text in which directives stand for arguments. Each directive takes the next argument
and writes it in its own way; a directive that is not known, or that has no argument left, stays as
it is written. Arguments that no directive took follow the text, each after a space.
-/

namespace BoundedText.Format

inductive Argument where
  | string (units : Units)
  | number (value : Double)
  | integer (value : Int)
  | boolean (value : Bool)
  | null
  | undefined
deriving DecidableEq, Repr

/-- The ways to write an argument, each named by a letter. -/
inductive Directive where
  /-- Letter `s`: the text of the argument. -/
  | text
  /-- Letter `d`: the argument as a number. -/
  | number
  /-- Letter `i`: the whole number at the start of its text. -/
  | whole
  /-- Letter `f`: the real number at the start of its text. -/
  | real
  /-- Letter `j`: the argument as a data literal. -/
  | literal
  /-- Letter `c`: nothing. -/
  | nothing
deriving DecidableEq, Repr

/-- The directive that a letter names. -/
def Directive.ofUnit (u : UInt16) : Option Directive :=
  if u = 0x73 then some .text
  else if u = 0x64 then some .number
  else if u = 0x69 then some .whole
  else if u = 0x66 then some .real
  else if u = 0x6A then some .literal
  else if u = 0x63 then some .nothing
  else none

/-- The percent sign, which opens a directive and is written twice to stand for itself. -/
def percent : UInt16 := 0x25

/-- The text of a number that tells a negative zero from zero. -/
def signedText (x : Double) : Units :=
  match x with
  | .finite true 0 _ => unitsOf "-0"
  | x => x.text

/-- The text of an integer of any size, marked with an `n`. -/
def integerText (n : Int) : Units := integerUnits n ++ unitsOf "n"

def booleanText (b : Bool) : Units := unitsOf (if b then "true" else "false")

namespace Argument

/-- The text of an argument as it is shown. -/
def shown : Argument → Units
  | .string units => units
  | .number value => signedText value
  | .integer value => integerText value
  | .boolean value => booleanText value
  | .null => unitsOf "null"
  | .undefined => unitsOf "undefined"

/-- The plain text of an argument, from which leading numbers are read. -/
def plain : Argument → Units
  | .number value => value.text
  | .integer value => integerUnits value
  | argument => argument.shown

def toNumber : Argument → Double
  | .string units => Literal.number units
  | .number value => value
  | .integer value => .ofInt value
  | .boolean value => .ofInt (if value then 1 else 0)
  | .null => .zero
  | .undefined => .nan

end Argument

/-- The escape of a unit by its number. -/
def escapedUnit (u : UInt16) : Units :=
  unitsOf "\\u" ++ digitUnits [u.toNat / 0x1000, u.toNat / 0x100 % 16, u.toNat / 0x10 % 16, u.toNat % 16]

def quotedUnit (u : UInt16) : Units :=
  if u = 0x22 then unitsOf "\\\""
  else if u = 0x5C then unitsOf "\\\\"
  else if u = 0x08 then unitsOf "\\b"
  else if u = 0x09 then unitsOf "\\t"
  else if u = 0x0A then unitsOf "\\n"
  else if u = 0x0C then unitsOf "\\f"
  else if u = 0x0D then unitsOf "\\r"
  else if u < 0x20 then escapedUnit u
  else [u]

/-- The inside of a quoted string: surrogates that stand alone are escaped. -/
def quotedUnits : Units → Units
  | [] => []
  | [u] => if Utf16.isHigh u ∨ Utf16.isLow u then escapedUnit u else quotedUnit u
  | high :: low :: rest =>
    if Utf16.isHigh high ∧ Utf16.isLow low then high :: low :: quotedUnits rest
    else
      (if Utf16.isHigh high ∨ Utf16.isLow high then escapedUnit high else quotedUnit high) ++
        quotedUnits (low :: rest)

/-- An argument as a data literal: strings are quoted, and a number that is not finite is `null`. -/
def literalText : Argument → Units
  | .string units => unitsOf "\"" ++ quotedUnits units ++ unitsOf "\""
  | .number value =>
    match value with
    | .finite _ _ _ => value.text
    | _ => unitsOf "null"
  | argument => argument.plain

/-- An argument as a directive writes it. An integer of any size keeps all its digits. -/
def written : Directive → Argument → Units
  | .text, argument => argument.shown
  | .number, .integer value => integerText value
  | .number, argument => signedText argument.toNumber
  | .whole, .integer value => integerText value
  | .whole, argument => signedText (Literal.leadingInteger argument.plain)
  | .real, argument => signedText (Literal.leadingReal argument.plain)
  | .literal, argument => literalText argument
  | .nothing, _ => []

/-- The text of a format with the arguments that are still to be written. -/
def render : Units → List Argument → Units
  | [], arguments => arguments.flatMap (fun argument => 0x20 :: argument.shown)
  | [u], arguments => u :: render [] arguments
  | u :: letter :: rest, arguments =>
    if u ≠ percent then u :: render (letter :: rest) arguments
    else if letter = percent then percent :: render rest arguments
    else
      match Directive.ofUnit letter, arguments with
      | some directive, argument :: arguments => written directive argument ++ render rest arguments
      | _, arguments => percent :: letter :: render rest arguments

end BoundedText.Format

namespace BoundedText

/-- The text of a format and its arguments. Without arguments a format is written as it is. -/
def format (pattern : Units) (arguments : List Format.Argument) : Units :=
  if arguments.isEmpty then pattern else Format.render pattern arguments

end BoundedText
