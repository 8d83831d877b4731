import BoundedText.Latin1
import BoundedText.Numeral

/-!
# Diagnostics and faults

A diagnostic tells of something that an operation got over: it has a code and a message, and the
operation goes on. A fault is an operation that could not be carried out at all.
-/

namespace BoundedText

/-- What a diagnostic is about. -/
inductive DiagnosticCode where
  | nothing
  | invalidTelnetSequence
  | unterminatedSubnegotiation
  | collatorUnavailable
  | stringTooBig
  | unsupportedIntegerBase
  | other (code : Int)
deriving DecidableEq, Repr

def DiagnosticCode.ofInt (code : Int) : DiagnosticCode :=
  if code = 0 then .nothing
  else if code = 1 then .invalidTelnetSequence
  else if code = 2 then .unterminatedSubnegotiation
  else if code = 3 then .collatorUnavailable
  else if code = 4 then .stringTooBig
  else if code = 5 then .unsupportedIntegerBase
  else .other code

/-- The hexadecimal numeral of an integer in capitals. -/
def hexText (n : Int) : String :=
  String.ofList ((Numeral.ofInt 16 n).map (fun b => Char.ofNat (Latin1.toUpper b).toNat))

/-- The name of a code; one without a name is written as its number. -/
def DiagnosticCode.name : DiagnosticCode → String
  | .nothing => "None"
  | .invalidTelnetSequence => "InvalidTelnetSequence"
  | .unterminatedSubnegotiation => "UnterminatedSubnegotiation"
  | .collatorUnavailable => "CollatorUnavailable"
  | .stringTooBig => "StringTooBig"
  | .unsupportedIntegerBase => "UnsupportedIntegerBase"
  | .other code => "DiagnosticCode:0x" ++ hexText code

/-- A code with a message. -/
structure Diagnostic where
  code : DiagnosticCode
  message : String
deriving DecidableEq, Repr

/-- The line that a diagnostic is logged as. -/
def Diagnostic.line (diagnostic : Diagnostic) : String := diagnostic.code.name ++ ": " ++ diagnostic.message

/-- Why an operation could not be carried out. -/
inductive Fault where
  /-- The capacity of a buffer is not a size. -/
  | bufferCapacity
  /-- The string limit of a context is not a size. -/
  | stringLimit
  /-- The limit of a builder is not a size. -/
  | builderLimit
  /-- A locale is not well formed. -/
  | locale
deriving DecidableEq, Repr

def Fault.message : Fault → String
  | .bufferCapacity => "OutputBuffer: capacity must be a positive integer"
  | .stringLimit => "TextContext: stringLimit must be a positive integer"
  | .builderLimit => "StringBuilder: limit must be a positive integer"
  | .locale => "Incorrect locale information provided"

end BoundedText
