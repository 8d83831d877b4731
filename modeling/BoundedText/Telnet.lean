import BoundedText.Diagnostics
import BoundedText.Sizing
import BoundedText.Utf8

/-!
# Widening Latin-1 to UTF-8

Each Latin-1 byte is the code point of the same number. A stream may carry telnet commands, which
begin with 0xFF and pass through untouched; two such bytes stand for the character U+00FF. A command
that is not known is left out, and one that is cut short is told.
-/

namespace BoundedText

namespace Telnet

def subnegotiationEnd : UInt8 := 240
def noOperation : UInt8 := 241
def subnegotiation : UInt8 := 250
def will : UInt8 := 251
def wont : UInt8 := 252
def perform : UInt8 := 253
def dont : UInt8 := 254

/-- Opens a command. -/
def command : UInt8 := 255

/-- The commands that are followed by an option. -/
def isNegotiation (b : UInt8) : Bool := b == will || b == wont || b == perform || b == dont

def commandAtEnd : Diagnostic := ⟨.invalidTelnetSequence, "IAC at end of input"⟩

def optionMissing : Diagnostic := ⟨.invalidTelnetSequence, "Option negotiation without an option byte"⟩

def unterminated : Diagnostic := ⟨.unterminatedSubnegotiation, "IAC SB without SE before end of input"⟩

def unknown (b : UInt8) : Diagnostic :=
  ⟨.invalidTelnetSequence, "Invalid telnet sequence character " ++ hexText b.toNat⟩

end Telnet

/-- Bytes and what was told while they were made. -/
structure Widened where
  bytes : Bytes
  diagnostics : List Diagnostic
deriving DecidableEq, Repr

/-- What comes after bytes that are already made. -/
def Widened.after (widened : Widened) (bytes : Bytes) : Widened := { widened with bytes := bytes ++ widened.bytes }

/-- What comes after a diagnostic. -/
def Widened.tell (widened : Widened) (diagnostic : Diagnostic) : Widened :=
  { widened with diagnostics := diagnostic :: widened.diagnostics }

/-- The UTF-8 encoding of Latin-1 bytes. -/
def widen (latin : Bytes) : Bytes := Utf8.encodeAll (latin.map UInt8.toNat)

/-- The UTF-8 encoding of a Latin-1 stream with telnet commands in it. -/
def widenTelnet (latin : Bytes) : Widened :=
  match latin with
  | [] => ⟨[], []⟩
  | b :: rest =>
    if b ≠ Telnet.command then (widenTelnet rest).after (Utf8.encode b.toNat)
    else
      match rest with
      | [] => ⟨[], [Telnet.commandAtEnd]⟩
      | c :: rest =>
        if c = Telnet.command then (widenTelnet rest).after (Utf8.encode c.toNat)
        else if c = Telnet.noOperation then (widenTelnet rest).after [b, c]
        else if Telnet.isNegotiation c then
          match rest with
          | [] => ⟨[b, c], [Telnet.optionMissing]⟩
          | option :: rest => (widenTelnet rest).after [b, c, option]
        else if c = Telnet.subnegotiation then
          let body := rest.takeWhile (· != Telnet.subnegotiationEnd)
          match _ended : rest.drop body.length with
          | [] => ⟨b :: c :: body, [Telnet.unterminated]⟩
          | stop :: rest => (widenTelnet rest).after (b :: c :: body ++ [stop])
        else (widenTelnet rest).tell (Telnet.unknown c)
termination_by latin.length
decreasing_by
  all_goals simp only [List.length_cons]
  all_goals try omega
  have := congrArg List.length _ended
  simp only [List.length_drop, List.length_cons] at this
  omega

/-- The UTF-8 encoding of the first bytes of a Latin-1 array, of all of them when no number is given. The
array that is answered is sized by counting; diagnostics are told once, while it is filled. -/
def latin1ToUtf8 (latin : Bytes) (count : Option Int) (telnet : Bool) : Widened :=
  let taken := latin.take (count.getD latin.length).toNat
  let widened := if telnet then widenTelnet taken else ⟨widen taken, []⟩
  { widened with bytes := sized widened.bytes }

end BoundedText
