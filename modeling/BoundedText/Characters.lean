/-!
# Character classes

The ASCII classes that scanning knows. They are classes of numbers, so that bytes, code points and
integers from a caller share them; a number outside ASCII is in none of them.
-/

namespace BoundedText.Characters

def tab : Nat := 0x09
def carriageReturn : Nat := 0x0D
def space : Nat := 0x20
def backslash : Nat := 0x5C

/-- Opens a markup tag, which runs to `tagEnd`. -/
def tagStart : Nat := 0x02
def tagEnd : Nat := 0x03
/-- Opens an escape sequence, which runs to the letter `m`. -/
def escape : Nat := 0x1B
def escapeEnd : Nat := 0x6D

/-- Space and the controls from tab to carriage return. -/
def isWhiteSpace (c : Nat) : Bool := c == space || (tab ≤ c && c ≤ carriageReturn)

def isUpper (c : Nat) : Bool := 0x41 ≤ c && c ≤ 0x5A
def isLower (c : Nat) : Bool := 0x61 ≤ c && c ≤ 0x7A
def isLetter (c : Nat) : Bool := isUpper c || isLower c
def isDigit (c : Nat) : Bool := 0x30 ≤ c && c ≤ 0x39
def isAlphaNumeric (c : Nat) : Bool := isLetter c || isDigit c

/-- The characters that open a control span. -/
def isSpanStart (c : Nat) : Bool := c == tagStart || c == escape

end BoundedText.Characters
