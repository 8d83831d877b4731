import BoundedText.Diagnostics
import BoundedText.Format

/-!
# Bounded output

A cursor writes into a buffer whose size is fixed. The last byte of the buffer is kept for a NUL, so
that a buffer of `C` bytes holds `C - 1` bytes of text. Most appends write as much as fits and answer
how much did not; some write all or nothing. A cursor past its room writes nothing.
-/

namespace BoundedText

def longCapacity : Nat := 8192

def shortCapacity : Nat := 32

/-- A buffer of zeros of the capacity that a caller asks for, a long one when none is asked for. -/
def newBuffer (capacity : Option Number) : Except Fault Bytes :=
  match capacity with
  | none => .ok (List.replicate longCapacity 0)
  | some capacity =>
    match capacity.asSize with
    | some size => .ok (List.replicate size 0)
    | none => .error .bufferCapacity

/-- A buffer and the place where the next byte goes. -/
structure Cursor where
  buffer : Bytes
  pos : Nat
deriving DecidableEq, Repr

/-- What goes before an item of a list: nothing before the first, a delimiter and a space between two
items, and the conjunction before the last, with the delimiter when there are three items or more. -/
def separatorPieces (item : Int) (last : Bool) (delimiter conjunction space : Option Text) : List (Option Text) :=
  if item = 1 then []
  else if last then (if 3 ≤ item then [delimiter] else []) ++ [space, conjunction, space]
  else [delimiter, space]

def hexPair (b : UInt8) : Bytes := [Numeral.digit (b.toNat / 16), Numeral.digit (b.toNat % 16)]

/-- The text of a text that may be missing, up to its first NUL. -/
def givenText (text : Option Text) : Bytes := textOf (Text.bytesOrEmpty text)

def quoted (text : Bytes) : Bytes := [0x22] ++ text ++ [0x22]

/-- Whether a text has a space in it, and so is written in quotes. -/
def needsQuotes (text : Bytes) : Bool := text.contains 0x20

namespace Cursor

def ofCapacity (capacity : Nat) : Cursor := ⟨List.replicate capacity 0, 0⟩

def room (cursor : Cursor) : Nat := cursor.buffer.length - 1 - cursor.pos

def written (cursor : Cursor) : Bytes := cursor.buffer.take cursor.pos

/-- The cursor after bytes that fit have been written. -/
def write (cursor : Cursor) (bytes : Bytes) : Cursor :=
  ⟨overwrite cursor.buffer cursor.pos bytes, cursor.pos + bytes.length⟩

/-- Writes as many bytes as fit and answers how many did not. -/
def append (cursor : Cursor) (bytes : Bytes) : Nat × Cursor :=
  let limit := cursor.buffer.length - 1
  if limit ≤ cursor.pos then (bytes.length, cursor)
  else
    let count := if bytes.length + cursor.pos ≤ limit then bytes.length else limit - cursor.pos
    (bytes.length - count, cursor.write (bytes.take count))

/-- Writes pieces one after another, each as far as it fits. -/
def appendAll (cursor : Cursor) (pieces : List Bytes) : Cursor :=
  pieces.foldl (fun cursor piece => (cursor.append piece).2) cursor

/-- Does one write after another until one leaves something out, and answers what that one did. -/
def appendInTurn (cursor : Cursor) : List (Cursor → Nat × Cursor) → Nat × Cursor
  | [] => (0, cursor)
  | write :: writes =>
    let (left, after) := write cursor
    if left = 0 then after.appendInTurn writes else (left, after)

/-- Writes the low byte of an integer; answers 1 when the buffer is full. -/
def appendByte (cursor : Cursor) (ch : Int) : Nat × Cursor :=
  if cursor.buffer.length - 1 ≤ cursor.pos then (1, cursor) else (0, cursor.write [byteOf ch])

/-- Writes as many bytes as fit. No byte at all needs no room, and one alone is written as a byte. -/
def appendSome (cursor : Cursor) : Bytes → Nat × Cursor
  | [] => (0, cursor)
  | [b] => cursor.appendByte b.toNat
  | bytes => cursor.append bytes

/-- Writes a text up to its first NUL. A string of one ASCII character is not encoded for that. -/
def appendText (cursor : Cursor) (text : Option Text) : Nat × Cursor :=
  match text with
  | none | some (.string []) => (0, cursor)
  | some (.string (first :: rest)) =>
    if first = 0 then (0, cursor)
    else if rest = [] ∧ first ≤ 0x7F then cursor.appendByte first.toNat
    else cursor.appendSome (textOf (Utf16.toUtf8 (first :: rest)))
  | some (.bytes array) => cursor.appendSome (textOf array)

/-- Writes the first bytes of a text, NULs among them, unless the first byte is one. -/
def appendBytes (cursor : Cursor) (text : Option Text) (count : Int) : Nat × Cursor :=
  if count ≤ 0 then (0, cursor)
  else
    match Text.bytesOrEmpty text with
    | [] => (0, cursor)
    | first :: rest => if first = 0 then (0, cursor) else cursor.appendSome ((first :: rest).take count.toNat)

/-- Writes the encoding of a code point, all or nothing; what is no code point is refused. -/
def appendCodepoint (cursor : Cursor) (codepoint : Int) : Nat × Cursor :=
  let size := Utf8.widthOf codepoint
  if size = 0 ∨ cursor.buffer.length ≤ cursor.pos + size then (1, cursor)
  else (0, cursor.write (Utf8.encodeOf codepoint))

/-- Writes a text code point by code point, all or nothing; malformed bytes come out as U+FFFD. What is
needed is measured before anything is written. -/
def appendCodepoints (cursor : Cursor) (text : Option Text) : Nat × Cursor :=
  match Text.given text with
  | none => (0, cursor)
  | some text =>
    let codepoints := codepointsOf text.toBytes
    let needed := total (codepoints.map Utf8.width)
    if cursor.buffer.length ≤ cursor.pos + needed then (1, cursor)
    else
      let (buffer, pos) := Utf8.putAll cursor.buffer cursor.pos codepoints
      (0, ⟨buffer, pos⟩)

/-- Writes a text, in double quotes when it has a space in it. When the quoted text does not fit, the
cursor goes back to where it was. -/
def appendQuoted (cursor : Cursor) (text : Option Text) : Nat × Cursor :=
  let text := givenText text
  if needsQuotes text then
    let (left, after) := cursor.appendInTurn [(appendByte · 0x22), (appendSome · text), (appendByte · 0x22)]
    if left = 0 then (0, after) else (1, { after with pos := cursor.pos })
  else cursor.appendSome text

/-- Writes so many copies of a byte as fit; answers 1 when some did not. -/
def appendFill (cursor : Cursor) (ch count : Int) : Nat × Cursor :=
  if count < 1 then (0, cursor)
  else if count = 1 then cursor.appendByte ch
  else
    let copies := fun (n : Nat) => List.replicate n (byteOf ch)
    let capacity := cursor.buffer.length
    if capacity < cursor.pos + count + 1 then
      let fitting := capacity - cursor.pos - 1
      if fitting = 0 then (1, cursor) else (1, cursor.write (copies fitting))
    else (0, cursor.write (copies count.toNat))

/-- Writes the two hexadecimal digits of a byte as far as they fit; answers 1 when one did not. -/
def appendHexByte (cursor : Cursor) (b : Int) : Nat × Cursor :=
  cursor.appendInTurn ((hexPair (byteOf b)).map (fun digit cursor => cursor.appendByte digit.toNat))

/-- Writes the first bytes of an array in hexadecimal; answers 1 when a digit did not fit. -/
def appendHex (cursor : Cursor) (bytes : Bytes) (count : Int) : Nat × Cursor :=
  cursor.appendInTurn ((bytes.take count.toNat).map (fun b cursor => cursor.appendHexByte b.toNat))

def appendFormat (cursor : Cursor) (pattern : Units) (arguments : List Format.Argument) : Nat × Cursor :=
  cursor.appendText (some (.string (format pattern arguments)))

def appendTexts (cursor : Cursor) (texts : List (Option Text)) : Cursor :=
  texts.foldl (fun cursor text => (cursor.appendText text).2) cursor

def appendSeparator (cursor : Cursor) (item : Int) (last : Bool) (delimiter conjunction space : Option Text) : Cursor :=
  cursor.appendTexts (separatorPieces item last delimiter conjunction space)

/-- Writes a NUL at the cursor, or over the last byte of the buffer when the cursor is past it. -/
def terminate (cursor : Cursor) : Cursor :=
  { cursor with buffer := overwrite cursor.buffer (min cursor.pos (cursor.buffer.length - 1)) [0] }

def text (cursor : Cursor) : List Nat := decodeText cursor.written 0

end Cursor

end BoundedText
