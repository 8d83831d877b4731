import BoundedText.Cursor

/-!
# Growing output

A builder takes text until a limit. It does not cut a text that is too long: it drops all it holds,
tells so once, and takes nothing more until it is finished or cleared. Its storage is doubled as it
is needed and never passes the limit.
-/

namespace BoundedText

/-- The storage of a builder, how many of its bytes are held, and whether the limit was passed. -/
structure Builder where
  limit : Nat
  storage : Bytes
  length : Nat
  tooBig : Bool
deriving DecidableEq, Repr

/-- The encoding of an integer that is a code point, and nothing of one that is not. -/
def codepointPiece (codepoint : Int) : Bytes := if Utf8.widthOf codepoint = 0 then [] else Utf8.encodeOf codepoint

/-- The pieces of a text that is quoted when it has a space in it. -/
def quotedPieces (text : Bytes) : List Bytes := if needsQuotes text then [[0x22], text, [0x22]] else [text]

namespace Builder

/-- The storage that a builder begins with, unless its limit is less. -/
def initialCapacity : Nat := 64

def held (builder : Builder) : Bytes := builder.storage.take builder.length

def capacity (builder : Builder) : Nat := builder.storage.length

def ofLimit (limit : Nat) : Builder := ⟨limit, List.replicate (min initialCapacity limit) 0, 0, false⟩

def standard : Builder := ofLimit longCapacity

/-- A capacity doubled until it is as much as required. -/
def doubled (capacity required : Nat) : Nat :=
  if required ≤ capacity ∨ capacity = 0 then capacity else doubled (2 * capacity) required
termination_by required - capacity

def overflow (length limit : Nat) : Diagnostic :=
  ⟨.stringTooBig, "StringBuilder: " ++ toString length ++ " bytes exceeds the limit of " ++ toString (limit - 1)⟩

/-- The builder with what it holds moved to new storage. -/
def moved (builder : Builder) (capacity : Nat) : Builder :=
  { builder with storage := overwrite (List.replicate capacity 0) 0 builder.held }

/-- Makes room for more bytes, or gives up what is held. Answers whether there is room, the builder,
and what was told. A builder that gave up makes no room and tells nothing. -/
def reserve (builder : Builder) (extra : Nat) : Bool × Builder × Option Diagnostic :=
  let required := builder.length + extra
  if builder.tooBig then (false, builder, none)
  else if builder.limit < required + 1 then
    (false, { builder with length := 0, tooBig := true }, some (overflow required builder.limit))
  else if builder.capacity < required then
    (true, builder.moved (min (doubled builder.capacity required) builder.limit), none)
  else (true, builder, none)

def store (builder : Builder) (piece : Bytes) : Builder :=
  { builder with
    storage := overwrite builder.storage builder.length piece
    length := builder.length + piece.length }

/-- The builder after a piece, and what was told. An empty piece asks for no room. -/
def append (builder : Builder) (piece : Bytes) : Builder × Option Diagnostic :=
  if piece = [] then (builder, none)
  else
    let (made, next, told) := builder.reserve piece.length
    (if made then next.store piece else next, told)

def appendAll (builder : Builder) : List Bytes → Builder × List Diagnostic
  | [] => (builder, [])
  | piece :: pieces =>
    let (next, told) := builder.append piece
    let (last, more) := next.appendAll pieces
    (last, told.toList ++ more)

/-- Takes the first bytes of an array, all of them when no number is given. -/
def appendBytes (builder : Builder) (bytes : Bytes) (count : Option Int) : Builder × List Diagnostic :=
  builder.appendAll [bytes.take (count.getD bytes.length).toNat]

/-- Takes a text up to its first NUL. -/
def appendText (builder : Builder) (text : Option Text) : Builder × List Diagnostic :=
  builder.appendAll [givenText text]

/-- Takes the low byte of an integer. -/
def appendByte (builder : Builder) (ch : Int) : Builder × List Diagnostic := builder.appendAll [[byteOf ch]]

/-- Takes the encoding of a code point; what is no code point is passed over. -/
def appendCodepoint (builder : Builder) (codepoint : Int) : Builder × List Diagnostic :=
  builder.appendAll [codepointPiece codepoint]

def appendFormat (builder : Builder) (pattern : Units) (arguments : List Format.Argument) :
    Builder × List Diagnostic :=
  builder.appendText (some (.string (format pattern arguments)))

def appendCodepoints (builder : Builder) (text : Option Text) (limit : Limit) : Builder × List Diagnostic :=
  builder.appendAll [takeCodepoints (Text.bytesOrEmpty text) limit]

def appendQuoted (builder : Builder) (text : Option Text) : Builder × List Diagnostic :=
  builder.appendAll (quotedPieces (givenText text))

def appendSeparator (builder : Builder) (item : Int) (last : Bool) (delimiter conjunction space : Option Text) :
    Builder × List Diagnostic :=
  builder.appendAll ((separatorPieces item last delimiter conjunction space).map givenText)

/-- An empty builder with the storage of this one. -/
def clear (builder : Builder) : Builder := { builder with length := 0, tooBig := false }

/-- The bytes held, none when the limit was passed, and the builder to begin again with. -/
def finish (builder : Builder) : Bytes × Builder := (if builder.tooBig then [] else builder.held, builder.clear)

def finishText (builder : Builder) : List Nat × Builder :=
  let (bytes, next) := builder.finish
  (decodeText bytes 0, next)

end Builder

end BoundedText
