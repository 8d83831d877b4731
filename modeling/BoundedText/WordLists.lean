import BoundedText.Builder
import BoundedText.Tokens

/-!
# Lists of words

A list of words is a text that a separator cuts into tokens. Removing a word splits the list token by
token and hands on each but the first one that is equal to the word, with the separator between two of
them. What is handed on goes to a long buffer or to a builder.
-/

namespace BoundedText

/-- Where the words of a list and the separators between them are handed to, one after another. -/
structure ListSink (σ : Type) where
  token : σ → Option Bytes → σ
  separator : σ → σ

/-- Whether a token is a word up to its first NUL. -/
def sameText (token word : Bytes) : Bool :=
  token.length == textLength word && (token.zip word).all (fun pair => pair.1 == pair.2)

section loops
variable {σ : Type} (unit : TextUnit) (separator : Int) (sink : ListSink σ)

/-- Hands on the tokens up to the first that is a word, each after a separator. That one is passed over. -/
def handUpTo (word : Bytes) (cursor : TokenCursor) (state : σ) : σ × TokenCursor :=
  match _found : (cursor.split unit separator).1 with
  | none => (state, cursor)
  | some token =>
    if sameText token word then (state, (cursor.split unit separator).2)
    else handUpTo word (cursor.split unit separator).2 (sink.token (sink.separator state) (some token))
termination_by cursor.ahead
decreasing_by exact TokenCursor.ahead_split _found

/-- Hands on all tokens, each after a separator. -/
def handAll (cursor : TokenCursor) (state : σ) : σ × TokenCursor :=
  match _found : (cursor.split unit separator).1 with
  | none => (state, cursor)
  | some token => handAll (cursor.split unit separator).2 (sink.token (sink.separator state) (some token))
termination_by cursor.ahead
decreasing_by exact TokenCursor.ahead_split _found

/-- Hands on the tokens of a list without the first that is a word. The token that comes first then has no
separator before it, so a match at the head of the list takes the separator after it along. -/
def removeFirst (word : Bytes) (cursor : TokenCursor) (state : σ) : σ × TokenCursor :=
  let (token, next) := cursor.split unit separator
  let (state, next) :=
    if token.any (sameText · word) then
      let (second, later) := next.split unit separator
      (sink.token state second, later)
    else handUpTo unit separator sink word next (sink.token state token)
  handAll unit separator sink next state

end loops

/-- A cursor takes words as texts and the separator as a byte, as far as they fit. -/
def Cursor.listSink (separator : Int) : ListSink Cursor where
  token cursor token := (cursor.appendText (token.map .bytes)).2
  separator cursor := (cursor.appendByte separator).2

/-- A builder takes words as texts and the separator as a code point, and keeps what it told. -/
def Builder.listSink (separator : Int) : ListSink (Builder × List Diagnostic) where
  token := fun (builder, told) token =>
    let (next, more) := builder.appendText (token.map .bytes)
    (next, told ++ more)
  separator := fun (builder, told) =>
    let (next, more) := builder.appendCodepoint separator
    (next, told ++ more)

/-- A list after a word was taken out, and the array it was in with every cut made. -/
structure Removed where
  out : Bytes
  list : Bytes
deriving DecidableEq, Repr

/-- Removes a word from a list that a byte separates, as far as the result fits into a long buffer. -/
def removeWord (list word : Option Text) (separator : Int) : Removed :=
  let (cursor, tokens) := removeFirst .byte separator (Cursor.listSink separator) (Text.bytesOrEmpty word)
    (TokenCursor.ofText list) (Cursor.ofCapacity longCapacity)
  ⟨cursor.written, tokens.bytes⟩

/-- Removes a word from a list that a code point separates, through a builder; also what was told. -/
def removeWordCodepoints (list word : Option Text) (separator : Int) (builder : Builder) :
    Removed × List Diagnostic :=
  let ((full, told), tokens) := removeFirst .codepoint separator (Builder.listSink separator)
    (Text.bytesOrEmpty word) (TokenCursor.ofText list) (builder, [])
  (⟨full.finish.1, tokens.bytes⟩, told)

end BoundedText
