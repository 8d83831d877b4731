import BoundedText.Characters
import BoundedText.Latin1

/-!
# Searching texts

Prefixes and words without regard to case, and the offsets of single characters. Words are runs of
ASCII letters and digits. Every search ends at the first NUL.
-/

namespace BoundedText

def lowered (bytes : Bytes) : Bytes := (textOf bytes).map Latin1.toLower

def beginsWith (bytes part : Bytes) : Bool := (lowered part).isPrefixOf (lowered bytes)

/-- Whether a text begins with another; a text that is not given begins with nothing. -/
def textBeginsWith (text part : Option Text) : Bool :=
  match text, part with
  | some text, some part => beginsWith text.toBytes part.toBytes
  | _, _ => false

/-- Whether a text begins with another that is not empty. -/
def textBeginsWithSome (text part : Option Text) : Bool :=
  givenLength part ≠ 0 && textBeginsWith text part
where
  givenLength (text : Option Text) : Nat := textLength (Text.bytesOrEmpty text)

/-- The letters and digits of words. -/
def isWordByte (b : UInt8) : Bool := Characters.isAlphaNumeric b.toNat

/-- The number of bytes from the head of a text to its next word. -/
def wordGap (rest : Bytes) : Nat :=
  let word := (rest.takeWhile isWordByte).length
  word + ((rest.drop word).takeWhile (fun b => !isWordByte b)).length

theorem wordGap_pos (b : UInt8) (rest : Bytes) : 0 < wordGap (b :: rest) := by
  unfold wordGap
  cases word : isWordByte b with
  | false =>
    rw [List.takeWhile_cons_of_neg (by simp [word])]
    simp only [List.length_nil, List.drop_zero]
    rw [List.takeWhile_cons_of_pos (by simp [word])]
    simp only [List.length_cons]
    omega
  | true =>
    rw [List.takeWhile_cons_of_pos word]
    simp only [List.length_cons]
    omega

/-- The number of bytes from the head of a text to the first word that begins with a part. The head
counts as the start of a word whatever is there. -/
def wordAt (part : Bytes) (rest : Bytes) : Option Nat :=
  match _shape : rest with
  | [] => none
  | _ :: _ =>
    if beginsWith rest part then some 0 else (wordAt part (rest.drop (wordGap rest))).map (wordGap rest + ·)
termination_by rest.length
decreasing_by
  have := wordGap_pos ‹_› ‹_›
  subst _shape
  simp only [List.length_drop, List.length_cons]
  omega

/-- The offset of the first word of a text that begins with a part, letter case apart. -/
def findWord (text part : Option Text) : Option Nat :=
  match text, part with
  | some text, some part =>
    if textLength part.toBytes = 0 then none else wordAt part.toBytes (textOf text.toBytes)
  | _, _ => none

/-- The offset of the first byte from an offset on that does not pass a test, or the end of the text. -/
def skipWhile (test : UInt8 → Bool) (bytes : Bytes) (start : Nat) : Nat :=
  start + (((textOf bytes).drop start).takeWhile test).length

def skipSpace (bytes : Bytes) (start : Nat) : Nat := skipWhile (fun b => Characters.isWhiteSpace b.toNat) bytes start

def seekByte (bytes : Bytes) (ch : Int) (start : Nat) : Nat := skipWhile (fun b => (b.toNat : Int) != ch) bytes start

def takeUntil (text : Text) (ch : Int) : Bytes := text.toBytes.take (seekByte text.toBytes ch 0)

/-- The number of bytes from the head of a text to the first byte of a value that no backslash
escapes. A backslash escapes the byte after it. -/
def unescapedAt (ch : Int) : Bytes → Option Nat
  | [] => none
  | [b] => if b.toNat = ch then some 0 else none
  | b :: next :: rest =>
    if b.toNat = ch then some 0
    else if b.toNat = Characters.backslash then (unescapedAt ch rest).map (2 + ·)
    else (unescapedAt ch (next :: rest)).map (1 + ·)

/-- The offset of the first byte of a value that is not escaped. -/
def findUnescaped (bytes : Option Bytes) (ch : Int) : Option Nat :=
  bytes.bind (fun bytes => unescapedAt ch (textOf bytes))

end BoundedText
