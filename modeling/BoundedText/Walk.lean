import BoundedText.Utf8

/-!
# Walking code points

The steps of a text are its code points with the place and size of the bytes each was read from.
Counting, measuring and seeking decode the text again, sequence by sequence, and keep no steps.
-/

namespace BoundedText

/-- A number of items to take: so many, or all there are. -/
inductive Limit where
  | atMost (count : Nat)
  | unlimited
deriving DecidableEq, Repr

/-- The first items of a list, up to a limit. -/
def Limit.take {α : Type} : Limit → List α → List α
  | .atMost count, items => items.take count
  | .unlimited, items => items

/-- What a limit still allows after one item; none when it allows no item. -/
def Limit.next? : Limit → Option Limit
  | .atMost 0 => none
  | .atMost (count + 1) => some (.atMost count)
  | .unlimited => some .unlimited

/-- The number an integer allows: none when it is negative. -/
def Limit.ofInt (count : Int) : Limit := .atMost count.toNat

/-- The items up to the first that is refused, that one included, and whether none was refused. -/
def visit {α : Type} (accept : α → Bool) : List α → List α × Bool
  | [] => ([], true)
  | item :: items =>
    if accept item then
      let (seen, finished) := visit accept items
      (item :: seen, finished)
    else ([item], false)

def total : List Nat → Nat
  | [] => 0
  | n :: rest => n + total rest

/-- A code point of a text, the offset of its first byte and the number of its bytes. -/
structure Step where
  codepoint : Nat
  offset : Nat
  length : Nat
deriving DecidableEq, Repr

/-- The steps of the text that begins at the head of `rest`, which lies at `offset`. -/
def stepsFrom (rest : Bytes) (offset : Nat) : List Step :=
  match _found : Utf8.decode rest with
  | none => []
  | some d => ⟨d.codepoint, offset, d.length⟩ :: stepsFrom (rest.drop d.length) (offset + d.length)
termination_by rest.length
decreasing_by
  have := Utf8.decode_length _found
  simp only [List.length_drop]
  omega

/-- The steps of the text from an offset on. -/
def walk (bytes : Bytes) (start : Nat) : List Step := stepsFrom (bytes.drop start) start

def codepointsOf (bytes : Bytes) : List Nat := (walk bytes 0).map Step.codepoint

def codepointCount (bytes : Bytes) : Nat :=
  match _found : Utf8.decode bytes with
  | none => 0
  | some d => 1 + codepointCount (bytes.drop d.length)
termination_by bytes.length
decreasing_by
  have := Utf8.decode_length _found
  simp only [List.length_drop]
  omega

/-- The number of bytes of the first code points of a text. -/
def codepointPrefixLength (bytes : Bytes) (limit : Limit) : Nat :=
  match limit.next? with
  | none => 0
  | some later =>
    match _found : Utf8.decode bytes with
    | none => 0
    | some d => d.length + codepointPrefixLength (bytes.drop d.length) later
termination_by bytes.length
decreasing_by
  have := Utf8.decode_length _found
  simp only [List.length_drop]
  omega

def takeCodepoints (bytes : Bytes) (limit : Limit) : Bytes := bytes.take (codepointPrefixLength bytes limit)

/-- The size of the sequence at an offset, zero at the end of the text. -/
def sequenceLength (bytes : Bytes) (offset : Nat) : Nat :=
  match Utf8.decode (bytes.drop offset) with
  | none => 0
  | some d => d.length

/-- The offset just past the code point at an offset; the end of the text stays. -/
def nextOffset (bytes : Bytes) (offset : Nat) : Nat := offset + sequenceLength bytes offset

/-- Moves back over continuation bytes, so many at most and never past the first byte. -/
def backOver (bytes : Bytes) : Nat → Nat → Nat
  | 0, i => i
  | budget + 1, i => if 0 < i ∧ bytes[i]?.any Utf8.isContinuation then backOver bytes budget (i - 1) else i

/-- The offset of the code point that ends at an offset; at the start there is none before it. A
sequence that does not end right there is not stepped over: its last byte stands alone. -/
def previousOffset (bytes : Bytes) (offset : Nat) : Nat :=
  if offset = 0 then 0
  else
    let i := backOver bytes 3 (offset - 1)
    if sequenceLength bytes i = offset - i then i else offset - 1

/-- The number of bytes from the head of a text to the first occurrence of a code point, or to the end of the
text when there is none. -/
def seekFrom (codepoint : Int) (rest : Bytes) : Nat :=
  match _found : Utf8.decode rest with
  | none => 0
  | some d => if d.codepoint = codepoint then 0 else d.length + seekFrom codepoint (rest.drop d.length)
termination_by rest.length
decreasing_by
  have := Utf8.decode_length _found
  simp only [List.length_drop]
  omega

/-- The offset of the first occurrence of a code point, or of the end of the text. -/
def seekCodepoint (bytes : Bytes) (codepoint : Int) (start : Nat) : Nat := start + seekFrom codepoint (bytes.drop start)

end BoundedText
