import BoundedText.Characters
import BoundedText.Walk

/-!
# Control spans

A control span is a run of bytes that scanning takes as one: a markup tag, from 0x02 to 0x03, or an
escape sequence, from 0x1B to the letter `m`. A span without an end runs to the end of the text. What
is inside a span is not looked at.
-/

namespace BoundedText

/-- Where a byte lies: outside spans, or inside one of the two kinds. -/
inductive SpanState where
  | outside
  | inTag
  | inEscape
deriving DecidableEq, Repr

def SpanState.next (state : SpanState) (b : Nat) : SpanState :=
  match state with
  | .outside =>
    if b = Characters.tagStart then .inTag
    else if b = Characters.escape then .inEscape
    else .outside
  | .inTag => if b = Characters.tagEnd then .outside else .inTag
  | .inEscape => if b = Characters.escapeEnd then .outside else .inEscape

def SpanState.after (state : SpanState) (bytes : Bytes) : SpanState :=
  bytes.foldl (fun state b => state.next b.toNat) state

/-- The number of bytes until a state is outside again, or until the text ends. -/
def spanRest : SpanState → Bytes → Nat
  | _, [] => 0
  | state, b :: rest => if state = .outside ∨ b = 0 then 0 else 1 + spanRest (state.next b.toNat) rest

/-- The number of bytes of the span that begins at the head of an array; one where none begins. -/
def spanLength : Bytes → Nat
  | [] => 1
  | b :: rest => 1 + spanRest (SpanState.outside.next b.toNat) rest

/-- The offset just past the span that begins at an offset. -/
def skipSpan (bytes : Bytes) (offset : Nat) : Nat := offset + spanLength (bytes.drop offset)

theorem spanLength_pos (bytes : Bytes) : 0 < spanLength bytes := by
  cases bytes with
  | nil => exact Nat.one_pos
  | cons b rest => exact Nat.lt_of_lt_of_le Nat.one_pos (Nat.le_add_right ..)

/-- The number of code points outside control spans. -/
def visibleLength (bytes : Bytes) : Nat :=
  match _found : Utf8.decode bytes with
  | none => 0
  | some d =>
    if bytes.head?.any (fun b => Characters.isSpanStart b.toNat) then visibleLength (bytes.drop (spanLength bytes))
    else 1 + visibleLength (bytes.drop d.length)
termination_by bytes.length
decreasing_by
  all_goals
    have := Utf8.decode_length _found
    have := spanLength_pos bytes
    simp only [List.length_drop]
    omega

end BoundedText
