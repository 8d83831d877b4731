import BoundedText.Builder

/-!
# LIKE patterns

In a LIKE pattern a percent sign stands for any characters and an underscore for one; an escape
character takes its meaning from the one after it. Patterns are made from text that a user writes:
there a backslash makes the character after it stand for itself, and in a glob a star and a question
mark are the wildcards.
-/

namespace BoundedText.Like

def percent : Nat := 0x25
def underscore : Nat := 0x5F
def star : Nat := 0x2A
def question : Nat := 0x3F
def backslash : Nat := 0x5C

/-- A character of a pattern that stands for itself although it has a meaning. -/
def escaped (escape : Int) (c : Nat) : List Bytes := [codepointPiece escape, codepointPiece c]

/-- The pattern of a character that no backslash comes before. -/
def plain (glob : Bool) (escape : Int) (c : Nat) : List Bytes :=
  if c = percent ∨ c = underscore ∨ (c : Int) = escape then escaped escape c
  else if glob ∧ c = star then [codepointPiece percent]
  else if glob ∧ c = question then [codepointPiece underscore]
  else [codepointPiece c]

/-- The pattern of a text in pieces. A backslash is left out, also at the end of the text. The escape
character is escaped before it can be taken for a backslash. -/
def pieces (glob : Bool) (escape : Int) : List Nat → List Bytes
  | [] => []
  | [c] => if c = backslash ∧ (c : Int) ≠ escape then [] else plain glob escape c
  | c :: next :: rest =>
    if c = backslash ∧ (c : Int) ≠ escape then escaped escape next ++ pieces glob escape rest
    else plain glob escape c ++ pieces glob escape (next :: rest)

/-- The pattern of a text as it comes out of a builder, and what was told. -/
def pattern (glob : Bool) (text : Text) (escape : Int) (builder : Builder) : Bytes × List Diagnostic :=
  let (full, told) := builder.appendAll (pieces glob escape (codepointsOf text.toBytes))
  (full.finish.1, told)

end BoundedText.Like
