import BoundedText.Context
import BoundedText.Tokens

/-!
# Scanning in a chosen unit

A caller names the unit to scan in. Clusters come with the context that finds them, whose segmenter is
opened when the first unit of a text is looked at; a text that is empty, or a scan that looks at none,
needs no segmenter.
-/

namespace BoundedText

/-- The unit that a caller wants. -/
inductive Granularity where
  | byte
  | codepoint
  | cluster (context : Context)

namespace Granularity

def kind : Granularity → UnitKind
  | .byte => .byte
  | .codepoint => .codepoint
  | .cluster _ => .cluster

/-- The unit for a scan that begins at a text. In an empty text there is nothing to find, so that any
segmenter will do. -/
def unitFor (granularity : Granularity) (text : Bytes) : Except Fault TextUnit :=
  match granularity with
  | .byte => .ok .byte
  | .codepoint => .ok .codepoint
  | .cluster context => (context.measure text (TextUnit.cluster noSegments) TextUnit.cluster).map Prod.fst

def count (granularity : Granularity) (bytes : Bytes) (start : Nat) : Except Fault Nat := do
  let unit ← granularity.unitFor (bytes.drop start)
  return unit.count (bytes.drop start)

def prefixLength (granularity : Granularity) (bytes : Bytes) (count : Int) : Except Fault Nat :=
  if count ≤ 0 then .ok 0
  else do
    let unit ← granularity.unitFor bytes
    return unit.prefixLength count.toNat bytes

/-- The size and value of the unit at an offset. -/
def unitAt (granularity : Granularity) (bytes : Bytes) (offset : Nat) : Except Fault (Nat × Nat) := do
  let rest := bytes.drop offset
  let unit ← granularity.unitFor rest
  return (unit.length rest, unit.value rest)

def skipSeparators (granularity : Granularity) (separator : Int) (bytes : Bytes) (start : Nat) : Except Fault Nat :=
  if separator ≠ Characters.space then .ok start
  else do
    let unit ← granularity.unitFor (bytes.drop start)
    return BoundedText.skipSeparators unit separator bytes start

def findSeparator (granularity : Granularity) (separator : Int) (bytes : Bytes) (start : Nat) :
    Except Fault (Option Nat) := do
  let unit ← granularity.unitFor (bytes.drop start)
  return BoundedText.findSeparator unit separator bytes start

def findNextToken (granularity : Granularity) (separator : Int) (bytes : Bytes) (start : Nat) :
    Except Fault (Option Nat) := do
  let unit ← granularity.unitFor (bytes.drop start)
  return BoundedText.findNextToken unit separator bytes start

def countTokens (granularity : Granularity) (separator : Int) (bytes : Bytes) : Except Fault Nat := do
  let unit ← granularity.unitFor bytes
  return BoundedText.countTokens unit separator bytes

/-- What a token cursor has before it. -/
def textAhead (cursor : TokenCursor) : Bytes :=
  match cursor.pos with
  | none => []
  | some start => cursor.bytes.drop start

def split (granularity : Granularity) (separator : Int) (cursor : TokenCursor) :
    Except Fault (Option Bytes × TokenCursor) := do
  let unit ← granularity.unitFor (textAhead cursor)
  return cursor.split unit separator

def splitAll (granularity : Granularity) (separator : Int) (cursor : TokenCursor) :
    Except Fault (List Bytes × Bytes) := do
  let unit ← granularity.unitFor (textAhead cursor)
  return cursor.splitAll unit separator

end Granularity

end BoundedText
