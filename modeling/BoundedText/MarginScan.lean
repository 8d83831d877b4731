import BoundedText.Granularity
import BoundedText.Margin

/-!
# Scanning from the margin

Clusters, units and tokens for a scan that begins before its array. The offsets of clusters are words
of 32 bits: one that lies in the margin comes out near the top of their range, and a scan that is led
there finds no text.
-/

namespace BoundedText.Margin

/-- A position as a word of 32 bits. -/
def word (position : Int) : Int := position % 0x100000000

/-- The place and size of a cluster as words give them, and its number in the walk. -/
structure Cluster where
  offset : Int
  length : Int
  index : Nat
deriving DecidableEq, Repr

/-- The clusters of a text from a position on. -/
def clusters (context : Context) (bytes : Bytes) (start : Int) : Except Fault (List Cluster × Context) :=
  (context.clusters (behind bytes start) start.toNat).map (fun (found, context) =>
    (found.map (fun cluster =>
      let offset := word (positionOf start cluster.offset)
      ⟨offset, word (positionOf start (cluster.offset + cluster.length)) - offset, cluster.index⟩), context))

/-- The size of the cluster at a position; zero at the end of the text. -/
def firstCluster (context : Context) (bytes : Bytes) (position : Int) : Except Fault (Int × Context) :=
  (context.firstCluster (behind bytes position) position.toNat).map (fun (length, context) =>
    (if length = 0 then 0 else word (position + length) - position, context))

/-! ## Units -/

/-- The size of the unit at a position of the margin. -/
def sizeAt (granularity : Granularity) (bytes : Bytes) (position : Int) : Except Fault Int :=
  match granularity with
  | .cluster context => (firstCluster context bytes position).map Prod.fst
  | _ => .ok 1

/-- The value of a unit in the margin: a byte has none. -/
def valueIn : Granularity → Option Nat
  | .byte => none
  | _ => some Utf8.replacement

/-- Where a scan that finds nothing in the margin comes to the array, unless it is led past its end. -/
def landing (granularity : Granularity) (bytes : Bytes) (start : Int) : Except Fault (Option Nat) := do
  match granularity with
  | .cluster _ =>
    let size ← sizeAt granularity bytes start
    let next := start + size
    return if size = 0 ∨ bytes.length < next then none else some next.toNat
  | _ => return some 0

def unitAt (granularity : Granularity) (bytes : Bytes) (position : Int) : Except Fault (Int × Option Nat) := do
  if 0 ≤ position then
    let (size, value) ← granularity.unitAt bytes position.toNat
    return (size, some value)
  else return (← sizeAt granularity bytes position, valueIn granularity)

/-- The number of units that a scan passes in the margin. -/
def unitsBefore (granularity : Granularity) (bytes : Bytes) (start : Int) : Except Fault Nat := do
  match granularity with
  | .cluster _ => return if (← sizeAt granularity bytes start) = 0 then 0 else 1
  | _ => return width start

def count (granularity : Granularity) (bytes : Bytes) (start : Int) : Except Fault Nat := do
  if 0 ≤ start then granularity.count bytes start.toNat
  else
    let before ← unitsBefore granularity bytes start
    match ← landing granularity bytes start with
    | none => return before
    | some next => return before + (← granularity.count bytes next)

/-! ## Tokens -/

/-- The position past the separators at a position. There are none in the margin. -/
def skipSeparators (granularity : Granularity) (separator : Int) (bytes : Bytes) (start : Int) : Except Fault Int := do
  if 0 ≤ start then return ← granularity.skipSeparators separator bytes start.toNat
  else if separator ≠ Characters.space then return start
  else
    let _ ← sizeAt granularity bytes start
    return start

/-- Whether a separator is what a unit in the margin is read as. -/
def separatesIn (granularity : Granularity) (separator : Int) : Bool :=
  (valueIn granularity).any (fun value => (value : Int) == separator)

def findSeparator (granularity : Granularity) (separator : Int) (bytes : Bytes) (start : Int) :
    Except Fault (Option Int) := do
  if 0 ≤ start then return (← granularity.findSeparator separator bytes start.toNat).map Int.ofNat
  else if (← sizeAt granularity bytes start) ≠ 0 ∧ separatesIn granularity separator then return some start
  else
    match ← landing granularity bytes start with
    | none => return none
    | some next => return (← granularity.findSeparator separator bytes next).map Int.ofNat

def findNextToken (granularity : Granularity) (separator : Int) (bytes : Bytes) (start : Int) :
    Except Fault (Option Int) := do
  if 0 ≤ start then return (← granularity.findNextToken separator bytes start.toNat).map Int.ofNat
  else
    let size ← sizeAt granularity bytes start
    if size ≠ 0 ∧ separatesIn granularity separator then return some (start + size)
    else
      match ← landing granularity bytes start with
      | none => return none
      | some next => return (← granularity.findNextToken separator bytes next).map Int.ofNat

/-- An array that is being split, and the position of its next token until there is none. -/
structure TokenPlace where
  bytes : Bytes
  pos : Option Int
deriving DecidableEq, Repr

def TokenPlace.ofCursor (cursor : TokenCursor) : TokenPlace := ⟨cursor.bytes, cursor.pos.map Int.ofNat⟩

def TokenPlace.split (granularity : Granularity) (separator : Int) (place : TokenPlace) :
    Except Fault (Option Bytes × TokenPlace) := do
  match place.pos with
  | none => return (none, place)
  | some start =>
    if 0 ≤ start then
      let (token, after) ← granularity.split separator ⟨place.bytes, some start.toNat⟩
      return (token, .ofCursor after)
    else
      match ← findSeparator granularity separator place.bytes start with
      | none => return (some (slice place.bytes start (textEnd place.bytes start)), { place with pos := none })
      | some cut =>
        if 0 ≤ cut then
          let (_, after) ← granularity.split separator ⟨place.bytes, some cut.toNat⟩
          return (some (slice after.bytes start cut), .ofCursor after)
        else
          let next ← findNextToken granularity separator place.bytes start
          return (some (slice place.bytes start cut), { place with pos := next })

end BoundedText.Margin
