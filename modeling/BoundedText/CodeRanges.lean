/-!
# Tables of code points

Sorted ranges of code points, and sorted runs of letters with the distance to their other case. Both
are looked up by halving.
-/

namespace BoundedText

/-- Ranges of code points, each from its first to its last, in order and apart. -/
abbrev CodeRanges := Array (Nat × Nat)

/-- Letters at equal steps, each at the same distance from its other case. -/
structure CaseRun where
  first : Nat
  last : Nat
  step : Nat
  distance : Int
deriving DecidableEq, Repr

/-- The entry between two places of a sorted table that a code point is not before and not after. -/
def searchBetween {α : Type} (table : Array α) (first last : α → Nat) (c : Nat) (low high : Nat) : Option α :=
  if _open : low < high then
    let middle := (low + high) / 2
    match table[middle]? with
    | none => none
    | some entry =>
      if c < first entry then searchBetween table first last c low middle
      else if last entry < c then searchBetween table first last c (middle + 1) high
      else some entry
  else none
termination_by high - low

/-- Whether a code point lies in one of the ranges. -/
def CodeRanges.contains (ranges : CodeRanges) (c : Nat) : Bool :=
  (searchBetween ranges Prod.fst Prod.snd c 0 ranges.size).isSome

/-- The other case of a code point, when it is in one of the runs. -/
def otherCase (runs : Array CaseRun) (c : Nat) : Option Nat :=
  match searchBetween runs CaseRun.first CaseRun.last c 0 runs.size with
  | some run => if (c - run.first) % run.step = 0 then some ((c : Int) + run.distance).toNat else none
  | none => none

end BoundedText
