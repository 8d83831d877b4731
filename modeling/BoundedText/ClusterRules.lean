import BoundedText.BreakTables
import BoundedText.Clusters

/-!
# Where clusters end

The rules of Unicode for extended grapheme clusters. Whether there is a break between two code points
depends on their kinds and on three facts about what came before: whether it ends a conjunct that
wants a consonant, whether it ends a pictograph that a joiner follows, and whether an odd number of
regional indicators stands there.
-/

namespace BoundedText

/-- The kinds of code point that the rules tell apart. -/
inductive BreakKind where
  | other
  | carriageReturn
  | lineFeed
  | control
  | extend
  | linker
  | nonJoiner
  | joiner
  | regional
  | prepend
  | spacingMark
  | leading
  | vowel
  | trailing
  | openSyllable
  | closedSyllable
  | consonant
  | pictograph
deriving DecidableEq, Repr

namespace BreakKind

/-- The kind of a code point. Syllables of Hangul lie in blocks of 28, the first of which is open. -/
def ofCodepoint (c : Nat) : BreakKind :=
  if c = 0x0D then .carriageReturn
  else if c = 0x0A then .lineFeed
  else if 0x20 ≤ c ∧ c < 0x7F then .other
  else if 0xAC00 ≤ c ∧ c ≤ 0xD7A3 then if (c - 0xAC00) % 28 = 0 then .openSyllable else .closedSyllable
  else if c = 0x200C then .nonJoiner
  else if c = 0x200D then .joiner
  else if BreakTables.linker.contains c then .linker
  else if BreakTables.extend.contains c then .extend
  else if BreakTables.control.contains c then .control
  else if BreakTables.spacingMark.contains c then .spacingMark
  else if BreakTables.consonant.contains c then .consonant
  else if BreakTables.pictograph.contains c then .pictograph
  else if BreakTables.regional.contains c then .regional
  else if BreakTables.prepend.contains c then .prepend
  else if BreakTables.leading.contains c then .leading
  else if BreakTables.vowel.contains c then .vowel
  else if BreakTables.trailing.contains c then .trailing
  else .other

/-- The kinds that always have a break on both sides. -/
def isControl : BreakKind → Bool
  | .carriageReturn | .lineFeed | .control => true
  | _ => false

/-- The marks that stay with what comes before them. -/
def isExtend : BreakKind → Bool
  | .extend | .linker | .nonJoiner => true
  | _ => false

/-- Whether a syllable of Hangul goes on from one kind to the other. -/
def joinsSyllable : BreakKind → BreakKind → Bool
  | .leading, .leading | .leading, .vowel | .leading, .openSyllable | .leading, .closedSyllable => true
  | .openSyllable, .vowel | .openSyllable, .trailing | .vowel, .vowel | .vowel, .trailing => true
  | .closedSyllable, .trailing | .trailing, .trailing => true
  | _, _ => false

end BreakKind

/-- How far a conjunct has come: nowhere, to a consonant, or to a consonant and a linker. -/
inductive Conjunct where
  | nothing
  | consonant
  | linked
deriving DecidableEq, Repr

/-- How far a sequence of pictographs has come: nowhere, to a pictograph, or to a joiner after one. -/
inductive Emblem where
  | nothing
  | pictograph
  | joined
deriving DecidableEq, Repr

/-- What the rules remember of the code points before a place. -/
structure BreakState where
  before : BreakKind
  conjunct : Conjunct
  emblem : Emblem
  oddRegional : Bool
deriving DecidableEq, Repr

namespace BreakState

/-- The conjunct after one more code point. -/
def nextConjunct (conjunct : Conjunct) : BreakKind → Conjunct
  | .consonant => .consonant
  | .linker => if conjunct = .nothing then .nothing else .linked
  | .extend | .joiner => conjunct
  | _ => .nothing

def nextEmblem (emblem : Emblem) (kind : BreakKind) : Emblem :=
  if kind = .pictograph then .pictograph
  else if kind.isExtend then if emblem = .pictograph then .pictograph else .nothing
  else if kind = .joiner then if emblem = .pictograph then .joined else .nothing
  else .nothing

def start (kind : BreakKind) : BreakState :=
  ⟨kind, nextConjunct .nothing kind, nextEmblem .nothing kind, kind == .regional⟩

def next (state : BreakState) (kind : BreakKind) : BreakState :=
  ⟨kind, nextConjunct state.conjunct kind, nextEmblem state.emblem kind,
    kind == .regional && !(state.before == .regional && state.oddRegional)⟩

/-- Whether a code point stays in the cluster of the one before it. -/
def joins (state : BreakState) (kind : BreakKind) : Bool :=
  if state.before = .carriageReturn ∧ kind = .lineFeed then true
  else if state.before.isControl || kind.isControl then false
  else
    state.before.joinsSyllable kind || kind.isExtend || kind == .joiner || kind == .spacingMark ||
      state.before == .prepend || (state.conjunct == .linked && kind == .consonant) ||
      (state.emblem == .joined && kind == .pictograph) ||
      (state.before == .regional && state.oddRegional && kind == .regional)

end BreakState

/-- What is left of the cluster that a state is in, and the clusters after it. -/
def clustersAfter (state : BreakState) : List Nat → List Nat × List (List Nat)
  | [] => ([], [])
  | c :: rest =>
    let kind := BreakKind.ofCodepoint c
    let (same, later) := clustersAfter (state.next kind) rest
    if state.joins kind then (c :: same, later) else ([], (c :: same) :: later)

/-- The clusters of code points. -/
def graphemeParts : List Nat → List (List Nat)
  | [] => []
  | c :: rest =>
    let (same, later) := clustersAfter (.start (BreakKind.ofCodepoint c)) rest
    (c :: same) :: later

/-- Code points two by two; the last may be alone. -/
def pairParts : List Nat → List (List Nat)
  | [] => []
  | [c] => [[c]]
  | c :: d :: rest => [c, d] :: pairParts rest

/-- The segmenter that cuts the code points of a string into parts. -/
def Segmenter.ofParts (parts : List Nat → List (List Nat)) : Segmenter := fun units =>
  segmentsFrom 0 ((parts (Utf16.codepoints units)).map Utf16.ofCodepoints)

/-- The segmenter that cuts a text into extended grapheme clusters. -/
def graphemes : Segmenter := Segmenter.ofParts graphemeParts

def wholeText : Segmenter := fun units => [⟨0, units⟩]

def singles : Segmenter := Segmenter.ofParts (fun text => text.map ([·]))

def pairs : Segmenter := Segmenter.ofParts pairParts

/-- The segmenter that finds no segment at all. -/
def noSegments : Segmenter := fun _ => []

end BoundedText
