import BoundedText.CaseTables
import BoundedText.Casing
import BoundedText.LetterTables

/-!
# Letter case by the Unicode tables

The capitals and small letters of single code points and of whole strings. In a string a capital sigma
becomes a final sigma where a cased letter comes before it and none after it, marks between left out.
-/

namespace BoundedText

/-- The other case of a code point by the tables; one that is in neither of them stays. -/
def mapCase (runs : Array CaseRun) (sequences : List (Nat × List Nat)) (c : Nat) : List Nat :=
  match otherCase runs c with
  | some other => [other]
  | none => (sequences.lookup c).getD [c]

def capitalOf : CaseMapping := mapCase CaseTables.capitalRuns CaseTables.capitalSequences

def smallOf : CaseMapping := mapCase CaseTables.smallRuns CaseTables.smallSequences

def capitalSigma : Nat := 0x3A3
def finalSigma : Nat := 0x3C2

/-- Whether the first code point that words do not leave out is a cased letter. -/
def meetsCased (codepoints : List Nat) : Bool :=
  match codepoints.dropWhile LetterTables.ignorable.contains with
  | c :: _ => LetterTables.cased.contains c
  | [] => false

/-- Whether what was read so far ends in a cased letter, after one more code point. -/
def endsCased (before : Bool) (c : Nat) : Bool :=
  if LetterTables.ignorable.contains c then before else LetterTables.cased.contains c

/-- The small form of code points that come after others. -/
def smallFrom (before : Bool) : List Nat → List Nat
  | [] => []
  | c :: rest =>
    (if c = capitalSigma ∧ before ∧ !meetsCased rest then [finalSigma] else smallOf c) ++
      smallFrom (endsCased before c) rest

def toCapitals (units : Units) : Units := Utf16.ofCodepoints ((Utf16.codepoints units).flatMap capitalOf)

def toSmall (units : Units) : Units := Utf16.ofCodepoints (smallFrom false (Utf16.codepoints units))

end BoundedText
