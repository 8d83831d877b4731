import BoundedText.Clusters

/-!
# Units of text

A unit says how many bytes the first unit of a text takes up and which value it has, so that
counting, measuring and scanning are written once for bytes, code points and clusters.
-/

namespace BoundedText

inductive UnitKind where
  | byte
  | codepoint
  | cluster
deriving DecidableEq, Repr

/-- A way to take a text apart. Length and value are those of the unit at the head of what is left of
the text; the length is zero at its end and never more than is left. -/
structure TextUnit where
  kind : UnitKind
  length : Bytes → Nat
  value : Bytes → Nat
  length_le : ∀ rest, length rest ≤ rest.length

/-- The first code point of a text, zero at its end. -/
def headCodepoint (rest : Bytes) : Nat :=
  match Utf8.decode rest with
  | none => 0
  | some d => d.codepoint

/-- The size of the first sequence of a text, zero at its end. -/
def headLength (rest : Bytes) : Nat :=
  match Utf8.decode rest with
  | none => 0
  | some d => d.length

theorem headLength_le (rest : Bytes) : headLength rest ≤ rest.length := by
  unfold headLength
  split
  · simp
  · rename_i found
    exact (Utf8.decode_length found).2

namespace TextUnit

def byte : TextUnit where
  kind := .byte
  length rest := if rest.head?.any (· != 0) then 1 else 0
  value rest := (rest.head?.map UInt8.toNat).getD 0
  length_le rest := by cases rest <;> simp; split <;> omega

def codepoint : TextUnit where
  kind := .codepoint
  length := headLength
  value := headCodepoint
  length_le := headLength_le

/-- Clusters; the value of a cluster is its first code point. -/
def cluster (segmenter : Segmenter) : TextUnit where
  kind := .cluster
  length := firstCluster segmenter
  value := headCodepoint
  length_le := firstCluster_le segmenter

/-- The number of units of a text. -/
def count (unit : TextUnit) (rest : Bytes) : Nat :=
  if _more : unit.length rest = 0 then 0 else 1 + unit.count (rest.drop (unit.length rest))
termination_by rest.length
decreasing_by
  have := unit.length_le rest
  simp only [List.length_drop]
  omega

/-- The number of bytes of the first units of a text. -/
def prefixLength (unit : TextUnit) : Nat → Bytes → Nat
  | 0, _ => 0
  | count + 1, rest =>
    if unit.length rest = 0 then 0
    else unit.length rest + unit.prefixLength count (rest.drop (unit.length rest))

end TextUnit

end BoundedText
