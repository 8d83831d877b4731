import BoundedText.Utf16
import BoundedText.Walk

/-!
# Clusters

A cluster is what a reader takes for one character; it may be several code points. Where clusters
end is decided by a segmenter, which works on strings. It is shown a text together with a table that
leads from every unit of the string back to the bytes that the unit was decoded from, so that clusters
are told by their bytes, malformed ones included.
-/

namespace BoundedText

/-- A segment of a string: the index of its first unit, and its units. -/
structure Segment where
  index : Nat
  units : Units
deriving DecidableEq, Repr

/-- A segmenter cuts a string into segments, in order. -/
abbrev Segmenter := Units → List Segment

/-- Strings in a row as segments, the first of which begins at an index. -/
def segmentsFrom : Nat → List Units → List Segment
  | _, [] => []
  | index, units :: others => ⟨index, units⟩ :: segmentsFrom (index + units.length) others

/-! ## Views -/

/-- What a segmenter is shown of a text: the string, the offset of the bytes of each unit and of the
end, and whether the text has ended there. -/
structure View where
  units : Units
  offsets : List Nat
  complete : Bool
deriving DecidableEq, Repr

namespace View

/-- The view of up to so many sequences at the head of an array, the first of which lies at an offset. -/
def upTo : Nat → Bytes → Nat → View
  | 0, rest, offset => ⟨[], [offset], (Utf8.decode rest).isNone⟩
  | limit + 1, rest, offset =>
    match Utf8.decode rest with
    | none => ⟨[], [offset], true⟩
    | some d =>
      let units := Utf16.ofCodepoint d.codepoint
      let more := upTo limit (rest.drop d.length) (offset + d.length)
      ⟨units ++ more.units, List.replicate units.length offset ++ more.offsets, more.complete⟩

/-- The view of a whole text, which has no more sequences than bytes. -/
def whole (rest : Bytes) (offset : Nat) : View := upTo rest.length rest offset

/-- The offset of the bytes of a unit, or of the end. A segmenter names no index past the end. -/
def offsetAt (view : View) (index : Nat) : Nat := view.offsets.getD index 0

/-- A view that is not the whole text has a sequence for each that it was allowed. -/
theorem lt_length_of_incomplete {limit : Nat} {rest : Bytes} {offset : Nat}
    (more : (upTo limit rest offset).complete ≠ true) : limit < rest.length := by
  induction limit generalizing rest offset with
  | zero =>
    cases rest with
    | nil => simp [upTo, Utf8.decode] at more
    | cons b rest => simp
  | succ limit ih =>
    cases found : Utf8.decode rest with
    | none => simp [upTo, found] at more
    | some d =>
      have := Utf8.decode_length found
      have later := @ih (rest.drop d.length) (offset + d.length) (by simpa [upTo, found] using more)
      rw [List.length_drop] at later
      omega

theorem offsets_le (limit : Nat) (rest : Bytes) (offset : Nat) :
    ∀ place ∈ (upTo limit rest offset).offsets, place ≤ offset + rest.length := by
  induction limit generalizing rest offset with
  | zero => simp [upTo]
  | succ limit ih =>
    cases found : Utf8.decode rest with
    | none => simp [upTo, found]
    | some d =>
      have size := (Utf8.decode_length found).2
      intro place member
      simp only [upTo, found, List.mem_append] at member
      rcases member with here | later
      · have same := List.eq_of_mem_replicate here
        omega
      · have inside := ih (rest.drop d.length) (offset + d.length) place later
        rw [List.length_drop] at inside
        omega

theorem offsetAt_le (limit : Nat) (rest : Bytes) (offset index : Nat) :
    (upTo limit rest offset).offsetAt index ≤ offset + rest.length := by
  rw [offsetAt, List.getD_eq_getElem?_getD]
  cases known : (upTo limit rest offset).offsets[index]? with
  | none => exact Nat.zero_le _
  | some place => exact offsets_le limit rest offset place (List.mem_of_getElem? known)

end View

/-! ## The walk -/

/-- The place and size of a cluster in bytes, and its number in the walk. -/
structure Cluster where
  offset : Nat
  length : Nat
  index : Nat
deriving DecidableEq, Repr

def View.cluster (view : View) (number : Nat) (segment : Segment) : Cluster :=
  let offset := view.offsetAt segment.index
  ⟨offset, view.offsetAt (segment.index + segment.units.length) - offset, number⟩

/-- The clusters of the text at the head of `rest`, which lies at `offset`. A segmenter is only shown a
text that is not empty. -/
def clustersFrom (segmenter : Segmenter) (rest : Bytes) (offset : Nat) : List Cluster :=
  let view := View.whole rest offset
  if view.units = [] then [] else (segmenter view.units).mapIdx view.cluster

def clusters (segmenter : Segmenter) (bytes : Bytes) (start : Nat) : List Cluster :=
  clustersFrom segmenter (bytes.drop start) start

def clusterCount (segmenter : Segmenter) (bytes : Bytes) : Nat := (clusters segmenter bytes 0).length

def clusterBreaks (segmenter : Segmenter) (bytes : Bytes) : List Nat :=
  (clusters segmenter bytes 0).map Cluster.offset

/-- Where so many clusters of a walk end, or the last one if it has fewer; an offset when none are left. -/
def endWithin (count : Nat) : Nat → List Cluster → Nat
  | reached, [] => reached
  | _, cluster :: later =>
    let reached := cluster.offset + cluster.length
    if count ≤ cluster.index + 1 then reached else endWithin count reached later

/-- The number of bytes up to the end of so many clusters, or of the last one. -/
def clusterPrefixLength (segmenter : Segmenter) (bytes : Bytes) (count : Nat) : Nat :=
  if count = 0 then 0 else endWithin count 0 (clusters segmenter bytes 0)

def Cluster.bytes (cluster : Cluster) (source : Bytes) : Bytes :=
  slice source cluster.offset (cluster.offset + cluster.length)

/-! ## Visitors -/

/-- Clusters shorter than this are handed to a visitor in the same few bytes, one after another. -/
def smallCluster : Nat := 33

/-- What a visitor makes of a cluster that it is handed: the bytes of the cluster, those of the text, the place
and the size of the cluster. It answers whether it wants more. -/
abbrev ClusterVisitor (σ : Type) := σ → Bytes → Bytes → Nat → Nat → σ × Bool

/-- The bytes that a visitor is handed for a cluster, and the scratch bytes after that. A small cluster is copied
to the head of these and ended with a NUL, a large one is copied by itself. -/
def Cluster.handOut (cluster : Cluster) (scratch source : Bytes) : Bytes × Bytes :=
  if cluster.length < smallCluster then
    let scratch := overwrite (overwrite scratch 0 (cluster.bytes source)) cluster.length [0]
    (scratch.take cluster.length, scratch)
  else (cluster.bytes source, scratch)

/-- Hands clusters to a visitor until it wants no more; answers whether it was handed all of them. -/
def visitFrom {σ : Type} (visitor : ClusterVisitor σ) (source : Bytes) : Bytes → List Cluster → σ → σ × Bool
  | _, [], state => (state, true)
  | scratch, cluster :: later, state =>
    let (handed, scratch) := cluster.handOut scratch source
    let (state, more) := visitor state handed source cluster.offset cluster.length
    if more then visitFrom visitor source scratch later state else (state, false)

def visitClusters {σ : Type} (segmenter : Segmenter) (bytes : Bytes) (visitor : ClusterVisitor σ) (state : σ) :
    σ × Bool :=
  visitFrom visitor bytes (List.replicate smallCluster 0) (clusters segmenter bytes 0) state

/-! ## The first cluster -/

/-- The size of the first cluster, looked for in a window that is doubled while the cluster fills it.
A break before the end of the window has the code point after it in view. -/
def firstWithin (segmenter : Segmenter) (rest : Bytes) (size : Nat) : Nat :=
  let view := View.upTo size rest 0
  if _empty : view.units = [] then 0
  else
    match segmenter view.units with
    | [] => 0
    | first :: _ =>
      if _ended : first.units.length < view.units.length ∨ view.complete = true then
        view.offsetAt first.units.length
      else firstWithin segmenter rest (2 * size)
termination_by rest.length - size
decreasing_by
  have inside := View.lt_length_of_incomplete (fun all => _ended (.inr all))
  have positive : 0 < size := by
    rcases Nat.eq_zero_or_pos size with rfl | positive
    · exact absurd rfl _empty
    · exact positive
  omega

/-- How many code points a lookup sees at first. -/
def windowSize : Nat := 32

/-- The size of the cluster at the head of an array; zero at the end of the text. -/
def firstCluster (segmenter : Segmenter) (rest : Bytes) : Nat := firstWithin segmenter rest windowSize

theorem firstCluster_le (segmenter : Segmenter) (rest : Bytes) : firstCluster segmenter rest ≤ rest.length := by
  unfold firstCluster
  generalize windowSize = size
  fun_induction firstWithin segmenter rest size with
  | case1 => simp
  | case2 => simp
  | case3 size view nonempty first _ _ ended =>
    have inside := View.offsetAt_le size rest 0 first.units.length
    rwa [Nat.zero_add] at inside
  | case4 _ _ _ _ _ _ _ ih => exact ih

end BoundedText
