import BoundedText.Granularity
import BoundedText.Proofs.Locality

/-!
# Clustering

The lookup of one cluster sees a window of the text, and the walk all of it. With a local segmenter both
find the same first cluster (`firstCluster_eq`), and a walk goes on after it as the walk of what is left
(`clustersFrom_next`). So looking clusters up one after another is walking them
(`lookup_agrees_with_walk`).
-/

namespace BoundedText
open Utf8

/-! ## Views -/

namespace View

private theorem upTo_end {rest : Bytes} (ended : decode rest = none) (limit offset : Nat) :
    upTo limit rest offset = ⟨[], [offset], true⟩ := by
  cases limit <;> simp [upTo, ended]

private theorem upTo_next {rest : Bytes} {d : Decoded} (found : decode rest = some d) (limit offset : Nat) :
    upTo (limit + 1) rest offset =
      ⟨Utf16.ofCodepoint d.codepoint ++ (upTo limit (rest.drop d.length) (offset + d.length)).units,
        List.replicate (Utf16.ofCodepoint d.codepoint).length offset ++
          (upTo limit (rest.drop d.length) (offset + d.length)).offsets,
        (upTo limit (rest.drop d.length) (offset + d.length)).complete⟩ := by
  rw [upTo, found]

private theorem units_upTo (limit : Nat) (rest : Bytes) (offset : Nat) :
    (upTo limit rest offset).units = Utf16.ofCodepoints ((codepointsOf rest).take limit) := by
  induction limit generalizing rest offset with
  | zero => rfl
  | succ limit ih =>
    cases found : decode rest with
    | none => rw [upTo_end found, codepointsOf_end found, List.take_nil]; rfl
    | some d => rw [upTo_next found, ih, codepointsOf_next found, List.take_succ_cons]; rfl

/-- A view is complete when it was allowed all code points of the text. -/
theorem complete_upTo (limit : Nat) (rest : Bytes) (offset : Nat) :
    (upTo limit rest offset).complete = true ↔ (codepointsOf rest).length ≤ limit := by
  induction limit generalizing rest offset with
  | zero =>
    cases found : decode rest with
    | none => simp [upTo, found, codepointsOf_end found]
    | some d => simp [upTo, found, codepointsOf_next found]
  | succ limit ih =>
    cases found : decode rest with
    | none => simp [upTo_end found, codepointsOf_end found]
    | some d => simp [upTo_next found, ih, codepointsOf_next found]

private theorem offsetAt_zero (limit : Nat) (rest : Bytes) (offset : Nat) :
    (upTo limit rest offset).offsetAt 0 = offset := by
  cases limit with
  | zero => rfl
  | succ limit =>
    cases found : decode rest with
    | none => rw [upTo_end found]; rfl
    | some d =>
      obtain ⟨n, size⟩ := Nat.exists_eq_succ_of_ne_zero (Utf16.length_ofCodepoint_pos d.codepoint).ne'
      rw [upTo_next found, size]
      rfl

/-- Past the units of the first code points, the table of a view is that of what is left of the text. -/
theorem offsetAt_add (count limit : Nat) (rest : Bytes) (offset index : Nat) :
    (upTo (count + limit) rest offset).offsetAt
        ((Utf16.ofCodepoints ((codepointsOf rest).take count)).length + index) =
      (upTo limit (rest.drop (codepointPrefixLength rest (.atMost count)))
        (offset + codepointPrefixLength rest (.atMost count))).offsetAt index := by
  induction count generalizing rest offset with
  | zero => simp [prefixLength_zero, Utf16.ofCodepoints]
  | succ count ih =>
    cases found : decode rest with
    | none =>
      simp [prefixLength_end found, codepointsOf_end found, Utf16.ofCodepoints, upTo_end found]
    | some d =>
      have later := ih (rest.drop d.length) (offset + d.length)
      have units : Utf16.ofCodepoints ((codepointsOf rest).take (count + 1)) =
          Utf16.ofCodepoint d.codepoint ++ Utf16.ofCodepoints ((codepointsOf (rest.drop d.length)).take count) := by
        rw [codepointsOf_next found, List.take_succ_cons]
        rfl
      rw [Nat.add_right_comm, upTo_next found, units, List.length_append, prefixLength_next found, ← List.drop_drop,
        ← Nat.add_assoc, ← later, offsetAt, offsetAt, Nat.add_assoc, List.getD_eq_getElem?_getD,
        List.getD_eq_getElem?_getD, List.getElem?_append_right (by rw [List.length_replicate]; omega)]
      rw [List.length_replicate, Nat.add_sub_cancel_left]

/-- A view that was allowed all code points of the text is the same whatever else it was allowed. -/
theorem upTo_congr {first second : Nat} {rest : Bytes} (enough : (codepointsOf rest).length ≤ first)
    (enough' : (codepointsOf rest).length ≤ second) (offset : Nat) :
    upTo first rest offset = upTo second rest offset := by
  induction first generalizing second rest offset with
  | zero =>
    cases found : decode rest with
    | none => rw [upTo_end found, upTo_end found]
    | some d => simp [codepointsOf_next found] at enough
  | succ first ih =>
    cases found : decode rest with
    | none => rw [upTo_end found, upTo_end found]
    | some d =>
      rw [codepointsOf_next found, List.length_cons] at enough enough'
      obtain ⟨second, rfl⟩ : ∃ n, second = n + 1 := ⟨second - 1, by omega⟩
      rw [upTo_next found, upTo_next found, ih (by omega) (show _ ≤ second by omega)]

end View

private theorem length_codepointsOf_le (rest : Bytes) : (codepointsOf rest).length ≤ rest.length := by
  rw [← View.complete_upTo rest.length rest 0]
  by_contra more
  exact Nat.lt_irrefl _ (View.lt_length_of_incomplete more)

theorem scalars_codepointsOf (rest : Bytes) : Scalars (codepointsOf rest) := fun _ member =>
  (scalar_of_mem_codepointsOf member).1

/-! ## The first cluster -/

section cluster
variable {segmenter : Segmenter} {rest : Bytes} {part : List Nat} {parts : List (List Nat)}

/-- The offset at which the first part of a text ends. -/
theorem offsetAt_first {limit : Nat} (whole : codepointsOf rest = part ++ parts.flatten) (seen : part.length ≤ limit)
    (offset index : Nat) :
    (View.upTo limit rest offset).offsetAt ((Utf16.ofCodepoints part).length + index) =
      (View.upTo (limit - part.length) (rest.drop (codepointPrefixLength rest (.atMost part.length)))
        (offset + codepointPrefixLength rest (.atMost part.length))).offsetAt index := by
  have front : (codepointsOf rest).take part.length = part := by rw [whole, List.take_left]
  have skip := View.offsetAt_add part.length (limit - part.length) rest offset index
  rwa [front, Nat.add_sub_cancel' seen] at skip

/-- A text that is not empty has a first part in every window. -/
theorem window_first (isLocal : segmenter.Local) (filled : codepointsOf rest ≠ []) {size : Nat} (positive : 0 < size) :
    ∃ part parts, Tiles segmenter ((codepointsOf rest).take size) (part :: parts) := by
  have shown : (codepointsOf rest).take size ≠ [] := by simp [filled, positive.ne']
  have scalars : Scalars ((codepointsOf rest).take size) := fun c member =>
    scalars_codepointsOf rest c (List.mem_of_mem_take member)
  exact isLocal.cuts.first scalars shown

/-- The first part of a window that shows all of the text, or more than that part, is that of the text. -/
theorem window_part {part' : List Nat} {parts' : List (List Nat)} {size : Nat} (isLocal : segmenter.Local)
    (tiles : Tiles segmenter (codepointsOf rest) (part :: parts))
    (window : Tiles segmenter ((codepointsOf rest).take size) (part' :: parts'))
    (ended : parts'.flatten ≠ [] ∨ (codepointsOf rest).length ≤ size) : part' = part := by
  have scalars := scalars_codepointsOf rest
  rcases ended with inside | complete
  · rw [← List.take_append_drop size (codepointsOf rest)] at scalars tiles
    exact isLocal.extended scalars window inside tiles
  · rw [List.take_of_length_le complete] at window
    exact (List.cons.inj (window.unique tiles scalars)).1

/-- The lookup finds the first part of the text in a window of any size. -/
theorem firstWithin_eq (isLocal : segmenter.Local) (tiles : Tiles segmenter (codepointsOf rest) (part :: parts))
    {size : Nat} (positive : 0 < size) :
    firstWithin segmenter rest size = codepointPrefixLength rest (.atMost part.length) := by
  obtain ⟨some, whole, -⟩ := tiles.first
  have filled : codepointsOf rest ≠ [] := by
    rw [whole]
    simp [some]
  fun_induction firstWithin segmenter rest size with
  | case1 size view empty =>
    rw [View.units_upTo, Utf16.ofCodepoints_eq_nil, List.take_eq_nil_iff] at empty
    exact absurd empty (not_or.2 ⟨positive.ne', filled⟩)
  | case2 size view _ none =>
    obtain ⟨part', parts', window⟩ := window_first isLocal filled positive
    rw [View.units_upTo, window.first.2.2] at none
    cases none
  | case3 size view _ first others segments ended =>
    obtain ⟨part', parts', window⟩ := window_first isLocal filled positive
    obtain ⟨-, shown, cut⟩ := window.first
    rw [View.units_upTo] at segments ended
    rw [cut] at segments
    obtain ⟨rfl, -⟩ := List.cons.inj segments
    -- A break inside the window has the next code point in view, and a complete window hides none.
    have more : parts'.flatten ≠ [] ∨ (codepointsOf rest).length ≤ size := by
      rcases ended with shorter | complete
      · refine .inl fun nothing => ?_
        rw [shown, nothing, List.append_nil] at shorter
        exact Nat.lt_irrefl _ shorter
      · exact .inr ((View.complete_upTo size rest 0).1 complete)
    obtain rfl := window_part isLocal tiles window more
    have seen : part'.length ≤ size := by
      have sizes := congrArg List.length shown
      rw [List.length_append, List.length_take] at sizes
      omega
    have place := offsetAt_first whole seen 0 0
    rwa [View.offsetAt_zero, Nat.add_zero, Nat.zero_add] at place
  | case4 size view _ first others segments _ ih => exact ih (by omega)

theorem firstCluster_eq (isLocal : segmenter.Local) (tiles : Tiles segmenter (codepointsOf rest) (part :: parts)) :
    firstCluster segmenter rest = codepointPrefixLength rest (.atMost part.length) :=
  firstWithin_eq isLocal tiles (by decide)

/-! ## The walk -/

/-- A cluster as a walk that began one cluster earlier numbers it. -/
def Cluster.later (cluster : Cluster) : Cluster := { cluster with index := cluster.index + 1 }

private theorem View.units_whole (rest : Bytes) (offset : Nat) :
    (View.whole rest offset).units = Utf16.ofCodepoints (codepointsOf rest) := by
  rw [View.whole, View.units_upTo, List.take_of_length_le (length_codepointsOf_le rest)]

private theorem firstCluster_end (ended : codepointsOf rest = []) : firstCluster segmenter rest = 0 := by
  have empty : (View.upTo windowSize rest 0).units = [] := by
    rw [View.units_upTo, ended, List.take_nil]
    rfl
  rw [firstCluster, firstWithin, dif_pos empty]

theorem clustersFrom_end (ended : codepointsOf rest = []) (offset : Nat) : clustersFrom segmenter rest offset = [] := by
  have empty : (View.whole rest offset).units = [] := by rw [View.units_whole, Utf16.ofCodepoints_eq_nil, ended]
  rw [clustersFrom, if_pos empty]

/-- The clusters that parts of a text are, by the table of the whole text. -/
def clustersOf (parts : List (List Nat)) (rest : Bytes) (offset : Nat) : List Cluster :=
  (segmentsFrom 0 (parts.map Utf16.ofCodepoints)).mapIdx (View.whole rest offset).cluster

theorem clustersFrom_tiles (tiles : Tiles segmenter (codepointsOf rest) parts) (some : parts.flatten ≠ []) (offset : Nat) :
    clustersFrom segmenter rest offset = clustersOf parts rest offset := by
  have filled : Utf16.ofCodepoints (codepointsOf rest) ≠ [] := by rwa [Ne, Utf16.ofCodepoints_eq_nil, ← tiles.flatten]
  rw [clustersFrom, View.units_whole, if_neg filled, tiles.segments, clustersOf]

/-- Past the first part of a text, the table of the whole text is that of what is left. -/
theorem offsetAt_whole (whole : codepointsOf rest = part ++ parts.flatten) {size : Nat}
    (measured : size = codepointPrefixLength rest (.atMost part.length)) (offset index : Nat) :
    (View.whole rest offset).offsetAt ((Utf16.ofCodepoints part).length + index) =
      (View.whole (rest.drop size) (offset + size)).offsetAt index := by
  have left : (codepointsOf (rest.drop size)).length = (codepointsOf rest).length - part.length := by
    rw [measured, codepointsOf_drop, List.length_drop]
  have inside : part.length ≤ (codepointsOf rest).length := by
    rw [whole, List.length_append]
    exact Nat.le_add_right _ _
  have all := length_codepointsOf_le rest
  rw [View.whole, offsetAt_first whole (inside.trans all), ← measured, View.whole]
  rw [View.upTo_congr (by omega) (length_codepointsOf_le _)]

/-- The first part of a text is a cluster at its head, and the others are the clusters of what is left. -/
theorem clustersOf_cons (whole : codepointsOf rest = part ++ parts.flatten) {size : Nat}
    (measured : size = codepointPrefixLength rest (.atMost part.length)) (offset : Nat) :
    clustersOf (part :: parts) rest offset =
      ⟨offset, size, 0⟩ :: (clustersOf parts (rest.drop size) (offset + size)).map Cluster.later := by
  have place := offsetAt_whole whole measured offset
  have head : (View.whole rest offset).cluster 0 ⟨0, Utf16.ofCodepoints part⟩ = ⟨offset, size, 0⟩ := by
    have ends := place 0
    rw [Nat.add_zero, View.whole, View.whole, View.offsetAt_zero] at ends
    rw [View.cluster, View.whole, View.offsetAt_zero, Nat.zero_add, ends, Nat.add_sub_cancel_left]
  have shifted := segmentsFrom_add (Utf16.ofCodepoints part).length 0 (parts.map Utf16.ofCodepoints)
  rw [Nat.add_zero] at shifted
  rw [clustersOf, List.map_cons, segmentsFrom, List.mapIdx_cons, head, Nat.zero_add, shifted, clustersOf]
  congr 1
  apply List.ext_getElem
  · simp
  · intro i _ _
    simp only [List.getElem_mapIdx, List.getElem_map, View.cluster, Cluster.later, place, Nat.add_assoc]

/-- The code points after the first part of a text are those of the parts after it. -/
theorem codepointsOf_later (whole : codepointsOf rest = part ++ parts.flatten) {size : Nat}
    (measured : size = codepointPrefixLength rest (.atMost part.length)) :
    codepointsOf (rest.drop size) = parts.flatten := by
  rw [measured, codepointsOf_drop, whole, List.drop_left]

/-- A text begins with a sequence of bytes if it begins with a part that is not empty, which takes up that at least. -/
theorem decode_first (filled : part ≠ []) (whole : codepointsOf rest = part ++ parts.flatten) :
    ∃ d, decode rest = some d ∧ d.length ≤ codepointPrefixLength rest (.atMost part.length) := by
  obtain ⟨count, size⟩ := Nat.exists_eq_succ_of_ne_zero (List.length_pos_iff.2 filled).ne'
  cases found : decode rest with
  | none =>
    rw [codepointsOf_end found] at whole
    exact absurd (List.append_eq_nil_iff.1 whole.symm).1 filled
  | some d =>
    rw [size, Nat.succ_eq_add_one, prefixLength_next found]
    exact ⟨d, rfl, Nat.le_add_right _ _⟩

/-- A walk that begins with the first part of a text goes on as the walk of what is left. -/
theorem clustersFrom_first (isLocal : segmenter.Local) (tiles : Tiles segmenter (codepointsOf rest) (part :: parts))
    {size : Nat} (measured : size = codepointPrefixLength rest (.atMost part.length)) (offset : Nat) :
    clustersFrom segmenter rest offset =
      ⟨offset, size, 0⟩ :: (clustersFrom segmenter (rest.drop size) (offset + size)).map Cluster.later := by
  obtain ⟨some, whole, -⟩ := tiles.first
  have left := codepointsOf_later whole measured
  have filled : (part :: parts).flatten ≠ [] := by simp [some]
  rw [clustersFrom_tiles tiles filled, clustersOf_cons whole measured]
  -- A local segmenter restarts where text is left; where none is, it is not asked at all.
  by_cases inside : parts.flatten = []
  · obtain rfl := tiles.flatten_eq_nil inside
    rw [clustersFrom_end (left.trans inside)]
    rfl
  · have later := isLocal.rest (scalars_codepointsOf rest) tiles inside
    rw [← left] at later
    rw [clustersFrom_tiles later inside]

/-- A walk takes one cluster as the lookup finds it, and goes on as the walk of what is left. -/
theorem clustersFrom_next (isLocal : segmenter.Local) (more : codepointsOf rest ≠ []) (offset : Nat) :
    0 < firstCluster segmenter rest ∧
      clustersFrom segmenter rest offset =
        ⟨offset, firstCluster segmenter rest, 0⟩ ::
          (clustersFrom segmenter (rest.drop (firstCluster segmenter rest))
            (offset + firstCluster segmenter rest)).map Cluster.later := by
  obtain ⟨part, parts, tiles⟩ := isLocal.cuts.first (scalars_codepointsOf rest) more
  have measured := firstCluster_eq isLocal tiles
  obtain ⟨filled, whole, -⟩ := tiles.first
  obtain ⟨d, found, within⟩ := decode_first filled whole
  rw [← measured] at within
  exact ⟨(decode_length found).1.trans_le within, clustersFrom_first isLocal tiles measured offset⟩

/-! ## Clusters looked up one after another -/

private theorem firstCluster_eq_zero (isLocal : segmenter.Local) :
    firstCluster segmenter rest = 0 ↔ codepointsOf rest = [] := by
  constructor
  · intro zero
    by_contra more
    exact (clustersFrom_next isLocal more 0).1.ne' zero
  · exact firstCluster_end

private theorem TextUnit.count_end (ended : codepointsOf rest = []) : (TextUnit.cluster segmenter).count rest = 0 := by
  rw [TextUnit.count]
  exact dif_pos (firstCluster_end ended)

theorem TextUnit.prefixLength_end (ended : codepointsOf rest = []) (count : Nat) :
    (TextUnit.cluster segmenter).prefixLength count rest = 0 := by
  cases count with
  | zero => rfl
  | succ count => exact if_pos (firstCluster_end ended)

private theorem TextUnit.length_cluster (segmenter : Segmenter) (rest : Bytes) :
    (TextUnit.cluster segmenter).length rest = firstCluster segmenter rest := rfl

/-- Looking clusters up finds as many as the walk. -/
theorem count_cluster (isLocal : segmenter.Local) (rest : Bytes) (offset : Nat) :
    (TextUnit.cluster segmenter).count rest = (clustersFrom segmenter rest offset).length := by
  fun_induction TextUnit.count (TextUnit.cluster segmenter) rest generalizing offset with
  | case1 rest ended =>
    rw [clustersFrom_end ((firstCluster_eq_zero isLocal).1 ended)]
    rfl
  | case2 rest more ih =>
    obtain ⟨-, walked⟩ := clustersFrom_next isLocal ((firstCluster_eq_zero isLocal).not.1 more) offset
    rw [walked, List.length_cons, List.length_map, TextUnit.length_cluster, Nat.add_comm]
    exact congrArg (· + 1) (ih _)

/-- Where the last cluster of a walk ends, or the walk began. -/
def walkEnd (start : Nat) (walked : List Cluster) : Nat :=
  match walked.getLast? with
  | some cluster => cluster.offset + cluster.length
  | none => start

private theorem walkEnd_cons (start : Nat) (cluster : Cluster) (walked : List Cluster) :
    walkEnd start (cluster :: walked) = walkEnd (cluster.offset + cluster.length) walked := by
  rw [walkEnd, walkEnd, List.getLast?_cons]
  cases walked.getLast? <;> rfl

private theorem walkEnd_later (start : Nat) (walked : List Cluster) :
    walkEnd start (walked.map Cluster.later) = walkEnd start walked := by
  rw [walkEnd, walkEnd, List.getLast?_map]
  cases walked.getLast? <;> rfl

/-- A walk numbers its clusters. -/
theorem index_clustersFrom (segmenter : Segmenter) (rest : Bytes) (offset : Nat) :
    (clustersFrom segmenter rest offset).map Cluster.index =
      List.range' 0 (clustersFrom segmenter rest offset).length := by
  rw [clustersFrom]
  split
  · rfl
  · apply List.ext_getElem
    · simp
    · intro i _ _
      simp [View.cluster]

/-- Counting by the numbers of clusters stops at the end of so many of them. -/
theorem endWithin_eq {count number : Nat} (more : number < count) {walked : List Cluster}
    (numbered : walked.map Cluster.index = List.range' number walked.length) (reached : Nat) :
    endWithin count reached walked = walkEnd reached (walked.take (count - number)) := by
  induction walked generalizing number reached with
  | nil => rw [List.take_nil]; rfl
  | cons cluster walked ih =>
    rw [List.map_cons, List.length_cons, List.range'_succ, List.cons.injEq] at numbered
    obtain ⟨index, later⟩ := numbered
    obtain ⟨left, size⟩ : ∃ n, count - number = n + 1 := ⟨count - number - 1, by omega⟩
    rw [endWithin, index, size, List.take_succ_cons, walkEnd_cons]
    split
    · obtain rfl : left = 0 := by omega
      rfl
    · rw [ih (by omega) later, show count - (number + 1) = left by omega]

/-- Measuring clusters leads to where so many of the walk end. -/
theorem clusterPrefixLength_walked (segmenter : Segmenter) (bytes : Bytes) (count : Nat) :
    clusterPrefixLength segmenter bytes count = walkEnd 0 ((clusters segmenter bytes 0).take count) := by
  rw [clusterPrefixLength]
  split
  · rename_i none
    rw [none]
    rfl
  · exact endWithin_eq (by omega) (index_clustersFrom segmenter (bytes.drop 0) 0) 0

/-- Looking up so many clusters leads to where as many end in the walk. -/
theorem prefixLength_cluster (isLocal : segmenter.Local) (count : Nat) (rest : Bytes) (offset : Nat) :
    offset + (TextUnit.cluster segmenter).prefixLength count rest =
      walkEnd offset ((clustersFrom segmenter rest offset).take count) := by
  induction count generalizing rest offset with
  | zero => rfl
  | succ count ih =>
    rw [TextUnit.prefixLength, TextUnit.length_cluster]
    by_cases ended : codepointsOf rest = []
    · rw [clustersFrom_end ended, if_pos (firstCluster_end ended)]
      rfl
    · obtain ⟨positive, walked⟩ := clustersFrom_next isLocal ended offset
      rw [if_neg positive.ne', walked, List.take_succ_cons, ← List.map_take, walkEnd_cons, walkEnd_later, ← Nat.add_assoc]
      exact ih _ _

private theorem clusterPrefixLength_eq (isLocal : segmenter.Local) (bytes : Bytes) (count : Nat) :
    clusterPrefixLength segmenter bytes count = (TextUnit.cluster segmenter).prefixLength count bytes := by
  have looked := prefixLength_cluster isLocal count bytes 0
  rw [Nat.zero_add] at looked
  exact (clusterPrefixLength_walked segmenter bytes count).trans looked.symm

/-- The first cluster of a walk is the one that the lookup finds; at the end of the text there is none. -/
theorem head_clustersFrom (isLocal : segmenter.Local) (rest : Bytes) (offset : Nat) :
    firstCluster segmenter rest = ((clustersFrom segmenter rest offset).head?.map Cluster.length).getD 0 := by
  by_cases ended : codepointsOf rest = []
  · rw [firstCluster_end ended, clustersFrom_end ended]
    rfl
  · obtain ⟨-, walked⟩ := clustersFrom_next isLocal ended offset
    rw [walked]
    rfl

end cluster

/-! ## Contexts -/

section context
variable {context after : Context} {segmenter : Segmenter}

/-- What is measured with the segmenter of a context, which an empty text does without. -/
theorem Context.measure_opened {α : Type} (opened : context.openSegmenter = .ok (segmenter, after)) {text : Bytes}
    {empty : α} {found : Segmenter → α} (same : codepointsOf text = [] → empty = found segmenter) :
    (context.measure text empty found).map Prod.fst = .ok (found segmenter) := by
  unfold Context.measure
  split
  · rename_i ended
    rw [same (codepointsOf_eq_nil.2 (List.length_eq_zero_iff.1 ended))]
    rfl
  · rw [opened]
    rfl

theorem Context.clusters_opened (opened : context.openSegmenter = .ok (segmenter, after)) (bytes : Bytes) (start : Nat) :
    (context.clusters bytes start).map Prod.fst = .ok (BoundedText.clusters segmenter bytes start) :=
  Context.measure_opened opened fun ended => (clustersFrom_end ended start).symm

private theorem Context.firstCluster_opened (opened : context.openSegmenter = .ok (segmenter, after)) (bytes : Bytes)
    (offset : Nat) :
    (context.firstCluster bytes offset).map Prod.fst = .ok (BoundedText.firstCluster segmenter (bytes.drop offset)) :=
  Context.measure_opened opened fun ended => (firstCluster_end ended).symm

theorem Context.clusterCount_opened (opened : context.openSegmenter = .ok (segmenter, after)) (bytes : Bytes) :
    (context.clusterCount bytes).map Prod.fst = .ok (BoundedText.clusterCount segmenter bytes) := by
  refine Context.measure_opened opened fun ended => ?_
  rw [BoundedText.clusterCount, BoundedText.clusters, List.drop_zero, clustersFrom_end ended, List.length_nil]

theorem Context.clusterPrefixLength_opened (opened : context.openSegmenter = .ok (segmenter, after)) (bytes : Bytes)
    (count : Int) :
    (context.clusterPrefixLength bytes count).map Prod.fst =
      .ok (BoundedText.clusterPrefixLength segmenter bytes count.toNat) := by
  unfold Context.clusterPrefixLength
  split
  · rename_i few
    rw [Int.toNat_of_nonpos few]
    rfl
  · refine Context.measure_opened opened fun ended => ?_
    rw [clusterPrefixLength_walked, BoundedText.clusters, List.drop_zero, clustersFrom_end ended, List.take_nil]
    rfl

private theorem Context.measure_bind {α β : Type} (context : Context) (text : Bytes) (empty : α) (found : Segmenter → α)
    (more : α → β) :
    ((context.measure text empty found).map Prod.fst).map more =
      (context.measure text (more empty) (fun segmenter => more (found segmenter))).map Prod.fst := by
  unfold Context.measure
  split
  · rfl
  · cases context.openSegmenter <;> rfl

private theorem Granularity.count_opened (opened : context.openSegmenter = .ok (segmenter, after)) (bytes : Bytes) :
    (Granularity.cluster context).count bytes 0 = .ok ((TextUnit.cluster segmenter).count bytes) := by
  refine (context.measure_bind bytes (TextUnit.cluster noSegments) TextUnit.cluster (TextUnit.count · bytes)).trans ?_
  refine Context.measure_opened opened fun ended => ?_
  rw [TextUnit.count_end ended, TextUnit.count_end ended]

private theorem Granularity.prefixLength_opened (opened : context.openSegmenter = .ok (segmenter, after))
    (bytes : Bytes)
    (count : Nat) :
    (Granularity.cluster context).prefixLength bytes count = .ok ((TextUnit.cluster segmenter).prefixLength count bytes) := by
  cases count with
  | zero => rfl
  | succ count =>
    rw [Granularity.prefixLength, if_neg (by omega), Int.toNat_natCast]
    refine (context.measure_bind bytes (TextUnit.cluster noSegments) TextUnit.cluster
      (TextUnit.prefixLength · (count + 1) bytes)).trans ?_
    refine Context.measure_opened opened fun ended => ?_
    rw [TextUnit.prefixLength_end ended, TextUnit.prefixLength_end ended]

/-- The lookup of one cluster agrees with the walk of the text. With a local segmenter, and whatever the
bytes, the lookup finds the size of the first cluster of the walk that begins at the same offset, which is
zero at the end of the text only; and looking clusters up one after another finds as many as a walk, and
measures so many as a walk does. -/
theorem lookup_agrees_with_walk (opened : context.openSegmenter = .ok (segmenter, after)) (isLocal : segmenter.Local)
    (bytes : Bytes) :
    (∀ offset, ∃ walked size,
      (context.clusters bytes offset).map Prod.fst = .ok walked ∧
      (context.firstCluster bytes offset).map Prod.fst = .ok size ∧
      size = (walked.head?.map Cluster.length).getD 0 ∧ (size = 0 ↔ textOf (bytes.drop offset) = [])) ∧
    (∀ count : Nat, ∃ size,
      (Granularity.cluster context).prefixLength bytes count = .ok size ∧
      (context.clusterPrefixLength bytes count).map Prod.fst = .ok size) ∧
    ∃ count, (Granularity.cluster context).count bytes 0 = .ok count ∧
      (context.clusterCount bytes).map Prod.fst = .ok count := by
  refine ⟨fun offset => ?_, fun count => ?_, ?_⟩
  · refine ⟨_, _, Context.clusters_opened opened bytes offset, Context.firstCluster_opened opened bytes offset,
      head_clustersFrom isLocal (bytes.drop offset) offset, ?_⟩
    rw [firstCluster_eq_zero isLocal, codepointsOf_eq_nil]
  · refine ⟨_, Granularity.prefixLength_opened opened bytes count, ?_⟩
    rw [← clusterPrefixLength_eq isLocal]
    exact Context.clusterPrefixLength_opened opened bytes count
  · refine ⟨_, Granularity.count_opened opened bytes, ?_⟩
    rw [count_cluster isLocal bytes 0]
    exact Context.clusterCount_opened opened bytes

/-- A letter with more marks than fit in the first window, a letter, and a malformed byte. -/
def markedLetter : Bytes := 0x65 :: (List.replicate 33 [(0xCC : UInt8), 0x81]).flatten ++ [0x78, 0xFF]

/-- The theorem at the rules of grapheme clusters, which a context opens for the locale of the host. -/
theorem lookup_agrees_with_walk_marks :
    Context.openSegmenter ⟨none, 8192, .unopened, .unopened, none, 0, []⟩ =
        .ok (graphemes, ⟨none, 8192, .opened, .unopened, none, 0, []⟩) ∧
      graphemes.Local ∧
      (Context.firstCluster ⟨none, 8192, .unopened, .unopened, none, 0, []⟩ markedLetter 0).map Prod.fst = .ok 67 ∧
      (Granularity.cluster ⟨none, 8192, .unopened, .unopened, none, 0, []⟩).prefixLength markedLetter 2 = .ok 68 ∧
      (Granularity.cluster ⟨none, 8192, .unopened, .unopened, none, 0, []⟩).count markedLetter 0 = .ok 3 := by
  have opened : Context.openSegmenter ⟨none, 8192, .unopened, .unopened, none, 0, []⟩ =
      .ok (graphemes, ⟨none, 8192, .opened, .unopened, none, 0, []⟩) := rfl
  have walk : clusters graphemes markedLetter 0 = [⟨0, 67, 0⟩, ⟨67, 1, 1⟩, ⟨68, 1, 2⟩] := by decide +kernel
  obtain ⟨places, lengths, count, counted, all⟩ := lookup_agrees_with_walk opened graphemes_local markedLetter
  refine ⟨opened, graphemes_local, ?_, ?_, ?_⟩
  · obtain ⟨walked, size, found, looked, same, -⟩ := places 0
    rw [Context.clusters_opened opened, walk, Except.ok.injEq] at found
    rw [looked, same, ← found]
    rfl
  · obtain ⟨size, looked, walked⟩ := lengths 2
    rw [Context.clusterPrefixLength_opened opened, clusterPrefixLength_walked, Int.toNat_natCast, walk,
      Except.ok.injEq] at walked
    exact looked.trans (congrArg Except.ok walked.symm)
  · rw [Context.clusterCount_opened opened, clusterCount, walk, Except.ok.injEq] at all
    exact counted.trans (congrArg Except.ok all.symm)

end context

end BoundedText
