import BoundedText.Proofs.Clustering
import BoundedText.Proofs.Tiling

/-!
# Cluster tiling

With any segmenter that cuts texts into parts (`Segmenter.Cuts`), the clusters of a walk lie side by side from
where it begins to the end of the text (`clustersOf_inRow`), and each begins where a code point does
(`clustersOf_starts`). A visitor is handed just the bytes of each, whether they are small enough for the scratch
bytes or not (`visitFrom_all`), so that what it is handed makes up the text (`clusters_tile_text`).
-/

namespace BoundedText
open Utf8

/-! ## Clusters in a row -/

/-- Clusters that follow one another without a gap, from one offset to another, none of them empty and each
numbered next after the one before. -/
inductive InRow : Nat → Nat → List Cluster → Nat → Prop
  | nil (number offset : Nat) : InRow number offset [] offset
  | cons (cluster : Cluster) {clusters : List Cluster} {stop : Nat} (filled : 0 < cluster.length)
      (later : InRow (cluster.index + 1) (cluster.offset + cluster.length) clusters stop) :
      InRow cluster.index cluster.offset (cluster :: clusters) stop

section row
variable {number start stop : Nat} {clusters : List Cluster}

theorem InRow.later (row : InRow number start clusters stop) : InRow (number + 1) start (clusters.map Cluster.later) stop := by
  induction row with
  | nil number offset => exact .nil (number + 1) offset
  | cons cluster filled _ ih => exact .cons cluster.later filled ih

theorem InRow.le (row : InRow number start clusters stop) : start ≤ stop := by
  induction row with
  | nil number offset => exact Nat.le_refl offset
  | cons cluster _ _ ih => exact (Nat.le_add_right _ _).trans ih

/-- The bytes of clusters in a row are all bytes between where they begin and where they end. -/
theorem InRow.flatten_bytes (row : InRow number start clusters stop) (source : Bytes) :
    (clusters.map (·.bytes source)).flatten = slice source start stop := by
  induction row with
  | nil number offset => exact (slice_self source offset).symm
  | cons cluster _ later ih =>
    rw [List.map_cons, List.flatten_cons, ih, Cluster.bytes]
    exact slice_append_slice source (Nat.le_add_right _ _) later.le

end row

/-! ## The clusters of parts -/

section parts
variable {segmenter : Segmenter} {parts : List (List Nat)} {rest : Bytes}

/-- A walk finds the clusters of some parts of the text; an empty text has none. -/
theorem clustersFrom_parts (cuts : segmenter.Cuts) (rest : Bytes) (offset : Nat) :
    ∃ parts, (∀ part ∈ parts, part ≠ []) ∧ codepointsOf rest = parts.flatten ∧
      clustersFrom segmenter rest offset = clustersOf parts rest offset := by
  by_cases ended : codepointsOf rest = []
  · exact ⟨[], List.forall_mem_nil _, ended, clustersFrom_end ended offset⟩
  · obtain ⟨parts, tiles⟩ := cuts _ (scalars_codepointsOf rest) ended
    exact ⟨parts, tiles.nonempty, tiles.flatten.symm, clustersFrom_tiles tiles (by rwa [tiles.flatten]) offset⟩

/-- The clusters of a text lie side by side, from where it begins to where it ends. -/
theorem clustersOf_inRow (nonempty : ∀ part ∈ parts, part ≠ []) (whole : codepointsOf rest = parts.flatten) (offset : Nat) :
    InRow 0 offset (clustersOf parts rest offset) (offset + textLength rest) := by
  induction parts generalizing rest offset with
  | nil =>
    rw [textLength, codepointsOf_eq_nil.1 whole]
    exact .nil 0 offset
  | cons part parts ih =>
    obtain ⟨filled, nonempty⟩ := List.forall_mem_cons.1 nonempty
    rw [List.flatten_cons] at whole
    obtain ⟨d, found, within⟩ := decode_first filled whole
    have inside := prefixLength_le rest (.atMost part.length)
    have row := ih nonempty (codepointsOf_later whole rfl) (offset + codepointPrefixLength rest (.atMost part.length))
    rw [textLength_drop inside, Nat.add_assoc, Nat.add_sub_cancel' inside] at row
    rw [clustersOf_cons whole rfl]
    exact .cons ⟨offset, _, 0⟩ ((decode_length found).1.trans_le within) row.later

/-- The clusters of a text begin where some of its code points do, in order. -/
theorem clustersOf_starts (nonempty : ∀ part ∈ parts, part ≠ []) (whole : codepointsOf rest = parts.flatten) (offset : Nat) :
    ((clustersOf parts rest offset).map Cluster.offset).Sublist ((stepsFrom rest offset).map Step.offset) := by
  induction parts generalizing rest offset with
  | nil => exact List.nil_sublist _
  | cons part parts ih =>
    obtain ⟨filled, nonempty⟩ := List.forall_mem_cons.1 nonempty
    rw [List.flatten_cons] at whole
    obtain ⟨d, found, -⟩ := decode_first filled whole
    have later := ih nonempty (codepointsOf_later whole rfl) (offset + codepointPrefixLength rest (.atMost part.length))
    -- The first part has a code point at least, so that what is walked after it comes after the first step.
    have kept : ((stepsFrom rest offset).drop part.length).Sublist (stepsFrom (rest.drop d.length) (offset + d.length)) := by
      obtain ⟨count, size⟩ := Nat.exists_eq_succ_of_ne_zero (List.length_pos_iff.2 filled).ne'
      rw [size, Nat.succ_eq_add_one, stepsFrom_next found, List.drop_succ_cons]
      exact List.drop_sublist count _
    rw [stepsFrom_drop] at later
    rw [clustersOf_cons whole rfl, stepsFrom_next found, List.map_cons, List.map_cons, List.map_map]
    exact (later.trans (kept.map _)).cons_cons offset

end parts

/-! ## Visitors -/

/-- A visitor is handed the bytes of a cluster, and the scratch bytes stay as many. -/
theorem Cluster.handOut_eq {cluster : Cluster} {scratch source : Bytes}
    (inside : cluster.offset + cluster.length ≤ source.length) (room : scratch.length = smallCluster) :
    (cluster.handOut scratch source).1 = cluster.bytes source ∧ (cluster.handOut scratch source).2.length = smallCluster := by
  unfold handOut
  split
  · rename_i small
    have size : (cluster.bytes source).length = cluster.length := by
      rw [Cluster.bytes, length_slice inside, Nat.add_sub_cancel_left]
    have copied := take_overwrite scratch 0 (cluster.bytes source) (by omega)
    rw [Nat.zero_add, size, List.take_zero, List.nil_append] at copied
    exact ⟨(take_overwrite_before _ _ _).trans copied, by rw [length_overwrite, length_overwrite, room]⟩
  · exact ⟨rfl, room⟩

/-- A visitor that always wants more is handed the bytes of every cluster. -/
theorem visitFrom_all {σ : Type} {visitor : ClusterVisitor σ} {source : Bytes}
    (wants : ∀ state handed offset length, (visitor state handed source offset length).2 = true) {number start stop : Nat}
    {clusters : List Cluster} (row : InRow number start clusters stop) (inside : stop ≤ source.length) {scratch : Bytes}
    (room : scratch.length = smallCluster) (state : σ) :
    visitFrom visitor source scratch clusters state =
      (clusters.foldl (fun state cluster =>
        (visitor state (cluster.bytes source) source cluster.offset cluster.length).1) state, true) := by
  induction row generalizing scratch state with
  | nil number offset => rfl
  | cons cluster filled later ih =>
    obtain ⟨handed, room⟩ := Cluster.handOut_eq (later.le.trans inside) room
    rw [visitFrom]
    dsimp only
    rw [handed, if_pos (wants _ _ _ _), ih inside room, List.foldl_cons]

/-! ## The clusters of a text -/

section context
variable {context after : Context} {segmenter : Segmenter}

private theorem Context.visitClusters_opened (opened : context.openSegmenter = .ok (segmenter, after)) (bytes : Bytes)
    {σ : Type}
    (visitor : ClusterVisitor σ) (state : σ) :
    (context.visitClusters bytes visitor state).map Prod.fst = .ok (BoundedText.visitClusters segmenter bytes visitor state) := by
  refine Context.measure_opened opened fun ended => ?_
  rw [BoundedText.visitClusters, BoundedText.clusters, List.drop_zero, clustersFrom_end ended, visitFrom]

/-- The clusters of a text tile it, whatever the bytes and whatever the rules of the segmenter, as long as it cuts
texts into parts. The clusters of a walk lie side by side from where it begins to the first NUL from there on,
numbered from zero, none of them empty and each at a step of the code points. A whole text has no more clusters
than code points and no more of these than bytes, and measuring clusters leads to where so many of them end, or the
last one. A visitor that always wants more is handed every cluster, be it small or large, as the bytes that it
takes up in the array, and is told that it was handed all of them: they make up the text. -/
theorem clusters_tile_text (opened : context.openSegmenter = .ok (segmenter, after)) (cuts : segmenter.Cuts) (bytes : Bytes) :
    (∀ start, start ≤ bytes.length → ∃ walked,
      (context.clusters bytes start).map Prod.fst = .ok walked ∧
      InRow 0 start walked (textEnd bytes start) ∧
      ∀ cluster ∈ walked, ∃ step ∈ walk bytes start, step.offset = cluster.offset) ∧
    ∃ walked,
      (context.clusters bytes 0).map Prod.fst = .ok walked ∧
      (context.clusterCount bytes).map Prod.fst = .ok walked.length ∧
      walked.length ≤ codepointCount bytes ∧ codepointCount bytes ≤ textLength bytes ∧
      (∀ count : Int,
        (context.clusterPrefixLength bytes count).map Prod.fst = .ok (walkEnd 0 (walked.take count.toNat))) ∧
      (∀ {σ : Type} (visitor : ClusterVisitor σ) (state : σ),
        (∀ state handed offset length, (visitor state handed bytes offset length).2 = true) →
        (context.visitClusters bytes visitor state).map Prod.fst =
          .ok (walked.foldl (fun state cluster =>
            (visitor state (cluster.bytes bytes) bytes cluster.offset cluster.length).1) state, true)) ∧
      (walked.map (·.bytes bytes)).flatten = textOf bytes := by
  have tiled (start : Nat) (inside : start ≤ bytes.length) :
      InRow 0 start (BoundedText.clusters segmenter bytes start) (textEnd bytes start) ∧
      ((BoundedText.clusters segmenter bytes start).map Cluster.offset).Sublist ((walk bytes start).map Step.offset) := by
    obtain ⟨parts, nonempty, whole, walked⟩ := clustersFrom_parts cuts (bytes.drop start) start
    rw [BoundedText.clusters, walked, textEnd, Nat.min_eq_left inside]
    exact ⟨clustersOf_inRow nonempty whole start, clustersOf_starts nonempty whole start⟩
  obtain ⟨row, starts⟩ := tiled 0 (Nat.zero_le _)
  refine ⟨fun start inside => ?_, BoundedText.clusters segmenter bytes 0, Context.clusters_opened opened bytes 0,
    Context.clusterCount_opened opened bytes, ?_, codepointCount_le bytes, fun count => ?_, fun visitor state wants => ?_, ?_⟩
  · obtain ⟨row, starts⟩ := tiled start inside
    refine ⟨_, Context.clusters_opened opened bytes start, row, fun cluster member => ?_⟩
    exact List.mem_map.1 (starts.subset (List.mem_map_of_mem member))
  · have fewer := starts.length_le
    rw [List.length_map, List.length_map] at fewer
    rwa [codepointCount_eq bytes 0]
  · rw [Context.clusterPrefixLength_opened opened, clusterPrefixLength_walked]
  · have inside : textEnd bytes 0 ≤ bytes.length := by
      rw [textEnd, Nat.zero_min, Nat.zero_add]
      exact textLength_le bytes
    rw [Context.visitClusters_opened opened, BoundedText.visitClusters]
    rw [visitFrom_all wants row inside List.length_replicate]
  · rw [row.flatten_bytes, slice_textEnd, List.drop_zero]

/-- A letter, a letter with as many marks as make it a large cluster, a flag of two code points, and a malformed byte
before the NUL. -/
def mixedClusters : Bytes :=
  0x78 :: 0x65 :: (List.replicate 16 [(0xCC : UInt8), 0x81]).flatten ++
    [0xF0, 0x9F, 0x87, 0xAB, 0xF0, 0x9F, 0x87, 0xB7, 0xFF, 0, 0x42]

/-- The theorem at the rules of grapheme clusters, from the large cluster on and from the start, with a visitor that
collects what it is handed. -/
theorem clusters_tile_text_mixed :
    let context : Context := ⟨none, 8192, .unopened, .unopened, none, 0, []⟩
    let collect : ClusterVisitor (List Bytes) := fun seen handed _ _ _ => (seen ++ [handed], true)
    let walked : List Cluster := [⟨0, 1, 0⟩, ⟨1, 33, 1⟩, ⟨34, 8, 2⟩, ⟨42, 1, 3⟩]
    context.openSegmenter = .ok (graphemes, { context with segmenter := .opened }) ∧ graphemes.Cuts ∧
    1 ≤ mixedClusters.length ∧ InRow 0 1 [⟨1, 33, 0⟩, ⟨34, 8, 1⟩, ⟨42, 1, 2⟩] 43 ∧
    (∃ step ∈ walk mixedClusters 1, step.offset = 34) ∧
    (context.clusterCount mixedClusters).map Prod.fst = .ok 4 ∧ 4 ≤ codepointCount mixedClusters ∧
    (context.clusterPrefixLength mixedClusters 2).map Prod.fst = .ok 34 ∧
    (context.clusterPrefixLength mixedClusters 9).map Prod.fst = .ok 43 ∧
    (∀ state handed offset length, (collect state handed mixedClusters offset length).2 = true) ∧
    (context.visitClusters mixedClusters collect []).map Prod.fst = .ok (walked.map (·.bytes mixedClusters), true) ∧
    (walked.map (·.bytes mixedClusters)).flatten = mixedClusters.take 43 := by
  intro context collect walked
  have opened : context.openSegmenter = .ok (graphemes, { context with segmenter := .opened }) := rfl
  have cuts : graphemes.Cuts := graphemes_local.cuts
  have inside : 1 ≤ mixedClusters.length := by decide
  have wants : ∀ state handed offset length, (collect state handed mixedClusters offset length).2 = true :=
    fun _ _ _ _ => rfl
  have all : clusters graphemes mixedClusters 0 = walked := by decide +kernel
  have later : clusters graphemes mixedClusters 1 = [⟨1, 33, 0⟩, ⟨34, 8, 1⟩, ⟨42, 1, 2⟩] := by decide +kernel
  obtain ⟨each, found, same, count, fewer, -, measured, visited, whole⟩ := clusters_tile_text opened cuts mixedClusters
  rw [Context.clusters_opened opened, all, Except.ok.injEq] at same
  subst same
  obtain ⟨suffix, same, row, starts⟩ := each 1 inside
  rw [Context.clusters_opened opened, later, Except.ok.injEq] at same
  subst same
  have ends : textEnd mixedClusters 1 = 43 := by decide
  have text : textOf mixedClusters = mixedClusters.take 43 := by decide
  rw [ends] at row
  exact ⟨opened, cuts, inside, row, starts ⟨34, 8, 1⟩ (by decide), count, fewer, measured 2, measured 9, wants,
    visited collect [] wants, whole.trans text⟩

end context

end BoundedText
