import BoundedText.ClusterRules
import BoundedText.Proofs.Strings

/-!
# Locality

A segmenter is local when a segment that ends inside a text ends there in every longer text, and the
segments after it are those of what is left (`Segmenter.Local`). The rules of grapheme clusters are: a
break leaves nothing behind that a later break depends on (`next_of_break`), so that the text after it is
cut as a text of its own (`graphemes_local`).
-/

namespace BoundedText
open Utf8

/-! ## Local segmenters -/

theorem segmentsFrom_add (first second : Nat) (strings : List Units) :
    segmentsFrom (first + second) strings =
      (segmentsFrom second strings).map (fun segment => { segment with index := first + segment.index }) := by
  induction strings generalizing second with
  | nil => rfl
  | cons units others ih => rw [segmentsFrom, Nat.add_assoc, ih, segmentsFrom, List.map_cons]

private theorem units_segmentsFrom (index : Nat) (strings : List Units) :
    (segmentsFrom index strings).map Segment.units = strings := by
  induction strings generalizing index with
  | nil => rfl
  | cons units others ih => rw [segmentsFrom, List.map_cons, ih]

/-- The segments of a text are parts of it: none is empty, they break between code points, and they make
up the text. -/
structure Tiles (segmenter : Segmenter) (text : List Nat) (parts : List (List Nat)) : Prop where
  nonempty : ∀ part ∈ parts, part ≠ []
  flatten : parts.flatten = text
  segments : segmenter (Utf16.ofCodepoints text) = segmentsFrom 0 (parts.map Utf16.ofCodepoints)

/-- A segmenter whose segments are parts of the text, whatever its rules are. -/
def Segmenter.Cuts (segmenter : Segmenter) : Prop :=
  ∀ text, Scalars text → text ≠ [] → ∃ parts, Tiles segmenter text parts

/-- A segmenter whose segments are parts of the text, and that is local: a first segment that is shorter
than the text is the first segment of every extension of the text, and the segments after it are those of
the text that remains. -/
structure Segmenter.Local (segmenter : Segmenter) : Prop where
  tiles : ∀ text, Scalars text → text ≠ [] → ∃ parts, Tiles segmenter text parts
  kept : ∀ text more, Scalars (text ++ more) → ∀ first others,
    segmenter (Utf16.ofCodepoints text) = first :: others →
    first.units.length < (Utf16.ofCodepoints text).length →
    (segmenter (Utf16.ofCodepoints (text ++ more))).head? = some first
  restarts : ∀ text, Scalars text → ∀ first others, segmenter (Utf16.ofCodepoints text) = first :: others →
    first.units.length < (Utf16.ofCodepoints text).length →
    others.map Segment.units =
      (segmenter ((Utf16.ofCodepoints text).drop first.units.length)).map Segment.units

private theorem map_ofCodepoints_inj {first second : List (List Nat)} (scalars : ∀ part ∈ first, Scalars part)
    (scalars' : ∀ part ∈ second, Scalars part)
    (same : first.map Utf16.ofCodepoints = second.map Utf16.ofCodepoints) : first = second := by
  have read : ∀ parts : List (List Nat), (∀ part ∈ parts, Scalars part) →
      (parts.map Utf16.ofCodepoints).map Utf16.codepoints = parts := by
    intro parts all
    conv_rhs => rw [← List.map_id parts]
    rw [List.map_map]
    exact List.map_congr_left fun part member => Utf16.codepoints_ofCodepoints (all part member)
  rw [← read first scalars, same, read second scalars']

section tiles
variable {segmenter : Segmenter} {text more : List Nat} {part : List Nat} {parts : List (List Nat)}

theorem Tiles.scalars (tiles : Tiles segmenter text parts) (scalars : Scalars text) : ∀ part ∈ parts, Scalars part := by
  intro part member c inside
  apply scalars
  rw [← tiles.flatten]
  exact List.mem_flatten.2 ⟨part, member, inside⟩

/-- A text is cut in one way only. -/
theorem Tiles.unique {parts' : List (List Nat)} (tiles : Tiles segmenter text parts)
    (tiles' : Tiles segmenter text parts') (scalars : Scalars text) : parts = parts' := by
  apply map_ofCodepoints_inj (tiles.scalars scalars) (tiles'.scalars scalars)
  rw [← units_segmentsFrom 0 (parts.map _), ← tiles.segments, tiles'.segments, units_segmentsFrom]

theorem Tiles.first (tiles : Tiles segmenter text (part :: parts)) :
    part ≠ [] ∧ text = part ++ parts.flatten ∧
      segmenter (Utf16.ofCodepoints text) =
        ⟨0, Utf16.ofCodepoints part⟩ ::
          segmentsFrom (Utf16.ofCodepoints part).length (parts.map Utf16.ofCodepoints) := by
  refine ⟨tiles.nonempty part List.mem_cons_self, ?_, ?_⟩
  · rw [← tiles.flatten, List.flatten_cons]
  · rw [tiles.segments, List.map_cons, segmentsFrom, Nat.zero_add]

theorem Segmenter.Cuts.first (cuts : segmenter.Cuts) (scalars : Scalars text) (filled : text ≠ []) :
    ∃ part parts, Tiles segmenter text (part :: parts) := by
  obtain ⟨cut, tiles⟩ := cuts text scalars filled
  cases cut with
  | nil => exact absurd tiles.flatten.symm filled
  | cons part parts => exact ⟨part, parts, tiles⟩

theorem Segmenter.Local.cuts (isLocal : segmenter.Local) : segmenter.Cuts := isLocal.tiles

theorem Tiles.flatten_eq_nil (tiles : Tiles segmenter text (part :: parts)) (nothing : parts.flatten = []) : parts = [] := by
  rw [List.flatten_eq_nil_iff] at nothing
  refine List.eq_nil_iff_forall_not_mem.2 fun other member => ?_
  exact tiles.nonempty other (List.mem_cons_of_mem part member) (nothing other member)

/-- A first part that ends inside the text is shorter than the text, as a string too. -/
theorem Tiles.first_lt (tiles : Tiles segmenter text (part :: parts)) (inside : parts.flatten ≠ []) :
    (Utf16.ofCodepoints part).length < (Utf16.ofCodepoints text).length := by
  have units : Utf16.ofCodepoints parts.flatten ≠ [] := Utf16.ofCodepoints_eq_nil.not.2 inside
  have positive := List.length_pos_iff.2 units
  rw [tiles.first.2.1, Utf16.ofCodepoints_append, List.length_append]
  omega

private theorem Tiles.scalars_later (tiles : Tiles segmenter text (part :: parts)) (scalars : Scalars text) :
    Scalars parts.flatten := by
  rw [tiles.first.2.1] at scalars
  exact scalars.append.2

/-- A first part that ends inside a text is the first part of every extension of the text. -/
theorem Segmenter.Local.extended {part' : List Nat} {parts' : List (List Nat)} (isLocal : segmenter.Local)
    (scalars : Scalars (text ++ more)) (short : Tiles segmenter text (part :: parts)) (inside : parts.flatten ≠ [])
    (long : Tiles segmenter (text ++ more) (part' :: parts')) : part = part' := by
  obtain ⟨-, -, segments⟩ := short.first
  obtain ⟨-, -, segments'⟩ := long.first
  have kept := isLocal.kept text more scalars _ _ segments (short.first_lt inside)
  rw [segments', List.head?_cons, Option.some.injEq, Segment.mk.injEq] at kept
  exact (Utf16.ofCodepoints_inj (long.scalars scalars part' List.mem_cons_self)
    (short.scalars scalars.append.1 part List.mem_cons_self) kept.2).symm

/-- The parts after the first are those of the text that remains. -/
theorem Segmenter.Local.rest (isLocal : segmenter.Local) (scalars : Scalars text)
    (tiles : Tiles segmenter text (part :: parts)) (inside : parts.flatten ≠ []) :
    Tiles segmenter parts.flatten parts := by
  obtain ⟨-, whole, segments⟩ := tiles.first
  have later := tiles.scalars_later scalars
  have left : (Utf16.ofCodepoints text).drop (Utf16.ofCodepoints part).length = Utf16.ofCodepoints parts.flatten := by
    rw [whole, Utf16.ofCodepoints_append, List.drop_left]
  obtain ⟨parts', tiles'⟩ := isLocal.tiles _ later inside
  have restarts := isLocal.restarts text scalars _ _ segments (tiles.first_lt inside)
  rw [left, tiles'.segments, units_segmentsFrom, units_segmentsFrom] at restarts
  have same := map_ofCodepoints_inj
    (fun other member => tiles.scalars scalars other (List.mem_cons_of_mem part member)) (tiles'.scalars later) restarts
  rwa [← same] at tiles'

end tiles

/-! ## Local parts -/

/-- A way to cut code points into parts that is local. -/
structure LocalParts (cut : List Nat → List (List Nat)) : Prop where
  nonempty : ∀ text, ∀ part ∈ cut text, part ≠ []
  flatten : ∀ text, (cut text).flatten = text
  kept : ∀ text more first others, cut text = first :: others → others ≠ [] →
    (cut (text ++ more)).head? = some first
  restarts : ∀ text first others, cut text = first :: others → cut others.flatten = others

theorem LocalParts.tiles {cut : List Nat → List (List Nat)} (isLocal : LocalParts cut) {text : List Nat}
    (scalars : Scalars text) : Tiles (Segmenter.ofParts cut) text (cut text) := by
  refine ⟨isLocal.nonempty text, isLocal.flatten text, ?_⟩
  rw [Segmenter.ofParts, Utf16.codepoints_ofCodepoints scalars]

theorem LocalParts.segmenter {cut : List Nat → List (List Nat)} (isLocal : LocalParts cut) :
    (Segmenter.ofParts cut).Local := by
  have firsts : ∀ text, Scalars text → ∀ first others,
      Segmenter.ofParts cut (Utf16.ofCodepoints text) = first :: others →
      first.units.length < (Utf16.ofCodepoints text).length →
      ∃ part parts, cut text = part :: parts ∧ parts ≠ [] ∧ first = ⟨0, Utf16.ofCodepoints part⟩ ∧
        others = segmentsFrom (Utf16.ofCodepoints part).length (parts.map Utf16.ofCodepoints) := by
    intro text scalars first others segments shorter
    have tiles := isLocal.tiles scalars
    cases parts : cut text with
    | nil =>
      rw [tiles.segments, parts] at segments
      cases segments
    | cons part parts' =>
      rw [parts] at tiles
      obtain ⟨-, whole, expected⟩ := tiles.first
      obtain ⟨rfl, rfl⟩ := List.cons.inj (segments.symm.trans expected)
      refine ⟨part, parts', rfl, ?_, rfl, rfl⟩
      rintro rfl
      rw [whole, List.flatten_nil, List.append_nil] at shorter
      exact Nat.lt_irrefl _ shorter
  refine ⟨fun text scalars _ => ⟨_, isLocal.tiles scalars⟩, ?_, ?_⟩
  · intro text more scalars first others segments shorter
    obtain ⟨part, parts, found, some, rfl, -⟩ := firsts text scalars.append.1 first others segments shorter
    have kept := isLocal.kept text more part parts found some
    obtain ⟨later, extended⟩ := List.head?_eq_some_iff.1 kept
    have tiles := isLocal.tiles scalars
    rw [extended] at tiles
    rw [tiles.first.2.2, List.head?_cons]
  · intro text scalars first others segments shorter
    obtain ⟨part, parts, found, some, rfl, rfl⟩ := firsts text scalars first others segments shorter
    have tiles := isLocal.tiles scalars
    rw [found] at tiles
    obtain ⟨-, whole, -⟩ := tiles.first
    have again := (isLocal.tiles (tiles.scalars_later scalars)).segments
    rw [isLocal.restarts text part parts found] at again
    rw [whole, Utf16.ofCodepoints_append, List.drop_left, again, units_segmentsFrom, units_segmentsFrom]

/-! ## Grapheme clusters -/

/-- A state that remembers no conjunct and no pictograph past a control. -/
def BreakState.Settled (state : BreakState) : Prop :=
  state.before.isControl = true → state.conjunct = .nothing ∧ state.emblem = .nothing

namespace BreakState

private theorem settled_start (kind : BreakKind) : (start kind).Settled := by
  cases kind <;> simp [Settled, start, BreakKind.isControl, nextConjunct, nextEmblem, BreakKind.isExtend]

private theorem settled_next (state : BreakState) (kind : BreakKind) : (state.next kind).Settled := by
  cases kind <;> simp [Settled, next, BreakKind.isControl, nextConjunct, nextEmblem, BreakKind.isExtend]

/-- After a break the state is that of a text that starts there. -/
theorem next_of_break {state : BreakState} (settled : state.Settled) {kind : BreakKind}
    (breaks : state.joins kind = false) : state.next kind = start kind := by
  by_cases control : state.before.isControl = true
  · obtain ⟨noConjunct, noEmblem⟩ := settled control
    have notRegional : state.before ≠ .regional := by
      intro regional
      rw [regional] at control
      cases control
    simp [next, start, noConjunct, noEmblem, notRegional]
  · rw [Bool.not_eq_true] at control
    cases kind
    case regional =>
      have alone : (state.before == .regional && state.oddRegional) = false := by
        by_contra odd
        rw [Bool.not_eq_false, Bool.and_eq_true, beq_iff_eq] at odd
        have joined : state.joins .regional = true := by simp [joins, odd, BreakKind.isControl]
        rw [breaks] at joined
        cases joined
      simp [next, start, nextConjunct, nextEmblem, BreakKind.isExtend, alone]
    -- A mark or a joiner, which looks further back, joins everything but a control.
    all_goals simp_all [joins, next, start, nextConjunct, nextEmblem, BreakKind.isExtend, BreakKind.isControl]

end BreakState

/-- What is left of a cluster and the clusters after it make up the text, and none of those is empty. -/
theorem clustersAfter_flatten (state : BreakState) (text : List Nat) :
    (clustersAfter state text).1 ++ (clustersAfter state text).2.flatten = text ∧
      ∀ part ∈ (clustersAfter state text).2, part ≠ [] := by
  induction text generalizing state with
  | nil => simp [clustersAfter]
  | cons c rest ih =>
    obtain ⟨whole, nonempty⟩ := ih (state.next (BreakKind.ofCodepoint c))
    by_cases joins : state.joins (BreakKind.ofCodepoint c) = true
    · simp only [clustersAfter, joins, if_true]
      exact ⟨congrArg (c :: ·) whole, nonempty⟩
    · simp only [clustersAfter, joins, if_false, Bool.false_eq_true]
      refine ⟨congrArg (c :: ·) whole, ?_⟩
      simpa using nonempty

/-- A cluster that ends inside a text ends there in every extension of it. -/
theorem clustersAfter_append (state : BreakState) (text more : List Nat) (ends : (clustersAfter state text).2 ≠ []) :
    (clustersAfter state (text ++ more)).1 = (clustersAfter state text).1 := by
  induction text generalizing state with
  | nil => exact absurd rfl ends
  | cons c rest ih =>
    by_cases joins : state.joins (BreakKind.ofCodepoint c) = true
    · simp only [clustersAfter, joins, if_true] at ends
      simp only [List.cons_append, clustersAfter, joins, if_true]
      exact congrArg (c :: ·) (ih _ ends)
    · simp only [List.cons_append, clustersAfter, joins, if_false, Bool.false_eq_true]

/-- The clusters after the first are those of the text that they make up. -/
theorem graphemeParts_after {state : BreakState} (settled : state.Settled) (text : List Nat) :
    graphemeParts (clustersAfter state text).2.flatten = (clustersAfter state text).2 := by
  induction text generalizing state with
  | nil => rfl
  | cons c rest ih =>
    have further := ih (state.settled_next (BreakKind.ofCodepoint c))
    by_cases joins : state.joins (BreakKind.ofCodepoint c) = true
    · simp only [clustersAfter, joins, if_true]
      exact further
    · have fresh := BreakState.next_of_break settled (Bool.eq_false_iff.2 joins)
      obtain ⟨whole, -⟩ := clustersAfter_flatten (state.next (BreakKind.ofCodepoint c)) rest
      simp only [clustersAfter, joins, if_false, Bool.false_eq_true, List.flatten_cons, List.cons_append, whole]
      rw [graphemeParts, ← fresh]

private theorem localParts_graphemeParts : LocalParts graphemeParts where
  nonempty text := by
    cases text with
    | nil => simp [graphemeParts]
    | cons c rest => simpa [graphemeParts] using (clustersAfter_flatten _ rest).2
  flatten text := by
    cases text with
    | nil => rfl
    | cons c rest => simpa [graphemeParts] using (clustersAfter_flatten _ rest).1
  kept text more first others parts some := by
    cases text with
    | nil => cases parts
    | cons c rest =>
      rw [graphemeParts, List.cons.injEq] at parts
      obtain ⟨rfl, rfl⟩ := parts
      rw [List.cons_append, graphemeParts, List.head?_cons, clustersAfter_append _ rest more some]
  restarts text first others parts := by
    cases text with
    | nil => cases parts
    | cons c rest =>
      rw [graphemeParts, List.cons.injEq] at parts
      obtain ⟨-, rfl⟩ := parts
      exact graphemeParts_after (BreakState.settled_start _) rest

theorem graphemes_local : graphemes.Local := localParts_graphemeParts.segmenter

end BoundedText
