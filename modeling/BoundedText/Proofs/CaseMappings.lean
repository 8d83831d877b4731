import BoundedText.Folding
import BoundedText.Proofs.Walking

/-!
# Case mappings

A case mapping is a function from code points to code points, and what is proved of mapping a text holds of any that
gives code points which a text may hold (`MapsScalars`). The Unicode tables do: a search finds only runs that the
letter is in, each run moves its letters to such code points, and so does each sequence that stands for more than
one (`capitalOf_maps`, `smallOf_maps`).
-/

namespace BoundedText
open Utf8

/-- Each code point that a text may hold is mapped to such code points. -/
def MapsScalars (mapping : CaseMapping) : Prop := ∀ c, IsScalar c ∧ c ≠ 0 → ∀ d ∈ mapping c, IsScalar d ∧ d ≠ 0

namespace MapsScalars

variable {mapping : CaseMapping} (maps : MapsScalars mapping)
include maps

theorem flatMap {codepoints : List Nat} (scalars : ∀ c ∈ codepoints, IsScalar c ∧ c ≠ 0) :
    ∀ d ∈ codepoints.flatMap mapping, IsScalar d ∧ d ≠ 0 := by
  intro d member
  obtain ⟨c, known, among⟩ := List.mem_flatMap.1 member
  exact maps c (scalars c known) d among

theorem inside {bytes : Bytes} {d : Decoded} (found : decode bytes = some d) : ∀ c ∈ mapping d.codepoint, c ≤ maxCodepoint :=
  fun c member => (maps d.codepoint (scalar_of_decode found) c member).1.1

end MapsScalars

/-! ## Tables -/

/-- What a search finds is an entry of the table that the code point is in. -/
theorem searchBetween_spec {α : Type} {table : Array α} {first last : α → Nat} {c low high : Nat} {entry : α}
    (found : searchBetween table first last c low high = some entry) :
    entry ∈ table ∧ first entry ≤ c ∧ c ≤ last entry := by
  fun_induction searchBetween table first last c low high with
  | case1 low high _ middle none => cases found
  | case2 low high _ middle entry here before ih => exact ih found
  | case3 low high _ middle entry here before after ih => exact ih found
  | case4 low high _ middle other here before after =>
    cases found
    exact ⟨Array.mem_of_getElem? here, Nat.le_of_not_lt before, Nat.le_of_not_lt after⟩
  | case5 low high closed => cases found

/-- The other case of each letter of a run is a code point that a text may hold: it is no NUL, and the letters are
moved to below the surrogates or to past them. -/
def CaseRun.Inside (run : CaseRun) : Prop :=
  0 < run.first + run.distance ∧
    (run.last + run.distance < 0xD800 ∨
      0xDFFF < run.first + run.distance ∧ run.last + run.distance ≤ (maxCodepoint : Int))

instance (run : CaseRun) : Decidable run.Inside := inferInstanceAs (Decidable (_ ∧ _))

theorem CaseRun.Inside.scalar {run : CaseRun} (inside : run.Inside) {c : Nat} (above : run.first ≤ c) (below : c ≤ run.last) :
    IsScalar (c + run.distance).toNat ∧ (c + run.distance).toNat ≠ 0 := by
  obtain ⟨positive, short | long⟩ := inside
  all_goals
    simp only [IsScalar, isSurrogate, maxCodepoint, Bool.and_eq_false_iff, decide_eq_false_iff_not] at *
    omega

section tables
variable {runs : Array CaseRun} (inside : ∀ run ∈ runs.toList, run.Inside)
include inside

private theorem otherCase_scalar {c other : Nat} (found : otherCase runs c = some other) :
    IsScalar other ∧ other ≠ 0 := by
  unfold otherCase at found
  split at found
  · rename_i run here
    obtain ⟨among, above, below⟩ := searchBetween_spec here
    split at found
    · cases found
      exact (inside run among.val).scalar above below
    · cases found
  · cases found

private theorem mapCase_maps {sequences : List (Nat × List Nat)}
    (scalars : ∀ entry ∈ sequences, ∀ d ∈ entry.2, IsScalar d ∧ d ≠ 0) : MapsScalars (mapCase runs sequences) := by
  intro c known d member
  unfold mapCase at member
  cases single : otherCase runs c with
  | some other =>
    rw [single] at member
    rw [List.mem_singleton.1 member]
    exact otherCase_scalar inside single
  | none =>
    rw [single] at member
    cases several : sequences.lookup c with
    | none =>
      rw [several] at member
      rw [List.mem_singleton.1 member]
      exact known
    | some sequence =>
      rw [several] at member
      obtain ⟨before, after, rfl, -⟩ := List.lookup_eq_some_iff.1 several
      exact scalars (c, sequence) (List.mem_append_right _ List.mem_cons_self) d member

end tables

theorem capitalOf_maps : MapsScalars capitalOf := mapCase_maps (by decide +kernel) (by decide +kernel)

theorem smallOf_maps : MapsScalars smallOf := mapCase_maps (by decide +kernel) (by decide +kernel)

end BoundedText
