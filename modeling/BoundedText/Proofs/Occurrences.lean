import BoundedText.Replacement
import Mathlib.Data.Nat.Find

/-!
# Occurrences

Where a part occurs in a list, and what is left between its occurrences when they are taken from the left and
without overlap (`Gaps`). A part that is not empty leaves gaps in every list (`exists_gaps`), and the same ones
however they are come by (`Gaps.unique`). Searching an array comes to the first occurrence (`indexOf_first`).
-/

namespace BoundedText

section lists
variable {α : Type} {part items : List α} {place : Nat}

/-! ## Where a part occurs -/

/-- A part lies in a list from a place on. -/
def OccursAt (part items : List α) (place : Nat) : Prop := part <+: items.drop place

instance [DecidableEq α] (part items : List α) (place : Nat) : Decidable (OccursAt part items place) :=
  inferInstanceAs (Decidable (_ <+: _))

theorem occursAt_add {passed : Nat} : OccursAt part items (passed + place) ↔ OccursAt part (items.drop passed) place := by
  rw [OccursAt, OccursAt, List.drop_drop]

theorem occursAt_length (front part back : List α) : OccursAt part (front ++ part ++ back) front.length := by
  rw [OccursAt, List.append_assoc, List.drop_left]
  exact List.prefix_append part back

theorem OccursAt.length_le (here : OccursAt part items place) (nonempty : part ≠ []) : place + part.length ≤ items.length := by
  have short := List.IsPrefix.length_le here
  have positive := List.length_pos_iff.2 nonempty
  rw [List.length_drop] at short
  omega

/-- A part that occurs at no place in a list occurs at none past it. -/
theorem not_occursAt (nonempty : part ≠ []) (inside : ∀ place < items.length, ¬ OccursAt part items place) :
    ∀ place, ¬ OccursAt part items place := by
  intro place here
  have within := here.length_le nonempty
  have positive := List.length_pos_iff.2 nonempty
  exact inside place (by omega) here

/-- What lies in a list that another follows occurs in the list itself. -/
theorem OccursAt.of_append {more : List α} (here : OccursAt part (items ++ more) place)
    (within : place + part.length ≤ items.length) : OccursAt part items place := by
  rw [OccursAt, List.drop_append_of_le_length (by omega)] at here
  exact List.prefix_of_prefix_length_le here (List.prefix_append _ _) (by rw [List.length_drop]; omega)

theorem OccursAt.mem (here : OccursAt part items place) {a : α} (member : a ∈ part) : a ∈ items :=
  List.mem_of_mem_drop (here.subset member)

/-- A list is what comes before an occurrence, the part, and what comes after it. -/
theorem OccursAt.split (here : OccursAt part items place) :
    items = items.take place ++ part ++ items.drop (place + part.length) := by
  have rest : items.drop place = part ++ (items.drop place).drop part.length := List.prefix_iff_eq_append.1 here |>.symm
  rw [List.drop_drop] at rest
  rw [List.append_assoc, ← rest, List.take_append_drop]

private theorem first_occurrence (somewhere : ∃ place, OccursAt part items place) :
    ∃ place, OccursAt part items place ∧ ∀ before < place, ¬ OccursAt part items before := by
  classical
  exact ⟨Nat.find somewhere, Nat.find_spec somewhere, fun before less => Nat.find_min somewhere less⟩

/-! ## Gaps -/

/-- What is left of a list between the occurrences of a part: before the first one, then before the first one
after it, and so on, until there is none in what comes last. -/
inductive Gaps (part : List α) : List α → List (List α) → Prop
  | last {rest : List α} (nowhere : ∀ place, ¬ OccursAt part rest place) : Gaps part rest [rest]
  | next {gap rest : List α} {gaps : List (List α)}
      (first : ∀ place < gap.length, ¬ OccursAt part (gap ++ part ++ rest) place) (later : Gaps part rest gaps) :
      Gaps part (gap ++ part ++ rest) (gap :: gaps)

variable {gaps : List (List α)}

theorem Gaps.ne_nil (left : Gaps part items gaps) : gaps ≠ [] := by
  cases left with
  | last nowhere => exact List.cons_ne_nil _ _
  | next first later => exact List.cons_ne_nil _ _

/-- A list is its gaps with the part between them. -/
theorem Gaps.intercalate (left : Gaps part items gaps) : items = part.intercalate gaps := by
  induction left with
  | last nowhere => exact List.intercalate_singleton.symm
  | next first later ih => rw [List.intercalate_cons_of_ne_nil later.ne_nil, ← ih, List.append_assoc]

/-- A list has no other gaps than these. -/
theorem Gaps.unique {others : List (List α)} (left : Gaps part items gaps) (other : Gaps part items others) :
    gaps = others := by
  induction left generalizing others with
  | @last rest nowhere =>
    cases other with
    | last _ => rfl
    | @next gap later _ _ _ => exact absurd (occursAt_length gap part later) (nowhere _)
  | @next gap rest gaps first later ih =>
    generalize whole : gap ++ part ++ rest = items at other
    cases other with
    | last nowhere => exact absurd (whole ▸ occursAt_length gap part rest) (nowhere _)
    | @next gap' rest' gaps' first' later' =>
      -- Neither gap is shorter than the other, since the part occurs right after each.
      have notShorter : ¬ gap.length < gap'.length := fun less => first' _ less (whole ▸ occursAt_length gap part rest)
      have notLonger : ¬ gap'.length < gap.length := fun less => first _ less (whole ▸ occursAt_length gap' part rest')
      rw [List.append_assoc, List.append_assoc] at whole
      obtain ⟨rfl, tails⟩ := List.append_inj whole (by omega)
      obtain rfl : rest = rest' := List.append_cancel_left tails
      rw [ih later']

/-- A part that is not empty leaves gaps in every list. -/
theorem exists_gaps (nonempty : part ≠ []) (items : List α) : ∃ gaps, Gaps part items gaps := by
  by_cases somewhere : ∃ place, OccursAt part items place
  · obtain ⟨place, here, first⟩ := first_occurrence somewhere
    obtain ⟨gaps, later⟩ := exists_gaps nonempty (items.drop (place + part.length))
    have within := here.length_le nonempty
    have size : (items.take place).length = place := List.length_take_of_le (by omega)
    refine ⟨items.take place :: gaps, ?_⟩
    have left := @Gaps.next α part (items.take place) (items.drop (place + part.length)) gaps
      (by rwa [← here.split, size]) later
    rwa [← here.split] at left
  · exact ⟨[items], .last fun place here => somewhere ⟨place, here⟩⟩
termination_by items.length
decreasing_by
  have := here.length_le nonempty
  have := List.length_pos_iff.2 nonempty
  rw [List.length_drop]
  omega

/-- What holds in a list and in what replaces a part of it holds in the list with the part replaced. -/
theorem Gaps.forall_mem_intercalate {p : α → Prop} {new : List α} (left : Gaps part items gaps)
    (old : ∀ a ∈ items, p a) (fresh : ∀ a ∈ new, p a) : ∀ a ∈ new.intercalate gaps, p a := by
  induction left with
  | last nowhere => rwa [List.intercalate_singleton]
  | next first later ih =>
    obtain ⟨front, back⟩ := List.forall_mem_append.1 old
    obtain ⟨gap, -⟩ := List.forall_mem_append.1 front
    rw [List.intercalate_cons_of_ne_nil later.ne_nil]
    exact List.forall_mem_append.2 ⟨List.forall_mem_append.2 ⟨gap, fresh⟩, ih back⟩

end lists

/-! ## Searching an array -/

variable {part rest : Bytes} {place : Nat}

theorem indexOf_first (here : OccursAt part rest place) (first : ∀ before < place, ¬ OccursAt part rest before) :
    indexOf part rest = some place := by
  fun_induction indexOf part rest generalizing place with
  | case1 empty =>
    obtain rfl : part = [] := List.isEmpty_iff.1 empty
    obtain rfl : place = 0 := by
      by_contra later
      exact first 0 (Nat.pos_of_ne_zero later) (List.nil_prefix)
    rfl
  | case2 nonempty =>
    rw [OccursAt, List.drop_nil, List.prefix_nil] at here
    exact absurd (List.isEmpty_iff.2 here) nonempty
  | case3 b rest begins =>
    obtain rfl : place = 0 := by
      by_contra later
      exact first 0 (Nat.pos_of_ne_zero later) (List.isPrefixOf_iff_prefix.1 begins)
    rfl
  | case4 b rest differs ih =>
    cases place with
    | zero => exact absurd (List.isPrefixOf_iff_prefix.2 here) differs
    | succ place =>
      have found := ih here fun before less => first (before + 1) (by omega)
      rw [found, Option.map_some, Nat.add_comm]

theorem indexOf_nowhere (nowhere : ∀ place, ¬ OccursAt part rest place) : indexOf part rest = none := by
  fun_induction indexOf part rest with
  | case1 empty => exact absurd (List.isEmpty_iff.1 empty ▸ List.nil_prefix) (nowhere 0)
  | case2 nonempty => rfl
  | case3 b rest begins => exact absurd (List.isPrefixOf_iff_prefix.1 begins) (nowhere 0)
  | case4 b rest differs ih => rw [ih fun place => nowhere (place + 1), Option.map_none]

end BoundedText
