import BoundedText.Proofs.Walking
import BoundedText.Search
import Mathlib.Data.List.DropRight
import Mathlib.Order.Bounds.Basic

/-!
# Escape parity

The search for a byte that is not escaped passes a text from the left, a backslash together with the byte after
it. Whether a byte is escaped shows in the backslashes right before it alone: it is not where their number is
even. What the search passes in one turn ends in an even run of backslashes and so changes the parity of no run
after it (`even_backslashesBefore_append`); the search therefore finds the first byte with an even run before it,
and nothing only where there is none (`findUnescaped_iff_parity`).
-/

namespace BoundedText
open Characters

/-! ## Runs of backslashes -/

def isBackslash (b : UInt8) : Bool := b.toNat = backslash

/-- The number of backslashes right before an offset. -/
def backslashesBefore (text : Bytes) (offset : Nat) : Nat := ((text.take offset).rtakeWhile isBackslash).length

private theorem rtakeWhile_append {α : Type} (p : α → Bool) (front back : List α) :
    (front ++ back).rtakeWhile p =
      if (back.rtakeWhile p).length = back.length then front.rtakeWhile p ++ back else back.rtakeWhile p := by
  rw [List.rtakeWhile, List.rtakeWhile, List.rtakeWhile, List.reverse_append, List.takeWhile_append, List.length_reverse,
    List.length_reverse]
  split
  · rw [List.reverse_append, List.reverse_reverse]
  · rfl

/-- Bytes that end in an even run of backslashes change the parity of no run after them. -/
theorem even_backslashesBefore_append {front : Bytes} (even : Even (backslashesBefore front front.length)) (text : Bytes)
    (offset : Nat) :
    Even (backslashesBefore (front ++ text) (front.length + offset)) ↔ Even (backslashesBefore text offset) := by
  rw [backslashesBefore, List.take_length] at even
  rw [backslashesBefore, backslashesBefore, List.take_length_add_append, rtakeWhile_append]
  split
  · rename_i all
    rw [List.length_append, Nat.even_add, all]
    exact iff_true_left even
  · rfl

/-! ## Bytes that are not escaped -/

/-- A byte lies at an offset with an even number of backslashes right before it. -/
def Unescaped (ch : UInt8) (text : Bytes) (offset : Nat) : Prop :=
  text[offset]? = some ch ∧ Even (backslashesBefore text offset)

/-- What is passed holds no byte that is sought, and what comes after it is as it would be by itself. -/
theorem unescaped_append {front : Bytes} (even : Even (backslashesBefore front front.length)) (ch : UInt8) (text : Bytes)
    (offset : Nat) : Unescaped ch (front ++ text) (front.length + offset) ↔ Unescaped ch text offset := by
  rw [Unescaped, Unescaped, even_backslashesBefore_append even, List.getElem?_append_right (Nat.le_add_right ..),
    Nat.add_sub_cancel_left]

/-- The first number of a kind, or none where there is no such number. -/
def IsFirst (kind : Nat → Prop) : Option Nat → Prop
  | none => ∀ i, ¬ kind i
  | some i => IsLeast {j | kind j} i

/-- The first number after so many that are of another kind is counted from there. -/
theorem IsFirst.later {kind other : Nat → Prop} {count : Nat} (passed : ∀ i < count, ¬ kind i)
    (moved : ∀ i, kind (count + i) ↔ other i) {found : Option Nat} (isFirst : IsFirst other found) :
    IsFirst kind (found.map (count + ·)) := by
  cases found with
  | none =>
    intro i here
    by_cases before : i < count
    · exact passed i before here
    · obtain ⟨j, rfl⟩ := Nat.exists_eq_add_of_le (Nat.le_of_not_lt before)
      exact isFirst j ((moved j).1 here)
  | some first =>
    refine ⟨(moved first).2 isFirst.1, ?_⟩
    intro i here
    by_cases before : i < count
    · exact absurd here (passed i before)
    · obtain ⟨j, rfl⟩ := Nat.exists_eq_add_of_le (Nat.le_of_not_lt before)
      exact Nat.add_le_add_left (isFirst.2 ((moved j).1 here)) count

theorem isFirst_iff {kind : Nat → Prop} {found : Option Nat} (isFirst : IsFirst kind found) :
    (∀ i, found = some i ↔ IsLeast {j | kind j} i) ∧ (found = none ↔ ¬ ∃ i, kind i) := by
  cases found with
  | none =>
    refine ⟨fun i => ⟨fun some => (by cases some), fun least => absurd least.1 (isFirst i)⟩, ?_⟩
    exact iff_of_true rfl fun ⟨i, here⟩ => isFirst i here
  | some first =>
    refine ⟨fun i => ?_, iff_of_false (by simp) (not_not.2 ⟨first, isFirst.1⟩)⟩
    rw [Option.some.injEq]
    exact ⟨fun same => same ▸ isFirst, fun least => isFirst.unique least⟩

/-! ## The search -/

section search
variable {ch : UInt8}

private theorem isFirst_here {b : UInt8} (same : b.toNat = (ch.toNat : Int)) (rest : Bytes) :
    IsFirst (Unescaped ch (b :: rest)) (some 0) := by
  have value : b = ch := UInt8.toNat_inj.1 (Int.ofNat_inj.1 same)
  refine ⟨⟨?_, ?_⟩, fun i _ => Nat.zero_le i⟩
  · rw [value, List.getElem?_cons_zero]
  · exact Even.zero

private theorem not_unescaped_zero {b : UInt8} (differs : ¬ b.toNat = (ch.toNat : Int)) (rest : Bytes) :
    ¬ Unescaped ch (b :: rest) 0 := by
  rintro ⟨here, -⟩
  rw [List.getElem?_cons_zero, Option.some.injEq] at here
  exact differs (by rw [here])

private theorem not_unescaped_one {b : UInt8} (escape : b.toNat = backslash) (rest : Bytes) :
    ¬ Unescaped ch (b :: rest) 1 := by
  rintro ⟨-, even⟩
  have one : backslashesBefore (b :: rest) 1 = 1 := by
    simp [backslashesBefore, List.rtakeWhile, isBackslash, escape]
  rw [one] at even
  exact absurd even (by decide)

private theorem unescapedAt_first (ch : UInt8) (text : Bytes) :
    IsFirst (Unescaped ch text) (unescapedAt ch.toNat text) := by
  fun_induction unescapedAt (ch.toNat : Int) text with
  | case1 =>
    rintro i ⟨here, -⟩
    cases here
  | case2 b same => exact isFirst_here same []
  | case3 b differs =>
    intro i here
    cases i with
    | zero => exact not_unescaped_zero differs [] here
    | succ i => cases here.1
  | case4 b next rest same => exact isFirst_here same (next :: rest)
  | case5 b next rest differs escape ih =>
    -- The byte after a backslash is passed unseen; as a second backslash it makes the run before it even.
    have even : Even (backslashesBefore [b, next] 2) := by
      by_cases twice : next.toNat = backslash
      · simp [backslashesBefore, List.rtakeWhile, isBackslash, escape, twice]
      · simp [backslashesBefore, List.rtakeWhile, isBackslash, twice]
    refine ih.later (fun i before => ?_) (unescaped_append even ch rest)
    match i with
    | 0 => exact not_unescaped_zero differs (next :: rest)
    | 1 => exact not_unescaped_one escape (next :: rest)
  | case6 b next rest differs plain ih =>
    have even : Even (backslashesBefore [b] 1) := by simp [backslashesBefore, List.rtakeWhile, isBackslash, plain]
    refine ih.later (fun i before => ?_) (unescaped_append even ch (next :: rest))
    obtain rfl : i = 0 := Nat.lt_one_iff.1 before
    exact not_unescaped_zero differs (next :: rest)

end search

/-- In the text of an array a byte is not escaped where the array has it with an even run before it. -/
theorem unescaped_textOf (ch : UInt8) (bytes : Bytes) (offset : Nat) :
    Unescaped ch (textOf bytes) offset ↔
      offset < textLength bytes ∧ bytes[offset]? = some ch ∧ Even (backslashesBefore bytes offset) := by
  by_cases inside : offset < textLength bytes
  · have run : backslashesBefore (textOf bytes) offset = backslashesBefore bytes offset := by
      rw [backslashesBefore, backslashesBefore, textOf_eq_take, List.take_take, Nat.min_eq_left inside.le]
    rw [Unescaped, run, textOf_eq_take, List.getElem?_take_of_lt inside]
    exact (and_iff_right inside).symm
  · refine iff_of_false ?_ fun there => inside there.1
    rintro ⟨here, -⟩
    rw [List.getElem?_eq_none (Nat.le_of_not_lt inside)] at here
    cases here

/-- Finding a byte that is not escaped is a test of parity. The offset that is found is the least one in the text at
which the byte lies with an even number of backslashes right before it, and none is found exactly where there is no
such offset. -/
theorem findUnescaped_iff_parity (bytes : Bytes) (ch : UInt8) :
    let IsFree := fun offset =>
      offset < textLength bytes ∧ bytes[offset]? = some ch ∧ Even (backslashesBefore bytes offset)
    (∀ offset, findUnescaped (some bytes) ch.toNat = some offset ↔ IsLeast {place | IsFree place} offset) ∧
    (findUnescaped (some bytes) ch.toNat = none ↔ ¬ ∃ offset, IsFree offset) := by
  intro IsFree
  have kinds : Unescaped ch (textOf bytes) = IsFree := funext fun offset => propext (unescaped_textOf ch bytes offset)
  have isFirst := unescapedAt_first ch (textOf bytes)
  rw [kinds] at isFirst
  exact isFirst_iff isFirst

/-- Behind three backslashes a byte is escaped, and behind two it is not. -/
example : findUnescaped (some [0x5C, 0x5C, 0x5C, 0x61, 0x5C, 0x5C, 0x61]) 0x61 = some 6 := by decide

end BoundedText
