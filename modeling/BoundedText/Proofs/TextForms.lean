import BoundedText.Proofs.ByteOrder
import BoundedText.Proofs.Strings

/-!
# The order of a text in its two forms

A text that comes as a string is compared by its whole encoding, and one that comes as bytes up to its first
NUL. The two forms are in the same order to every text that differs before a NUL (`compareBytes_apart`), since
a NUL is the least of all bytes; a string with a NUL is only told apart from its encoding by a text that is
the same before it (`forms_compare_alike_iff`).
-/

namespace BoundedText

/-! ## Bytes after a NUL -/

/-- A text that is not empty begins with a byte other than NUL. -/
theorem exists_cons_of_text {bytes : Bytes} (some : textOf bytes ≠ []) : ∃ b rest, bytes = b :: rest ∧ b ≠ 0 := by
  cases bytes with
  | nil => exact absurd rfl some
  | cons b rest =>
    refine ⟨b, rest, rfl, ?_⟩
    rintro rfl
    exact some rfl

/-- An array that holds no text comes before every array that holds one. -/
theorem numbersOf_lt_of_ended {first second : Bytes} (ended : textOf first = []) (some : textOf second ≠ []) :
    numbersOf first < numbersOf second := by
  obtain ⟨b, rest, rfl, visible⟩ := exists_cons_of_text some
  cases first with
  | nil => exact List.nil_lt_cons _ _
  | cons a first =>
    have nul : a = 0 := by
      by_contra visible'
      rw [textOf_cons visible'] at ended
      cases ended
    subst nul
    have positive : 0 < b.toNat := Nat.pos_of_ne_zero fun zero => visible (UInt8.toNat_inj.1 zero)
    exact List.cons_lt_cons_iff.2 (.inl positive)

/-- Of two arrays whose texts differ, the one with the lesser text comes first, whatever is after the NULs. -/
theorem numbersOf_lt_iff {first second : Bytes} (apart : textOf first ≠ textOf second) :
    numbersOf first < numbersOf second ↔ numbersOf (textOf first) < numbersOf (textOf second) := by
  by_cases ended : textOf first = []
  · have some : textOf second ≠ [] := fun none => apart (ended.trans none.symm)
    obtain ⟨b, rest, rfl, visible⟩ := exists_cons_of_text some
    refine iff_of_true (numbersOf_lt_of_ended ended some) ?_
    rw [ended, textOf_cons visible]
    exact List.nil_lt_cons _ _
  by_cases ended' : textOf second = []
  · refine iff_of_false (numbersOf_lt_of_ended ended' ended).asymm ?_
    rw [ended']
    exact List.not_lt_nil _
  · obtain ⟨a, first, rfl, visible⟩ := exists_cons_of_text ended
    obtain ⟨b, second, rfl, visible'⟩ := exists_cons_of_text ended'
    rw [textOf_cons visible, textOf_cons visible'] at apart ⊢
    simp only [numbersOf, List.map_cons, List.cons_lt_cons_iff]
    refine or_congr_right (and_congr_right fun same => numbersOf_lt_iff fun tails => apart ?_)
    rw [UInt8.toNat_inj.1 same, tails]
termination_by first.length

/-! ## Texts that differ -/

private theorem compareBytes_compared (a b : Text) :
    compareBytes a b = orderSign (numbersOf (comparedBytes a)) (numbersOf (comparedBytes b)) :=
  compareLists_eq _ _

private theorem compareBytes_eq_zero {a b : Text} : compareBytes a b = 0 ↔ comparedBytes a = comparedBytes b := by
  rw [compareBytes_compared, orderSign_eq_zero, numbersOf, numbersOf, map_toNat_inj]

/-- What either form is compared by begins with the text. -/
theorem textOf_comparedBytes (text : Text) : textOf (comparedBytes text) = textOf text.toBytes := by
  cases text with
  | string units => rfl
  | bytes array => exact textOf_self fun _ => ne_zero_of_mem_text

/-- Texts that differ before a NUL are in the order of what is before it, in either form. -/
theorem compareBytes_apart {a b : Text} (apart : textOf a.toBytes ≠ textOf b.toBytes) :
    compareBytes a b = orderSign (numbersOf (textOf a.toBytes)) (numbersOf (textOf b.toBytes)) := by
  rw [← textOf_comparedBytes a, ← textOf_comparedBytes b] at apart ⊢
  rw [compareBytes_compared]
  exact orderSign_congr (numbersOf_lt_iff apart) (numbersOf_lt_iff apart.symm)

/-! ## Strings and their encodings -/

/-- A string in the form of bytes. -/
def asBytes (units : Units) : Text := .bytes (Utf16.toUtf8 units)

private theorem comparedBytes_asBytes (units : Units) :
    comparedBytes (asBytes units) = textOf (Utf16.toUtf8 units) := rfl

/-- A string and its encoding hold the same text, so that neither form matters where texts differ. -/
theorem compareBytes_forms {a b a' b' : Text} (first : textOf a.toBytes = textOf a'.toBytes)
    (second : textOf b.toBytes = textOf b'.toBytes) (apart : textOf a.toBytes ≠ textOf b.toBytes) :
    compareBytes a b = compareBytes a' b' := by
  rw [compareBytes_apart apart, compareBytes_apart (by rwa [← first, ← second]), first, second]

/-- The forms of two strings compare alike exactly when the strings differ before a NUL or have none. As bytes
alone they are in the order of what comes before their first NULs, which is how strings cut there are compared;
as strings alone they are in that order too, unless they differ after a NUL only. -/
theorem forms_compare_alike_iff (a b : Units) :
    ((compareBytes (.string a) (.string b) = compareBytes (asBytes a) (asBytes b) ∧
        compareBytes (.string a) (.string b) = compareBytes (asBytes a) (.string b) ∧
        compareBytes (.string a) (.string b) = compareBytes (.string a) (asBytes b)) ↔
      (textOf (Utf16.toUtf8 a) = textOf (Utf16.toUtf8 b) → 0 ∉ a ∧ 0 ∉ b)) ∧
    compareBytes (asBytes a) (asBytes b) = compareBytes (.string (beforeNul a)) (.string (beforeNul b)) ∧
    (compareBytes (.string a) (.string b) = compareBytes (asBytes a) (asBytes b) ↔
      (textOf (Utf16.toUtf8 a) = textOf (Utf16.toUtf8 b) → Utf16.toUtf8 a = Utf16.toUtf8 b)) := by
  have cut : compareBytes (asBytes a) (asBytes b) = compareBytes (.string (beforeNul a)) (.string (beforeNul b)) := by
    rw [compareBytes_compared, compareBytes_compared, comparedBytes_asBytes, comparedBytes_asBytes, textOf_toUtf8,
      textOf_toUtf8]
    rfl
  by_cases same : textOf (Utf16.toUtf8 a) = textOf (Utf16.toUtf8 b)
  · -- The encodings are equal as texts; each form that is compared whole shows a NUL of its own string.
    have zero : compareBytes (asBytes a) (asBytes b) = 0 := compareBytes_eq_zero.2 same
    have whole : compareBytes (.string a) (.string b) = 0 ↔ Utf16.toUtf8 a = Utf16.toUtf8 b := compareBytes_eq_zero
    have left : compareBytes (asBytes a) (.string b) = 0 ↔ 0 ∉ b := by
      rw [compareBytes_eq_zero, comparedBytes_asBytes, same]
      exact textOf_toUtf8_eq_self
    have right : compareBytes (.string a) (asBytes b) = 0 ↔ 0 ∉ a := by
      rw [compareBytes_eq_zero, comparedBytes_asBytes, ← same]
      exact eq_comm.trans textOf_toUtf8_eq_self
    refine ⟨⟨?_, ?_⟩, cut, ?_⟩
    · rintro ⟨both, one, other⟩ -
      rw [both, zero] at one other
      exact ⟨right.1 other.symm, left.1 one.symm⟩
    · intro visible
      obtain ⟨first, second⟩ := visible same
      have equal : Utf16.toUtf8 a = Utf16.toUtf8 b := by
        rw [← textOf_toUtf8_eq_self.2 first, same, textOf_toUtf8_eq_self.2 second]
      rw [whole.2 equal, zero, left.2 second, right.2 first]
      exact ⟨rfl, rfl, rfl⟩
    · rw [zero, whole]
      exact ⟨fun equal _ => equal, fun equal => equal same⟩
  · have both : compareBytes (.string a) (.string b) = compareBytes (asBytes a) (asBytes b) :=
      compareBytes_forms rfl rfl same
    refine ⟨iff_of_true ⟨both, ?_, ?_⟩ fun equal => absurd equal same, cut, iff_of_true both fun equal => absurd equal same⟩
    · exact compareBytes_forms rfl rfl same
    · exact compareBytes_forms rfl rfl same

/-- The theorem at strings with a NUL after which they differ, and before which they do too, and at two without
any, of which one ends in half a pair. -/
theorem forms_compare_alike_iff_nul :
    (textOf (Utf16.toUtf8 [0x61, 0, 0x7A]) = textOf (Utf16.toUtf8 [0x62, 0, 0x61]) →
      (0 : UInt16) ∉ [0x61, 0, 0x7A] ∧ (0 : UInt16) ∉ [0x62, 0, 0x61]) ∧
    compareBytes (.string [0x61, 0, 0x7A]) (.string [0x62, 0, 0x61]) = -1 ∧
    compareBytes (asBytes [0x61, 0xD83D]) (.string [0x61, 0xFFFD]) =
      compareBytes (.string [0x61, 0xD83D]) (.string [0x61, 0xFFFD]) := by
  have apart : textOf (Utf16.toUtf8 [0x61, 0, 0x7A]) ≠ textOf (Utf16.toUtf8 [0x62, 0, 0x61]) := by decide
  obtain ⟨alike, cut, -⟩ := forms_compare_alike_iff [0x61, 0, 0x7A] [0x62, 0, 0x61]
  have visible : (0 : UInt16) ∉ [0x61, 0xD83D] ∧ (0 : UInt16) ∉ [0x61, 0xFFFD] := by decide
  refine ⟨fun same => absurd same apart, ?_, ?_⟩
  · rw [(alike.2 fun same => absurd same apart).1, cut]
    decide
  · exact ((forms_compare_alike_iff [0x61, 0xD83D] [0x61, 0xFFFD]).1.2 fun _ => visible).2.1.symm

/-- A string that goes on after a NUL comes after the one that ends there, while their encodings are equal. -/
theorem string_compared_past_nul :
    compareBytes (.string [0x61, 0, 0x62]) (.string [0x61]) = 1 ∧
      compareBytes (asBytes [0x61, 0, 0x62]) (asBytes [0x61]) = 0 ∧
      compareBytes (asBytes [0x61, 0, 0x62]) (.string [0x61]) = 0 ∧
      ¬ ∀ a b : Units, compareBytes (.string a) (.string b) = compareBytes (asBytes a) (asBytes b) := by
  have past : compareBytes (.string [0x61, 0, 0x62]) (.string [0x61]) = 1 := by decide
  have equal : compareBytes (asBytes [0x61, 0, 0x62]) (asBytes [0x61]) = 0 := by decide
  refine ⟨past, equal, by decide, fun alike => ?_⟩
  have same := alike [0x61, 0, 0x62] [0x61]
  rw [past, equal] at same
  exact absurd same (by decide)

end BoundedText
