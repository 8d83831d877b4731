import BoundedText.Proofs.Appending
import BoundedText.Proofs.Occurrences

/-!
# Leftmost replacement

Replacing a part writes the gaps that its occurrences leave from the left, with the new text between them, and
is cut where a long buffer ends (`replace_fills_gaps`). Looking for the next occurrence and copying what comes
before it at once does the same as looking at each byte whether the part begins there (`replaceFrom_gaps`,
`replace2From_gaps`), since no occurrence begins inside a gap.
-/

namespace BoundedText

section replacing
variable {part : Bytes} {new : Option Text} {rest : Bytes} {gaps : List Bytes}

/-! ## What is copied -/

private theorem givenText_bytes (new : Option Text) :
    givenText (new.map fun text => .bytes text.toBytes) = givenText new := by
  cases new with
  | none => rfl
  | some text => rfl

/-- The first bytes of a text without NULs are copied as far as they fit. -/
theorem appendBytes_visible (visible : ∀ b ∈ rest, b ≠ 0) (count : Nat) (cursor : Cursor) :
    cursor.appendBytes (some (.bytes rest)) count = cursor.append (rest.take count) := by
  have leading : Cursor.leadingBytes (some (.bytes rest)) count = rest.take count := by
    rw [Cursor.leadingBytes, if_neg]
    · rfl
    · intro nul
      exact visible 0 (List.mem_of_head? nul) rfl
  rw [← leading]
  exact Cursor.appendBytes_counts _ _ cursor

/-! ## Looking for the next occurrence -/

private theorem replaceFrom_last (nonempty : part ≠ []) (nowhere : indexOf part rest = none)
    (visible : ∀ b ∈ rest, b ≠ 0)
    (cursor : Cursor) : replaceFrom part nonempty new rest cursor = (cursor.append rest).2 := by
  rw [replaceFrom]
  by_cases ended : rest = []
  · rw [if_pos ended, ended, Cursor.append_nil]
  · rw [if_neg ended]
    split
    · rw [appendBytes_visible visible, List.take_length]
    · rename_i found
      rw [nowhere] at found
      cases found

private theorem replaceFrom_next (nonempty : part ≠ []) {place : Nat} (found : indexOf part rest = some place)
    (visible : ∀ b ∈ rest, b ≠ 0) (cursor : Cursor) :
    replaceFrom part nonempty new rest cursor =
      replaceFrom part nonempty new (rest.drop (place + part.length))
        (cursor.append (rest.take place ++ givenText new)).2 := by
  have more : rest ≠ [] := by
    rintro rfl
    have within := indexOf_le found
    exact nonempty (List.length_eq_zero_iff.1 (by rw [List.length_nil] at within; omega))
  conv_lhs => rw [replaceFrom, if_neg more]
  split
  · rename_i ended
    rw [found] at ended
    cases ended
  · rename_i other
    rw [found] at other
    cases other
    dsimp only
    rw [appendBytes_visible visible, Cursor.appendText_eq, Cursor.append_append]

/-- The loop writes the gaps with the new text between them. -/
theorem replaceFrom_gaps (nonempty : part ≠ []) (left : Gaps part rest gaps) (visible : ∀ b ∈ rest, b ≠ 0)
    (cursor : Cursor) :
    replaceFrom part nonempty new rest cursor = (cursor.append ((givenText new).intercalate gaps)).2 := by
  induction left generalizing cursor with
  | last nowhere => rw [replaceFrom_last nonempty (indexOf_nowhere nowhere) visible, List.intercalate_singleton]
  | @next gap rest gaps first later ih =>
    have found := indexOf_first (occursAt_length gap part rest) first
    have before : (gap ++ part ++ rest).take gap.length = gap := by rw [List.append_assoc, List.take_left]
    have after : (gap ++ part ++ rest).drop (gap.length + part.length) = rest :=
      List.drop_left' (List.length_append ..)
    obtain ⟨-, behind⟩ := List.forall_mem_append.1 visible
    rw [replaceFrom_next nonempty found visible, before, after, ih behind, Cursor.append_append,
      List.intercalate_cons_of_ne_nil later.ne_nil]

/-! ## Looking at each byte -/

variable {first second : Rule}

private theorem Rule.applies_iff {rule : Rule} :
    rule.applies rest = true ↔ rule.part ≠ [] ∧ OccursAt rule.part rest 0 := by
  simp [Rule.applies, OccursAt, List.isEmpty_eq_false_iff]

/-- A rule that says nothing the first one does not. -/
def Idle (first second : Rule) : Prop := second.part = [] ∨ second.part = first.part

theorem Idle.applies (idle : Idle first second) (applies : second.applies rest = true) : first.applies rest = true := by
  rcases idle with empty | same
  · exact absurd empty (Rule.applies_iff.1 applies).1
  · rw [Rule.applies_iff, same] at applies
    exact Rule.applies_iff.2 applies

private theorem replace2From_first (applies : first.applies rest = true) (cursor : Cursor) :
    replace2From first second rest cursor =
      replace2From first second (rest.drop first.part.length) (cursor.append (givenText first.new)).2 := by
  cases rest with
  | nil =>
    obtain ⟨nonempty, here⟩ := Rule.applies_iff.1 applies
    exact absurd (List.prefix_nil.1 here) nonempty
  | cons b more => rw [replace2From, dif_pos applies, Cursor.appendText_eq]

private theorem replace2From_byte (idle : Idle first second) {b : UInt8} (apart : ¬ first.applies (b :: rest) = true)
    (cursor : Cursor) :
    replace2From first second (b :: rest) cursor = replace2From first second rest (cursor.append [b]).2 := by
  have other : ¬ second.applies (b :: rest) = true := fun applies => apart (idle.applies applies)
  have written : cursor.appendByte b.toNat = cursor.append [byteOf b.toNat] := Cursor.appendByte_counts b.toNat cursor
  rw [replace2From, dif_neg apart, dif_neg other, written, byteOf_toNat]

/-- Bytes among which the part does not begin are copied one by one. -/
theorem replace2From_copy (idle : Idle first second) (gap : Bytes)
    (apart : ∀ place < gap.length, ¬ first.applies ((gap ++ rest).drop place) = true) (cursor : Cursor) :
    replace2From first second (gap ++ rest) cursor = replace2From first second rest (cursor.append gap).2 := by
  induction gap generalizing cursor with
  | nil => rw [List.nil_append, Cursor.append_nil]
  | cons b gap ih =>
    have here : ¬ first.applies (b :: (gap ++ rest)) = true := apart 0 (Nat.succ_pos _)
    have later := ih (fun place less => apart (place + 1) (Nat.succ_lt_succ less)) (cursor.append [b]).2
    rw [List.cons_append, replace2From_byte idle here, later, Cursor.append_append, List.singleton_append]

theorem replace2From_gaps (idle : Idle first second) (nonempty : first.part ≠ []) (left : Gaps first.part rest gaps)
    (cursor : Cursor) :
    replace2From first second rest cursor = (cursor.append ((givenText first.new).intercalate gaps)).2 := by
  have occurs {place : Nat} {rest : Bytes} (applies : first.applies (rest.drop place) = true) :
      OccursAt first.part rest place := (Rule.applies_iff.1 applies).2
  induction left generalizing cursor with
  | @last rest nowhere =>
    have copied := @replace2From_copy [] first second idle rest
      (fun place _ applies => nowhere place (occurs (by rwa [List.append_nil] at applies))) cursor
    rw [List.append_nil] at copied
    rw [copied, replace2From, List.intercalate_singleton]
  | @next gap rest gaps leftmost later ih =>
    have copied := @replace2From_copy (first.part ++ rest) first second idle gap
      (fun place less applies => leftmost place less (occurs (by rwa [← List.append_assoc] at applies))) cursor
    have here : first.applies (first.part ++ rest) = true := Rule.applies_iff.2 ⟨nonempty, List.prefix_append _ _⟩
    rw [List.append_assoc, copied, replace2From_first here, List.drop_left, ih, Cursor.append_append,
      Cursor.append_append, List.intercalate_cons_of_ne_nil later.ne_nil, List.append_assoc]

end replacing

/-! ## Whole texts -/

section texts
variable (part : Text) (new : Option Text) (text : Text)

theorem replace_gaps (nonempty : textOf part.toBytes ≠ []) {gaps : List Bytes}
    (left : Gaps (textOf part.toBytes) (textOf text.toBytes) gaps) :
    replace part new text = ((givenText new).intercalate gaps).take (longCapacity - 1) := by
  have visible : ∀ b ∈ textOf text.toBytes, b ≠ 0 := fun b member => ne_zero_of_mem_text member
  rw [replace, dif_neg nonempty, replaceFrom_gaps nonempty left visible, givenText_bytes, Cursor.append_ofCapacity]

private theorem replace_empty (empty : textOf part.toBytes = []) :
    replace part new text = (textOf text.toBytes).take (longCapacity - 1) := by
  rw [replace, dif_pos empty, Cursor.appendText_eq, Cursor.append_ofCapacity]
  rfl

/-- With a second rule that says nothing new, replacing two parts is replacing the first. -/
theorem replace2_idle (other : Text) (unused : Option Text)
    (idle : textOf other.toBytes = [] ∨ textOf other.toBytes = textOf part.toBytes) :
    replace2 (part, other) (new, unused) text = replace part new text := by
  let first : Rule := ⟨textOf part.toBytes, new⟩
  let second : Rule := ⟨textOf other.toBytes, unused⟩
  have silent : Idle first second := idle
  have written : replace2 (part, other) (new, unused) text =
      (replace2From first second (textOf text.toBytes) (Cursor.ofCapacity longCapacity)).written := rfl
  rw [written]
  by_cases empty : textOf part.toBytes = []
  · have never (place : Nat) : ¬ first.applies ((textOf text.toBytes).drop place) = true :=
      fun applies => (Rule.applies_iff.1 applies).1 empty
    have copied := @replace2From_copy [] first second silent (textOf text.toBytes)
      (fun place _ => by rw [List.append_nil]; exact never place) (Cursor.ofCapacity longCapacity)
    rw [List.append_nil] at copied
    rw [copied, replace2From, Cursor.append_ofCapacity, replace_empty part new text empty]
  · obtain ⟨gaps, left⟩ := exists_gaps empty (textOf text.toBytes)
    rw [replace2From_gaps silent empty left, Cursor.append_ofCapacity, replace_gaps part new text empty left]

/-- Replacing is leftmost, without overlap, and complete. The occurrences of a part that is not empty, each the
first one after that before it, leave gaps in a text, in the last of which the part does not occur. The text is
these gaps with the part between them, and replacing the part gives them with the new text between them, cut
where a long buffer ends. A part that is empty is not replaced. Looking for two parts at each byte of the text
gives the same, when the second is empty or is the first one again. -/
theorem replace_fills_gaps :
    (textOf part.toBytes ≠ [] → ∃ gaps, Gaps (textOf part.toBytes) (textOf text.toBytes) gaps ∧
      textOf text.toBytes = (textOf part.toBytes).intercalate gaps ∧
      replace part new text = ((givenText new).intercalate gaps).take (longCapacity - 1)) ∧
    (textOf part.toBytes = [] → replace part new text = (textOf text.toBytes).take (longCapacity - 1)) ∧
    ∀ (other : Text) (unused : Option Text),
      textOf other.toBytes = [] ∨ textOf other.toBytes = textOf part.toBytes →
        replace2 (part, other) (new, unused) text = replace part new text := by
  refine ⟨?_, replace_empty part new text, replace2_idle part new text⟩
  intro nonempty
  obtain ⟨gaps, left⟩ := exists_gaps nonempty (textOf text.toBytes)
  exact ⟨gaps, left, left.intercalate, replace_gaps part new text nonempty left⟩

end texts

/-- The theorem at a text in which the part overlaps itself, with a new text that has the part in it. -/
theorem replace_fills_gaps_overlapping :
    let part : Text := .bytes [0x61, 0x61]
    let again : Text := .bytes [0x61, 0x61, 0, 0x62]
    let new : Option Text := some (.bytes [0x61, 0x61, 0x62])
    let text : Text := .bytes [0x61, 0x61, 0x61, 0x63, 0x61, 0x61, 0, 0x61, 0x61]
    let replaced : Bytes := [0x61, 0x61, 0x62, 0x61, 0x63, 0x61, 0x61, 0x62]
    (textOf part.toBytes ≠ [] ∧ Gaps [0x61, 0x61] (textOf text.toBytes) [[], [0x61, 0x63], []] ∧
      replace part new text = replaced) ∧
    (textOf (Text.string []).toBytes = [] ∧ replace (.string []) new text = textOf text.toBytes) ∧
    (textOf again.toBytes = [] ∨ textOf again.toBytes = textOf part.toBytes) ∧
      replace2 (part, again) (new, none) text = replaced := by
  intro part again new text replaced
  have nonempty : textOf part.toBytes ≠ [] := by decide
  have empty : textOf (Text.string []).toBytes = [] := rfl
  have idle : textOf again.toBytes = [] ∨ textOf again.toBytes = textOf part.toBytes := by decide
  have last : Gaps [0x61, 0x61] ([] : Bytes) [[]] := .last (not_occursAt (by decide) (by decide))
  have later : Gaps [0x61, 0x61] ([0x61, 0x63, 0x61, 0x61] : Bytes) [[0x61, 0x63], []] :=
    @Gaps.next _ _ [0x61, 0x63] [] _ (by decide) last
  have known : Gaps [0x61, 0x61] (textOf text.toBytes) [[], [0x61, 0x63], []] :=
    @Gaps.next _ _ [] [0x61, 0x63, 0x61, 0x61] _ (by decide) later
  obtain ⟨split, whole, both⟩ := replace_fills_gaps part new text
  obtain ⟨gaps, left, -, written⟩ := split nonempty
  have once : replace part new text = replaced := by
    rw [written, left.unique known]
    exact List.take_of_length_le (by decide)
  refine ⟨⟨nonempty, known, once⟩, ⟨empty, ?_⟩, idle, ?_⟩
  · rw [(replace_fills_gaps (.string []) new text).2.1 empty]
    exact List.take_of_length_le (by decide)
  · rw [both again none idle, once]

end BoundedText
