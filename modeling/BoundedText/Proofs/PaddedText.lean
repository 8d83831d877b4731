import BoundedText.Padding
import BoundedText.Proofs.ProperText
import BoundedText.Proofs.VisibleCodepoints

/-!
# Padded text

The visible length of two texts in a row is that of the first and of what the second has after the span that the
first leaves open (`visibleLength_append`), unless a sequence goes on from one to the other. Padding does not go on
with a sequence; so where no span is left open each byte of it is seen, and it reaches the width that is asked for
as far as the buffer goes (`padding_reaches_width`).
-/

namespace BoundedText

/-! ## Visible lengths -/

private theorem offset_lt_of_mem_walk {bytes : Bytes} {step : Step} (taken : step ∈ walk bytes 0) :
    step.offset < bytes.length := by
  have found := decode_of_mem_walk taken
  by_contra past
  rw [List.drop_eq_nil_of_le (Nat.not_lt.1 past)] at found
  cases found

theorem visibleLength_append {front back : Bytes} (visible : ∀ b ∈ front, b ≠ 0)
    (apart : ∀ b ∈ back.head?, Utf8.isContinuation b = false) :
    visibleLength (front ++ back) =
      visibleLength front + visibleLength (back.drop (spanRest (SpanState.outside.after front) back)) := by
  have counted (bytes : Bytes) : visibleLength bytes = ((walk bytes 0).filter (isVisible .outside bytes)).length := by
    rw [length_visible, spanRest_outside, List.drop_zero]
  have steps : walk (front ++ back) 0 = walk front 0 ++ (walk back 0).map (·.later front.length) := by
    rw [walk, List.drop_zero, stepsFrom_append visible apart, Nat.zero_add]
    exact congrArg _ (stepsFrom_add back front.length 0)
  have first : (walk front 0).filter (isVisible .outside (front ++ back)) =
      (walk front 0).filter (isVisible .outside front) := by
    apply List.filter_congr
    intro step taken
    have inside := offset_lt_of_mem_walk taken
    rw [isVisible, isVisible, opensAt, opensAt, List.take_append_of_le_length inside.le, List.getElem?_append_left inside]
  have second : isVisible .outside (front ++ back) ∘ (·.later front.length) =
      isVisible (SpanState.outside.after front) back := by
    funext step
    rw [Function.comp_apply, isVisible_later, List.take_left, List.drop_left]
  rw [counted, steps, List.filter_append, List.length_append, first, ← counted, List.filter_map, second, List.length_map,
    length_visible]

/-- What comes after the text of an array is not measured. -/
theorem visibleLength_textOf (bytes : Bytes) : visibleLength (textOf bytes) = visibleLength bytes := by
  have ended := decode_textLength bytes
  have none : spanRest (SpanState.outside.after (textOf bytes)) (bytes.drop (textLength bytes)) = 0 := by
    have short := spanRest_le (SpanState.outside.after (textOf bytes)) (bytes.drop (textLength bytes))
    rw [textLength_drop (Nat.le_refl _), Nat.sub_self] at short
    exact Nat.le_zero.1 short
  have visible : ∀ b ∈ textOf bytes, b ≠ 0 := fun _ => ne_zero_of_mem_text
  conv_rhs => rw [← textOf_append_drop bytes]
  rw [visibleLength_append visible (apart_of_ended ended), none, List.drop_zero, visibleLength_end ended, Nat.add_zero]

/-- A character that is seen by itself: no NUL, no opening of a span and no part of a longer sequence. -/
def IsPlain (b : UInt8) : Prop := b ≠ 0 ∧ b < 0x80 ∧ Characters.isSpanStart b.toNat = false

theorem IsPlain.apart {b : UInt8} (plain : IsPlain b) : Utf8.isContinuation b = false := by
  by_contra continues
  have range := (Utf8.isContinuation_iff b).1 (Bool.eq_true_of_not_eq_false continues)
  have low : b.toNat < 0x80 := UInt8.lt_iff_toNat_lt.1 plain.2.1
  omega

private theorem visibleLength_replicate {b : UInt8} (plain : IsPlain b) (count : Nat) :
    visibleLength (List.replicate count b) = count := by
  obtain ⟨visible, low, closed⟩ := plain
  induction count with
  | zero => exact visibleLength_end rfl
  | succ count ih =>
    have found : Utf8.decode (b :: List.replicate count b) = some ⟨b.toNat, 1⟩ :=
      Utf8.decode_of_reads visible (.ascii (UInt8.lt_iff_toNat_lt.1 low))
    obtain ⟨length, value⟩ := codepoint_unit found
    have step : scanStep .codepoint (b :: List.replicate count b) = 1 := by
      rw [scanStep, value, closed, length]
      rfl
    rw [List.replicate_succ, visibleLength_next found, opensAt_zero found, closed, step, List.drop_succ_cons,
      List.drop_zero, ih, Nat.add_comm]
    rfl

private theorem isPlain_byteOf {ch : Int} (low : 0x20 ≤ ch) (high : ch ≤ 0x7E) : IsPlain (byteOf ch) := by
  have value : (byteOf ch).toNat = ch.toNat := by
    rw [byteOf, UInt8.toNat_ofNat']
    omega
  refine ⟨?_, ?_, ?_⟩
  · intro nul
    rw [nul, UInt8.toNat_zero] at value
    omega
  · rw [UInt8.lt_iff_toNat_lt, value]
    change ch.toNat < 0x80
    omega
  · have apart : ch.toNat ≠ Characters.tagStart ∧ ch.toNat ≠ Characters.escape := by
      simp only [Characters.tagStart, Characters.escape]
      omega
    simp [value, Characters.isSpanStart, apart]

/-! ## Padding -/

namespace Cursor

/-- Copies of a byte that are written after a text and then a NUL, as many as fit. -/
theorem terminate_fill {cursor : Cursor} (inside : cursor.pos < cursor.buffer.length) (ch count : Int) :
    let fitting := min count.toNat cursor.room
    ((cursor.appendFill ch count).1 = 0 ↔ fitting = count.toNat) ∧
      (cursor.appendFill ch count).2.terminate.buffer =
        cursor.written ++ List.replicate fitting (byteOf ch) ++ 0 :: cursor.buffer.drop (cursor.pos + fitting + 1) := by
  intro fitting
  obtain ⟨after, whole⟩ := appendFill_writes ch count cursor
  have size : (List.replicate fitting (byteOf ch)).length = fitting := List.length_replicate
  have fits : cursor.pos + (List.replicate fitting (byteOf ch)).length < cursor.buffer.length := by
    rw [size]
    simp only [fitting, room]
    omega
  have filled : (cursor.appendFill ch count).2 = cursor.write (List.replicate fitting (byteOf ch)) := by
    rw [after, append_eq, List.take_replicate, Nat.min_comm]
  have ended := @terminate_eq (cursor.write (List.replicate fitting (byteOf ch))) (by rwa [write, length_overwrite])
  constructor
  · rw [whole, append_eq, List.length_replicate]
    simp only [fitting]
    omega
  · rw [filled, ended, written_write fits.le]
    simp only [write]
    rw [← List.drop_drop, drop_overwrite _ _ _ fits.le, List.drop_drop, size]

end Cursor

/-- A text that is not wide enough and has a NUL after it is followed by copies of the byte, as many as are missing
or as there is room for. -/
theorem padTo_fills {buffer : Bytes} {width : Int} (narrow : visibleLength buffer < min width (buffer.length - 1))
    (room : textLength buffer < buffer.length) (ch : Int) :
    let missing := min width (buffer.length - 1) - visibleLength buffer
    let count := min missing.toNat (buffer.length - 1 - textLength buffer)
    let padded := textOf buffer ++ List.replicate count (byteOf ch)
    (padTo ch width buffer).2 = padded ++ 0 :: buffer.drop (padded.length + 1) ∧
      ((padTo ch width buffer).1 = 0 ↔ (count : Int) = missing) := by
  intro missing count padded
  let cursor : Cursor := ⟨buffer, textLength buffer⟩
  have inside : cursor.pos < cursor.buffer.length := room
  obtain ⟨answer, filled⟩ := Cursor.terminate_fill inside ch missing
  have run : padTo ch width buffer =
      ((cursor.appendFill ch missing).1, (cursor.appendFill ch missing).2.terminate.buffer) := by
    rw [padTo, if_neg (Int.not_le.2 narrow)]
    exact if_neg (Nat.not_le.2 room)
  have before : cursor.written = textOf buffer := (textOf_eq_take buffer).symm
  have size : padded.length = textLength buffer + count := by
    rw [List.length_append, List.length_replicate]
    rfl
  constructor
  · rw [run, filled, before, size]
    rfl
  · rw [run, answer]
    change count = missing.toNat ↔ _
    omega

/-- Copies of a plain character after a text that leaves no span open are all seen. -/
theorem visibleLength_padded {text : Bytes} (visible : ∀ b ∈ text, b ≠ 0)
    (closed : SpanState.outside.after text = .outside) {b : UInt8} (plain : IsPlain b) (count : Nat) :
    visibleLength (text ++ List.replicate count b) = visibleLength text + count := by
  have apart : ∀ x ∈ (List.replicate count b).head?, Utf8.isContinuation x = false := by
    intro x first
    rw [List.eq_of_mem_replicate (List.mem_of_mem_head? first)]
    exact plain.apart
  rw [visibleLength_append visible apart, closed, spanRest_outside, List.drop_zero, visibleLength_replicate plain]

/-- Padding reaches the visible width asked for, or as much of it as there is room for. Whatever a buffer holds after
its text, and whatever the text is as long as it leaves no span open: one that is wide enough already stays, and so
does one without a NUL to begin at. Any other is followed by copies of the character, each of which is seen, and a
NUL; the bytes after that NUL stay, and the answer is 0 when no copy was left out. -/
theorem padding_reaches_width (buffer : Bytes) (ch width : Int) (low : 0x20 ≤ ch) (high : ch ≤ 0x7E)
    (closed : SpanState.outside.after (textOf buffer) = .outside) :
    let text := textOf buffer
    let wanted := min width (buffer.length - 1)
    (wanted ≤ visibleLength text → padTo ch width buffer = (0, buffer)) ∧
    (visibleLength text < wanted → text.length = buffer.length → padTo ch width buffer = (1, buffer)) ∧
    (visibleLength text < wanted → text.length < buffer.length →
      let count := min (wanted - visibleLength text).toNat (buffer.length - 1 - text.length)
      let padded := text ++ List.replicate count (byteOf ch)
      (padTo ch width buffer).2 = padded ++ 0 :: buffer.drop (padded.length + 1) ∧
        textOf (padTo ch width buffer).2 = padded ∧
        visibleLength padded = visibleLength text + count ∧
        ((padTo ch width buffer).1 = 0 ↔ (count : Int) = wanted - visibleLength text)) := by
  intro text wanted
  have measured : visibleLength text = visibleLength buffer := visibleLength_textOf buffer
  rw [measured]
  refine ⟨?_, ?_, ?_⟩
  · intro wide
    exact if_pos wide
  · intro narrow full
    rw [padTo, if_neg (Int.not_le.2 narrow)]
    exact if_pos full.ge
  · intro narrow room count padded
    obtain ⟨bytes, answer⟩ : (padTo ch width buffer).2 = padded ++ 0 :: buffer.drop (padded.length + 1) ∧ _ :=
      padTo_fills narrow room ch
    have plain := isPlain_byteOf low high
    have visible : ∀ b ∈ text, b ≠ 0 := fun _ => ne_zero_of_mem_text
    have all : ∀ b ∈ padded, b ≠ 0 := by
      intro b member
      rcases List.mem_append.1 member with old | new
      · exact visible b old
      · rw [List.eq_of_mem_replicate new]
        exact plain.1
    refine ⟨bytes, ?_, ?_, answer⟩
    · rw [bytes, textOf_append all]
      exact List.append_nil _
    · rw [← measured]
      exact visibleLength_padded visible closed plain count

/-- The theorem for a letter, a tag and a sequence that breaks off, with stale bytes after the NUL: all of a width
fits at first, and then only a part of a larger one. -/
theorem padding_reaches_width_spans :
    let buffer : Bytes := [0x61, 2, 0x62, 3, 0xE2, 0x82, 0, 0x80, 7, 8, 9]
    let text : Bytes := [0x61, 2, 0x62, 3, 0xE2, 0x82]
    SpanState.outside.after (textOf buffer) = .outside ∧ textOf buffer = text ∧ visibleLength text = 2 ∧
    padTo 0x2E 4 buffer = (0, text ++ [0x2E, 0x2E, 0, 8, 9]) ∧ visibleLength (text ++ [0x2E, 0x2E]) = 4 ∧
    textOf (padTo 0x2E 9 buffer).2 = text ++ [0x2E, 0x2E, 0x2E, 0x2E] ∧ (padTo 0x2E 9 buffer).1 ≠ 0 := by
  intro buffer text
  have closed : SpanState.outside.after (textOf buffer) = .outside := by decide
  have cut : textOf buffer = text := rfl
  have seen : visibleLength text = 2 := by cbv
  obtain ⟨-, -, whole⟩ := padding_reaches_width buffer 0x2E 4 (by decide) (by decide) closed
  obtain ⟨-, -, part⟩ := padding_reaches_width buffer 0x2E 9 (by decide) (by decide) closed
  simp only [cut, seen] at whole part
  obtain ⟨bytes, -, width, answer⟩ := whole (by decide) (by decide)
  obtain ⟨-, filled, -, short⟩ := part (by decide) (by decide)
  refine ⟨closed, cut, seen, ?_, width, filled, ?_⟩
  · exact Prod.ext (answer.2 (by decide)) bytes
  · rw [ne_eq, short]
    decide

end BoundedText
