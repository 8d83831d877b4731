import BoundedText.Proofs.Numerals

/-!
# Whole appends

The appends that write all or nothing. Two measure first what they are going to write and leave the cursor and
its buffer alone when it does not fit; two write as far as there is room and then take the cursor back
(`orBack_spec`), so that nothing before it has changed. Each succeeds exactly when all of what it writes fits
before the last byte of the buffer (`appends_all_or_nothing`).
-/

namespace BoundedText.Cursor
open Numeral Utf8

/-- The cursor after these bytes and no others were written: they take the place of as many bytes at the cursor,
which is past them then. -/
structure Extended (cursor : Cursor) (bytes : Bytes) (after : Cursor) : Prop where
  pos : after.pos = cursor.pos + bytes.length
  buffer : after.buffer = cursor.buffer.take cursor.pos ++ bytes ++ cursor.buffer.drop (cursor.pos + bytes.length)

/-- A cursor that is back where it was, with the same bytes before it. What is after it may have changed. -/
structure Restored (cursor after : Cursor) : Prop where
  pos : after.pos = cursor.pos
  size : after.buffer.length = cursor.buffer.length
  before : after.written = cursor.written

/-- What an append does that writes all of its bytes or none: it succeeds if they fit, and answers 1 if not, when the
cursor is kept. -/
structure AllOrNothing (cursor : Cursor) (bytes : Bytes) (fits : Prop) (kept : Cursor → Prop) (result : Nat × Cursor) :
    Prop where
  all : fits → result.1 = 0 ∧ cursor.Extended bytes result.2
  nothing : ¬ fits → result.1 = 1 ∧ kept result.2

private theorem extended_write {cursor : Cursor} {bytes : Bytes}
    (fits : cursor.pos + bytes.length < cursor.buffer.length) :
    cursor.Extended bytes (cursor.write bytes) where
  pos := rfl
  buffer := overwrite_eq cursor.buffer cursor.pos bytes (by omega)

/-! ## Measuring first -/

private theorem appendWhole_spec (cursor : Cursor) (bytes : Bytes) :
    cursor.AllOrNothing bytes (cursor.pos + bytes.length < cursor.buffer.length) (· = cursor)
      (cursor.appendWhole bytes) where
  all fits := by
    rw [appendWhole, if_pos fits]
    exact ⟨rfl, extended_write fits⟩
  nothing full := by
    rw [appendWhole, if_neg full]
    exact ⟨rfl, rfl⟩

private theorem appendCodepoint_spec (cursor : Cursor) (c : Int) :
    cursor.AllOrNothing (encodeOf c) (0 < widthOf c ∧ cursor.pos + widthOf c < cursor.buffer.length) (· = cursor)
      (cursor.appendCodepoint c) := by
  by_cases unknown : widthOf c = 0
  · rw [appendCodepoint_unknown unknown]
    exact ⟨fun fits => absurd unknown fits.1.ne', fun _ => ⟨rfl, rfl⟩⟩
  · have whole := cursor.appendWhole_spec (encodeOf c)
    rw [length_encodeOf unknown] at whole
    rw [appendCodepoint_known unknown]
    exact ⟨fun fits => whole.all fits.2, fun full => whole.nothing fun fits => full ⟨Nat.pos_of_ne_zero unknown, fits⟩⟩

private theorem appendCodepoints_spec (cursor : Cursor) {text : Option Text} {given : Text}
    (some : Text.given text = some given) :
    let codepoints := codepointsOf given.toBytes
    cursor.AllOrNothing (encodeAll codepoints) (cursor.pos + total (codepoints.map width) < cursor.buffer.length)
      (· = cursor) (cursor.appendCodepoints text) := by
  intro codepoints
  have whole := cursor.appendWhole_spec (encodeAll codepoints)
  rw [length_encodeAll fun c member => (inside_of_mem_codepointsOf member).1] at whole
  rwa [appendCodepoints_given some]

/-! ## Going back -/

/-- The result of a write, or a failure with the cursor back where it was. -/
def orBack (cursor : Cursor) (result : Nat × Cursor) : Nat × Cursor :=
  if result.1 = 0 then (0, result.2) else (1, { result.2 with pos := cursor.pos })

/-- A write of bytes that goes back when it could not write all of them. -/
theorem orBack_spec (cursor : Cursor) {write : Cursor → Nat × Cursor} {bytes : Bytes} (writes : Writes write bytes)
    (some : bytes ≠ []) :
    cursor.AllOrNothing bytes (cursor.pos + bytes.length < cursor.buffer.length) cursor.Restored
      (cursor.orBack (write cursor)) := by
  have positive := List.length_pos_iff.2 some
  have room : cursor.room = cursor.buffer.length - 1 - cursor.pos := rfl
  obtain ⟨after, whole⟩ := writes cursor
  constructor
  · intro fits
    rw [append_room (by omega)] at after whole
    rw [orBack, if_pos (whole.2 rfl), after]
    exact ⟨rfl, extended_write fits⟩
  · intro full
    have cut : (write cursor).1 ≠ 0 := by
      intro none
      have none := whole.1 none
      rw [append_eq] at none
      omega
    rw [orBack, if_neg cut]
    refine ⟨rfl, rfl, ?_, ?_⟩
    · rw [after, length_append]
    · simp only [written, after, append_eq, Cursor.write]
      exact take_overwrite_before cursor.buffer cursor.pos _

private theorem appendQuoted_spec (cursor : Cursor) {text : Option Text}
    (spaced : needsQuotes (givenText text) = true) :
    cursor.AllOrNothing (quoted (givenText text)) (cursor.pos + (givenText text).length + 2 < cursor.buffer.length)
      cursor.Restored (cursor.appendQuoted text) := by
  have back : cursor.appendQuoted text = cursor.orBack (cursor.appendInTurn
      [(appendByte · 0x22), (appendSome · (givenText text)), (appendByte · 0x22)]) := by
    rw [appendQuoted, if_pos spaced]
    rfl
  have size : (quoted (givenText text)).length = (givenText text).length + 2 := by simp [quoted]
  have spec := cursor.orBack_spec (appendBetweenQuotes_writes (givenText text)) (by simp [quoted])
  rw [size, ← Nat.add_assoc] at spec
  rwa [back]

private theorem appendReference_spec (cursor : Cursor) {value : Number} (finite : value.trunc.isSome) :
    cursor.AllOrNothing (0x23 :: signedText value) (cursor.pos + (signedText value).length + 1 < cursor.buffer.length)
      cursor.Restored (cursor.appendReference value) := by
  have all : List.Forall₂ Writes [(appendByte · 0x23), (appendSigned · value)] [[0x23], signedText value] :=
    .cons (appendByte_counts 0x23).writes (.cons (appendSigned_writes finite) .nil)
  have pieces : [[0x23], signedText value].flatten = 0x23 :: signedText value := by simp
  have spec := cursor.orBack_spec (appendInTurn_writes all) (by simp)
  rw [pieces, List.length_cons, ← Nat.add_assoc] at spec
  exact spec

/-- Four appends write all or nothing, wherever the cursor is. An integer is written exactly when it has an
encoding and that fits before the last byte of the buffer, a text exactly when the encodings of the code points
that a walk finds fit there together; if not, cursor and buffer are left alone. A text with a space in it is
written exactly when it fits there in quotes, a reference exactly when `#` and the decimal numeral of the number
as a signed word do; if not, the cursor is back where it was and no byte before it has changed. -/
theorem appends_all_or_nothing (cursor : Cursor) :
    (∀ c : Int, cursor.AllOrNothing (encodeOf c) (0 < widthOf c ∧ cursor.pos + widthOf c < cursor.buffer.length)
      (· = cursor) (cursor.appendCodepoint c)) ∧
    (∀ (text : Option Text) (given : Text), Text.given text = some given →
      let codepoints := codepointsOf given.toBytes
      cursor.AllOrNothing (encodeAll codepoints) (cursor.pos + total (codepoints.map width) < cursor.buffer.length)
        (· = cursor) (cursor.appendCodepoints text)) ∧
    (∀ text : Option Text, needsQuotes (givenText text) = true →
      cursor.AllOrNothing (quoted (givenText text)) (cursor.pos + (givenText text).length + 2 < cursor.buffer.length)
        cursor.Restored (cursor.appendQuoted text)) ∧
    ∀ (value : Number) (n word : Int), value.trunc = some n → 2 ^ 64 ∣ n - word → -2 ^ 63 ≤ word → word < 2 ^ 63 →
      ∃ numeral, IsNumeral 10 word numeral ∧
        cursor.AllOrNothing (0x23 :: numeral) (cursor.pos + numeral.length + 1 < cursor.buffer.length) cursor.Restored
          (cursor.appendReference value) := by
  refine ⟨cursor.appendCodepoint_spec, fun text given => cursor.appendCodepoints_spec,
    fun text => cursor.appendQuoted_spec, ?_⟩
  intro value n word whole wraps above below
  have numeral : signedText value = ofInt 10 word := by
    simp only [signedText, whole, wrapSigned_eq wraps above below]
  refine ⟨signedText value, (isNumeral_iff (by decide) (by decide)).2 numeral, ?_⟩
  exact cursor.appendReference_spec (by rw [whole]; rfl)

/-- The theorem at a text that is longer once its malformed byte is written as U+FFFD, at a quoted text that is one
byte too long, and at the reference of a number past the last word. -/
theorem appends_all_or_nothing_samples :
    let cursor : Cursor := ⟨List.replicate 6 9, 1⟩
    let malformed : Text := .bytes [0xFF, 0x41]
    let spaced : Option Text := some (.bytes [0x61, 0x20, 0x62])
    let value : Number := .integer (2 ^ 64 - 5)
    (Text.given (some malformed) = some malformed ∧ (cursor.appendCodepoints (some malformed)).1 = 0 ∧
      (cursor.appendCodepoints (some malformed)).2.buffer = [9, 0xEF, 0xBF, 0xBD, 0x41, 9]) ∧
    (needsQuotes (givenText spaced) = true ∧ (cursor.appendQuoted spaced).1 = 1 ∧
      cursor.Restored (cursor.appendQuoted spaced).2) ∧
    (value.trunc = some (2 ^ 64 - 5) ∧ (2 ^ 64 : Int) ∣ 2 ^ 64 - 5 - -5 ∧ (-2 ^ 63 : Int) ≤ -5 ∧ (-5 : Int) < 2 ^ 63 ∧
      (cursor.appendReference value).1 = 0 ∧
      (cursor.appendReference value).2.buffer = [9, 0x23, 0x2D, 0x35, 9, 9]) := by
  intro cursor malformed spaced value
  obtain ⟨-, codepoints, quoted, reference⟩ := appends_all_or_nothing cursor
  have walked : codepointsOf malformed.toBytes = [0xFFFD, 0x41] := by
    rw [codepointsOf_next (show decode _ = some ⟨0xFFFD, 1⟩ by decide),
      codepointsOf_next (show decode _ = some ⟨0x41, 1⟩ by decide), codepointsOf_end (by decide)]
  have wraps : (2 ^ 64 : Int) ∣ 2 ^ 64 - 5 - -5 := by decide
  refine ⟨⟨rfl, ?_⟩, ⟨by decide, ?_⟩, rfl, wraps, by decide, by decide, ?_⟩
  · have written := codepoints (some malformed) malformed rfl
    rw [walked] at written
    obtain ⟨answer, -, buffer⟩ := written.all (by decide)
    exact ⟨answer, by rw [buffer]; decide⟩
  · exact (quoted spaced (by decide)).nothing (by decide)
  · obtain ⟨numeral, spelled, written⟩ := reference value _ (-5) rfl wraps (by decide) (by decide)
    have text : numeral = [0x2D, 0x35] := by
      rw [(isNumeral_iff (by decide) (by decide)).1 spelled]
      cbv
    subst text
    obtain ⟨answer, -, buffer⟩ := written.all (by decide)
    exact ⟨answer, by rw [buffer]; decide⟩

end BoundedText.Cursor
