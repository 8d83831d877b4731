import BoundedText.Proofs.Appending

/-!
# Proper text

The appends that write no NUL, called one after another in any order, leave a proper text before the
cursor: it ends before the last byte of the buffer, there is no NUL in it, and terminating it makes the
buffer hold just that text. An append makes the text longer by bytes that fit and are not NUL (`Grows`);
one that fails may go back to where it began, and the text is what it was.

One call is the exception (`TextCall.Outruns`). A length that is not a number holds nothing back, and a
numeral that is too long for the buffer takes the cursor past its end, where it stays (`Overrun`). Both
ends of a run are told apart in `text_is_proper_unless_outrun`.
-/

namespace BoundedText.Cursor
open Utf8

/-- A call of an append that is asked for no NUL. -/
inductive TextCall where
  | byte (ch : Int) (visible : byteOf ch ≠ 0)
  | fill (ch count : Int) (visible : byteOf ch ≠ 0)
  | codepoint (c : Int) (nonzero : c ≠ 0)
  | codepoints (text : Option Text)
  | text (text : Option Text)
  | quoted (text : Option Text)
  | hexByte (b : Int)
  | hex (bytes : Bytes) (count : Int)
  | separator (item : Int) (last : Bool) (delimiter conjunction space : Option Text)
  | integer (value : Number) (base : Double) (length : Option Double)
  | signed (value : Number)
  | unsigned (value : Number)
  | reference (value : Number)

/-- The cursor after a call, whether or not it failed. -/
def TextCall.perform (cursor : Cursor) : TextCall → Cursor
  | .byte ch _ => (cursor.appendByte ch).2
  | .fill ch count _ => (cursor.appendFill ch count).2
  | .codepoint c _ => (cursor.appendCodepoint c).2
  | .codepoints given => (cursor.appendCodepoints given).2
  | .text given => (cursor.appendText given).2
  | .quoted given => (cursor.appendQuoted given).2
  | .hexByte b => (cursor.appendHexByte b).2
  | .hex array count => (cursor.appendHex array count).2
  | .separator item last delimiter conjunction space => cursor.appendSeparator item last delimiter conjunction space
  | .integer value base length => (cursor.appendInteger value base length).2.1
  | .signed value => (cursor.appendSigned value).2
  | .unsigned value => (cursor.appendUnsigned value).2
  | .reference value => (cursor.appendReference value).2

/-- The cursor after calls. -/
def enter (cursor : Cursor) (calls : List TextCall) : Cursor := calls.foldl TextCall.perform cursor

/-- A call that writes more than there is room for: that of a numeral whose destination is given a length
that is not a number. -/
def TextCall.Outruns (cursor : Cursor) : TextCall → Prop
  | .integer value base length =>
    length = some .nan ∧ ∃ n, value.trunc = some n ∧ Numeral.wrapSigned n ≠ Numeral.mostNegative ∧
      cursor.room < (Numeral.ofInt (clampBase base) (Numeral.wrapSigned n)).length
  | _ => False

/-- Calls one of which writes more than there is room for by then. -/
def SomeOutruns (cursor : Cursor) : List TextCall → Prop
  | [] => False
  | call :: calls => call.Outruns cursor ∨ (call.perform cursor).SomeOutruns calls

/-- A cursor with room for the NUL that ends its text, and no NUL before it. -/
structure Proper (cursor : Cursor) : Prop where
  inside : cursor.pos < cursor.buffer.length
  visible : ∀ b ∈ cursor.written, b ≠ 0

/-- A cursor past its buffer, whose bytes have all been written, none of them NUL. -/
structure Overrun (cursor : Cursor) : Prop where
  past : cursor.buffer.length ≤ cursor.pos
  visible : ∀ b ∈ cursor.buffer, b ≠ 0

/-- A cursor after bytes other than NUL have been written, no more than there is room for. -/
def Grows (cursor after : Cursor) : Prop :=
  ∃ piece : Bytes, (∀ b ∈ piece, b ≠ 0) ∧ piece.length ≤ cursor.room ∧ after = cursor.write piece

/-- What a call leaves: a text that has grown, or, when the call went back, one that ends where it did. -/
inductive Moves (cursor : Cursor) : Cursor → Prop
  | grown {after : Cursor} (grows : cursor.Grows after) : Moves cursor after
  | back {after : Cursor} (grows : cursor.Grows after) : Moves cursor { after with pos := cursor.pos }

/-! ## Visible bytes -/

private theorem places_lt {base : Nat} (two : 2 ≤ base) (n : Nat) : ∀ d ∈ Numeral.places base n, d < base := by
  induction n using Nat.strong_induction_on with
  | _ n ih =>
  intro d member
  rw [Numeral.places] at member
  split at member
  · rename_i small
    rw [List.mem_singleton] at member
    omega
  · rename_i large
    rw [List.mem_append, List.mem_singleton] at member
    rcases member with earlier | rfl
    · exact ih (n / base) (Nat.div_lt_self (by omega) two) d earlier
    · exact Nat.mod_lt _ (by omega)

private theorem digit_ne_zero {d : Nat} (low : d < 36) : Numeral.digit d ≠ 0 := by
  rw [Numeral.digit, ne_eq, ← UInt8.toNat_inj, UInt8.toNat_ofNat']
  split <;> simp <;> omega

private theorem digits_visible {base : Nat} (two : 2 ≤ base) (last : base ≤ 36) (n : Nat) :
    ∀ b ∈ Numeral.digits base n, b ≠ 0 := by
  intro b member
  obtain ⟨d, place, rfl⟩ := List.mem_map.1 member
  have low := places_lt two n d place
  exact digit_ne_zero (by omega)

private theorem ofInt_visible {base : Nat} (two : 2 ≤ base) (last : base ≤ 36) (n : Int) :
    ∀ b ∈ Numeral.ofInt base n, b ≠ 0 := by
  intro b member
  rw [Numeral.ofInt, List.mem_append] at member
  rcases member with sign | digit
  · split at sign
    · rw [List.mem_singleton] at sign
      rw [sign]
      decide
    · cases sign
  · exact digits_visible two last _ b digit

theorem clampBase_range (base : Double) : 2 ≤ clampBase base ∧ clampBase base ≤ 36 := by
  unfold clampBase
  split
  · decide
  · split <;> decide
  · omega

private theorem mostNegativeText_visible {base : Nat} {text : Bytes} (known : mostNegativeText base = some text) :
    ∀ b ∈ text, b ≠ 0 := by
  rw [mostNegativeText] at known
  split at known
  · cases known
    exact ofInt_visible (by decide) (by decide) _
  · split at known
    · rename_i base
      cases known
      exact digits_visible (by omega) (by omega) _
    · cases known

private theorem hexPair_visible (b : UInt8) : ∀ x ∈ hexPair b, x ≠ 0 := by
  have low := b.toNat_lt
  intro x member
  simp only [hexPair, List.mem_cons, List.not_mem_nil, or_false] at member
  rcases member with rfl | rfl
  · exact digit_ne_zero (by omega)
  · exact digit_ne_zero (by omega)

private theorem givenText_visible (text : Option Text) : ∀ b ∈ givenText text, b ≠ 0 :=
  fun _ member => ne_zero_of_mem_text member

theorem quoted_visible {text : Bytes} (visible : ∀ b ∈ text, b ≠ 0) : ∀ b ∈ quoted text, b ≠ 0 := by
  intro b member
  simp only [quoted, List.mem_append, List.mem_singleton] at member
  rcases member with (rfl | inside) | rfl
  · decide
  · exact visible b inside
  · decide

private theorem separatorText_visible (item : Int) (last : Bool) (delimiter conjunction space : Option Text) :
    ∀ b ∈ separatorText item last delimiter conjunction space, b ≠ 0 := by
  intro b member
  obtain ⟨piece, -, inside⟩ := List.mem_flatMap.1 member
  exact givenText_visible piece b inside

/-! ## Growing -/

theorem Grows.refl (cursor : Cursor) : cursor.Grows cursor := ⟨[], by simp, Nat.zero_le _, (write_nil cursor).symm⟩

theorem Grows.trans {cursor middle after : Cursor} (first : cursor.Grows middle) (second : middle.Grows after) :
    cursor.Grows after := by
  obtain ⟨piece, visible, fits, rfl⟩ := first
  obtain ⟨more, visible', fits', rfl⟩ := second
  refine ⟨piece ++ more, ?_, ?_, write_write cursor piece more⟩
  · intro b member
    rcases List.mem_append.1 member with left | right
    · exact visible b left
    · exact visible' b right
  · rw [room_write] at fits'
    rw [List.length_append]
    omega

theorem Grows.take {cursor : Cursor} {bytes : Bytes} {n : Nat} (visible : ∀ b ∈ bytes, b ≠ 0) (fits : n ≤ cursor.room) :
    cursor.Grows (cursor.write (bytes.take n)) :=
  ⟨bytes.take n, fun b member => visible b (List.mem_of_mem_take member), (List.length_take_le n bytes).trans fits, rfl⟩

private theorem Grows.length_buffer {cursor after : Cursor} (grows : cursor.Grows after) :
    after.buffer.length = cursor.buffer.length := by
  obtain ⟨piece, -, -, rfl⟩ := grows
  exact length_overwrite ..

private theorem Grows.take_buffer {cursor after : Cursor} (grows : cursor.Grows after)
    (inside : cursor.pos < cursor.buffer.length) :
    ∃ piece : Bytes, (∀ b ∈ piece, b ≠ 0) ∧ after.pos < cursor.buffer.length ∧
      after.buffer.take cursor.pos = cursor.written ∧ after.written = cursor.written ++ piece := by
  obtain ⟨piece, visible, fits, rfl⟩ := grows
  rw [room] at fits
  have start : (cursor.buffer.take cursor.pos).length = cursor.pos := List.length_take_of_le (by omega)
  refine ⟨piece, visible, by simp only [write]; omega, ?_, written_write (by omega)⟩
  rw [write, overwrite_eq _ _ _ (by omega), List.append_assoc, List.take_left' start, written]

private theorem Moves.length_buffer {cursor after : Cursor} (moves : cursor.Moves after) :
    after.buffer.length = cursor.buffer.length := by
  cases moves with
  | grown grows => exact grows.length_buffer
  | back grows => exact grows.length_buffer

theorem Proper.moved {cursor after : Cursor} (proper : cursor.Proper) (moves : cursor.Moves after) : after.Proper := by
  cases moves with
  | grown grows =>
    obtain ⟨piece, visible, inside, -, written⟩ := grows.take_buffer proper.inside
    refine ⟨by rwa [grows.length_buffer], ?_⟩
    intro b member
    rw [written] at member
    rcases List.mem_append.1 member with before | new
    · exact proper.visible b before
    · exact visible b new
  | back grows =>
    -- The bytes written past the place it goes back to are no part of the text.
    obtain ⟨-, -, -, kept, -⟩ := grows.take_buffer proper.inside
    refine ⟨by simpa only [grows.length_buffer] using proper.inside, ?_⟩
    intro b member
    rw [written] at member
    exact proper.visible b (kept ▸ member)

/-! ## Appends -/

theorem Writes.grows {write : Cursor → Nat × Cursor} {bytes : Bytes} (writes : Writes write bytes)
    (visible : ∀ b ∈ bytes, b ≠ 0) (cursor : Cursor) : cursor.Grows (write cursor).2 := by
  rw [(writes cursor).1, append_eq]
  exact Grows.take visible (Nat.le_refl _)

private theorem appendByte_grows {ch : Int} (visible : byteOf ch ≠ 0) (cursor : Cursor) :
    cursor.Grows (cursor.appendByte ch).2 :=
  (appendByte_counts ch).writes.grows (by simpa using visible) cursor

private theorem appendWhole_grows {bytes : Bytes} (visible : ∀ b ∈ bytes, b ≠ 0) (cursor : Cursor) :
    cursor.Grows (cursor.appendWhole bytes).2 := by
  rw [appendWhole]
  split
  · rename_i fits
    exact ⟨bytes, visible, by rw [room]; omega, rfl⟩
  · exact Grows.refl cursor

private theorem appendCodepoint_grows {c : Int} (nonzero : c ≠ 0) (cursor : Cursor) :
    cursor.Grows (cursor.appendCodepoint c).2 := by
  by_cases refused : widthOf c = 0
  · rw [appendCodepoint_unknown refused]
    exact Grows.refl cursor
  · obtain ⟨positive, last⟩ := inside_of_widthOf refused
    rw [appendCodepoint_known refused]
    apply appendWhole_grows
    rw [encodeOf_known refused]
    exact (spells_encode last).visible (by omega)

private theorem appendCodepoints_grows (text : Option Text) (cursor : Cursor) :
    cursor.Grows (cursor.appendCodepoints text).2 := by
  cases some : Text.given text with
  | none =>
    rw [appendCodepoints, some]
    exact Grows.refl cursor
  | some given =>
    rw [appendCodepoints_given some]
    apply appendWhole_grows
    apply encodeAll_visible
    exact fun c => inside_of_mem_codepointsOf

private theorem appendInTurn_grows {writes : List (Cursor → Nat × Cursor)}
    (all : ∀ write ∈ writes, ∀ cursor, Grows cursor (write cursor).2) (cursor : Cursor) :
    cursor.Grows (cursor.appendInTurn writes).2 := by
  induction writes generalizing cursor with
  | nil => exact Grows.refl cursor
  | cons write writes ih =>
    obtain ⟨head, tail⟩ := List.forall_mem_cons.1 all
    simp only [appendInTurn]
    by_cases whole : (write cursor).1 = 0
    · rw [if_pos whole]
      exact (head cursor).trans (ih tail (write cursor).2)
    · rw [if_neg whole]
      exact head cursor

/-- Whatever the number, its base and the length of the destination, a numeral that does not outrun the
text makes it grow. -/
theorem appendInteger_grows {value : Number} {base : Double} {length : Option Double} {cursor : Cursor}
    (within : ¬ (TextCall.integer value base length).Outruns cursor) :
    cursor.Grows (cursor.appendInteger value base length).2.1 := by
  obtain ⟨two, last⟩ := clampBase_range base
  simp only [appendInteger]
  split
  · exact Grows.refl cursor
  · cases whole : value.trunc with
    | none => exact Grows.refl cursor
    | some n =>
      dsimp only
      split
      · cases known : mostNegativeText (clampBase base) with
        | none => exact Grows.refl cursor
        | some text =>
          dsimp only
          rw [append_eq]
          exact Grows.take (mostNegativeText_visible known) (Nat.le_refl _)
      · rename_i ordinary
        by_cases nan : length = some .nan
        · have fits : (Numeral.ofInt (clampBase base) (Numeral.wrapSigned n)).length ≤ cursor.room :=
            Nat.le_of_not_lt (fun more => within ⟨nan, n, whole, ordinary, more⟩)
          simp only [nan, destination, Double.orLess, appendNumeral_nan]
          exact ⟨_, ofInt_visible two last _, fits, rfl⟩
        · rw [appendNumeral_eq (endsAt_destination _ nan)]
          apply Grows.take (ofInt_visible two last _)
          have inside := reach_destination_le cursor.buffer.length length
          rw [room]
          omega

/-- A call that outruns the text writes a numeral that is longer than the room for it. -/
theorem perform_outruns {cursor : Cursor} {call : TextCall} (outruns : call.Outruns cursor) :
    ∃ numeral : Bytes, (∀ b ∈ numeral, b ≠ 0) ∧ cursor.room < numeral.length ∧
      call.perform cursor = cursor.write numeral := by
  cases call with
  | integer value base length =>
    obtain ⟨rfl, n, whole, ordinary, more⟩ := outruns
    obtain ⟨two, last⟩ := clampBase_range base
    refine ⟨_, ofInt_visible two last _, more, ?_⟩
    rw [TextCall.perform, appendInteger_nan cursor whole ordinary]
  | _ => exact outruns.elim

private theorem appendSigned_grows (value : Number) (cursor : Cursor) : cursor.Grows (cursor.appendSigned value).2 :=
  appendInteger_grows (by simp [TextCall.Outruns])

private theorem appendUnsigned_grows (value : Number) (cursor : Cursor) :
    cursor.Grows (cursor.appendUnsigned value).2 := by
  rw [appendUnsigned]
  split
  · exact Grows.refl cursor
  · exact (appendSome_counts _).writes.grows (digits_visible (by decide) (by decide) _) cursor

/-! ## Calls -/

private theorem appendQuoted_moves (text : Option Text) (cursor : Cursor) :
    cursor.Moves (cursor.appendQuoted text).2 := by
  rw [appendQuoted]
  split
  · have grows := (appendBetweenQuotes_writes (givenText text)).grows (quoted_visible (givenText_visible text)) cursor
    dsimp only
    split
    · exact .grown grows
    · exact .back grows
  · exact .grown ((appendSome_counts _).writes.grows (givenText_visible text) cursor)

private theorem appendReference_moves (value : Number) (cursor : Cursor) :
    cursor.Moves (cursor.appendReference value).2 := by
  have grows : cursor.Grows (cursor.appendInTurn [(appendByte · 0x23), (appendSigned · value)]).2 := by
    apply appendInTurn_grows
    intro write member
    simp only [List.mem_cons, List.not_mem_nil, or_false] at member
    rcases member with rfl | rfl
    · exact appendByte_grows (by decide)
    · exact appendSigned_grows value
  rw [appendReference]
  dsimp only
  split
  · exact .grown grows
  · exact .back grows

private theorem perform_moves {cursor : Cursor} {call : TextCall} (within : ¬ call.Outruns cursor) :
    cursor.Moves (call.perform cursor) := by
  cases call with
  | byte ch visible => exact .grown (appendByte_grows visible cursor)
  | fill ch count visible =>
    refine .grown ((appendFill_writes ch count).grows ?_ cursor)
    intro b member
    rw [List.eq_of_mem_replicate member]
    exact visible
  | codepoint c nonzero => exact .grown (appendCodepoint_grows nonzero cursor)
  | codepoints given => exact .grown (appendCodepoints_grows given cursor)
  | text given => exact .grown ((appendText_counts given).writes.grows (givenText_visible given) cursor)
  | quoted given => exact appendQuoted_moves given cursor
  | hexByte b => exact .grown ((appendHexByte_writes b).grows (hexPair_visible _) cursor)
  | hex array count =>
    refine .grown ((appendHex_writes array count).grows ?_ cursor)
    intro b member
    obtain ⟨x, -, digit⟩ := List.mem_flatMap.1 member
    exact hexPair_visible x b digit
  | separator item last delimiter conjunction space =>
    refine .grown ?_
    rw [TextCall.perform, appendSeparator, appendTexts_eq, append_eq]
    exact Grows.take (separatorText_visible item last delimiter conjunction space) (Nat.le_refl _)
  | integer value base length => exact .grown (appendInteger_grows within)
  | signed value => exact .grown (appendSigned_grows value cursor)
  | unsigned value => exact .grown (appendUnsigned_grows value cursor)
  | reference value => exact appendReference_moves value cursor

/-! ## Overrunning -/

/-- Bytes that there is no room for leave the cursor past its buffer. -/
theorem overrun_write {cursor : Cursor} {bytes : Bytes} (before : ∀ b ∈ cursor.written, b ≠ 0)
    (visible : ∀ b ∈ bytes, b ≠ 0) (more : cursor.room < bytes.length) : (cursor.write bytes).Overrun := by
  rw [room] at more
  have past : cursor.buffer.length ≤ cursor.pos + bytes.length := by omega
  refine ⟨by simpa only [write, length_overwrite] using past, ?_⟩
  intro b member
  rw [write, overwrite_to_end _ _ _ past] at member
  rcases List.mem_append.1 member with old | new
  · exact before b old
  · exact visible b (List.mem_of_mem_take new)

theorem Overrun.room {cursor : Cursor} (overrun : cursor.Overrun) : cursor.room = 0 := by
  have past := overrun.past
  rw [Cursor.room]
  omega

/-- A cursor past its buffer stays where it is. -/
theorem Overrun.moved {cursor after : Cursor} (overrun : cursor.Overrun) (moves : cursor.Moves after) :
    after = cursor := by
  have none : ∀ {after : Cursor}, cursor.Grows after → after = cursor := by
    rintro after ⟨piece, -, fits, rfl⟩
    rw [overrun.room, Nat.le_zero, List.length_eq_zero_iff] at fits
    rw [fits, write_nil]
  cases moves with
  | grown grows => exact none grows
  | back grows => rw [none grows]

theorem Overrun.performed {cursor : Cursor} (overrun : cursor.Overrun) (call : TextCall) :
    (call.perform cursor).Overrun := by
  by_cases outruns : call.Outruns cursor
  · obtain ⟨numeral, visible, more, same⟩ := perform_outruns outruns
    have before : ∀ b ∈ cursor.written, b ≠ 0 := fun b member => overrun.visible b (List.mem_of_mem_take member)
    rw [same]
    exact overrun_write before visible more
  · rw [overrun.moved (perform_moves outruns)]
    exact overrun

/-! ## Runs -/

private theorem length_perform (cursor : Cursor) (call : TextCall) :
    (call.perform cursor).buffer.length = cursor.buffer.length := by
  by_cases outruns : call.Outruns cursor
  · obtain ⟨numeral, -, -, same⟩ := perform_outruns outruns
    rw [same, write, length_overwrite]
  · exact (perform_moves outruns).length_buffer

private theorem length_enter (cursor : Cursor) (calls : List TextCall) :
    (cursor.enter calls).buffer.length = cursor.buffer.length := by
  induction calls generalizing cursor with
  | nil => rfl
  | cons call calls ih => exact (ih (call.perform cursor)).trans (length_perform cursor call)

private theorem enter_proper {cursor : Cursor} (proper : cursor.Proper) {calls : List TextCall}
    (within : ¬ cursor.SomeOutruns calls) : (cursor.enter calls).Proper := by
  induction calls generalizing cursor with
  | nil => exact proper
  | cons call calls ih =>
    rw [SomeOutruns, not_or] at within
    exact ih (proper.moved (perform_moves within.1)) within.2

theorem Overrun.entered {cursor : Cursor} (overrun : cursor.Overrun) (calls : List TextCall) :
    (cursor.enter calls).Overrun := by
  induction calls generalizing cursor with
  | nil => exact overrun
  | cons call calls ih => exact ih (overrun.performed call)

/-- A cursor that was outrun once is past its buffer from then on. -/
theorem enter_overrun {cursor : Cursor} (proper : cursor.Proper) {calls : List TextCall}
    (outrun : cursor.SomeOutruns calls) : (cursor.enter calls).Overrun := by
  induction calls generalizing cursor with
  | nil => exact outrun.elim
  | cons call calls ih =>
    by_cases outruns : call.Outruns cursor
    · obtain ⟨numeral, visible, more, same⟩ := perform_outruns outruns
      have first : (call.perform cursor).Overrun := by
        rw [same]
        exact overrun_write proper.visible visible more
      exact first.entered calls
    · exact ih (proper.moved (perform_moves outruns)) (outrun.resolve_left outruns)

/-! ## The NUL that ends a text -/

/-- The NUL goes right after the text, and what lies after it stays. -/
theorem terminate_eq {cursor : Cursor} (inside : cursor.pos < cursor.buffer.length) :
    cursor.terminate.buffer = cursor.written ++ 0 :: cursor.buffer.drop (cursor.pos + 1) := by
  rw [terminate, Nat.min_eq_left (by omega), overwrite_eq _ _ _ (by simpa using inside), List.append_assoc]
  rfl

theorem Proper.terminated {cursor : Cursor} (proper : cursor.Proper) :
    textOf cursor.terminate.buffer = cursor.written ∧ cursor.terminate.written = cursor.written := by
  have inside := proper.inside
  have start : (cursor.buffer.take cursor.pos).length = cursor.pos := List.length_take_of_le (by omega)
  have ended := terminate_eq inside
  refine ⟨?_, ?_⟩
  · rw [ended, textOf_append proper.visible]
    exact List.append_nil _
  · rw [written, ended]
    exact List.take_left' start

/-- Past the buffer the NUL goes over the last byte. -/
theorem Overrun.terminated {cursor : Cursor} (overrun : cursor.Overrun) (some : 1 ≤ cursor.buffer.length) :
    textEnd cursor.terminate.buffer 0 = cursor.buffer.length - 1 ∧ cursor.terminate.written ≠ cursor.written := by
  have past := overrun.past
  have ended : cursor.terminate.buffer = cursor.buffer.take (cursor.buffer.length - 1) ++ [0] := by
    rw [terminate, Nat.min_eq_right (by omega), overwrite_eq _ _ _ (by simp; omega),
      List.drop_eq_nil_of_le (by simp; omega), List.append_nil]
  have front : ∀ b ∈ cursor.buffer.take (cursor.buffer.length - 1), b ≠ 0 :=
    fun b member => overrun.visible b (List.mem_of_mem_take member)
  constructor
  · rw [textEnd, Nat.zero_min, Nat.zero_add, List.drop_zero, textLength, ended, textOf_append front, List.length_append,
      List.length_take]
    simp [textOf]
  · intro same
    have size : cursor.terminate.buffer.length = cursor.buffer.length := length_overwrite ..
    have whole : cursor.terminate.written = cursor.terminate.buffer := List.take_of_length_le (size.le.trans past)
    rw [whole, written, List.take_of_length_le past, ended] at same
    exact overrun.visible 0 (by rw [← same]; simp) rfl

/-- The text that is written is a proper one unless a numeral outruns it. Whatever a buffer of at least
one byte held, and whichever calls are made from its start, any of them failing, there is no NUL before
the cursor, and terminating does not move it. Where none of the calls outruns the text the cursor stays
before the last byte; terminating leaves the bytes before it as they are, and the text of the buffer ends
at the cursor. Where one does the cursor ends up past the buffer, and terminating cuts the text by a byte. -/
theorem text_is_proper_unless_outrun (buffer : Bytes) (capacity : 1 ≤ buffer.length) (calls : List TextCall) :
    let cursor := Cursor.mk buffer 0
    let after := cursor.enter calls
    after.buffer.length = buffer.length ∧ (∀ b ∈ after.written, b ≠ 0) ∧ after.terminate.pos = after.pos ∧
      (¬ cursor.SomeOutruns calls → after.pos ≤ buffer.length - 1 ∧ after.terminate.written = after.written ∧
        textEnd after.terminate.buffer 0 = after.pos) ∧
      (cursor.SomeOutruns calls → buffer.length ≤ after.pos ∧ after.terminate.written ≠ after.written ∧
        textEnd after.terminate.buffer 0 = buffer.length - 1) := by
  intro cursor after
  have fresh : cursor.Proper := ⟨capacity, by simp [cursor, written]⟩
  have size : after.buffer.length = buffer.length := length_enter cursor calls
  by_cases outrun : cursor.SomeOutruns calls
  · have overrun : after.Overrun := enter_overrun fresh outrun
    obtain ⟨ended, cut⟩ := overrun.terminated (by omega)
    have past := overrun.past
    rw [size] at past ended
    have visible : ∀ b ∈ after.written, b ≠ 0 := fun b member => overrun.visible b (List.mem_of_mem_take member)
    exact ⟨size, visible, rfl, fun within => absurd outrun within, fun _ => ⟨past, cut, ended⟩⟩
  · have proper : after.Proper := enter_proper fresh outrun
    obtain ⟨text, kept⟩ := proper.terminated
    have inside := proper.inside
    refine ⟨size, proper.visible, rfl, fun _ => ⟨by omega, kept, ?_⟩, fun outrun' => absurd outrun' outrun⟩
    rw [textEnd, Nat.zero_min, Nat.zero_add, List.drop_zero, textLength, text, written]
    exact List.length_take_of_le inside.le

/-- A quoted name that does not fit goes back, an integer fills all but half a byte of five and a half, and
a code point and a byte find the buffer full. Where the length is not a number the integer is written past
the end. -/
theorem text_is_proper_unless_outrun_full :
    let cursor : Cursor := ⟨[9, 9, 9, 9, 9, 9], 0⟩
    let calls (length : Double) : List TextCall :=
      [.text (some (.bytes [0x61, 0x62, 0, 0x63])), .quoted (some (.bytes [0x63, 0x20, 0x64])),
        .integer (.integer (-420)) (.ofInt 10) (some length), .codepoint 0x20AC (by decide), .byte 0x121 (by decide)]
    let cut := cursor.enter (calls (.finite false 11 (-1)))
    let overrun := cursor.enter (calls .nan)
    1 ≤ cursor.buffer.length ∧
    ¬ cursor.SomeOutruns (calls (.finite false 11 (-1))) ∧ cut.pos ≤ 6 - 1 ∧
    cut.terminate.written = [0x61, 0x62, 0x2D, 0x34, 0x32] ∧ textEnd cut.terminate.buffer 0 = 5 ∧
    cursor.SomeOutruns (calls .nan) ∧ 6 ≤ overrun.pos ∧ textEnd overrun.terminate.buffer 0 = 6 - 1 := by
  intro cursor calls cut overrun
  have capacity : 1 ≤ cursor.buffer.length := by decide
  have run : cut = ⟨[0x61, 0x62, 0x2D, 0x34, 0x32, 9], 5⟩ := by decide +kernel
  have within : ¬ cursor.SomeOutruns (calls (.finite false 11 (-1))) := by
    simp [calls, SomeOutruns, TextCall.Outruns]
  have outrun : cursor.SomeOutruns (calls .nan) := by
    refine .inr (.inr (.inl ⟨rfl, -420, rfl, by decide, ?_⟩))
    decide +kernel
  obtain ⟨-, -, -, proper, -⟩ := text_is_proper_unless_outrun cursor.buffer capacity (calls (.finite false 11 (-1)))
  obtain ⟨-, -, -, -, past⟩ := text_is_proper_unless_outrun cursor.buffer capacity (calls .nan)
  obtain ⟨last, kept, ended⟩ := proper within
  obtain ⟨beyond, -, lost⟩ := past outrun
  refine ⟨capacity, within, last, ?_, ended.trans (congrArg Cursor.pos run), outrun, beyond, lost⟩
  exact kept.trans (by rw [show cursor.enter _ = cut from rfl, run]; rfl)

/-- A numeral of six digits whose destination is given a length that is not a number goes past the end of
four bytes, and the text ends three bytes before the cursor. -/
theorem numeral_outruns_buffer :
    let after := (ofCapacity 4).enter [.integer (.double (.ofInt 123456)) (.ofInt 10) (some .nan)]
    ¬ after.pos ≤ 4 - 1 ∧ textEnd after.terminate.buffer 0 ≠ after.pos := by
  decide +kernel

end BoundedText.Cursor
