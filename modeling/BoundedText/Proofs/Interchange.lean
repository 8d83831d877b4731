import BoundedText.Proofs.Accumulation
import BoundedText.Proofs.QuotedNames

/-!
# Cursors and builders

A cursor over a buffer and a builder whose limit is the size of that buffer take the same calls. As long
as what is asked for fits, a call writes all of it and says so (`perform_room`), and the text of the
cursor is what the builder gives when it is finished. The builder gives up exactly when it does not fit
(`cursor_and_builder_agree`).
-/

namespace BoundedText

/-- A call that cursors and builders both have. -/
inductive SharedCall where
  | text (text : Option Text)
  | byte (ch : Int)
  | codepoint (codepoint : Int)
  | quoted (text : Option Text)
  | separator (item : Int) (last : Bool) (delimiter conjunction space : Option Text)

namespace SharedCall

/-- What a cursor answers to a call, if it does, and the cursor after it. -/
def perform (cursor : Cursor) : SharedCall → Option Nat × Cursor
  | .text given => (cursor.appendText given).map some id
  | .byte ch => (cursor.appendByte ch).map some id
  | .codepoint c => (cursor.appendCodepoint c).map some id
  | .quoted given => (cursor.appendQuoted given).map some id
  | .separator item last delimiter conjunction space =>
    (none, cursor.appendSeparator item last delimiter conjunction space)

/-- The same call of a builder. -/
def build : SharedCall → Builder.Call
  | .text given => .text given
  | .byte ch => .byte ch
  | .codepoint c => .codepoint c
  | .quoted given => .quoted given
  | .separator item last delimiter conjunction space => .separator item last delimiter conjunction space

/-- The bytes that a call asks for. -/
def asked : SharedCall → Bytes
  | .text given => givenText given
  | .byte ch => [byteOf ch]
  | .codepoint c => if Utf8.widthOf c = 0 then [] else Utf8.encodeOf c
  | .quoted given => listedName (givenText given)
  | .separator item last delimiter conjunction space => Cursor.separatorText item last delimiter conjunction space

/-- What a cursor answers when there is room: 0, or 1 to a number that is no code point; it never answers
to a separator. -/
def agreed : SharedCall → Option Nat
  | .codepoint c => some (if Utf8.widthOf c = 0 then 1 else 0)
  | .separator .. => none
  | _ => some 0

end SharedCall

namespace Cursor

/-- What calls answer one after another, and the cursor after them. -/
def performAll (cursor : Cursor) : List SharedCall → List (Option Nat) × Cursor
  | [] => ([], cursor)
  | call :: calls =>
    let (answer, next) := call.perform cursor
    let (answers, after) := next.performAll calls
    (answer :: answers, after)

/-! ## The cursor -/

theorem Counts.room {write : Cursor → Nat × Cursor} {bytes : Bytes} (counts : Counts write bytes) {cursor : Cursor}
    (fits : bytes.length ≤ cursor.room) : write cursor = (0, cursor.write bytes) :=
  (counts cursor).trans (append_room fits)

private theorem appendCodepoint_room {cursor : Cursor} {c : Int} (known : Utf8.widthOf c ≠ 0)
    (fits : (Utf8.encodeOf c).length ≤ cursor.room) : cursor.appendCodepoint c = (0, cursor.write (Utf8.encodeOf c)) := by
  have width := Utf8.length_encodeOf known
  rw [appendCodepoint_known known, appendWhole, if_pos (by rw [Cursor.room] at fits; omega)]

/-- Where there is room a call writes all that it asks for. -/
theorem perform_room (call : SharedCall) {cursor : Cursor} (fits : call.asked.length ≤ cursor.room) :
    call.perform cursor = (call.agreed, cursor.write call.asked) := by
  cases call with
  | text given =>
    have whole := (appendText_counts given).room fits
    rw [SharedCall.perform, whole]
    rfl
  | byte ch =>
    have whole := (appendByte_counts ch).room fits
    rw [SharedCall.perform, whole]
    rfl
  | codepoint c =>
    rw [SharedCall.perform, SharedCall.agreed]
    by_cases known : Utf8.widthOf c = 0
    · rw [appendCodepoint_unknown known, SharedCall.asked, if_pos known, if_pos known, write_nil]
      rfl
    · rw [SharedCall.asked, if_neg known] at fits ⊢
      rw [appendCodepoint_room known fits, if_neg known]
      rfl
  | quoted given =>
    rw [SharedCall.perform, appendQuoted_room fits]
    rfl
  | separator item last delimiter conjunction space =>
    have all : cursor.appendSeparator item last delimiter conjunction space =
        (cursor.append (SharedCall.separator item last delimiter conjunction space).asked).2 := appendTexts_eq _ cursor
    rw [SharedCall.perform, all, append_room fits]
    rfl

private theorem performAll_room {cursor : Cursor} (calls : List SharedCall)
    (fits : (calls.flatMap SharedCall.asked).length ≤ cursor.room) :
    cursor.performAll calls = (calls.map SharedCall.agreed, cursor.write (calls.flatMap SharedCall.asked)) := by
  induction calls generalizing cursor with
  | nil => simp [performAll]
  | cons call calls ih =>
    rw [List.flatMap_cons, List.length_append] at fits
    have head : call.perform cursor = (call.agreed, cursor.write call.asked) := perform_room call (by omega)
    have left : (calls.flatMap SharedCall.asked).length ≤ (cursor.write call.asked).room := by rw [room_write]; omega
    have rest := ih left
    simp only [performAll, head, rest, write_write, List.map_cons, List.flatMap_cons]

end Cursor

/-! ## The builder -/

namespace SharedCall

private theorem fills_build (call : SharedCall) : call.build.empties = false := by
  cases call <;> rfl

private theorem pieces_build (call : SharedCall) : call.build.pieces.flatten = call.asked := by
  cases call with
  | quoted given =>
    simp only [build, Builder.Call.pieces, quotedPieces, asked, listedName]
    split <;> simp [BoundedText.quoted]
  | separator item last delimiter conjunction space => exact List.flatMap_def.symm
  | _ => simp [build, Builder.Call.pieces, asked, codepointPiece]

private theorem asked_build (calls : List SharedCall) :
    (Builder.History.of (calls.map build)).asked = calls.flatMap asked := by
  have fill : ∀ call ∈ calls.map build, call.empties = false := by
    rintro _ member
    obtain ⟨call, -, rfl⟩ := List.mem_map.1 member
    exact fills_build call
  rw [Builder.History.of, Builder.History.asked_after_all fill, List.flatMap_map]
  simp only [pieces_build]
  rfl

end SharedCall

/-- A cursor and a builder are interchangeable as long as the text fits. Given the same calls, a builder
whose limit is the size of a buffer gives up exactly when more is asked for than the buffer holds beside
its last byte. Otherwise finishing it gives the bytes before a cursor that began at the start of the buffer,
and no call of the cursor failed but those for numbers that are no code points. -/
theorem cursor_and_builder_agree (buffer : Bytes) (capacity : 1 ≤ buffer.length) (context : Option Context)
    (calls : List SharedCall) :
    let performed := (Cursor.mk buffer 0).performAll calls
    let cursor := performed.2
    let start : Builder.Attached := ⟨.ofLimit buffer.length, context⟩
    let builder := (start.run (calls.map SharedCall.build)).builder
    let asked := calls.flatMap SharedCall.asked
    (builder.tooBig = true ↔ buffer.length - 1 < asked.length) ∧
    (asked.length ≤ buffer.length - 1 →
      builder.finish.1 = slice cursor.buffer 0 cursor.pos ∧ builder.finish.1 = asked ∧
        performed.1 = calls.map SharedCall.agreed) := by
  intro performed cursor start builder asked
  have seen : builder.observed = _ := Builder.observed_run capacity context (calls.map SharedCall.build)
  rw [SharedCall.asked_build, Builder.observed] at seen
  by_cases fits : asked.length ≤ buffer.length - 1
  · rw [if_pos fits, Prod.mk.injEq, Prod.mk.injEq] at seen
    obtain ⟨alive, -, given⟩ := seen
    have run : performed = (calls.map SharedCall.agreed, (Cursor.mk buffer 0).write asked) :=
      Cursor.performAll_room calls fits
    have text : slice cursor.buffer 0 cursor.pos = asked := by
      simp only [cursor, run]
      exact Cursor.written_write (show 0 + asked.length ≤ buffer.length by omega)
    refine ⟨⟨?_, fun past => by omega⟩, fun _ => ⟨given.trans text.symm, given, by rw [run]⟩⟩
    intro tooBig
    rw [alive] at tooBig
    cases tooBig
  · rw [if_neg fits, Prod.mk.injEq] at seen
    exact ⟨⟨fun _ => by omega, fun _ => seen.1⟩, fun inside => absurd inside fits⟩

/-- A buffer and a builder of eight bytes: seven are asked for and taken, a number past the last code point
and a first separator ask for none; one byte more is too much for the builder. -/
theorem cursor_and_builder_agree_full :
    let buffer : Bytes := List.replicate 8 9
    let calls : List SharedCall := [.separator 1 false none none none, .quoted (some (.bytes [0x61, 0x20])),
      .codepoint 0x110000, .separator 2 false (some (.bytes [0x2C])) none none, .codepoint 0xE9]
    let more : List SharedCall := calls ++ [.byte 0x21]
    1 ≤ buffer.length ∧ (calls.flatMap SharedCall.asked).length ≤ buffer.length - 1 ∧
    (Builder.Attached.run ⟨.ofLimit buffer.length, none⟩ (calls.map SharedCall.build)).builder.finish.1 =
      [0x22, 0x61, 0x20, 0x22, 0x2C, 0xC3, 0xA9] ∧
    ((Cursor.mk buffer 0).performAll calls).1 = [none, some 0, some 1, none, some 0] ∧
    (Builder.Attached.run ⟨.ofLimit buffer.length, none⟩ (more.map SharedCall.build)).builder.tooBig = true := by
  intro buffer calls more
  have capacity : 1 ≤ buffer.length := by decide
  have fits : (calls.flatMap SharedCall.asked).length ≤ buffer.length - 1 := by decide
  have past : buffer.length - 1 < (more.flatMap SharedCall.asked).length := by decide
  obtain ⟨-, whole⟩ := cursor_and_builder_agree buffer capacity none calls
  obtain ⟨-, given, answers⟩ := whole fits
  obtain ⟨tooBig, -⟩ := cursor_and_builder_agree buffer capacity none more
  refine ⟨capacity, fits, ?_, ?_, tooBig.2 past⟩
  · rw [given]
    decide
  · rw [answers]
    decide

end BoundedText
