import BoundedText.Proofs.Accumulation
import BoundedText.Proofs.Appending

/-!
# Reading back appended code points

Appending by code points writes whole encodings or nothing, so that what is written is the encoding of the
code points that were accepted (`enterCodepoints_written`). Walking finds each of them again, but U+FFFD
for a surrogate: a surrogate is accepted and encoded in three bytes, and no text may hold it. Encoding
what the walk finds therefore restores the bytes exactly when no surrogate is among them
(`codepoint_appends_read_back`).
-/

namespace BoundedText
open Utf8

/-! ## Encodings -/

/-- The encoding of a number up to the last code point is read whole, whatever comes after it. -/
theorem decode_encode_inside {c : Nat} (inside : c ≤ maxCodepoint) (nonzero : c ≠ 0) (rest : Bytes) :
    decode (encode c ++ rest) = some ⟨Utf16.scalarOf c, width c⟩ := by
  cases surrogate : isSurrogate c with
  | true => rw [scalarOf_surrogate surrogate, decode_surrogate surrogate]
  | false => rw [scalarOf_scalar surrogate, decode_encode ⟨inside, surrogate⟩ nonzero]

/-- U+FFFD takes as many bytes as a surrogate. -/
theorem width_scalarOf (c : Nat) : width (Utf16.scalarOf c) = width c := by
  cases surrogate : isSurrogate c with
  | true =>
    have range : 0xD800 ≤ c ∧ c ≤ 0xDFFF := by simpa [isSurrogate] using surrogate
    have three : width c = 3 := by
      rw [width, if_neg (by omega), if_neg (by omega), if_pos (by omega)]
    rw [scalarOf_surrogate surrogate, three]
    rfl
  | false => rw [scalarOf_scalar surrogate]

private theorem encode_scalarOf_iff {c : Nat} (inside : c ≤ maxCodepoint) :
    encode (Utf16.scalarOf c) = encode c ↔ isSurrogate c = false := by
  constructor
  · intro same
    have spelled := spells_encode (isScalar_scalarOf inside).1
    rw [same] at spelled
    have own : Utf16.scalarOf c = c := spelled.inj (spells_encode inside)
    by_contra surrogate
    rw [Bool.not_eq_false] at surrogate
    rw [scalarOf_surrogate surrogate] at own
    rw [← own] at surrogate
    exact absurd surrogate (by decide)
  · intro scalar
    rw [scalarOf_scalar scalar]

private theorem codepointsOf_encodeAll_inside {codepoints : List Nat}
    (inside : ∀ c ∈ codepoints, c ≤ maxCodepoint ∧ c ≠ 0) :
    codepointsOf (encodeAll codepoints) = codepoints.map Utf16.scalarOf := by
  induction codepoints with
  | nil => exact codepointsOf_end rfl
  | cons c rest ih =>
    obtain ⟨⟨last, nonzero⟩, others⟩ := List.forall_mem_cons.1 inside
    have whole : encodeAll (c :: rest) = encode c ++ encodeAll rest := List.flatMap_cons
    have left : (encode c ++ encodeAll rest).drop (width c) = encodeAll rest := by
      rw [← length_encode last, List.drop_left]
    rw [whole, codepointsOf_next (decode_encode_inside last nonzero _), left, ih others, List.map_cons]

private theorem encodeAll_scalarOf_iff {codepoints : List Nat} (inside : ∀ c ∈ codepoints, c ≤ maxCodepoint) :
    encodeAll (codepoints.map Utf16.scalarOf) = encodeAll codepoints ↔ ∀ c ∈ codepoints, isSurrogate c = false := by
  induction codepoints with
  | nil => simp
  | cons c rest ih =>
    obtain ⟨last, others⟩ := List.forall_mem_cons.1 inside
    have size : (encode (Utf16.scalarOf c)).length = (encode c).length := by
      rw [length_encode (isScalar_scalarOf last).1, length_encode last, width_scalarOf]
    rw [List.forall_mem_cons, ← ih others, ← encode_scalarOf_iff last]
    constructor
    · intro same
      exact List.append_inj same size
    · rintro ⟨head, tail⟩
      exact congrArg₂ (· ++ ·) head tail

/-- Bytes that encode code points, and what walking makes of them: each code point as itself, a surrogate
as U+FFFD. They are what encoding the walk gives exactly when there is no surrogate. -/
structure ReadsBack (codepoints : List Nat) (bytes : Bytes) : Prop where
  encoded : bytes = encodeAll codepoints
  walked : codepointsOf bytes = codepoints.map Utf16.scalarOf
  wellFormed : encodeAll (codepointsOf bytes) = bytes ↔ ∀ c ∈ codepoints, isSurrogate c = false

private theorem readsBack_encodeAll {codepoints : List Nat} (inside : ∀ c ∈ codepoints, c ≤ maxCodepoint ∧ c ≠ 0) :
    ReadsBack codepoints (encodeAll codepoints) := by
  have walked := codepointsOf_encodeAll_inside inside
  refine ⟨rfl, walked, ?_⟩
  rw [walked]
  exact encodeAll_scalarOf_iff fun c member => (inside c member).1

/-! ## Cursors -/

/-- A call of a cursor that writes by code points. -/
inductive CodepointCall where
  | codepoint (codepoint : Int) (nonzero : codepoint ≠ 0)
  | codepoints (text : Option Text)

namespace CodepointCall

def perform (cursor : Cursor) : CodepointCall → Nat × Cursor
  | .codepoint c _ => cursor.appendCodepoint c
  | .codepoints given => cursor.appendCodepoints given

/-- The code points that a call asks for; those of a text are what a walk finds in it. -/
def asked : CodepointCall → List Nat
  | .codepoint c _ => [c.toNat]
  | .codepoints given => codepointsOf (Text.bytesOrEmpty given)

/-- The code points that a call writes, which are all it asks for when it answers 0. -/
def accepted (cursor : Cursor) (call : CodepointCall) : List Nat :=
  if (call.perform cursor).1 = 0 then call.asked else []

end CodepointCall

namespace Cursor

/-- The code points that were accepted over calls, and the cursor after them. -/
def enterCodepoints (cursor : Cursor) : List CodepointCall → List Nat × Cursor
  | [] => ([], cursor)
  | call :: calls =>
    let (accepted, after) := (call.perform cursor).2.enterCodepoints calls
    (call.accepted cursor ++ accepted, after)

private theorem appendWhole_cases (cursor : Cursor) (bytes : Bytes) :
    ((cursor.appendWhole bytes).1 = 0 ∧ (cursor.appendWhole bytes).2.written = cursor.written ++ bytes) ∨
      cursor.appendWhole bytes = (1, cursor) := by
  rw [appendWhole]
  split
  · exact .inl ⟨rfl, written_write (by omega)⟩
  · exact .inr rfl

private theorem bytesOrEmpty_given (text : Option Text) :
    Text.bytesOrEmpty (Text.given text) = Text.bytesOrEmpty text := by
  rcases text with _ | (_ | _) | _ <;> rfl

/-- A call of a cursor either answers 0 and adds the encoding of all that is asked for, or answers 1 and
leaves the cursor as it is. -/
theorem perform_cases (call : CodepointCall) (cursor : Cursor) :
    ((call.perform cursor).1 = 0 ∧ (∀ c ∈ call.asked, c ≤ maxCodepoint ∧ c ≠ 0) ∧
        (call.perform cursor).2.written = cursor.written ++ encodeAll call.asked) ∨
      call.perform cursor = (1, cursor) := by
  cases call with
  | codepoint c nonzero =>
    rw [CodepointCall.perform]
    by_cases refused : widthOf c = 0
    · exact .inr (appendCodepoint_unknown refused cursor)
    · obtain ⟨positive, last⟩ := inside_of_widthOf refused
      have whole : encodeOf c = encodeAll [c.toNat] := by
        rw [encodeOf_known refused, encodeAll, List.flatMap_singleton]
      rw [appendCodepoint_known refused, whole]
      rcases appendWhole_cases cursor (encodeAll [c.toNat]) with ⟨zero, written⟩ | full
      · refine .inl ⟨zero, ?_, written⟩
        intro d member
        rw [List.mem_singleton.1 member]
        exact ⟨last, by omega⟩
      · exact .inr full
  | codepoints given =>
    rw [CodepointCall.perform, CodepointCall.asked, ← bytesOrEmpty_given]
    cases some : Text.given given with
    | none =>
      have nothing : codepointsOf (Text.bytesOrEmpty none) = [] := codepointsOf_end rfl
      rw [appendCodepoints, some, nothing]
      exact .inl ⟨rfl, by simp, (List.append_nil _).symm⟩
    | some text =>
      rw [appendCodepoints_given some]
      rcases appendWhole_cases cursor (encodeAll (codepointsOf text.toBytes)) with ⟨zero, written⟩ | full
      · exact .inl ⟨zero, fun c => inside_of_mem_codepointsOf, written⟩
      · exact .inr full

/-- A call adds the encoding of what it accepts. -/
theorem perform_written (call : CodepointCall) (cursor : Cursor) :
    (∀ c ∈ call.accepted cursor, c ≤ maxCodepoint ∧ c ≠ 0) ∧
      (call.perform cursor).2.written = cursor.written ++ encodeAll (call.accepted cursor) := by
  rcases perform_cases call cursor with ⟨zero, inside, written⟩ | refused
  · rw [CodepointCall.accepted, if_pos zero]
    exact ⟨inside, written⟩
  · have nothing : call.accepted cursor = [] := by rw [CodepointCall.accepted, refused, if_neg Nat.one_ne_zero]
    rw [nothing, refused]
    exact ⟨by simp, (List.append_nil _).symm⟩

theorem enterCodepoints_written (calls : List CodepointCall) (cursor : Cursor) :
    let entered := cursor.enterCodepoints calls
    (∀ c ∈ entered.1, c ≤ maxCodepoint ∧ c ≠ 0) ∧ entered.2.written = cursor.written ++ encodeAll entered.1 := by
  induction calls generalizing cursor with
  | nil => simp [enterCodepoints, encodeAll]
  | cons call calls ih =>
    obtain ⟨inside, head⟩ := perform_written call cursor
    obtain ⟨others, tail⟩ := ih (call.perform cursor).2
    refine ⟨?_, ?_⟩
    · intro c member
      rcases List.mem_append.1 member with here | later
      · exact inside c here
      · exact others c later
    · simp only [enterCodepoints]
      rw [tail, head, List.append_assoc, encodeAll, encodeAll, encodeAll, List.flatMap_append]

end Cursor

/-! ## Builders -/

/-- The code points among integers, in order. -/
def codepointsAmong (integers : List Int) : List Nat := (integers.filter (widthOf · ≠ 0)).map Int.toNat

private theorem flatMap_codepointPiece (integers : List Int) :
    integers.flatMap codepointPiece = encodeAll (codepointsAmong integers) := by
  induction integers with
  | nil => rfl
  | cons c rest ih =>
    rw [List.flatMap_cons, ih, codepointPiece, codepointsAmong, codepointsAmong]
    by_cases refused : widthOf c = 0
    · rw [if_pos refused, List.filter_cons_of_neg (by simpa using refused), List.nil_append]
    · rw [if_neg refused, List.filter_cons_of_pos (by simpa using refused), encodeOf_known refused]
      rfl

private theorem codepointsAmong_inside {integers : List Int} (nonzero : ∀ c ∈ integers, c ≠ 0) :
    ∀ c ∈ codepointsAmong integers, c ≤ maxCodepoint ∧ c ≠ 0 := by
  intro c member
  obtain ⟨d, kept, rfl⟩ := List.mem_map.1 member
  obtain ⟨given, known⟩ := List.mem_filter.1 kept
  obtain ⟨positive, last⟩ := inside_of_widthOf (by simpa using known)
  have := nonzero d given
  exact ⟨last, by omega⟩

private theorem asked_codepoints (integers : List Int) :
    (Builder.History.of (integers.map .codepoint)).asked = encodeAll (codepointsAmong integers) := by
  have fill : ∀ call ∈ integers.map Builder.Call.codepoint, call.empties = false := by
    intro call member
    obtain ⟨c, -, rfl⟩ := List.mem_map.1 member
    rfl
  rw [Builder.History.of, Builder.History.asked_after_all fill, List.flatMap_map, ← flatMap_codepointPiece]
  simp only [Builder.Call.pieces, List.flatten_singleton]
  rfl

/-- What was appended by code points reads back. Whatever a buffer held, and whichever code points and
texts a cursor at its start is asked to write, any of them refused, the bytes before the cursor encode the
code points that were accepted. So does what a builder gives after code points, all of them when they fit
and none when not. Walking finds each of these code points again, and encoding the walk restores the
bytes, exactly when none is a surrogate. -/
theorem codepoint_appends_read_back (buffer : Bytes) (calls : List CodepointCall) {limit : Nat} (positive : 1 ≤ limit)
    (context : Option Context) {integers : List Int} (nonzero : ∀ c ∈ integers, c ≠ 0) :
    let entered := (Cursor.mk buffer 0).enterCodepoints calls
    let builder := (Builder.Attached.run ⟨.ofLimit limit, context⟩ (integers.map .codepoint)).builder
    let asked := codepointsAmong integers
    ReadsBack entered.1 entered.2.written ∧
      ReadsBack (if (encodeAll asked).length ≤ limit - 1 then asked else []) builder.finish.1 := by
  intro entered builder asked
  refine ⟨?_, ?_⟩
  · obtain ⟨inside, written⟩ := Cursor.enterCodepoints_written calls (Cursor.mk buffer 0)
    rw [show entered.2.written = encodeAll entered.1 from written]
    exact readsBack_encodeAll inside
  · have seen : builder.observed = _ := Builder.observed_run positive context (integers.map .codepoint)
    rw [asked_codepoints, Builder.observed] at seen
    by_cases fits : (encodeAll asked).length ≤ limit - 1
    · rw [if_pos fits, Prod.mk.injEq, Prod.mk.injEq] at seen
      rw [if_pos fits, seen.2.2]
      exact readsBack_encodeAll (codepointsAmong_inside nonzero)
    · rw [if_neg fits, Prod.mk.injEq, Prod.mk.injEq] at seen
      rw [if_neg fits, seen.2.2]
      exact readsBack_encodeAll (by simp)

/-- A cursor takes a code point, a text with a malformed byte and, after two code points that are refused,
one that fits; a builder takes a surrogate. -/
theorem codepoint_appends_read_back_mixed :
    let calls : List CodepointCall := [.codepoint 0x20AC (by decide), .codepoints (some (.bytes [0x61, 0xFF])),
      .codepoint 0x110000 (by decide), .codepoint 0x1F600 (by decide), .codepoint 0x21 (by decide)]
    let entered := (Cursor.mk (List.replicate 9 7) 0).enterCodepoints calls
    let integers : List Int := [0xE9, -1, 0xD800]
    (entered.1 = [0x20AC, 0x61, 0xFFFD, 0x21] ∧ codepointsOf entered.2.written = entered.1 ∧
      encodeAll (codepointsOf entered.2.written) = entered.2.written) ∧
    1 ≤ 6 ∧ (∀ c ∈ integers, c ≠ 0) ∧
    codepointsOf (Builder.Attached.run ⟨.ofLimit 6, none⟩ (integers.map .codepoint)).builder.finish.1 =
      [0xE9, 0xFFFD] := by
  intro calls entered integers
  have accepted : entered.1 = [0x20AC, 0x61, 0xFFFD, 0x21] := by decide +kernel
  have nonzero : ∀ c ∈ integers, c ≠ 0 := by decide
  have both := codepoint_appends_read_back (List.replicate 9 7) calls (by decide : 1 ≤ 6) none nonzero
  have written : ReadsBack entered.1 entered.2.written := both.1
  have built := both.2
  have scalars : ∀ c ∈ entered.1, isSurrogate c = false := by
    rw [accepted]
    decide
  refine ⟨⟨accepted, ?_, written.wellFormed.2 scalars⟩, by decide, nonzero, ?_⟩
  · rw [written.walked, accepted]
    decide
  · rw [built.walked]
    decide

/-- A surrogate is accepted and found again as U+FFFD, so that the bytes written for it are not restored. -/
theorem surrogate_append_not_restored :
    let entered := (Cursor.ofCapacity 8).enterCodepoints [.codepoint 0xD800 (by decide)]
    entered.1 = [0xD800] ∧ codepointsOf entered.2.written = [0xFFFD] ∧
      encodeAll (codepointsOf entered.2.written) ≠ entered.2.written := by
  intro entered
  have accepted : entered.1 = [0xD800] := by decide +kernel
  have written : entered.2.written = encodeAll [0xD800] := by decide +kernel
  have read : ReadsBack [0xD800] (encodeAll [0xD800]) := readsBack_encodeAll (by decide)
  rw [accepted, written]
  refine ⟨rfl, read.walked, fun restored => ?_⟩
  exact absurd (read.wellFormed.1 restored) (by decide)

end BoundedText
