import BoundedText.Integers
import BoundedText.Proofs.Strings

/-!
# What an append writes

Appending is writing as much as there is room for (`append_eq`), and appending twice is appending once
(`append_append`). Every other way to append that cuts what does not fit comes down to it: some answer
what `append` answers (`Counts`), others only whether all of it fitted (`Writes`). Code points are written
whole or not at all (`appendWhole`).
-/

namespace BoundedText

@[simp] theorem byteOf_toNat (b : UInt8) : byteOf b.toNat = b := by
  have small := b.toNat_lt
  rw [byteOf, show ((b.toNat : Int) % 256).toNat = b.toNat by omega, UInt8.ofNat_toNat]

namespace Cursor

@[simp] theorem write_nil (cursor : Cursor) : cursor.write [] = cursor := by simp [write, overwrite]

theorem write_write (cursor : Cursor) (first second : Bytes) :
    (cursor.write first).write second = cursor.write (first ++ second) := by
  simp [write, overwrite_overwrite, Nat.add_assoc]

theorem room_write (cursor : Cursor) (bytes : Bytes) : (cursor.write bytes).room = cursor.room - bytes.length := by
  simp only [room, write, length_overwrite]
  omega

theorem written_write {cursor : Cursor} {bytes : Bytes} (fits : cursor.pos + bytes.length ≤ cursor.buffer.length) :
    (cursor.write bytes).written = cursor.written ++ bytes :=
  take_overwrite cursor.buffer cursor.pos bytes fits

/-! ## One append -/

/-- An append writes what there is room for and answers how much there is not. -/
theorem append_eq (cursor : Cursor) (bytes : Bytes) :
    cursor.append bytes = (bytes.length - cursor.room, cursor.write (bytes.take cursor.room)) := by
  simp only [append, room]
  split
  · rename_i full
    rw [show cursor.buffer.length - 1 - cursor.pos = 0 by omega]
    simp
  · split
    · rename_i fits
      rw [List.take_of_length_le (by omega : bytes.length ≤ cursor.buffer.length - 1 - cursor.pos), List.take_length]
      simp only [Prod.mk.injEq, and_true]
      omega
    · rfl

theorem append_nil (cursor : Cursor) : cursor.append [] = (0, cursor) := by simp [append_eq]

theorem append_room {cursor : Cursor} {bytes : Bytes} (fits : bytes.length ≤ cursor.room) :
    cursor.append bytes = (0, cursor.write bytes) := by
  rw [append_eq, List.take_of_length_le fits, Nat.sub_eq_zero_of_le fits]

/-- Two appends in a row are one. -/
theorem append_append (cursor : Cursor) (first second : Bytes) :
    ((cursor.append first).2.append second).2 = (cursor.append (first ++ second)).2 := by
  have left : (cursor.write (first.take cursor.room)).room = cursor.room - first.length := by
    rw [room_write, List.length_take]
    omega
  simp only [append_eq, left, write_write, List.take_append]

/-- All of two pieces fits when the first does and then the second. -/
theorem append_append_fits (cursor : Cursor) (first second : Bytes) :
    (cursor.append (first ++ second)).1 = 0 ↔
      (cursor.append first).1 = 0 ∧ ((cursor.append first).2.append second).1 = 0 := by
  simp only [append_eq, room_write, List.length_append, List.length_take]
  omega

/-- After a piece that was cut nothing more is written. -/
theorem append_cut {cursor : Cursor} {first : Bytes} (cut : (cursor.append first).1 ≠ 0) (second : Bytes) :
    (cursor.append (first ++ second)).2 = (cursor.append first).2 := by
  simp only [append_eq] at cut ⊢
  rw [List.take_append_of_le_length (by omega)]

/-- An empty buffer holds as much of what is appended to it as leaves room for a NUL. -/
theorem append_ofCapacity (capacity : Nat) (bytes : Bytes) :
    ((ofCapacity capacity).append bytes).2.written = bytes.take (capacity - 1) := by
  have room : (ofCapacity capacity).room = capacity - 1 := by simp [room, ofCapacity]
  have fits : (ofCapacity capacity).pos + (bytes.take (capacity - 1)).length ≤ (ofCapacity capacity).buffer.length := by
    simp only [ofCapacity, List.length_take, List.length_replicate]
    omega
  rw [append_eq, room, written_write fits]
  rfl

/-! ## Ways to append -/

/-- A write that answers and leaves behind what appending bytes does. -/
def Counts (write : Cursor → Nat × Cursor) (bytes : Bytes) : Prop := ∀ cursor, write cursor = cursor.append bytes

/-- A write that leaves behind what appending bytes does, and answers 0 when all of them fitted. -/
def Writes (write : Cursor → Nat × Cursor) (bytes : Bytes) : Prop :=
  ∀ cursor, (write cursor).2 = (cursor.append bytes).2 ∧ ((write cursor).1 = 0 ↔ (cursor.append bytes).1 = 0)

theorem Counts.writes {write : Cursor → Nat × Cursor} {bytes : Bytes} (counts : Counts write bytes) :
    Writes write bytes :=
  fun cursor => by simp [counts cursor]

theorem appendByte_counts (ch : Int) : Counts (appendByte · ch) [byteOf ch] := by
  intro cursor
  simp only [appendByte, append_eq, room, List.length_singleton]
  split
  · rename_i full
    rw [show cursor.buffer.length - 1 - cursor.pos = 0 by omega]
    simp
  · rename_i free
    rw [List.take_of_length_le (by simp; omega)]
    simp only [Prod.mk.injEq, and_true]
    omega

theorem appendSome_counts (bytes : Bytes) : Counts (appendSome · bytes) bytes := by
  intro cursor
  match bytes with
  | [] => exact (append_nil cursor).symm
  | [b] => simpa [appendSome] using appendByte_counts b.toNat cursor
  | a :: b :: rest => rfl

/-- Writes done in turn write their pieces in a row. The first piece that is cut leaves no room for the
pieces after it, so that stopping there leaves nothing out. -/
theorem appendInTurn_writes {writes : List (Cursor → Nat × Cursor)} {pieces : List Bytes}
    (all : List.Forall₂ Writes writes pieces) : Writes (appendInTurn · writes) pieces.flatten := by
  induction all with
  | nil => intro cursor; simp [appendInTurn, append_nil]
  | @cons write piece writes pieces head _ ih =>
    intro cursor
    obtain ⟨after, whole⟩ := head cursor
    simp only [appendInTurn, List.flatten_cons]
    by_cases fits : (write cursor).1 = 0
    · obtain ⟨afterRest, wholeRest⟩ := ih (cursor.append piece).2
      rw [if_pos fits, after, append_append_fits, ← append_append]
      exact ⟨afterRest, by rw [wholeRest]; exact ⟨fun rest => ⟨whole.1 fits, rest⟩, And.right⟩⟩
    · have cut : (cursor.append piece).1 ≠ 0 := fun none => fits (whole.2 none)
      rw [if_neg fits, append_cut cut, append_append_fits]
      exact ⟨after, ⟨fun none => absurd none fits, fun both => absurd both.1 cut⟩⟩

theorem appendBetweenQuotes_writes (text : Bytes) :
    Writes (appendInTurn · [(appendByte · 0x22), (appendSome · text), (appendByte · 0x22)]) (quoted text) := by
  have quote : Writes (appendByte · 0x22) [0x22] := (appendByte_counts 0x22).writes
  have all : List.Forall₂ Writes [(appendByte · 0x22), (appendSome · text), (appendByte · 0x22)]
      [[0x22], text, [0x22]] := .cons quote (.cons (appendSome_counts text).writes (.cons quote .nil))
  have pieces : [[0x22], text, [0x22]].flatten = quoted text := by simp [quoted]
  exact pieces ▸ appendInTurn_writes all

/-! ## Texts -/

theorem appendText_counts (text : Option Text) : Counts (appendText · text) (givenText text) := by
  intro cursor
  match text with
  | none | some (.string []) => exact (append_nil cursor).symm
  | some (.bytes array) => exact appendSome_counts (textOf array) cursor
  | some (.string (first :: rest)) =>
    have given : givenText (some (.string (first :: rest))) = textOf (Utf16.toUtf8 (first :: rest)) := rfl
    simp only [appendText, given]
    split
    · rename_i nul
      rw [nul, textOf_toUtf8_nul, append_nil]
    · rename_i nonzero
      split
      · rename_i short
        obtain ⟨rfl, ascii⟩ := short
        rw [textOf_toUtf8_ascii ascii nonzero]
        exact appendByte_counts first.toNat cursor
      · exact appendSome_counts _ cursor

theorem appendText_eq (text : Option Text) (cursor : Cursor) : cursor.appendText text = cursor.append (givenText text) :=
  appendText_counts text cursor

/-- The first bytes of a text, NULs among them; none when the first byte is one. -/
def leadingBytes (text : Option Text) (count : Int) : Bytes :=
  if (Text.bytesOrEmpty text).head? = some 0 then [] else (Text.bytesOrEmpty text).take count.toNat

theorem appendBytes_counts (text : Option Text) (count : Int) :
    Counts (appendBytes · text count) (leadingBytes text count) := by
  intro cursor
  simp only [appendBytes, leadingBytes]
  split
  · rename_i none
    rw [show count.toNat = 0 by omega]
    simp [append_nil]
  · split
    · rename_i empty
      simp [empty, append_nil]
    · rename_i first rest bytes
      by_cases nul : first = 0
      · simp [bytes, nul, append_nil]
      · simpa [bytes, nul] using appendSome_counts _ cursor

/-- What goes before an item of a list, whole. -/
def separatorText (item : Int) (last : Bool) (delimiter conjunction space : Option Text) : Bytes :=
  (separatorPieces item last delimiter conjunction space).flatMap givenText

theorem appendTexts_eq (texts : List (Option Text)) (cursor : Cursor) :
    cursor.appendTexts texts = (cursor.append (texts.flatMap givenText)).2 := by
  induction texts generalizing cursor with
  | nil => simp [appendTexts, append_nil]
  | cons text texts ih =>
    have tail := ih (cursor.append (givenText text)).2
    simp only [appendTexts] at tail ⊢
    rw [List.foldl_cons, appendText_eq, tail, append_append, List.flatMap_cons]

/-! ## Code points -/

/-- Writes all of the bytes and answers 0, or writes nothing and answers 1. -/
def appendWhole (cursor : Cursor) (bytes : Bytes) : Nat × Cursor :=
  if cursor.pos + bytes.length < cursor.buffer.length then (0, cursor.write bytes) else (1, cursor)

theorem appendCodepoint_unknown {c : Int} (unknown : Utf8.widthOf c = 0) (cursor : Cursor) :
    cursor.appendCodepoint c = (1, cursor) := by
  rw [appendCodepoint, if_pos (.inl unknown)]

theorem appendCodepoint_known {c : Int} (known : Utf8.widthOf c ≠ 0) (cursor : Cursor) :
    cursor.appendCodepoint c = cursor.appendWhole (Utf8.encodeOf c) := by
  simp only [appendCodepoint, appendWhole, Utf8.length_encodeOf known, known, false_or]
  split
  · rename_i full
    rw [if_neg (by omega)]
  · rename_i fits
    rw [if_pos (by omega)]

/-- Code points put into the buffer one after another are written there as their encodings. -/
theorem putAll_write (cursor : Cursor) (codepoints : List Nat) :
    Utf8.putAll cursor.buffer cursor.pos codepoints =
      ((cursor.write (Utf8.encodeAll codepoints)).buffer, (cursor.write (Utf8.encodeAll codepoints)).pos) := by
  induction codepoints generalizing cursor with
  | nil => rw [show Utf8.encodeAll [] = [] from rfl, write_nil]; rfl
  | cons c codepoints ih =>
    have whole : Utf8.encodeAll (c :: codepoints) = Utf8.encode c ++ Utf8.encodeAll codepoints := List.flatMap_cons
    rw [whole, ← write_write, ← ih (cursor.write (Utf8.encode c))]
    rfl

/-- What is measured for a text is what its code points take up when they are written. -/
theorem appendCodepoints_given {text : Option Text} {given : Text} (some : Text.given text = some given)
    (cursor : Cursor) :
    cursor.appendCodepoints text = cursor.appendWhole (Utf8.encodeAll (codepointsOf given.toBytes)) := by
  have size : (Utf8.encodeAll (codepointsOf given.toBytes)).length =
      total ((codepointsOf given.toBytes).map Utf8.width) :=
    length_encodeAll fun c member => (inside_of_mem_codepointsOf member).1
  simp only [appendCodepoints, some, appendWhole, size, putAll_write]
  split
  · rename_i full
    rw [if_neg (by omega)]
  · rename_i fits
    rw [if_pos (by omega)]

/-! ## Copies and digits -/

theorem appendFill_writes (ch count : Int) : Writes (appendFill · ch count) (List.replicate count.toNat (byteOf ch)) := by
  intro cursor
  simp only [appendFill]
  split
  · rename_i none
    rw [show count.toNat = 0 by omega]
    simp [append_nil]
  split
  · rename_i one
    rw [one]
    exact (appendByte_counts ch).writes cursor
  simp only [append_eq, List.length_replicate, List.take_replicate]
  split
  · rename_i past
    have cut : count.toNat - cursor.room ≠ 0 := by rw [room]; omega
    have room : cursor.room = cursor.buffer.length - cursor.pos - 1 := by rw [room]; omega
    rw [Nat.min_eq_left (by omega), room]
    split
    · rename_i full
      simp [full]
      omega
    · simp
      omega
  · rename_i fits
    have room : count.toNat ≤ cursor.room := by rw [room]; omega
    rw [Nat.min_eq_right room]
    simp
    omega

/-- Bytes written one by one. -/
theorem appendInTurn_bytes (bytes : Bytes) :
    Writes (appendInTurn · (bytes.map (fun b cursor => cursor.appendByte b.toNat))) bytes := by
  have all : List.Forall₂ Writes (bytes.map (fun b cursor => cursor.appendByte b.toNat)) (bytes.map (fun b => [b])) := by
    rw [List.forall₂_map_left_iff, List.forall₂_map_right_iff, List.forall₂_same]
    intro b _
    simpa using (appendByte_counts b.toNat).writes
  simpa [← List.flatMap_def] using appendInTurn_writes all

theorem appendHexByte_writes (b : Int) : Writes (appendHexByte · b) (hexPair (byteOf b)) :=
  appendInTurn_bytes (hexPair (byteOf b))

theorem appendHex_writes (bytes : Bytes) (count : Int) :
    Writes (appendHex · bytes count) ((bytes.take count.toNat).flatMap hexPair) := by
  have all : List.Forall₂ Writes ((bytes.take count.toNat).map (fun b cursor => cursor.appendHexByte b.toNat))
      ((bytes.take count.toNat).map hexPair) := by
    rw [List.forall₂_map_left_iff, List.forall₂_map_right_iff, List.forall₂_same]
    intro b _
    simpa using appendHexByte_writes b.toNat
  rw [List.flatMap_def]
  exact appendInTurn_writes all

/-! ## Destinations -/

/-- The length of a destination is not a number when the one that is given is not. Any other is no more than
the length of the buffer, and lies between two integers that are at most one apart, or below all of them. -/
theorem destination_cases (capacity : Nat) (length : Option Double) :
    length = some .nan ∧ destination capacity length = .nan ∨
    length ≠ some .nan ∧ (destination capacity length = .infinite true ∨
      ∃ below above : Int, (destination capacity length).floor = some below ∧
        (destination capacity length).ceil = some above ∧ below ≤ above ∧ above ≤ below + 1 ∧ above ≤ capacity) := by
  have whole : ∃ below above : Int, (Double.ofWhole capacity).floor = some below ∧
      (Double.ofWhole capacity).ceil = some above ∧ below ≤ above ∧ above ≤ below + 1 ∧ above ≤ capacity :=
    ⟨capacity, capacity, Double.floor_ofWhole capacity, Double.ceil_ofWhole capacity, by omega⟩
  cases length with
  | none => exact .inr ⟨by simp, .inr whole⟩
  | some length =>
    cases length with
    | nan => exact .inl ⟨rfl, rfl⟩
    | infinite negative =>
      cases negative with
      | true => exact .inr ⟨by simp, .inl rfl⟩
      | false => exact .inr ⟨by simp, .inr whole⟩
    | finite negative mantissa exponent =>
      obtain ⟨below, above, down, up, ordered, near⟩ := Double.rounded_finite negative mantissa exponent
      have less := Double.lt_iff down capacity
      refine .inr ⟨by simp, .inr ?_⟩
      simp only [destination, Double.orLess]
      split
      · rename_i short
        exact ⟨below, above, down, up, ordered, near, by rw [less] at short; omega⟩
      · exact whole

/-- The number of bytes of a destination, with a byte counted that is there in part. -/
def reach (length : Double) : Nat := (length.ceil.getD 0).toNat

/-- A destination that ends right before a position, as its length is compared with positions. -/
structure EndsAt (length : Double) (stop : Nat) : Prop where
  full : ∀ n : Nat, length.le n = true ↔ stop ≤ n
  spare : ∀ n : Nat, length.gt n = true ↔ n < stop

private theorem endsAt_of_ceil {length : Double} {above : Int} (up : length.ceil = some above) :
    EndsAt length above.toNat := by
  refine ⟨fun n => ?_, fun n => ?_⟩
  · rw [Double.le_iff up]
    omega
  · rw [Double.gt_iff up]
    omega

theorem endsAt_destination (capacity : Nat) {length : Option Double} (number : length ≠ some .nan) :
    EndsAt (destination capacity length) (reach (destination capacity length)) := by
  rcases destination_cases capacity length with ⟨nan, -⟩ | ⟨-, below | ⟨-, above, -, up, -⟩⟩
  · exact absurd nan number
  · rw [below]
    exact ⟨fun n => by simp [Double.le, reach, Double.ceil], fun n => by simp [Double.gt, reach, Double.ceil]⟩
  · rw [reach, up, Option.getD_some]
    exact endsAt_of_ceil up

private theorem endsAt_buffer (capacity : Nat) : EndsAt (destination capacity none) capacity :=
  endsAt_of_ceil (Double.ceil_ofWhole capacity)

theorem reach_destination_le (capacity : Nat) (length : Option Double) :
    reach (destination capacity length) ≤ capacity := by
  rcases destination_cases capacity length with ⟨-, same⟩ | ⟨-, same | ⟨-, above, -, up, -, -, last⟩⟩
  · simp [same, reach, Double.ceil]
  · simp [same, reach, Double.ceil]
  · rw [reach, up, Option.getD_some]
    omega

/-- An integer that is given as a length is cut to that of the buffer. -/
theorem destination_whole (capacity : Nat) (length : Option Int) :
    destination capacity (length.map Double.ofWhole) = Double.ofWhole (min (length.getD capacity) capacity) := by
  cases length with
  | none => exact congrArg Double.ofWhole (Int.min_self (capacity : Int)).symm
  | some m =>
    have number : Double.ofWhole m ≠ .nan := nofun
    have less := Double.lt_iff (Double.floor_ofWhole m) capacity
    show (Double.ofWhole m).orLess capacity = _
    rw [Double.orLess_eq number, Option.getD_some]
    split
    · rename_i short
      rw [Int.min_eq_left (less.1 short).le]
    · rename_i long
      rw [less] at long
      rw [Int.min_eq_right (by omega)]

/-! ## Numerals -/

/-- Bytes written one at a time are written as far as the destination goes. -/
theorem appendBelow_eq {length : Double} {stop : Nat} (ends : EndsAt length stop) (cursor : Cursor) (bytes : Bytes) :
    cursor.appendBelow length bytes =
      (min (bytes.length - (stop - 1 - cursor.pos)) 1, cursor.write (bytes.take (stop - 1 - cursor.pos))) := by
  induction bytes generalizing cursor with
  | nil => simp [appendBelow]
  | cons b rest ih =>
    simp only [appendBelow, isFull, ends.full]
    split
    · rename_i full
      rw [show stop - 1 - cursor.pos = 0 by omega]
      simp
    · rename_i free
      have moved : (cursor.write [b]).pos = cursor.pos + 1 := rfl
      rw [ih, moved, write_write, show stop - 1 - cursor.pos = stop - 1 - (cursor.pos + 1) + 1 by omega]
      simp

/-- A numeral is written as far as the destination goes, at once or byte by byte. -/
theorem appendNumeral_eq {length : Double} {stop : Nat} (ends : EndsAt length stop) (cursor : Cursor)
    (numeral : Bytes) :
    cursor.appendNumeral length numeral =
      (min (numeral.length - (stop - 1 - cursor.pos)) 1, cursor.write (numeral.take (stop - 1 - cursor.pos))) := by
  simp only [appendNumeral, ends.spare]
  split
  · rename_i spare
    rw [List.take_of_length_le (by omega)]
    simp only [Prod.mk.injEq, and_true]
    omega
  · exact appendBelow_eq ends cursor numeral

/-- No destination whose length is not a number is ever full, so that all of the bytes are written. -/
theorem appendBelow_nan (cursor : Cursor) (bytes : Bytes) :
    cursor.appendBelow .nan bytes = (0, cursor.write bytes) := by
  induction bytes generalizing cursor with
  | nil => simp [appendBelow]
  | cons b rest ih => simp [appendBelow, isFull, Double.le, ih, write_write]

theorem appendNumeral_nan (cursor : Cursor) (numeral : Bytes) :
    cursor.appendNumeral .nan numeral = (0, cursor.write numeral) := by
  simp [appendNumeral, Double.gt, appendBelow_nan]

/-- A word that is not the most negative one is written whole where the length is not a number. -/
theorem appendInteger_nan (cursor : Cursor) {value : Number} {n : Int} (whole : value.trunc = some n)
    (ordinary : Numeral.wrapSigned n ≠ Numeral.mostNegative) (base : Double) :
    cursor.appendInteger value base (some .nan) =
      (0, cursor.write (Numeral.ofInt (clampBase base) (Numeral.wrapSigned n)), none) := by
  simp [appendInteger, destination, Double.orLess, isFull, Double.le, whole, ordinary, appendNumeral_nan]

private theorem appendNumeral_writes (numeral : Bytes) :
    Writes (fun cursor => cursor.appendNumeral (destination cursor.buffer.length none) numeral) numeral := by
  intro cursor
  simp only [appendNumeral_eq (endsAt_buffer _), append_eq, room, true_and]
  omega

theorem digits_ne_nil (base n : Nat) : Numeral.digits base n ≠ [] := by
  rw [Numeral.digits, Numeral.places]
  split <;> simp

/-- The decimal numeral of a number as a signed word; nothing of one that is not finite. -/
def signedText (value : Number) : Bytes :=
  match value.trunc with
  | none => []
  | some n => Numeral.ofInt 10 (Numeral.wrapSigned n)

/-- The decimal numeral of a number as an unsigned word; nothing of one that is not finite. -/
def unsignedText (value : Number) : Bytes :=
  match value.trunc with
  | none => []
  | some n => Numeral.digits 10 (Numeral.wrapUnsigned n)

private theorem clampBase_ten : clampBase (.ofInt 10) = 10 := by decide +kernel

theorem appendSigned_writes {value : Number} (finite : value.trunc.isSome) :
    Writes (appendSigned · value) (signedText value) := by
  intro cursor
  obtain ⟨n, whole⟩ := Option.isSome_iff_exists.1 finite
  have someDigit : Numeral.ofInt 10 (Numeral.wrapSigned n) ≠ [] := by simp [Numeral.ofInt, digits_ne_nil]
  have positive := List.length_pos_iff.2 someDigit
  simp only [appendSigned, appendInteger, isFull, (endsAt_buffer _).full, signedText, whole, clampBase_ten]
  split
  · rename_i full
    have none : cursor.room = 0 := by rw [room]; omega
    simp [append_eq, none]
    omega
  · split
    · rename_i least
      have text : mostNegativeText 10 = some (Numeral.ofInt 10 Numeral.mostNegative) := rfl
      simp [text, least]
    · exact appendNumeral_writes _ cursor

theorem appendUnsigned_counts {value : Number} (finite : value.trunc.isSome) :
    Counts (appendUnsigned · value) (unsignedText value) := by
  intro cursor
  obtain ⟨n, whole⟩ := Option.isSome_iff_exists.1 finite
  simp only [appendUnsigned, unsignedText, whole]
  exact appendSome_counts _ cursor

end Cursor

end BoundedText
