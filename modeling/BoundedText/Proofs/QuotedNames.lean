import BoundedText.NameList
import BoundedText.Proofs.ProperText
import BoundedText.Proofs.Truncation

/-!
# Quoted names

A list of names that is written name by name, each in quotes when it has a space in it, is read back name
by name (`names_read_back`). A name is read from the head of what is left of the text, whatever spaces
stand before it, and up to the space or the quote that ends it (`nextName_listed`).
-/

namespace BoundedText

/-- The names that a list can hold: not empty, no longer than a long buffer holds, and without NUL or a
double quote. -/
structure Listable (name : Bytes) : Prop where
  some : name ≠ []
  short : name.length < longCapacity
  visible : ∀ b ∈ name, b ≠ 0
  unquoted : ∀ b ∈ name, b ≠ 0x22

private theorem listable_iff {name : Bytes} :
    name ≠ [] ∧ name.length < longCapacity ∧ 0 ∉ name ∧ 0x22 ∉ name ↔ Listable name := by
  constructor
  · rintro ⟨some, short, visible, unquoted⟩
    exact ⟨some, short, fun b member => ne_of_mem_of_not_mem member visible,
      fun b member => ne_of_mem_of_not_mem member unquoted⟩
  · intro listable
    exact ⟨listable.some, listable.short, fun nul => listable.visible 0 nul rfl,
      fun quote => listable.unquoted 0x22 quote rfl⟩

instance (name : Bytes) : Decidable (Listable name) := decidable_of_iff _ listable_iff

/-- A name as a list holds it. -/
def listedName (name : Bytes) : Bytes := if needsQuotes name then quoted name else name

/-- The text of a list of names. -/
def namesText (names : List Bytes) : Bytes := [0x20].intercalate (names.map listedName)

/-- Reads so many names from an offset on, each from where the one before it ended. Answers the names and
the offset past the last one. -/
def readNames (list : Bytes) : Nat → Nat → List Bytes × Nat
  | 0, start => ([], start)
  | count + 1, start =>
    let item := nextName list start
    let (names, stop) := readNames list count item.next
    (item.name :: names, stop)

/-- The names after the first, each after a space. -/
def laterNames (names : List Bytes) : Bytes := names.flatMap (fun name => 0x20 :: listedName name)

private theorem namesText_cons (name : Bytes) (names : List Bytes) :
    namesText (name :: names) = listedName name ++ laterNames names := by
  induction names generalizing name with
  | nil => simp [namesText, laterNames]
  | cons next names ih =>
    simp only [namesText, List.map_cons] at ih ⊢
    rw [List.intercalate_cons_cons, ih next, laterNames, laterNames, List.flatMap_cons]
    simp only [List.append_assoc, List.cons_append, List.nil_append]

/-! ## Long buffers -/

private theorem appendAll_eq (cursor : Cursor) (pieces : List Bytes) :
    cursor.appendAll pieces = (cursor.append pieces.flatten).2 := by
  induction pieces generalizing cursor with
  | nil => rw [List.flatten_nil, Cursor.append_nil]; rfl
  | cons piece pieces ih =>
    have tail := ih (cursor.append piece).2
    simp only [Cursor.appendAll] at tail ⊢
    rw [List.foldl_cons, tail, Cursor.append_append, List.flatten_cons]

/-- Pieces written to a long buffer are cut at its capacity. -/
theorem longText_eq (pieces : List Bytes) : longText pieces = pieces.flatten.take (longCapacity - 1) := by
  rw [longText, appendAll_eq, Cursor.append_ofCapacity]

/-! ## Reading one name -/

private theorem takeWhile_stop {test : UInt8 → Bool} {front back : Bytes} (all : ∀ b ∈ front, test b = true)
    (stops : ∀ b ∈ back.head?, test b = false) : (front ++ back).takeWhile test = front := by
  rw [List.takeWhile_append_of_pos all]
  cases back with
  | nil => simp
  | cons b back => rw [List.takeWhile_cons_of_neg (by simp [stops b rfl]), List.append_nil]

/-- Reading a name passes the spaces before it. -/
theorem nextName_gap {list gap rest : Bytes} {start : Nat} (left : (textOf list).drop start = gap ++ rest)
    (spaces : ∀ b ∈ gap, b = 0x20) (begins : ∀ b ∈ rest.head?, b ≠ 0x20) :
    nextName list start = nextName list (start + gap.length) := by
  have blank : ∀ b ∈ gap, (b == 0x20) = true := by
    intro b member
    rw [spaces b member]
    rfl
  have stops : ∀ b ∈ rest.head?, (b == 0x20) = false := by
    intro b first
    simpa using begins b first
  have skipped : (gap ++ rest).takeWhile (· == 0x20) = gap := takeWhile_stop blank stops
  have none : rest.takeWhile (· == 0x20) = [] := @takeWhile_stop (· == 0x20) [] rest (by simp) stops
  have after : (textOf list).drop (start + gap.length) = rest := by rw [← List.drop_drop, left, List.drop_left]
  simp only [nextName, left, after, skipped, none, List.drop_left, List.length_nil, List.drop_zero, Nat.add_zero]

private theorem longText_listable {name : Bytes} (listable : Listable name) : longText [name] = name := by
  rw [longText_eq, List.flatten_singleton]
  exact List.take_of_length_le (Nat.le_sub_one_of_lt listable.short)

private theorem nextName_quoted {list name tail : Bytes} {start : Nat} (listable : Listable name)
    (left : (textOf list).drop start = quoted name ++ tail) :
    nextName list start = ⟨name, start + (quoted name).length⟩ := by
  have rest : (textOf list).drop start = 0x22 :: (name ++ 0x22 :: tail) := by
    rw [left, quoted]
    simp
  have read : nameAt true (name ++ 0x22 :: tail) = name := by
    apply takeWhile_stop
    · intro b member
      simpa using listable.unquoted b member
    · simp
  have none : (0x22 :: (name ++ 0x22 :: tail)).takeWhile (· == 0x20) = [] := List.takeWhile_cons_of_neg (by decide)
  have closed : name.length < (name ++ 0x22 :: tail).length := by
    rw [List.length_append, List.length_cons]
    omega
  simp only [nextName, rest, none, List.length_nil, List.drop_zero, List.head?_cons, beq_self_eq_true, if_true,
    List.drop_succ_cons, read, longText_listable listable, Bool.true_and, closed, decide_true]
  simp only [quoted, List.length_append, List.length_singleton]
  congr 1
  omega

private theorem nextName_plain {list name tail : Bytes} {start : Nat} (listable : Listable name)
    (plain : ∀ b ∈ name, b ≠ 0x20)
    (ends : ∀ b ∈ tail.head?, b = 0x20) (left : (textOf list).drop start = name ++ tail) :
    nextName list start = ⟨name, start + name.length⟩ := by
  have read : nameAt false (name ++ tail) = name := by
    apply takeWhile_stop
    · intro b member
      simpa using ⟨listable.unquoted b member, plain b member⟩
    · intro b begins
      rw [ends b begins]
      rfl
  obtain ⟨first, others, rfl⟩ := List.exists_cons_of_ne_nil listable.some
  have none : (first :: others ++ tail).takeWhile (· == 0x20) = [] :=
    List.takeWhile_cons_of_neg (by simpa using plain first List.mem_cons_self)
  have opens : ((first :: others ++ tail).head? == some 0x22) = false := by
    simpa using listable.unquoted first List.mem_cons_self
  simp only [nextName, left, none, List.length_nil, List.drop_zero, opens, read, longText_listable listable,
    Bool.false_and, Bool.false_eq_true, if_false, Nat.add_zero]

private theorem plain_of_needsQuotes {name : Bytes} (quotes : ¬ needsQuotes name = true) : ∀ b ∈ name, b ≠ 0x20 := by
  rintro b member rfl
  exact quotes (List.contains_iff_mem.2 member)

/-- A listed name is read from wherever spaces lead up to it and a space or the end of the text follows. -/
theorem nextName_listed {list gap name tail : Bytes} {start : Nat} (listable : Listable name)
    (left : (textOf list).drop start = gap ++ (listedName name ++ tail)) (spaces : ∀ b ∈ gap, b = 0x20)
    (ends : ∀ b ∈ tail.head?, b = 0x20) :
    nextName list start = ⟨name, start + gap.length + (listedName name).length⟩ := by
  have after : (textOf list).drop (start + gap.length) = listedName name ++ tail := by
    rw [← List.drop_drop, left, List.drop_left]
  by_cases quotes : needsQuotes name = true
  · have shown : listedName name = quoted name := if_pos quotes
    rw [shown] at left after ⊢
    rw [nextName_gap left spaces (by simp [quoted]), nextName_quoted listable after]
  · have shown : listedName name = name := if_neg quotes
    have plain := plain_of_needsQuotes quotes
    rw [shown] at left after ⊢
    rw [nextName_gap left spaces, nextName_plain listable plain ends after]
    intro b first
    obtain ⟨head, others, rfl⟩ := List.exists_cons_of_ne_nil listable.some
    obtain rfl : head = b := by simpa using first
    exact plain head List.mem_cons_self

/-! ## Reading a list -/

private theorem head_laterNames (names : List Bytes) : ∀ b ∈ (laterNames names).head?, b = 0x20 := by
  cases names with
  | nil => simp [laterNames]
  | cons name names => simp [laterNames]

/-- One name read, and what is left of the text for the names after it. -/
theorem readNames_next {list gap name : Bytes} {names : List Bytes} {start next : Nat} (listable : Listable name)
    (left : (textOf list).drop start = gap ++ (listedName name ++ laterNames names)) (spaces : ∀ b ∈ gap, b = 0x20)
    (past : start + gap.length + (listedName name).length = next) (count : Nat) :
    readNames list (count + 1) start = (name :: (readNames list count next).1, (readNames list count next).2) ∧
      (textOf list).drop next = laterNames names := by
  refine ⟨?_, ?_⟩
  · rw [readNames, nextName_listed listable left spaces (head_laterNames names), past]
  · rw [← past, Nat.add_assoc, ← List.drop_drop, left, ← List.append_assoc, ← List.length_append, List.drop_left]

private theorem readNames_later {list : Bytes} {names : List Bytes} {start : Nat}
    (listable : ∀ name ∈ names, Listable name)
    (left : (textOf list).drop start = laterNames names) :
    readNames list names.length start = (names, start + (laterNames names).length) := by
  induction names generalizing start with
  | nil => rfl
  | cons name names ih =>
    obtain ⟨first, others⟩ := List.forall_mem_cons.1 listable
    have parts : laterNames (name :: names) = [0x20] ++ (listedName name ++ laterNames names) := rfl
    obtain ⟨read, after⟩ := readNames_next first (left.trans parts) (by simp) rfl names.length
    rw [List.length_cons, read, ih others after, parts]
    simp only [List.length_append, Nat.add_assoc]

private theorem readNames_text {list : Bytes} {names : List Bytes} (listable : ∀ name ∈ names, Listable name)
    (text : textOf list = namesText names) : readNames list names.length 0 = (names, (namesText names).length) := by
  cases names with
  | nil => rfl
  | cons name names =>
    obtain ⟨first, others⟩ := List.forall_mem_cons.1 listable
    have left : (textOf list).drop 0 = [] ++ (listedName name ++ laterNames names) := by
      rw [List.drop_zero, text, namesText_cons, List.nil_append]
    obtain ⟨read, after⟩ := readNames_next first left (by simp) (Nat.zero_add _) names.length
    rw [List.length_cons, read, readNames_later others after, namesText_cons, List.length_append]

/-! ## Writing a list -/

namespace Cursor

/-- The calls that write a list of names. -/
def nameCalls (names : List Text) : List TextCall :=
  (names.map (fun name => .quoted (some name))).intersperse (.byte 0x20 (by decide))

/-- The calls that write the names after the first. -/
def laterCalls (names : List Text) : List TextCall :=
  names.flatMap (fun name => [.byte 0x20 (by decide), .quoted (some name)])

private theorem nameCalls_cons (name : Text) (names : List Text) :
    nameCalls (name :: names) = .quoted (some name) :: laterCalls names := by
  induction names generalizing name with
  | nil => rfl
  | cons next names ih =>
    simp only [nameCalls, List.map_cons] at ih ⊢
    rw [List.intersperse_cons_cons, ih next]
    rfl

theorem appendQuoted_room {cursor : Cursor} {text : Option Text}
    (fits : (listedName (givenText text)).length ≤ cursor.room) :
    cursor.appendQuoted text = (0, cursor.write (listedName (givenText text))) := by
  rw [appendQuoted]
  split
  · rename_i quotes
    rw [listedName, if_pos quotes] at fits ⊢
    obtain ⟨after, whole⟩ := appendBetweenQuotes_writes (givenText text) cursor
    rw [append_room fits] at after whole
    dsimp only at after whole ⊢
    rw [if_pos (whole.2 rfl), after]
  · rename_i plain
    rw [listedName, if_neg plain] at fits ⊢
    rw [show cursor.appendSome (givenText text) = _ from appendSome_counts _ cursor, append_room fits]

private theorem enter_later {cursor : Cursor} {names : List Text}
    (whole : ∀ name ∈ names, givenText (some name) = name.toBytes)
    (fits : (laterNames (names.map Text.toBytes)).length ≤ cursor.room) :
    cursor.enter (laterCalls names) = cursor.write (laterNames (names.map Text.toBytes)) := by
  induction names generalizing cursor with
  | nil => exact (write_nil cursor).symm
  | cons name names ih =>
    obtain ⟨first, others⟩ := List.forall_mem_cons.1 whole
    have parts : laterNames ((name :: names).map Text.toBytes) =
        [0x20] ++ (listedName name.toBytes ++ laterNames (names.map Text.toBytes)) := rfl
    rw [parts] at fits ⊢
    simp only [List.length_append, List.length_singleton] at fits
    have space : (cursor.appendByte 0x20).2 = cursor.write [0x20] := by
      rw [show cursor.appendByte 0x20 = _ from appendByte_counts 0x20 cursor, append_room (by simp; omega)]
      rfl
    have written : ((cursor.write [0x20]).appendQuoted (some name)).2 = cursor.write ([0x20] ++ listedName name.toBytes) := by
      rw [appendQuoted_room (by rw [first, room_write, List.length_singleton]; omega), first, write_write]
    have left : (laterNames (names.map Text.toBytes)).length ≤ (cursor.write ([0x20] ++ listedName name.toBytes)).room := by
      rw [room_write, List.length_append, List.length_singleton]
      omega
    have steps : cursor.enter (laterCalls (name :: names)) =
        ((cursor.appendByte 0x20).2.appendQuoted (some name)).2.enter (laterCalls names) := rfl
    rw [steps, space, written, ih others left, write_write, List.append_assoc]

private theorem enter_names {cursor : Cursor} {names : List Text}
    (whole : ∀ name ∈ names, givenText (some name) = name.toBytes)
    (fits : (namesText (names.map Text.toBytes)).length ≤ cursor.room) :
    cursor.enter (nameCalls names) = cursor.write (namesText (names.map Text.toBytes)) := by
  cases names with
  | nil => exact (write_nil cursor).symm
  | cons name names =>
    obtain ⟨first, others⟩ := List.forall_mem_cons.1 whole
    rw [List.map_cons, namesText_cons] at fits ⊢
    rw [List.length_append] at fits
    have written : (cursor.appendQuoted (some name)).2 = cursor.write (listedName name.toBytes) := by
      rw [appendQuoted_room (by rw [first]; omega), first]
    have steps : cursor.enter (.quoted (some name) :: laterCalls names) =
        (cursor.appendQuoted (some name)).2.enter (laterCalls names) := rfl
    rw [nameCalls_cons, steps, written, enter_later others (by rw [room_write]; omega), write_write]

end Cursor

/-! ## The text of a list -/

private theorem textOf_zeros {bytes : Bytes} (zero : ∀ b ∈ bytes, b = 0) : textOf bytes = [] := by
  cases bytes with
  | nil => rfl
  | cons b rest => exact List.takeWhile_cons_of_neg (by simp [zero b List.mem_cons_self])

/-- A text written at the start of a buffer is what the buffer holds once it is terminated, and already
before when the buffer was zero. -/
theorem Cursor.holds_written {buffer text : Bytes} (visible : ∀ b ∈ text, b ≠ 0) (fits : text.length ≤ buffer.length - 1) :
    let after := (Cursor.mk buffer 0).write text
    after.written = text ∧ textOf after.terminate.buffer = text ∧
      ((∀ b ∈ buffer, b = 0) → textOf after.buffer = text) := by
  intro after
  have stop : after.pos = text.length := Nat.zero_add _
  have held : after.buffer = text ++ buffer.drop text.length := by
    show overwrite buffer 0 text = _
    rw [overwrite_eq _ _ _ (by omega), List.take_zero, List.nil_append, Nat.zero_add]
  have written : after.written = text := Cursor.written_write (show 0 + text.length ≤ buffer.length by omega)
  refine ⟨written, ?_, ?_⟩
  · by_cases capacity : 1 ≤ buffer.length
    · have size : after.buffer.length = buffer.length := length_overwrite ..
      have proper : after.Proper := ⟨by rw [stop, size]; omega, by rwa [written]⟩
      exact proper.terminated.1.trans written
    · have none : buffer = [] := List.eq_nil_of_length_eq_zero (by omega)
      have empty : text = [] := List.eq_nil_of_length_eq_zero (by omega)
      rw [Cursor.terminate, held, none, empty]
      rfl
  · intro zero
    have rest : textOf (buffer.drop text.length) = [] :=
      textOf_zeros (fun b member => zero b (List.mem_of_mem_drop member))
    rw [held, textOf_append visible, rest, List.append_nil]

private theorem listedName_visible {name : Bytes} (visible : ∀ b ∈ name, b ≠ 0) : ∀ b ∈ listedName name, b ≠ 0 := by
  rw [listedName]
  split
  · exact Cursor.quoted_visible visible
  · exact visible

private theorem namesText_visible {names : List Bytes} (listable : ∀ name ∈ names, Listable name) :
    ∀ b ∈ namesText names, b ≠ 0 := by
  cases names with
  | nil => simp [namesText]
  | cons name names =>
    obtain ⟨first, others⟩ := List.forall_mem_cons.1 listable
    intro b member
    rw [namesText_cons, List.mem_append] at member
    rcases member with head | tail
    · exact listedName_visible first.visible b head
    · obtain ⟨next, known, inside⟩ := List.mem_flatMap.1 tail
      rcases List.mem_cons.1 inside with rfl | inside
      · decide
      · exact listedName_visible (others next known).visible b inside

/-- A list of names is read back. Names that are not empty, fit a long buffer and have no NUL or double quote
in them, but spaces anywhere, are written in turn with a space between them into a buffer with room for
them all. Whatever holds the text that is written, reading name by name, each from where the last one
ended, gives the same names in the same order and ends at the end of the text. The bytes before the
cursor hold it, the buffer once it is terminated, and a buffer that was zero as it is. -/
theorem names_read_back (names : List Text) (buffer : Bytes) (listable : ∀ name ∈ names, Listable name.toBytes)
    (fits : (namesText (names.map Text.toBytes)).length ≤ buffer.length - 1) :
    let after := (Cursor.mk buffer 0).enter (Cursor.nameCalls names)
    after.written = namesText (names.map Text.toBytes) ∧
      (∀ list, textOf list = after.written →
        readNames list names.length 0 = (names.map Text.toBytes, textLength list)) ∧
      textOf after.written = after.written ∧ textOf after.terminate.buffer = after.written ∧
      ((∀ b ∈ buffer, b = 0) → textOf after.buffer = after.written) := by
  intro after
  have all : ∀ name ∈ names.map Text.toBytes, Listable name := by simpa using listable
  have visible := namesText_visible all
  have whole : ∀ name ∈ names, givenText (some name) = name.toBytes :=
    fun name member => textOf_self (listable name member).visible
  have run : after = (Cursor.mk buffer 0).write (namesText (names.map Text.toBytes)) := Cursor.enter_names whole fits
  obtain ⟨written, ended, fresh⟩ := Cursor.holds_written visible fits
  rw [run, written]
  refine ⟨rfl, ?_, textOf_self visible, ended, fresh⟩
  intro list same
  have read := readNames_text all same
  rwa [List.length_map, ← same] at read

/-- The theorem at a bare name, a name of spaces only and a name that begins and ends with a space, in a
buffer that they fill. -/
theorem names_read_back_spaces :
    let names : List Text := [.string [0x61, 0xE9], .bytes [0x20, 0x20], .bytes [0x20, 0x62, 0x20], .string [0x63]]
    let buffer : Bytes := List.replicate 17 0xFF
    let after := (Cursor.mk buffer 0).enter (Cursor.nameCalls names)
    (∀ name ∈ names, Listable name.toBytes) ∧ (namesText (names.map Text.toBytes)).length ≤ buffer.length - 1 ∧
      after.written = [0x61, 0xC3, 0xA9, 0x20, 0x22, 0x20, 0x20, 0x22, 0x20, 0x22, 0x20, 0x62, 0x20, 0x22, 0x20, 0x63] ∧
      readNames after.terminate.buffer 4 0 =
        ([[0x61, 0xC3, 0xA9], [0x20, 0x20], [0x20, 0x62, 0x20], [0x63]], 16) := by
  intro names buffer after
  have listable : ∀ name ∈ names, Listable name.toBytes := by decide
  have fits : (namesText (names.map Text.toBytes)).length ≤ buffer.length - 1 := by decide
  obtain ⟨written, read, -, ended, -⟩ := names_read_back names buffer listable fits
  refine ⟨listable, fits, written, (read _ ended).trans ?_⟩
  rw [textLength, ended, written]
  rfl

end BoundedText
