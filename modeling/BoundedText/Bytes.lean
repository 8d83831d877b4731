/-!
# Byte arrays and the text in them

A byte array holds a text that ends at its first NUL, or at the end of the array when it has none.
Every reader of the library stops there. Writing replaces bytes in place and never changes the size
of an array.
-/

namespace BoundedText

abbrev Bytes := List UInt8

/-- The bytes before the first NUL. -/
def textOf (bytes : Bytes) : Bytes := bytes.takeWhile (· != 0)

/-- The number of bytes before the first NUL. -/
def textLength (bytes : Bytes) : Nat := (textOf bytes).length

/-- The offset of the first NUL at or after `start`, or the size of the array when there is none. -/
def textEnd (bytes : Bytes) (start : Nat) : Nat := min start bytes.length + textLength (bytes.drop start)

/-- The byte of an integer, which counts modulo 256. -/
def byteOf (value : Int) : UInt8 := UInt8.ofNat (value % 256).toNat

/-- The array with `bytes` written at an offset; what would fall past the end is not written. -/
def overwrite : Bytes → Nat → Bytes → Bytes
  | array, _, [] => array
  | [], _, _ :: _ => []
  | _ :: rest, 0, b :: bytes => b :: overwrite rest 0 bytes
  | x :: rest, offset + 1, b :: bytes => x :: overwrite rest offset (b :: bytes)

/-- The bytes of an array from one offset up to another. -/
def slice (bytes : Bytes) (start stop : Nat) : Bytes := (bytes.take stop).drop start

theorem textLength_le (bytes : Bytes) : textLength bytes ≤ bytes.length :=
  (List.takeWhile_sublist _).length_le

theorem length_overwrite (array : Bytes) (offset : Nat) (bytes : Bytes) :
    (overwrite array offset bytes).length = array.length := by
  fun_induction overwrite array offset bytes <;> simp_all

/-- Bytes that fit take the place of as many bytes of the array. -/
theorem overwrite_eq (array : Bytes) (offset : Nat) (bytes : Bytes) (fits : offset + bytes.length ≤ array.length) :
    overwrite array offset bytes = array.take offset ++ bytes ++ array.drop (offset + bytes.length) := by
  fun_induction overwrite array offset bytes with
  | case1 array offset => simp
  | case2 offset b bytes => simp at fits
  | case3 x rest b bytes ih => simp at fits ih ⊢; simpa using ih (by omega)
  | case4 x rest offset b bytes ih =>
    have inner := ih (by simp at fits ⊢; omega)
    rw [inner, show offset + 1 + (b :: bytes).length = (offset + (b :: bytes).length) + 1 by omega]
    simp

/-- Bytes that reach the end of the array take the place of all that follows the offset. -/
theorem overwrite_to_end (array : Bytes) (offset : Nat) (bytes : Bytes) (past : array.length ≤ offset + bytes.length) :
    overwrite array offset bytes = array.take offset ++ bytes.take (array.length - offset) := by
  fun_induction overwrite array offset bytes with
  | case1 array offset => simpa using (List.take_of_length_le past).symm
  | case2 offset b bytes => simp
  | case3 x rest b bytes ih => simpa using ih (by simp at past ⊢; omega)
  | case4 x rest offset b bytes ih => simpa using ih (by simp at past ⊢; omega)

/-- What lies before the offset is left as it is. -/
theorem take_overwrite_before (array : Bytes) (offset : Nat) (bytes : Bytes) :
    (overwrite array offset bytes).take offset = array.take offset := by
  fun_induction overwrite array offset bytes with
  | case1 array offset => rfl
  | case2 offset b bytes => rfl
  | case3 x rest b bytes ih => rfl
  | case4 x rest offset b bytes ih => rw [List.take_succ_cons, List.take_succ_cons, ih]

theorem take_overwrite (array : Bytes) (offset : Nat) (bytes : Bytes) (fits : offset + bytes.length ≤ array.length) :
    (overwrite array offset bytes).take (offset + bytes.length) = array.take offset ++ bytes := by
  rw [overwrite_eq _ _ _ fits]
  exact List.take_left' (by simp; omega)

/-- What lies after the bytes written is left as it is. -/
theorem drop_overwrite (array : Bytes) (offset : Nat) (bytes : Bytes) (fits : offset + bytes.length ≤ array.length) :
    (overwrite array offset bytes).drop (offset + bytes.length) = array.drop (offset + bytes.length) := by
  rw [overwrite_eq _ _ _ fits]
  exact List.drop_left' (by simp; omega)

/-- Writing twice in a row is writing once. -/
theorem overwrite_overwrite (array : Bytes) (offset : Nat) (first second : Bytes) :
    overwrite (overwrite array offset first) (offset + first.length) second =
      overwrite array offset (first ++ second) := by
  fun_induction overwrite array offset first with
  | case1 array offset => simp
  | case2 offset b first => cases second <;> simp [overwrite]
  | case3 x rest b first ih =>
    cases second with
    | nil => simp [overwrite]
    | cons c second => simpa [overwrite, Nat.add_comm] using ih
  | case4 x rest offset b first ih =>
    cases second with
    | nil => simp [overwrite]
    | cons c second =>
      rw [show offset + 1 + (b :: first).length = offset + (b :: first).length + 1 by omega]
      simpa [overwrite] using ih

theorem slice_self (bytes : Bytes) (place : Nat) : slice bytes place place = [] :=
  List.drop_eq_nil_of_le (List.length_take_le ..)

theorem length_slice {bytes : Bytes} {start stop : Nat} (inside : stop ≤ bytes.length) :
    (slice bytes start stop).length = stop - start := by
  rw [slice, List.length_drop, List.length_take_of_le inside]

/-- Bytes up to a place and bytes from there on are one run of bytes. -/
theorem slice_append_slice (bytes : Bytes) {start place stop : Nat} (before : start ≤ place) (after : place ≤ stop) :
    slice bytes start place ++ slice bytes place stop = slice bytes start stop := by
  have front : slice bytes start place = (slice bytes start stop).take (place - start) := by
    rw [slice, slice, List.take_drop, Nat.add_sub_cancel' before, List.take_take, Nat.min_eq_left after]
  have back : slice bytes place stop = (slice bytes start stop).drop (place - start) := by
    rw [slice, slice, List.drop_drop, Nat.add_sub_cancel' before]
  rw [front, back, List.take_append_drop]

end BoundedText
