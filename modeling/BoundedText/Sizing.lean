import BoundedText.Bytes

/-!
# Sized output

Output whose size is not known before it is made is made twice: its bytes are counted first, and then
put into an array of exactly that size.
-/

namespace BoundedText

/-- Where bytes are put one after another: into an array, or nowhere while they are only counted. -/
structure Sink where
  array : Option Bytes
  pos : Nat
deriving DecidableEq, Repr

namespace Sink

/-- A sink that only counts. -/
def counting : Sink := ⟨none, 0⟩

/-- A sink that fills an array of a size. -/
def filling (size : Nat) : Sink := ⟨some (List.replicate size 0), 0⟩

def put (sink : Sink) (b : UInt8) : Sink := ⟨sink.array.map (overwrite · sink.pos [b]), sink.pos + 1⟩

def putAll (sink : Sink) (bytes : Bytes) : Sink := bytes.foldl put sink

@[simp] theorem pos_put (sink : Sink) (b : UInt8) : (sink.put b).pos = sink.pos + 1 := rfl

theorem putAll_cons (sink : Sink) (b : UInt8) (bytes : Bytes) : sink.putAll (b :: bytes) = (sink.put b).putAll bytes :=
  rfl

theorem pos_putAll (sink : Sink) (bytes : Bytes) : (sink.putAll bytes).pos = sink.pos + bytes.length := by
  induction bytes generalizing sink with
  | nil => rfl
  | cons b bytes ih =>
    rw [putAll_cons, ih, pos_put, List.length_cons]
    omega

/-- Bytes for which there is room take the place of what the array held. -/
theorem array_putAll {sink : Sink} {array bytes : Bytes} (into : sink.array = some array)
    (room : sink.pos + bytes.length ≤ array.length) :
    (sink.putAll bytes).array = some (array.take sink.pos ++ bytes ++ array.drop (sink.pos + bytes.length)) := by
  induction bytes generalizing sink array with
  | nil => simpa [putAll] using into
  | cons b bytes ih =>
    rw [List.length_cons] at room
    have one : sink.pos + [b].length ≤ array.length := by simp only [List.length_singleton]; omega
    have written : (sink.put b).array = some (overwrite array sink.pos [b]) := by simp [put, into]
    have later := ih written (by rw [length_overwrite, pos_put]; omega)
    have size : (array.take sink.pos ++ [b]).length = sink.pos + 1 := by
      simp only [List.length_append, List.length_take, List.length_singleton]
      omega
    rw [overwrite_eq _ _ _ one, pos_put, List.take_left' size, ← List.drop_drop, List.drop_left' size] at later
    rw [putAll_cons, later, List.drop_drop]
    simp [Nat.add_assoc, Nat.add_comm 1]

end Sink

/-- The array that bytes fill, of the size that was counted for them. -/
def sized (bytes : Bytes) : Bytes :=
  ((Sink.filling (Sink.counting.putAll bytes).pos).putAll bytes).array.getD []

/-- Counting and filling agree: no byte is left over and none is missing. -/
theorem sized_eq (bytes : Bytes) : sized bytes = bytes := by
  have count : (Sink.counting.putAll bytes).pos = bytes.length := by simp [Sink.pos_putAll, Sink.counting]
  have filled := @Sink.array_putAll (Sink.filling bytes.length) _ bytes rfl (by simp [Sink.filling])
  rw [sized, count, filled]
  simp [Sink.filling]

end BoundedText
