import BoundedText.Cursor

/-!
# Lists of names

Names are separated by spaces; one in double quotes may have spaces in it. A quote ends a name also
where no quote began one.
-/

namespace BoundedText

/-- Pieces written to a long buffer, as far as they fit. -/
def longText (pieces : List Bytes) : Bytes := ((Cursor.ofCapacity longCapacity).appendAll pieces).written

/-- A name and the offset just past it and its closing quote. -/
structure ListedName where
  name : Bytes
  next : Nat
deriving DecidableEq, Repr

/-- The bytes at the head of a text that belong to a name. -/
def nameAt (inQuotes : Bool) (rest : Bytes) : Bytes :=
  rest.takeWhile (fun b => b != 0x22 && (inQuotes || b != 0x20))

/-- Reads the next name of a list from an offset on, as much of it as a long buffer holds. -/
def nextName (list : Bytes) (start : Nat) : ListedName :=
  let rest := (textOf list).drop start
  let spaces := (rest.takeWhile (· == 0x20)).length
  let rest := rest.drop spaces
  let inQuotes := rest.head? == some 0x22
  let opening := if inQuotes then 1 else 0
  let rest := rest.drop opening
  let name := nameAt inQuotes rest
  let closing := if inQuotes && name.length < rest.length then 1 else 0
  ⟨longText [name], start + spaces + opening + name.length + closing⟩

end BoundedText
