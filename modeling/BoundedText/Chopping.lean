import BoundedText.Characters
import BoundedText.Cursor
import BoundedText.Latin1

/-!
# Cutting texts short

White space is taken off the end of an array, and a text that is too long keeps its first bytes.
-/

namespace BoundedText

/-- Overwrites the white space at the end of the first bytes of an array with NULs and answers how many
bytes are left. A negative number of bytes is left as it is. -/
def trimEnd (bytes : Bytes) (count : Int) : Int × Bytes :=
  if count < 0 then (count, bytes)
  else
    let taken := bytes.take count.toNat
    let blanks := (taken.reverse.takeWhile (fun b => Characters.isWhiteSpace b.toNat)).length
    let kept := taken.length - blanks
    (kept, overwrite bytes kept (List.replicate blanks 0))

/-- A text when it is at most so many bytes long, and otherwise one byte less of it than that, at most
as much as a long buffer holds. -/
def chop (text : Text) (limit : Double) : Bytes :=
  let bytes := textOf text.toBytes
  match limit with
  | .nan => []
  | .infinite negative => if negative then [] else bytes
  | limit =>
    if (limit.floor.getD 0) < bytes.length then
      (copyInto (some (.bytes bytes)) (List.replicate (min (limit.trunc.getD 0).toNat longCapacity) 0)).1
    else bytes

end BoundedText
