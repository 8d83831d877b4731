import BoundedText.ControlSpans
import BoundedText.Cursor

/-!
# Padding

Padding widens the text of a buffer to a number of visible characters; control spans take up room but
are not seen.
-/

namespace BoundedText

/-- Pads the text of a buffer with a byte until it has so many visible characters, as far as the
buffer goes, and ends it with a NUL. Answers 1 when the padding was cut short, or when the text has
no NUL to begin at. -/
def padTo (ch width : Int) (buffer : Bytes) : Nat × Bytes :=
  let width := min width (buffer.length - 1)
  let visible := visibleLength buffer
  if width ≤ visible then (0, buffer)
  else
    let stop := textLength buffer
    if buffer.length ≤ stop then (1, buffer)
    else
      let (left, after) := (Cursor.mk buffer stop).appendFill ch (width - visible)
      (left, after.terminate.buffer)

end BoundedText
