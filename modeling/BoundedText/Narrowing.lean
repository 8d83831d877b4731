import BoundedText.Sizing
import BoundedText.Utf8

/-!
# Narrowing UTF-8 to Latin-1, and the shape of UTF-8

Narrowing keeps the code points up to U+00FF and writes a question mark for every other one and for
every malformed sequence. The shape of a text is right when every lead byte is followed by as many
continuation bytes as it announces; the numbers that are encoded are not looked at.
-/

namespace BoundedText

def questionMark : UInt8 := 0x3F

/-- The bytes that lead two, three and four bytes. -/
def leadsTwo (b : UInt8) : Bool := 0xC0 ≤ b && b ≤ 0xDF
def leadsThree (b : UInt8) : Bool := 0xE0 ≤ b && b ≤ 0xEF
def leadsFour (b : UInt8) : Bool := 0xF0 ≤ b && b ≤ 0xF7

/-- The character of two bytes, when it is a Latin-1 one. -/
def narrowPair (lead : UInt8) (trails : Bytes) : UInt8 :=
  match trails with
  | b :: _ => if lead &&& 0x1F ≤ 3 then ((lead &&& 3) <<< 6) ||| (b &&& 0x3F) else questionMark
  | [] => questionMark

/-- The Latin-1 bytes of a text, one after another. -/
def narrowed (utf8 : Bytes) : Bytes :=
  match utf8 with
  | [] => []
  | b :: rest =>
    if b = 0 then []
    else if b < 0x80 then b :: narrowed rest
    else if leadsTwo b then
      let trails := Utf8.continuations 1 rest
      narrowPair b trails :: narrowed (rest.drop trails.length)
    else if leadsThree b then questionMark :: narrowed (rest.drop (Utf8.continuations 2 rest).length)
    else if leadsFour b then questionMark :: narrowed (rest.drop (Utf8.continuations 3 rest).length)
    else questionMark :: narrowed rest
termination_by utf8.length
decreasing_by all_goals simp only [List.length_cons, List.length_drop]; omega

/-- The Latin-1 array of a text, sized by counting. -/
def narrow (utf8 : Bytes) : Bytes := sized (narrowed utf8)

/-- Whether a text has the shape of UTF-8 when so many continuation bytes are still to come. -/
def wellShaped : Nat → Bytes → Bool
  | pending, [] => pending == 0
  | pending, b :: rest =>
    if b = 0 then pending == 0
    else if Utf8.isContinuation b then pending != 0 && wellShaped (pending - 1) rest
    else if pending ≠ 0 then false
    else if b < 0x80 then wellShaped 0 rest
    else if leadsTwo b then wellShaped 1 rest
    else if leadsThree b then wellShaped 2 rest
    else if leadsFour b then wellShaped 3 rest
    else false

/-- Whether a text has the shape of UTF-8. -/
def hasUtf8Shape (bytes : Bytes) : Bool := wellShaped 0 bytes

end BoundedText
