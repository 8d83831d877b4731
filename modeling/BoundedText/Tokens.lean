import BoundedText.ControlSpans
import BoundedText.Text
import BoundedText.Units

/-!
# Tokens

A separator cuts a text into tokens, in any unit. A separator inside a control span cuts nothing.
Spaces that follow a space that cuts belong to the same cut; any other separator cuts each time it
occurs. Splitting writes a NUL over the first byte of the separator that ends a token.
-/

namespace BoundedText

/-- The number of bytes from the head of a text to the separator that ends its first token. -/
def separatorAt (unit : TextUnit) (separator : Int) (rest : Bytes) : Option Nat :=
  if _ended : unit.length rest = 0 then none
  else if unit.value rest = separator then some 0
  else
    let step := if Characters.isSpanStart (unit.value rest) then spanLength rest else unit.length rest
    (separatorAt unit separator (rest.drop step)).map (step + ·)
termination_by rest.length
decreasing_by
  have := unit.length_le rest
  have := spanLength_pos rest
  simp only [List.length_drop]
  split <;> omega

/-- The number of bytes of the spaces at the head of a text. -/
def spaceRun (unit : TextUnit) (rest : Bytes) : Nat :=
  if _ended : unit.length rest = 0 then 0
  else if unit.value rest = Characters.space then
    unit.length rest + spaceRun unit (rest.drop (unit.length rest))
  else 0
termination_by rest.length
decreasing_by
  have := unit.length_le rest
  simp only [List.length_drop]
  omega

/-- The number of bytes at the head of a text that still belong to the separator before it. -/
def separatorRun (unit : TextUnit) (separator : Int) (rest : Bytes) : Nat :=
  if separator = Characters.space then spaceRun unit rest else 0

/-- The number of bytes from the head of a text to its second token. -/
def nextTokenAt (unit : TextUnit) (separator : Int) (rest : Bytes) : Option Nat :=
  match separatorAt unit separator rest with
  | none => none
  | some place =>
    let next := place + unit.length (rest.drop place)
    some (next + separatorRun unit separator (rest.drop next))

/-- A separator that is found is a unit of the text. -/
theorem separatorAt_unit {unit : TextUnit} {separator : Int} {rest : Bytes} {place : Nat}
    (found : separatorAt unit separator rest = some place) : 0 < unit.length (rest.drop place) := by
  fun_induction separatorAt unit separator rest generalizing place with
  | case1 => simp at found
  | case2 => rename_i more _; simp at found; subst found; simpa using Nat.pos_of_ne_zero more
  | case3 =>
    rename_i ih
    obtain ⟨inner, deeper, rfl⟩ := Option.map_eq_some_iff.1 found
    simpa [List.drop_drop] using ih deeper

/-- The next token begins further on. -/
theorem nextTokenAt_pos {unit : TextUnit} {separator : Int} {rest : Bytes} {next : Nat}
    (found : nextTokenAt unit separator rest = some next) : 0 < next ∧ 0 < rest.length := by
  unfold nextTokenAt at found
  split at found
  · simp at found
  · rename_i place cut
    have positive := separatorAt_unit cut
    have within := unit.length_le (rest.drop place)
    simp only [List.length_drop] at within
    cases found
    omega

/-- The number of tokens of a text that is not empty. -/
def tokensFrom (unit : TextUnit) (separator : Int) (rest : Bytes) : Nat :=
  match _found : nextTokenAt unit separator rest with
  | none => 1
  | some next => 1 + tokensFrom unit separator (rest.drop next)
termination_by rest.length
decreasing_by
  have := nextTokenAt_pos _found
  simp only [List.length_drop]
  omega

/-- The number of tokens of a text; an empty one has none. -/
def countTokens (unit : TextUnit) (separator : Int) (bytes : Bytes) : Nat :=
  if textLength bytes = 0 then 0 else tokensFrom unit separator bytes

/-- The offset of the separator that ends the token at an offset. -/
def findSeparator (unit : TextUnit) (separator : Int) (bytes : Bytes) (start : Nat) : Option Nat :=
  (separatorAt unit separator (bytes.drop start)).map (start + ·)

/-- The offset of the token after the one at an offset. -/
def findNextToken (unit : TextUnit) (separator : Int) (bytes : Bytes) (start : Nat) : Option Nat :=
  (nextTokenAt unit separator (bytes.drop start)).map (start + ·)

/-- The offset past the separators at an offset, when they run together. -/
def skipSeparators (unit : TextUnit) (separator : Int) (bytes : Bytes) (start : Nat) : Nat :=
  start + separatorRun unit separator (bytes.drop start)

/-- An array that is being split, and the offset of its next token until there is none. -/
structure TokenCursor where
  bytes : Bytes
  pos : Option Nat
deriving DecidableEq, Repr

namespace TokenCursor

/-- A cursor at the first token of a text; a text that is not given has no token. -/
def ofText : Option Text → TokenCursor
  | none => ⟨[], none⟩
  | some text => ⟨text.toBytes, some 0⟩

/-- The token at the cursor, and the cursor at the token after it. -/
def split (unit : TextUnit) (separator : Int) (cursor : TokenCursor) : Option Bytes × TokenCursor :=
  match cursor.pos with
  | none => (none, cursor)
  | some start =>
    match findSeparator unit separator cursor.bytes start with
    | none => (some (slice cursor.bytes start (textEnd cursor.bytes start)), { cursor with pos := none })
    | some place =>
      let next := place + unit.length (cursor.bytes.drop place)
      let cut := overwrite cursor.bytes place [0]
      (some (slice cut start place), ⟨cut, some (skipSeparators unit separator cut next)⟩)

/-- How much of the array may still hold tokens. -/
def ahead (cursor : TokenCursor) : Nat :=
  match cursor.pos with
  | none => 0
  | some start => cursor.bytes.length - start + 1

theorem ahead_split {unit : TextUnit} {separator : Int} {cursor : TokenCursor} {token : Bytes}
    (found : (cursor.split unit separator).1 = some token) :
    (cursor.split unit separator).2.ahead < cursor.ahead := by
  unfold split at found ⊢
  split
  · rename_i used; simp [used] at found
  · rename_i start place_of
    cases cut : findSeparator unit separator cursor.bytes start with
    | none => simp [ahead, place_of]
    | some place =>
      obtain ⟨inner, separated, rfl⟩ := Option.map_eq_some_iff.1 cut
      have positive := separatorAt_unit separated
      have within := unit.length_le ((cursor.bytes.drop start).drop inner)
      simp only [List.drop_drop, List.length_drop] at positive within
      simp only [ahead, place_of, length_overwrite, skipSeparators]
      omega

/-- All tokens from the cursor on, and the array with every cut made. -/
def splitAll (unit : TextUnit) (separator : Int) (cursor : TokenCursor) : List Bytes × Bytes :=
  match _found : (cursor.split unit separator).1 with
  | none => ([], cursor.bytes)
  | some token =>
    let (tokens, bytes) := splitAll unit separator (cursor.split unit separator).2
    (token :: tokens, bytes)
termination_by cursor.ahead
decreasing_by exact ahead_split _found

end TokenCursor

/-- Trims the spaces at both ends of a text when the separator is a space, and writes a NUL after what
is kept. Answers the text that is left and the array. -/
def trimSpaces (bytes : Bytes) (separator : Int) : Bytes × Bytes :=
  let text := textOf bytes
  if separator ≠ Characters.space then (text, bytes)
  else
    let start := (text.takeWhile (· == 0x20)).length
    let kept := ((text.drop start).reverse.dropWhile (· == 0x20)).reverse
    (kept, overwrite bytes (start + kept.length) [0])

end BoundedText
