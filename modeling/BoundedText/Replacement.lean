import BoundedText.Cursor

/-!
# Replacing parts of a text

Every occurrence of a part is replaced, from the left and without overlap. The result is written to a
long buffer and cut at its capacity.
-/

namespace BoundedText

/-- The offset of the first occurrence of a part in an array. -/
def indexOf (part : Bytes) : Bytes → Option Nat
  | [] => if part.isEmpty then some 0 else none
  | b :: rest => if part.isPrefixOf (b :: rest) then some 0 else (indexOf part rest).map (1 + ·)

theorem indexOf_le {part rest : Bytes} {place : Nat} (found : indexOf part rest = some place) :
    place + part.length ≤ rest.length := by
  fun_induction indexOf part rest generalizing place with
  | case1 empty => cases found; simp [List.isEmpty_iff.1 empty]
  | case2 => simp at found
  | case3 b rest here =>
    cases found
    have front := List.isPrefixOf_iff_prefix.1 here
    simpa using front.length_le
  | case4 b rest _ ih =>
    obtain ⟨inner, deeper, rfl⟩ := Option.map_eq_some_iff.1 found
    have := ih deeper
    simp only [List.length_cons]
    omega

/-- Writes an array with every occurrence of a part replaced: what lies before the next occurrence and then the
new text, and after the last one what is left. -/
def replaceFrom (part : Bytes) (_some : part ≠ []) (new : Option Text) (rest : Bytes) (cursor : Cursor) : Cursor :=
  if rest = [] then cursor
  else
    match _found : indexOf part rest with
    | none => (cursor.appendBytes (some (.bytes rest)) rest.length).2
    | some place =>
      let copied := (cursor.appendBytes (some (.bytes rest)) place).2
      replaceFrom part _some new (rest.drop (place + part.length)) (copied.appendText new).2
termination_by rest.length
decreasing_by
  have := List.length_pos_iff.2 _some
  have := indexOf_le _found
  simp only [List.length_drop]
  omega

/-- A text with every occurrence of a part replaced, by nothing when no new text is given. A part that is empty
occurs nowhere. -/
def replace (part : Text) (new : Option Text) (text : Text) : Bytes :=
  let cursor := Cursor.ofCapacity longCapacity
  if empty : textOf part.toBytes = [] then (cursor.appendText (some (.bytes text.toBytes))).2.written
  else
    (replaceFrom (textOf part.toBytes) empty (new.map fun new => .bytes new.toBytes) (textOf text.toBytes)
      cursor).written

/-- The strings that list commands replace by an item and by its place in the list. -/
def standardTokens : String × String := ("##", "#@")

/-- A part and what takes its place. -/
structure Rule where
  part : Bytes
  new : Option Text

/-- Whether a rule applies at the head of an array. -/
def Rule.applies (rule : Rule) (rest : Bytes) : Bool := !rule.part.isEmpty && rule.part.isPrefixOf rest

/-- Writes an array with two rules applied in one pass, byte by byte where neither applies. Where both apply the
first one does. -/
def replace2From (first second : Rule) (rest : Bytes) (cursor : Cursor) : Cursor :=
  match rest with
  | [] => cursor
  | b :: more =>
    if _applies : first.applies (b :: more) then
      replace2From first second ((b :: more).drop first.part.length) (cursor.appendText first.new).2
    else if _applies : second.applies (b :: more) then
      replace2From first second ((b :: more).drop second.part.length) (cursor.appendText second.new).2
    else replace2From first second more (cursor.appendByte b.toNat).2
termination_by rest.length
decreasing_by
  all_goals simp only [Rule.applies, Bool.and_eq_true, Bool.not_eq_true', List.isEmpty_eq_false_iff] at _applies
  all_goals simp only [List.length_drop, List.length_cons]
  · have := List.length_pos_iff.2 _applies.1
    omega
  · have := List.length_pos_iff.2 _applies.1
    omega
  · omega

/-- A text with the occurrences of two parts replaced in one pass. -/
def replace2 (parts : Text × Text) (news : Option Text × Option Text) (text : Text) : Bytes :=
  let first : Rule := ⟨textOf parts.1.toBytes, news.1⟩
  let second : Rule := ⟨textOf parts.2.toBytes, news.2⟩
  (replace2From first second (textOf text.toBytes) (Cursor.ofCapacity longCapacity)).written

end BoundedText
