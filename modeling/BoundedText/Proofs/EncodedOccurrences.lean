import BoundedText.Proofs.LeftmostReplacement
import BoundedText.Proofs.Tiling
import Mathlib.Order.Bounds.Basic

/-!
# Occurrences of encodings

The first byte of an encoding continues no sequence and every other byte of it does; so encodings occur among
encodings only where their code points occur among the code points (`occursAt_encodeAll`). Seeking a code point,
which looks at the code points of a text only, therefore comes to where its encoding is found first
(`seek_finds_encoding`), and replacing bytes, which knows of no code points, replaces the code points that the
bytes encode (`replace_keeps_codepoints`).
-/

namespace BoundedText
open Utf8

section occurrences
variable {part codepoints : List Nat}

/-! ## Encodings among encodings -/

/-- What begins with the encodings of two code points tells them apart, and what comes after. -/
theorem encode_append_inj {c d : Nat} (known : IsScalar c ∧ c ≠ 0) (known' : IsScalar d ∧ d ≠ 0) {rest rest' : Bytes}
    (same : encode c ++ rest = encode d ++ rest') : c = d ∧ rest = rest' := by
  have found := decode_encode known.1 known.2 rest
  rw [same, decode_encode known'.1 known'.2 rest'] at found
  obtain rfl : d = c := congrArg Decoded.codepoint (Option.some.inj found)
  exact ⟨rfl, List.append_cancel_left same⟩

theorem prefix_encodeAll (known : ∀ c ∈ part, IsScalar c ∧ c ≠ 0) (scalars : ∀ c ∈ codepoints, IsScalar c ∧ c ≠ 0) :
    encodeAll part <+: encodeAll codepoints ↔ part <+: codepoints := by
  constructor
  · intro begins
    induction part generalizing codepoints with
    | nil => exact List.nil_prefix
    | cons c part ih =>
      obtain ⟨first, others⟩ := List.forall_mem_cons.1 known
      obtain ⟨rest, whole⟩ := begins
      rw [encodeAll_cons, List.append_assoc] at whole
      cases codepoints with
      | nil => exact absurd (List.append_eq_nil_iff.1 whole).1 (encode_ne_nil first.1.1)
      | cons d codepoints =>
        obtain ⟨first', others'⟩ := List.forall_mem_cons.1 scalars
        obtain ⟨rfl, later⟩ := encode_append_inj first first' whole
        exact List.cons_prefix_cons.2 ⟨rfl, ih others others' ⟨rest, later⟩⟩
  · rintro ⟨rest, rfl⟩
    rw [encodeAll_append]
    exact List.prefix_append _ _

/-- No encoding begins with a byte that continues a sequence. -/
theorem encode_leads {c : Nat} (known : IsScalar c ∧ c ≠ 0) (rest : Bytes) : ¬ ContinuesAt (encode c ++ rest) 0 := by
  intro continues
  have found := decode_encode known.1 known.2 rest
  obtain ⟨b, here, trail⟩ := continuesAt_iff.1 continues
  obtain ⟨later, whole⟩ := List.getElem?_eq_some_iff.1 here
  cases shape : encode c ++ rest with
  | nil => simp [shape] at here
  | cons a tail =>
    rw [shape] at found here
    obtain rfl : a = b := by simpa using here
    rw [decode_stray trail] at found
    -- A byte that continues a sequence stands for U+FFFD by itself, which is encoded with three bytes.
    obtain ⟨value, size⟩ := Decoded.mk.inj (Option.some.inj found)
    rw [← value] at size
    exact absurd size (by decide)

private theorem encode_continues {c : Nat} (known : IsScalar c ∧ c ≠ 0) (rest : Bytes) {i : Nat} (later : 0 < i)
    (inside : i < (encode c).length) : ContinuesAt (encode c ++ rest) i :=
  decode_continues (decode_encode known.1 known.2 rest) later (by rwa [length_encode known.1.1] at inside)

/-- Encodings occur among encodings where their code points occur, and nowhere else. -/
theorem occursAt_encodeAll (known : ∀ c ∈ part, IsScalar c ∧ c ≠ 0) (nonempty : part ≠ [])
    (scalars : ∀ c ∈ codepoints, IsScalar c ∧ c ≠ 0) {place : Nat} :
    OccursAt (encodeAll part) (encodeAll codepoints) place ↔
      ∃ i, OccursAt part codepoints i ∧ place = (encodeAll (codepoints.take i)).length := by
  obtain ⟨p, others, rfl⟩ := List.exists_cons_of_ne_nil nonempty
  obtain ⟨first, -⟩ := List.forall_mem_cons.1 known
  have leads {bytes : Bytes} {place : Nat} (here : OccursAt (encodeAll (p :: others)) bytes place) :
      ¬ ContinuesAt bytes place := by
    obtain ⟨rest, whole⟩ := here
    have lead := encode_leads first (encodeAll others ++ rest)
    rw [← List.append_assoc, ← encodeAll_cons, whole] at lead
    rwa [continuesAt_drop] at lead
  induction codepoints generalizing place with
  | nil =>
    constructor
    · intro here
      have short := here.length_le (List.append_ne_nil_of_left_ne_nil (encode_ne_nil first.1.1) _)
      have some := List.length_pos_iff.2 (encode_ne_nil first.1.1)
      rw [encodeAll_cons, List.length_append, show encodeAll [] = [] from rfl, List.length_nil] at short
      omega
    · rintro ⟨i, here, -⟩
      exact absurd (here.length_le nonempty) (by rw [List.length_cons, List.length_nil]; omega)
  | cons c codepoints ih =>
    obtain ⟨head, tail⟩ := List.forall_mem_cons.1 scalars
    rw [encodeAll_cons c]
    constructor
    · intro here
      by_cases inside : place < (encode c).length
      · have start : place = 0 := by
          by_contra later
          exact leads here (encode_continues head _ (Nat.pos_of_ne_zero later) inside)
        subst start
        refine ⟨0, (prefix_encodeAll known scalars).1 ?_, rfl⟩
        rwa [encodeAll_cons c]
      · obtain ⟨j, rfl⟩ : ∃ j, place = (encode c).length + j := ⟨place - (encode c).length, by omega⟩
        rw [occursAt_add, List.drop_left] at here
        obtain ⟨i, there, rfl⟩ := (ih tail).1 here
        refine ⟨i + 1, there, ?_⟩
        rw [List.take_succ_cons, encodeAll_cons, List.length_append]
    · rintro ⟨i, here, rfl⟩
      cases i with
      | zero =>
        have begins := (prefix_encodeAll known scalars).2 here
        rwa [encodeAll_cons c] at begins
      | succ i =>
        rw [List.take_succ_cons, encodeAll_cons c, List.length_append, occursAt_add, List.drop_left]
        exact (ih tail).2 ⟨i, here, rfl⟩

private theorem length_encodeAll_take {i j : Nat} (le : i ≤ j) (codepoints : List Nat) :
    (encodeAll (codepoints.take i)).length ≤ (encodeAll (codepoints.take j)).length := by
  obtain ⟨more, whole⟩ : codepoints.take i <+: codepoints.take j := List.take_prefix_take_left le
  rw [← whole, encodeAll_append, List.length_append]
  exact Nat.le_add_right ..

/-! ## The text of an array -/

/-- The code points of an array are those of its text. -/
theorem codepointsOf_textOf (bytes : Bytes) : codepointsOf (textOf bytes) = codepointsOf bytes := by
  rw [codepointsOf, codepointsOf, walk, walk, List.drop_zero, List.drop_zero, stepsFrom_textOf]

theorem codepointsOf_encoded {bytes : Bytes} (scalars : ∀ c ∈ codepoints, IsScalar c ∧ c ≠ 0)
    (text : textOf bytes = encodeAll codepoints) : codepointsOf bytes = codepoints := by
  rw [← codepointsOf_textOf, text, codepointsOf_encodeAll scalars]

end occurrences

/-! ## Seeking a code point -/

section seeking
variable {codepoints : List Nat} {rest : Bytes}

private theorem seekFrom_end (ended : decode rest = none) (c : Int) : seekFrom c rest = 0 := by
  rw [seekFrom]
  split
  · rfl
  · rename_i found
    rw [ended] at found
    cases found

private theorem seekFrom_next {d : Decoded} (found : decode rest = some d) (c : Int) :
    seekFrom c rest = if d.codepoint = c then 0 else d.length + seekFrom c (rest.drop d.length) := by
  rw [seekFrom]
  split
  · rename_i ended
    rw [found] at ended
    cases ended
  · rename_i other
    rw [found] at other
    cases other
    rfl

/-- Seeking passes the encodings of other code points. -/
theorem seekFrom_passes (scalars : ∀ d ∈ codepoints, IsScalar d ∧ d ≠ 0) {c : Nat} (absent : c ∉ codepoints)
    (rest : Bytes) : seekFrom c (encodeAll codepoints ++ rest) = (encodeAll codepoints).length + seekFrom c rest := by
  induction codepoints with
  | nil => exact (Nat.zero_add _).symm
  | cons d codepoints ih =>
    obtain ⟨first, others⟩ := List.forall_mem_cons.1 scalars
    obtain ⟨other, later⟩ := not_or.1 (mt List.mem_cons.2 absent)
    have differs : ¬ (d : Int) = c := fun same => other (Int.ofNat_inj.1 same).symm
    rw [encodeAll_cons, List.append_assoc, seekFrom_next (decode_encode first.1 first.2 _), if_neg differs,
      ← length_encode first.1.1, List.drop_left, ih others later, List.length_append, Nat.add_assoc]

private theorem seekFrom_here {c : Nat} (known : IsScalar c ∧ c ≠ 0) (rest : Bytes) :
    seekFrom c (encode c ++ rest) = 0 := by
  rw [seekFrom_next (decode_encode known.1 known.2 rest), if_pos rfl]

private theorem occursAt_encode {c : Nat} (known : IsScalar c ∧ c ≠ 0) (scalars : ∀ d ∈ codepoints, IsScalar d ∧ d ≠ 0)
    {place : Nat} :
    OccursAt (encode c) (encodeAll codepoints) place ↔
      ∃ i, OccursAt [c] codepoints i ∧ place = (encodeAll (codepoints.take i)).length := by
  have single : ∀ d ∈ [c], IsScalar d ∧ d ≠ 0 := fun d member => List.mem_singleton.1 member ▸ known
  have alone : encodeAll [c] = encode c := List.flatMap_singleton ..
  rw [← alone]
  exact occursAt_encodeAll single (List.cons_ne_nil c []) scalars

section first
variable {c : Nat} {before after : List Nat}

/-- The encoding of a code point is found first where seeking stops, at the first such code point. -/
theorem isLeast_encode (scalars : ∀ d ∈ before ++ c :: after, IsScalar d ∧ d ≠ 0) (absent : c ∉ before) :
    IsLeast {place | OccursAt (encode c) (encodeAll (before ++ c :: after)) place} (encodeAll before).length := by
  have known : IsScalar c ∧ c ≠ 0 := scalars c (List.mem_append_right _ List.mem_cons_self)
  have upTo : (before ++ c :: after).take before.length = before := List.take_left
  constructor
  · have here : OccursAt [c] (before ++ c :: after) before.length := by
      have among := occursAt_length before [c] after
      rwa [List.append_assoc, List.singleton_append] at among
    exact (occursAt_encode known scalars).2 ⟨before.length, here, by rw [upTo]⟩
  · rintro place here
    obtain ⟨i, there, rfl⟩ := (occursAt_encode known scalars).1 here
    have past : before.length ≤ i := by
      by_contra earlier
      have inside : OccursAt [c] before i := there.of_append (by rw [List.length_singleton]; omega)
      exact absent (inside.mem List.mem_cons_self)
    have longer := length_encodeAll_take past (before ++ c :: after)
    rwa [upTo] at longer

private theorem seekFrom_first (scalars : ∀ d ∈ before ++ c :: after, IsScalar d ∧ d ≠ 0) (absent : c ∉ before)
    (rest : Bytes) :
    seekFrom c (encodeAll (before ++ c :: after) ++ rest) = (encodeAll before).length := by
  have known : IsScalar c ∧ c ≠ 0 := scalars c (List.mem_append_right _ List.mem_cons_self)
  have others : ∀ d ∈ before, IsScalar d ∧ d ≠ 0 := fun d member => scalars d (List.mem_append_left _ member)
  rw [encodeAll_append, encodeAll_cons, List.append_assoc, List.append_assoc, seekFrom_passes others absent,
    seekFrom_here known, Nat.add_zero]

end first

/-! ## Boundaries -/

/-- An offset at which a code point of a text begins, or at which the text ends. -/
def IsBoundary (bytes : Bytes) (offset : Nat) : Prop :=
  (∃ step ∈ walk bytes 0, step.offset = offset) ∨ offset = textLength bytes

/-- An array is its encoded text and what comes from the end of the text on. -/
theorem encodeAll_append_drop {bytes : Bytes} (text : textOf bytes = encodeAll codepoints) :
    encodeAll codepoints ++ bytes.drop (textLength bytes) = bytes := by
  rw [← text, textOf_append_drop]

/-- The boundaries of an encoded text lie between encodings. -/
theorem IsBoundary.encoded {bytes : Bytes} {offset : Nat} (boundary : IsBoundary bytes offset)
    (scalars : ∀ c ∈ codepoints, IsScalar c ∧ c ≠ 0) (text : textOf bytes = encodeAll codepoints) :
    ∃ front back, codepoints = front ++ back ∧ offset = (encodeAll front).length := by
  have inside : ∀ c ∈ codepoints, c ≤ maxCodepoint := fun c member => (scalars c member).1.1
  rcases boundary with ⟨step, taken, rfl⟩ | rfl
  · rw [← encodeAll_append_drop text, walk, List.drop_zero, stepsFrom_encodeAll scalars, stepsFrom_end (decode_textLength bytes),
      List.append_nil] at taken
    obtain ⟨i, within, rfl⟩ := List.mem_mapIdx.1 taken
    refine ⟨codepoints.take i, codepoints.drop i, (List.take_append_drop i codepoints).symm, ?_⟩
    rw [length_encodeAll fun c member => inside c (List.mem_of_mem_take member)]
    exact Nat.zero_add _
  · exact ⟨codepoints, [], (List.append_nil _).symm, by rw [textLength, text]⟩

/-- What is left of an array at a boundary are the encodings that come after it. -/
theorem drop_encoded {bytes : Bytes} {front back : List Nat} (text : textOf bytes = encodeAll (front ++ back)) :
    (textOf bytes).drop (encodeAll front).length = encodeAll back ∧
      bytes.drop (encodeAll front).length = encodeAll back ++ bytes.drop (textLength bytes) := by
  constructor
  · rw [text, encodeAll_append, List.drop_left]
  · have whole : bytes = encodeAll front ++ (encodeAll back ++ bytes.drop (textLength bytes)) := by
      rw [← List.append_assoc, ← encodeAll_append, encodeAll_append_drop text]
    conv_lhs => rw [whole, List.drop_left]

/-- Seeking a code point is searching for its encoding. In a text that is made of encodings, from an offset
between two of them on, it comes to the least offset at which the encoding of the code point is found in the
text, and to the end of the text when it is found nowhere. -/
theorem seek_finds_encoding {bytes : Bytes} (encoded : Encoded (textOf bytes)) {c : Nat} (known : IsScalar c ∧ c ≠ 0)
    {start : Nat} (boundary : IsBoundary bytes start) :
    ((∃ place, start ≤ place ∧ OccursAt (encode c) (textOf bytes) place) →
      IsLeast {place | start ≤ place ∧ OccursAt (encode c) (textOf bytes) place} (seekCodepoint bytes c start)) ∧
    ((¬ ∃ place, start ≤ place ∧ OccursAt (encode c) (textOf bytes) place) →
      seekCodepoint bytes c start = textEnd bytes start) := by
  obtain ⟨codepoints, scalars, text⟩ := encoded
  obtain ⟨front, back, rfl, rfl⟩ := boundary.encoded scalars text
  have later : ∀ d ∈ back, IsScalar d ∧ d ≠ 0 := fun d member => scalars d (List.mem_append_right _ member)
  obtain ⟨leftText, left⟩ := drop_encoded text
  have ended := decode_textLength bytes
  have occurs {j : Nat} : OccursAt (encode c) (textOf bytes) ((encodeAll front).length + j) ↔
      OccursAt (encode c) (encodeAll back) j := by rw [occursAt_add, leftText]
  rw [seekCodepoint, left]
  by_cases member : c ∈ back
  · obtain ⟨before, after, rfl, absent⟩ := List.eq_append_cons_of_mem member
    have least := isLeast_encode later absent
    rw [seekFrom_first later absent]
    have found : OccursAt (encode c) (textOf bytes) ((encodeAll front).length + (encodeAll before).length) :=
      occurs.2 least.1
    refine ⟨fun _ => ⟨⟨Nat.le_add_right _ _, found⟩, ?_⟩, fun nowhere => ?_⟩
    · rintro place ⟨past, here⟩
      obtain ⟨j, rfl⟩ := Nat.exists_eq_add_of_le past
      exact Nat.add_le_add_left (least.2 (occurs.1 here)) _
    · exact absurd ⟨_, Nat.le_add_right _ _, found⟩ nowhere
  · rw [seekFrom_passes later member, seekFrom_end ended, Nat.add_zero]
    constructor
    · rintro ⟨place, past, here⟩
      obtain ⟨j, rfl⟩ := Nat.exists_eq_add_of_le past
      obtain ⟨i, there, -⟩ := (occursAt_encode known later).1 (occurs.1 here)
      exact absurd (there.mem List.mem_cons_self) member
    · intro _
      have inside : (encodeAll front).length ≤ bytes.length := by
        have within := textLength_le bytes
        rw [textLength, text, encodeAll_append, List.length_append] at within
        omega
      have visible : ∀ b ∈ encodeAll back, b ≠ 0 :=
        encodeAll_visible fun d member => ⟨(later d member).1.1, (later d member).2⟩
      rw [textEnd, Nat.min_eq_left inside, left, textLength, textOf_append visible, decode_eq_none.1 ended,
        List.append_nil]

/-- The theorem at a text of code points of two and three bytes, before a NUL with another such encoding behind it:
a code point that is found again after the boundary, and one that is not. -/
theorem seek_finds_encoding_widths :
    let bytes : Bytes := [0xC3, 0xA9, 0xE2, 0x82, 0xAC, 0xC3, 0xA9, 0, 0xE2, 0x82, 0xAC]
    Encoded (textOf bytes) ∧ (IsBoundary bytes 2 ∧ IsBoundary bytes 5) ∧
    ((IsScalar 0xE9 ∧ 0xE9 ≠ 0) ∧ (2 ≤ 5 ∧ OccursAt (encode 0xE9) (textOf bytes) 5) ∧
      IsLeast {place | 2 ≤ place ∧ OccursAt (encode 0xE9) (textOf bytes) place} (seekCodepoint bytes (0xE9 : Nat) 2)) ∧
    ((IsScalar 0x20AC ∧ 0x20AC ≠ 0) ∧ (¬ ∃ place, 5 ≤ place ∧ OccursAt (encode 0x20AC) (textOf bytes) place) ∧
      seekCodepoint bytes (0x20AC : Nat) 5 = 7) := by
  intro bytes
  have encoded : Encoded (textOf bytes) := ⟨[0xE9, 0x20AC, 0xE9], by decide, by decide⟩
  have steps : walk bytes 0 = [⟨0xE9, 0, 2⟩, ⟨0x20AC, 2, 3⟩, ⟨0xE9, 5, 2⟩] := by cbv
  have second : IsBoundary bytes 2 := .inl ⟨⟨0x20AC, 2, 3⟩, by rw [steps]; decide, rfl⟩
  have third : IsBoundary bytes 5 := .inl ⟨⟨0xE9, 5, 2⟩, by rw [steps]; decide, rfl⟩
  have again : 2 ≤ 5 ∧ OccursAt (encode 0xE9) (textOf bytes) 5 := by decide
  have nowhere : ¬ ∃ place, 5 ≤ place ∧ OccursAt (encode 0x20AC) (textOf bytes) place := by
    rintro ⟨place, past, here⟩
    have within : place + 3 ≤ 7 := here.length_le (by decide)
    omega
  have euro : IsScalar 0x20AC ∧ 0x20AC ≠ 0 := by decide
  have letter : IsScalar 0xE9 ∧ 0xE9 ≠ 0 := by decide
  refine ⟨encoded, ⟨second, third⟩, ⟨letter, again, ?_⟩, euro, nowhere, ?_⟩
  · exact (seek_finds_encoding encoded letter second).1 ⟨5, again⟩
  · exact (seek_finds_encoding encoded euro third).2 nowhere

end seeking

/-! ## Replacing code points -/

section replacing
variable {part text : List Nat} {gaps : List (List Nat)}

private theorem encodeAll_intercalate (mark : List Nat) (gaps : List (List Nat)) :
    encodeAll (mark.intercalate gaps) = (encodeAll mark).intercalate (gaps.map encodeAll) := by
  induction gaps with
  | nil => rfl
  | cons gap gaps ih =>
    by_cases last : gaps = []
    · rw [last, List.intercalate_singleton, List.map_singleton, List.intercalate_singleton]
    · have more : gaps.map encodeAll ≠ [] := by simpa using last
      rw [List.intercalate_cons_of_ne_nil last, encodeAll_append, encodeAll_append, ih, List.map_cons,
        List.intercalate_cons_of_ne_nil more]

/-- The gaps among encodings are the encodings of the gaps. -/
theorem Gaps.encodeAll (left : Gaps part text gaps) (known : ∀ c ∈ part, IsScalar c ∧ c ≠ 0) (nonempty : part ≠ [])
    (scalars : ∀ c ∈ text, IsScalar c ∧ c ≠ 0) :
    Gaps (Utf8.encodeAll part) (Utf8.encodeAll text) (gaps.map Utf8.encodeAll) := by
  induction left with
  | last nowhere =>
    refine .last fun place here => ?_
    obtain ⟨i, there, -⟩ := (occursAt_encodeAll known nonempty scalars).1 here
    exact nowhere i there
  | @next gap rest gaps first later ih =>
    obtain ⟨-, tail⟩ := List.forall_mem_append.1 scalars
    have whole : Utf8.encodeAll (gap ++ part ++ rest) =
        Utf8.encodeAll gap ++ Utf8.encodeAll part ++ Utf8.encodeAll rest := by rw [encodeAll_append, encodeAll_append]
    rw [whole]
    refine .next ?_ (ih tail)
    intro place inside here
    rw [← whole] at here
    obtain ⟨i, there, rfl⟩ := (occursAt_encodeAll known nonempty scalars).1 here
    -- An occurrence before the end of the gap's encoding is one before the end of the gap.
    have earlier : i < gap.length := by
      by_contra past
      have longer := length_encodeAll_take (Nat.le_of_not_lt past) (gap ++ part ++ rest)
      rw [List.append_assoc, List.take_left] at longer
      rw [List.append_assoc] at inside
      omega
    exact first i earlier there

end replacing

/-- Replacing bytes keeps code points whole. Where a part, the new text and the text it is replaced in are made of
encodings, and the text with the new one in its gaps fits into a long buffer, what comes out is made of encodings,
and its code points are those of the text with those of the new text in place of those of the part, from the left
and without overlap. -/
theorem replace_keeps_codepoints {part : Text} {new : Option Text} {text : Text} (nonempty : textOf part.toBytes ≠ [])
    (encodedPart : Encoded (textOf part.toBytes)) (encodedNew : Encoded (givenText new))
    (encodedText : Encoded (textOf text.toBytes)) {gaps : List Bytes}
    (left : Gaps (textOf part.toBytes) (textOf text.toBytes) gaps)
    (fits : ((givenText new).intercalate gaps).length ≤ longCapacity - 1) :
    Encoded (replace part new text) ∧
      ∃ runs, Gaps (codepointsOf part.toBytes) (codepointsOf text.toBytes) runs ∧
        codepointsOf (replace part new text) = (codepointsOf (Text.bytesOrEmpty new)).intercalate runs := by
  obtain ⟨os, knownPart, wholePart⟩ := encodedPart
  obtain ⟨ws, knownNew, wholeNew⟩ := encodedNew
  obtain ⟨ss, knownText, wholeText⟩ := encodedText
  have someCodepoint : os ≠ [] := by
    rintro rfl
    exact nonempty wholePart
  obtain ⟨runs, found⟩ := exists_gaps someCodepoint ss
  have among : Gaps (textOf part.toBytes) (textOf text.toBytes) (runs.map encodeAll) := by
    rw [wholePart, wholeText]
    exact found.encodeAll knownPart someCodepoint knownText
  have replaced : replace part new text = encodeAll (ws.intercalate runs) := by
    rw [replace_gaps part new text nonempty left, List.take_of_length_le fits, left.unique among, wholeNew,
      encodeAll_intercalate]
  have scalars : ∀ c ∈ ws.intercalate runs, IsScalar c ∧ c ≠ 0 := found.forall_mem_intercalate knownText knownNew
  refine ⟨⟨_, scalars, replaced⟩, runs, ?_, ?_⟩
  · rwa [codepointsOf_encoded knownPart wholePart, codepointsOf_encoded knownText wholeText]
  · rw [replaced, codepointsOf_encodeAll scalars, codepointsOf_encoded knownNew wholeNew]

/-- The theorem at code points of one, two and three bytes, with the part twice in a row and again in what replaces it. -/
theorem replace_keeps_codepoints_widths :
    let part : Text := .bytes [0xC3, 0xA9]
    let new : Option Text := some (.bytes [0xE2, 0x82, 0xAC, 0xC3, 0xA9])
    let text : Text := .bytes [0x61, 0xC3, 0xA9, 0xC3, 0xA9, 0xE2, 0x82, 0xAC]
    let gaps : List Bytes := [[0x61], [], [0xE2, 0x82, 0xAC]]
    (textOf part.toBytes ≠ [] ∧ Encoded (textOf part.toBytes) ∧ Encoded (givenText new) ∧ Encoded (textOf text.toBytes) ∧
      Gaps (textOf part.toBytes) (textOf text.toBytes) gaps ∧
      ((givenText new).intercalate gaps).length ≤ longCapacity - 1) ∧
    Encoded (replace part new text) ∧
      codepointsOf (replace part new text) = [0x61, 0x20AC, 0xE9, 0x20AC, 0xE9, 0x20AC] := by
  intro part new text gaps
  have nonempty : textOf part.toBytes ≠ [] := by decide
  have encodedPart : Encoded (textOf part.toBytes) := ⟨[0xE9], by decide, by decide⟩
  have encodedNew : Encoded (givenText new) := ⟨[0x20AC, 0xE9], by decide, by decide⟩
  have encodedText : Encoded (textOf text.toBytes) := ⟨[0x61, 0xE9, 0xE9, 0x20AC], by decide, by decide⟩
  have left : Gaps (textOf part.toBytes) (textOf text.toBytes) gaps :=
    @Gaps.next _ _ [0x61] [0xC3, 0xA9, 0xE2, 0x82, 0xAC] _ (by decide)
      (@Gaps.next _ _ [] [0xE2, 0x82, 0xAC] _ (by decide) (.last (not_occursAt (by decide) (by decide))))
  have fits : ((givenText new).intercalate gaps).length ≤ longCapacity - 1 := by decide
  have found : Gaps [0xE9] [0x61, 0xE9, 0xE9, 0x20AC] [[0x61], [], [0x20AC]] :=
    @Gaps.next _ _ [0x61] [0xE9, 0x20AC] _ (by decide)
      (@Gaps.next _ _ [] [0x20AC] _ (by decide) (.last (not_occursAt (by decide) (by decide))))
  obtain ⟨encoded, runs, cut, replaced⟩ :=
    replace_keeps_codepoints nonempty encodedPart encodedNew encodedText left fits
  have ofPart : codepointsOf part.toBytes = [0xE9] := by cbv
  have ofNew : codepointsOf (Text.bytesOrEmpty new) = [0x20AC, 0xE9] := by cbv
  have ofText : codepointsOf text.toBytes = [0x61, 0xE9, 0xE9, 0x20AC] := by cbv
  rw [ofPart, ofText] at cut
  refine ⟨⟨nonempty, encodedPart, encodedNew, encodedText, left, fits⟩, encoded, ?_⟩
  rw [replaced, ofNew, cut.unique found]
  rfl

end BoundedText
