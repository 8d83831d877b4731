import BoundedText.Proofs.EscapeParity

/-!
# Word starts

The search for a word that begins with a part looks at the head of a text and then, one gap after another, at
what follows. A gap is the rest of a word and the bytes outside words behind it (`Gap`): no word begins inside
it, and one begins right behind it unless the text ends there (`Gap.wordStart_later`). So the search looks
exactly where words begin, and finds the first of them that has the part at its head (`findWord_iff_first_start`).
-/

namespace BoundedText

/-! ## Words -/

/-- The bytes that words are made of: ASCII letters and digits. -/
def LetterOrDigit (b : UInt8) : Prop := (0x41 ≤ b ∧ b ≤ 0x5A) ∨ (0x61 ≤ b ∧ b ≤ 0x7A) ∨ (0x30 ≤ b ∧ b ≤ 0x39)

instance (b : UInt8) : Decidable (LetterOrDigit b) := inferInstanceAs (Decidable (_ ∨ _))

private theorem isWordByte_iff (b : UInt8) : isWordByte b = true ↔ LetterOrDigit b := by
  simp only [isWordByte, Characters.isAlphaNumeric, Characters.isLetter, Characters.isUpper, Characters.isLower,
    Characters.isDigit, LetterOrDigit, Bool.or_eq_true, Bool.and_eq_true, decide_eq_true_eq, UInt8.le_iff_toNat_le,
    or_assoc]
  rfl

/-- A place of a text where a word begins: a letter or digit behind a byte that is neither. The head of a text is
such a place whatever is there. -/
def WordStart (text : Bytes) (i : Nat) : Prop :=
  i < text.length ∧
    (i = 0 ∨ ∃ before b, text[i - 1]? = some before ∧ text[i]? = some b ∧ LetterOrDigit b ∧ ¬ LetterOrDigit before)

/-! ## Gaps -/

/-- A text as the rest of a word, bytes outside words, and what comes after them, which begins with a word. -/
structure Gap (text word others later : Bytes) : Prop where
  parts : text = word ++ (others ++ later)
  inside : ∀ b ∈ word, LetterOrDigit b
  outside : ∀ b ∈ others, ¬ LetterOrDigit b
  begins : ∀ b ∈ later.head?, LetterOrDigit b
  apart : others = [] → later = []

/-- The number of bytes to the next word is that of a gap. -/
theorem exists_gap (text : Bytes) :
    ∃ word others later, Gap text word others later ∧ wordGap text = word.length + others.length := by
  let tail := text.dropWhile isWordByte
  have split : tail.takeWhile (fun b => !isWordByte b) ++ tail.dropWhile (fun b => !isWordByte b) = tail :=
    List.takeWhile_append_dropWhile
  refine ⟨text.takeWhile isWordByte, tail.takeWhile (fun b => !isWordByte b), tail.dropWhile (fun b => !isWordByte b),
    ⟨?_, ?_, ?_, ?_, ?_⟩, ?_⟩
  · rw [split, List.takeWhile_append_dropWhile]
  · intro b member
    exact (isWordByte_iff b).1 (List.mem_takeWhile_imp member)
  · intro b member
    have none := List.mem_takeWhile_imp member
    rw [← isWordByte_iff]
    simpa using none
  · intro b first
    have stops := List.head?_dropWhile_not (fun b => !isWordByte b) tail
    rw [Option.mem_def.1 first] at stops
    exact (isWordByte_iff b).1 (by simpa using stops)
  · intro none
    rw [none, List.nil_append] at split
    rw [split]
    -- What a word ends at is outside words, so that a tail that begins with a word is empty.
    have stops := List.head?_dropWhile_not isWordByte text
    cases shape : tail with
    | nil => rfl
    | cons b rest =>
      have refused : isWordByte b = false := by
        rw [show text.dropWhile isWordByte = b :: rest from shape] at stops
        exact stops
      rw [shape, List.takeWhile_cons_of_pos (by simp [refused])] at none
      cases none
  · rw [wordGap, drop_length_takeWhile]

namespace Gap
variable {text word others later : Bytes}

/-- No word begins inside a gap. -/
theorem not_wordStart (gap : Gap text word others later) {i : Nat} (positive : 0 < i)
    (before : i < word.length + others.length) : ¬ WordStart text i := by
  rintro ⟨-, rfl | ⟨last, b, lastAt, bAt, isWord, noWord⟩⟩
  · exact absurd positive (Nat.lt_irrefl 0)
  rw [gap.parts] at lastAt bAt
  by_cases inWord : i - 1 < word.length
  · rw [List.getElem?_append_left inWord] at lastAt
    exact noWord (gap.inside last (List.mem_of_getElem? lastAt))
  · rw [List.getElem?_append_right (by omega), List.getElem?_append_left (by omega)] at bAt
    exact gap.outside b (List.mem_of_getElem? bAt) isWord

/-- Behind a gap words begin where they do in what comes after it, and one begins at its head. -/
theorem wordStart_later (gap : Gap text word others later) (some : 0 < word.length + others.length) (i : Nat) :
    WordStart text (word.length + others.length + i) ↔ WordStart later i := by
  have size : text.length = word.length + others.length + later.length := by
    rw [gap.parts, List.length_append, List.length_append, Nat.add_assoc]
  have shown : ∀ j, text[word.length + others.length + j]? = later[j]? := by
    intro j
    rw [gap.parts, ← List.append_assoc, List.getElem?_append_right (by rw [List.length_append]; omega),
      List.length_append, Nat.add_sub_cancel_left]
  rw [WordStart, WordStart, size, Nat.add_lt_add_iff_left]
  refine and_congr_right fun more => ?_
  cases i with
  | zero =>
    refine iff_of_true (.inr ?_) (.inl rfl)
    obtain ⟨b, rest, rfl⟩ := List.exists_cons_of_length_pos more
    obtain ⟨front, last, rfl⟩ := List.eq_nil_or_concat others |>.resolve_left fun none => by cases gap.apart none
    refine ⟨last, b, ?_, shown 0, gap.begins b rfl, gap.outside last (by simp)⟩
    rw [gap.parts, List.getElem?_append_right (by simp), List.getElem?_append_left (by simp)]
    simp
  | succ i =>
    rw [show word.length + others.length + (i + 1) - 1 = word.length + others.length + i by omega, shown, shown,
      Nat.add_sub_cancel]
    refine or_congr_left (iff_of_false ?_ ?_) <;> omega

end Gap

/-! ## The search -/

/-- A word begins at a place of a text, with a part at its head. -/
def BeginsWord (part text : Bytes) (i : Nat) : Prop := WordStart text i ∧ beginsWith (text.drop i) part = true

private theorem wordAt_first (part text : Bytes) : IsFirst (BeginsWord part text) (wordAt part text) := by
  fun_induction wordAt part text with
  | case1 =>
    rintro i ⟨⟨inside, -⟩, -⟩
    exact absurd inside (Nat.not_lt_zero i)
  | case2 b rest here =>
    rw [if_pos here]
    exact ⟨⟨⟨Nat.zero_lt_succ _, .inl rfl⟩, here⟩, fun i _ => Nat.zero_le i⟩
  | case3 b rest differs ih =>
    obtain ⟨word, others, later, gap, size⟩ := exists_gap (b :: rest)
    have left : (b :: rest).drop (wordGap (b :: rest)) = later := by
      rw [size, gap.parts, ← List.append_assoc, ← List.length_append, List.drop_left]
    rw [if_neg differs]
    refine ih.later (fun i before => ?_) (fun i => ?_)
    · rintro ⟨start, begins⟩
      rcases Nat.eq_zero_or_pos i with rfl | positive
      · exact differs begins
      · exact gap.not_wordStart positive (size ▸ before) start
    · have positive := wordGap_pos b rest
      rw [BeginsWord, ← List.drop_drop, left, size, gap.wordStart_later (size ▸ positive), BeginsWord]

/-- A part is at the head of what is left of a text, letter case apart, where as many bytes of the text are the
part when letters are made small. -/
theorem beginsWith_drop {text : Bytes} (visible : ∀ b ∈ text, b ≠ 0) (part : Bytes) (i : Nat) :
    beginsWith (text.drop i) part = true ↔
      (slice text i (i + textLength part)).map Latin1.toLower = (textOf part).map Latin1.toLower := by
  have whole : textOf (text.drop i) = text.drop i := textOf_self fun b member => visible b (List.mem_of_mem_drop member)
  rw [beginsWith, List.isPrefixOf_iff_prefix, List.prefix_iff_eq_take, lowered, lowered, whole, List.length_map, slice,
    ← List.map_take, List.take_drop, eq_comm, textLength]

private theorem slice_inside {text part : Bytes} {i : Nat} (some : part ≠ [])
    (same : (slice text i (i + part.length)).map Latin1.toLower = part.map Latin1.toLower) :
    i + part.length ≤ text.length := by
  have size := congrArg List.length same
  have positive : 0 < part.length := List.length_pos_iff.2 some
  rw [List.length_map, List.length_map, slice, List.length_drop, List.length_take] at size
  omega

/-- The search for a word by its first bytes is sound, complete and first. For a part that is not empty it finds the
least place of a text at which a word begins, at the head of the text or at a letter or digit behind a byte that is
neither, and at which as many bytes as the part has are equal to it when letters are made small. It finds nothing
exactly where there is no such place. -/
theorem findWord_iff_first_start (text part : Option Text) (nonempty : textLength (Text.bytesOrEmpty part) ≠ 0) :
    let searched := textOf (Text.bytesOrEmpty text)
    let sought := textOf (Text.bytesOrEmpty part)
    let Qualifies := fun i => WordStart searched i ∧ i + sought.length ≤ searched.length ∧
      (slice searched i (i + sought.length)).map Latin1.toLower = sought.map Latin1.toLower
    (∀ i, findWord text part = some i ↔ IsLeast {place | Qualifies place} i) ∧
    (findWord text part = none ↔ ¬ ∃ i, Qualifies i) := by
  intro searched sought Qualifies
  have kinds : BeginsWord (Text.bytesOrEmpty part) searched = Qualifies := by
    funext i
    have bytes : sought ≠ [] := List.length_pos_iff.1 (Nat.pos_of_ne_zero nonempty)
    refine propext (and_congr_right fun _ => (beginsWith_drop (fun b => ne_zero_of_mem_text) _ i).trans ?_)
    exact ⟨fun same => ⟨slice_inside bytes same, same⟩, And.right⟩
  have found : findWord text part = wordAt (Text.bytesOrEmpty part) searched := by
    cases part with
    | none => exact absurd rfl nonempty
    | some part =>
      cases text with
      | none => rw [show searched = [] from rfl, wordAt]; rfl
      | some text => exact if_neg nonempty
  have isFirst := wordAt_first (Text.bytesOrEmpty part) searched
  rw [kinds, ← found] at isFirst
  exact isFirst_iff isFirst

/-- A part that spans two words is found where both of them are. Inside the first word of the text it would fit too,
but no word begins there, and where its first word begins next another one follows. -/
theorem findWord_iff_first_start_spanning :
    let text : Option Text := some (.string
      [0x78, 0x61, 0x62, 0x20, 0x63, 0x20, 0x61, 0x62, 0x2C, 0xE9, 0x41, 0x42, 0x20, 0x43, 0x64])
    let part : Option Text := some (.bytes [0x61, 0x62, 0x20, 0x63, 0x00, 0x7A])
    textLength (Text.bytesOrEmpty part) ≠ 0 ∧ findWord text part = some 11 ∧
      beginsWith ((textOf (Text.bytesOrEmpty text)).drop 1) (Text.bytesOrEmpty part) = true ∧
      WordStart (textOf (Text.bytesOrEmpty text)) 11 := by
  intro text part
  have nonempty : textLength (Text.bytesOrEmpty part) ≠ 0 := by decide
  have found : findWord text part = some 11 := by decide +kernel
  exact ⟨nonempty, found, by decide +kernel, (((findWord_iff_first_start text part nonempty).1 11).1 found).1.1⟩

end BoundedText
