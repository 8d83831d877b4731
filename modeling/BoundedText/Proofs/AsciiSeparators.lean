import BoundedText.Proofs.Splitting

/-!
# ASCII separators

Scanning for an ASCII separator is the same by bytes and by code points, whatever the bytes are
(`ascii_scans_agree`). A sequence that does not begin with an ASCII character has none in it, malformed or
not (`high_of_decode`), so a scan by bytes passes all of it where a scan by code points makes one step.
-/

namespace BoundedText

section scan
variable {separator : Int} {rest : Bytes}

/-! ## Sequences without ASCII -/

/-- The first unit by code points is what decoding finds. -/
theorem codepoint_unit {d : Utf8.Decoded} (found : Utf8.decode rest = some d) :
    TextUnit.codepoint.length rest = d.length ∧ TextUnit.codepoint.value rest = d.codepoint := by
  simp only [TextUnit.codepoint, headLength, headCodepoint, found, and_self]

theorem high_of_decode {d : Utf8.Decoded} (found : Utf8.decode rest = some d) (high : 0x80 ≤ d.codepoint) :
    ∀ b ∈ rest.take d.length, 0x80 ≤ b.toNat := by
  cases rest with
  | nil => cases found
  | cons a tail =>
    obtain ⟨visible, trails, size, taken, all⟩ := Utf8.decode_shape found
    intro b member
    rw [size, List.take_succ_cons, taken, List.mem_cons] at member
    rcases member with rfl | later
    · by_contra low
      obtain ⟨-, value⟩ := codepoint_keeps.ascii b tail visible (UInt8.lt_iff_toNat_lt.2 (Nat.not_le.1 low))
      rw [(codepoint_unit found).2] at value
      omega
    · exact ((Utf8.isContinuation_iff b).1 (all b later)).1

theorem byte_unit_high {b : UInt8} (high : 0x80 ≤ b.toNat) (tail : Bytes) :
    TextUnit.byte.length (b :: tail) = 1 ∧ TextUnit.byte.value (b :: tail) = b.toNat := by
  have visible : b ≠ 0 := by
    rintro rfl
    cases high
  simp [TextUnit.byte, visible]

/-- A scan by bytes passes bytes that are no ASCII one by one. -/
theorem separatorAt_byte_high (ascii : separator < 0x80) {front : Bytes} (high : ∀ b ∈ front, 0x80 ≤ b.toNat)
    (rest : Bytes) :
    separatorAt .byte separator (front ++ rest) = (separatorAt .byte separator rest).map (front.length + ·) := by
  induction front with
  | nil => simp
  | cons b front ih =>
    obtain ⟨first, others⟩ := List.forall_mem_cons.1 high
    obtain ⟨length, value⟩ := byte_unit_high first (front ++ rest)
    have other : (TextUnit.byte.value (b :: (front ++ rest)) : Int) ≠ separator := by omega
    have step : scanStep .byte (b :: (front ++ rest)) = 1 := by
      rw [scanStep, if_neg, length]
      intro opens
      have low := isSpanStart_lt opens
      omega
    rw [List.cons_append, separatorAt_step (by omega) other, step, List.drop_succ_cons, List.drop_zero, ih others,
      Option.map_map]
    congr 1
    funext place
    simp only [Function.comp_apply, List.length_cons]
    omega

/-! ## One scan -/

/-- An ASCII character at the head of a text is the same unit for both. -/
theorem ascii_units (more : 0 < TextUnit.codepoint.length rest) (low : TextUnit.codepoint.value rest < 0x80) :
    TextUnit.byte.length rest = 1 ∧ TextUnit.codepoint.length rest = 1 ∧
      TextUnit.byte.value rest = TextUnit.codepoint.value rest := by
  obtain ⟨b, tail, rfl, visible, length, value⟩ := codepoint_keeps.ascii_of rest more low
  have short : b < 0x80 := by
    rw [UInt8.lt_iff_toNat_lt]
    exact value ▸ low
  obtain ⟨one, same⟩ := byte_keeps.ascii b tail visible short
  exact ⟨one, length, same.trans value.symm⟩

private theorem byte_ended (none : TextUnit.codepoint.length rest = 0) : TextUnit.byte.length rest = 0 :=
  (byte_keeps.ended rest).2 ((codepoint_keeps.ended rest).1 none)

private theorem separatorAt_byte (ascii : separator < 0x80) (rest : Bytes) :
    separatorAt .byte separator rest = separatorAt .codepoint separator rest := by
  induction rest using scan_induction .codepoint separator with
  | ended rest none => rw [separatorAt_ended none, separatorAt_ended (byte_ended none)]
  | here rest more same =>
    obtain ⟨one, -, value⟩ := ascii_units more (by omega)
    rw [separatorAt_here more same, separatorAt_here (by omega) (by rwa [value])]
  | step rest more other ih =>
    by_cases low : TextUnit.codepoint.value rest < 0x80
    · -- An ASCII character is one step in both units, or opens the same control span.
      obtain ⟨one, length, value⟩ := ascii_units more low
      have step : scanStep .byte rest = scanStep .codepoint rest := by simp only [scanStep, one, length, value]
      rw [separatorAt_step more other, separatorAt_step (by omega) (by rwa [value]), step, ih]
    · -- No other sequence has an ASCII character in it, so none of its bytes ends a scan or opens a span.
      cases found : Utf8.decode rest with
      | none =>
        simp only [TextUnit.codepoint, headLength, found] at more
        cases more
      | some d =>
        obtain ⟨length, value⟩ := codepoint_unit found
        have step : scanStep .codepoint rest = d.length := by
          rw [scanStep, if_neg fun opens => low (isSpanStart_lt opens), length]
        have size : (rest.take d.length).length = d.length := List.length_take_of_le (Utf8.decode_length found).2
        have passed := separatorAt_byte_high ascii (high_of_decode found (by omega)) (rest.drop d.length)
        rw [List.take_append_drop, size] at passed
        rw [step] at ih
        rw [separatorAt_step more other, step, passed, ih]

private theorem spaceRun_byte (rest : Bytes) : spaceRun .byte rest = spaceRun .codepoint rest := by
  induction rest using spaceRun.induct .codepoint with
  | case1 rest none =>
    have bytewise : spaceRun .byte rest = 0 := by rw [spaceRun, dif_pos (byte_ended none)]
    rw [bytewise, spaceRun, dif_pos none]
  | case2 rest some here ih =>
    have low : TextUnit.codepoint.value rest < 0x80 := by
      rw [here]
      decide
    obtain ⟨one, length, value⟩ := ascii_units (Nat.pos_of_ne_zero some) low
    have bytewise : spaceRun .byte rest = 1 + spaceRun .byte (rest.drop 1) := by
      conv_lhs => rw [spaceRun, dif_neg (by omega), if_pos (by rw [value, here]), one]
    rw [length] at ih
    rw [bytewise, ih]
    conv_rhs => rw [spaceRun, dif_neg some, if_pos here, length]
  | case3 rest some other =>
    have bytewise : spaceRun .byte rest = 0 := by
      rw [spaceRun]
      split
      · rfl
      · rw [if_neg]
        -- A byte that is a space is a code point as well.
        intro space
        apply other
        cases rest with
        | nil => cases space
        | cons b tail =>
          have same : b = 0x20 := UInt8.toNat_inj.1 (by simpa [TextUnit.byte, Characters.space] using space)
          exact (codepoint_keeps.space (by rw [same]; rfl)).2
    rw [bytewise, spaceRun, dif_neg some, if_neg other]

private theorem separatorRun_byte (separator : Int) (rest : Bytes) :
    separatorRun .byte separator rest = separatorRun .codepoint separator rest := by
  rw [separatorRun, separatorRun, spaceRun_byte]

private theorem nextTokenAt_byte (ascii : separator < 0x80) (rest : Bytes) :
    nextTokenAt .byte separator rest = nextTokenAt .codepoint separator rest := by
  have scanned := separatorAt_byte ascii rest
  cases found : separatorAt .codepoint separator rest with
  | none => simp only [nextTokenAt, scanned, found]
  | some place =>
    obtain ⟨here, -, -⟩ := separatorAt_found codepoint_keeps found
    obtain ⟨one, length, -⟩ := ascii_units (separatorAt_unit found) (by omega)
    simp only [nextTokenAt, scanned, found, one, length, separatorRun_byte]

/-! ## All scans of a text -/

private theorem tokensFrom_byte (ascii : separator < 0x80) (rest : Bytes) :
    tokensFrom .byte separator rest = tokensFrom .codepoint separator rest := by
  induction rest using tokensFrom.induct .codepoint separator with
  | case1 rest ends => rw [tokensFrom_last ends, tokensFrom_last ((nextTokenAt_byte ascii rest).trans ends)]
  | case2 rest next follows ih =>
    rw [tokensFrom_next follows, tokensFrom_next ((nextTokenAt_byte ascii rest).trans follows), ih]

private theorem findNextToken_byte (ascii : separator < 0x80) (bytes : Bytes) (start : Nat) :
    findNextToken .byte separator bytes start = findNextToken .codepoint separator bytes start := by
  rw [findNextToken, findNextToken, nextTokenAt_byte ascii]

private theorem split_byte (ascii : separator < 0x80) (cursor : TokenCursor) :
    cursor.split .byte separator = cursor.split .codepoint separator := by
  obtain ⟨bytes, pos⟩ := cursor
  cases pos with
  | none => rfl
  | some start =>
    have scanned := separatorAt_byte ascii (bytes.drop start)
    cases found : separatorAt .codepoint separator (bytes.drop start) with
    | none => rw [split_last found, split_last (scanned.trans found)]
    | some place => rw [split_cut found, split_cut (scanned.trans found), findNextToken_byte ascii]

theorem split_some {unit : TextUnit} {cursor : TokenCursor} {token : Bytes}
    (found : (cursor.split unit separator).1 = some token) :
    cursor.split unit separator = (some token, (cursor.split unit separator).2) :=
  Prod.ext found rfl

theorem splitAll_none {unit : TextUnit} {cursor : TokenCursor} (used : (cursor.split unit separator).1 = none) :
    cursor.splitAll unit separator = ([], cursor.bytes) := by
  rw [TokenCursor.splitAll]
  split
  · rfl
  · rename_i found
    rw [used] at found
    cases found

theorem splitAll_byte (ascii : separator < 0x80) (cursor : TokenCursor) :
    cursor.splitAll .byte separator = cursor.splitAll .codepoint separator := by
  induction cursor using TokenCursor.splitAll.induct .codepoint separator with
  | case1 cursor used =>
    rw [splitAll_none used, splitAll_none]
    rwa [split_byte ascii]
  | case2 cursor token found _ _ _ ih =>
    have split := split_some found
    rw [splitAll_next split, splitAll_next ((split_byte ascii cursor).trans split), ih]

/-- By bytes or by code points, scans for an ASCII separator find the same: the end of a token, the place
of the next one, the end of a run of separators and the number of tokens. Each split yields the same token
and leaves the same array and cursor, and so do all splits of a text. -/
theorem ascii_scans_agree (ascii : separator < 0x80) :
    (∀ bytes start, findSeparator .byte separator bytes start = findSeparator .codepoint separator bytes start) ∧
    (∀ bytes start, findNextToken .byte separator bytes start = findNextToken .codepoint separator bytes start) ∧
    (∀ bytes start, skipSeparators .byte separator bytes start = skipSeparators .codepoint separator bytes start) ∧
    (∀ bytes, countTokens .byte separator bytes = countTokens .codepoint separator bytes) ∧
    (∀ cursor : TokenCursor, cursor.split .byte separator = cursor.split .codepoint separator) ∧
    ∀ text : Option Text,
      (TokenCursor.ofText text).splitAll .byte separator = (TokenCursor.ofText text).splitAll .codepoint separator := by
  refine ⟨?_, findNextToken_byte ascii, ?_, ?_, split_byte ascii, ?_⟩
  · intro bytes start
    rw [findSeparator, findSeparator, separatorAt_byte ascii]
  · intro bytes start
    rw [skipSeparators, skipSeparators, separatorRun_byte]
  · intro bytes
    rw [countTokens, countTokens, tokensFrom_byte ascii]
  · intro text
    exact splitAll_byte ascii (TokenCursor.ofText text)

end scan

/-- The theorem at a comma after a sequence cut short, one inside a span, and one before a byte that
continues nothing. -/
theorem ascii_scans_agree_malformed :
    (0x2C : Int) < 0x80 ∧
    findSeparator .codepoint 0x2C [0xC3, 0x2C, 0xE2, 0x82, 0x02, 0x2C, 0x03, 0x2C, 0x80] 2 = some 7 ∧
    TokenCursor.splitAll .codepoint 0x2C
        (.ofText (some (.bytes [0xC3, 0x2C, 0xE2, 0x82, 0x02, 0x2C, 0x03, 0x2C, 0x80]))) =
      ([[0xC3], [0xE2, 0x82, 0x02, 0x2C, 0x03], [0x80]], [0xC3, 0, 0xE2, 0x82, 0x02, 0x2C, 0x03, 0, 0x80]) := by
  have comma : (0x2C : Int) < 0x80 := by decide
  obtain ⟨find, -, -, -, -, all⟩ := ascii_scans_agree comma
  refine ⟨comma, ?_, ?_⟩
  · rw [← find]
    cbv
  · rw [← all, splitAll_next (show _ = (_, _) by cbv), splitAll_next (show _ = (_, _) by cbv),
      splitAll_next (show _ = (_, _) by cbv), splitAll_used]

end BoundedText
