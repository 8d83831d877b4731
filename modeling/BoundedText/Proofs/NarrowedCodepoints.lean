import BoundedText.Proofs.Narrowing
import BoundedText.Proofs.Walking

/-!
# Narrowing by code points

Narrowing tells lead bytes apart in a way of its own and never spells out a code point of more than two
bytes. It still takes up what decoding takes up and writes the Latin-1 byte of what decoding reads
(`narrowed_decode`), as long as it does not meet a byte that looks like a lead to it but leads nothing to
the decoder (`unusedLeads`). So a text without these is narrowed to the bytes of its code points, however
malformed it is (`narrow_eq_codepoints`).
-/

namespace BoundedText
open Utf8

/-- The byte of a code point that Latin-1 has, and the question mark for any other. -/
def narrowCodepoint (c : Nat) : UInt8 := if c ≤ 0xFF then UInt8.ofNat c else questionMark

/-- The bytes with the bits of a lead that no sequence of a code point begins with. -/
def unusedLeads : Bytes := [0xC0, 0xC1, 0xF5, 0xF6, 0xF7]

/-- The byte that narrowing writes for a lead byte and the continuation bytes that it takes up. -/
def sequenceByte (announced : Nat) (a : UInt8) (trails : Bytes) : UInt8 :=
  if announced = 1 then narrowPair a trails else questionMark

theorem narrowCodepoint_past {c : Nat} (past : 0xFF < c) : narrowCodepoint c = questionMark :=
  if_neg (Nat.not_le.2 past)

/-! ## Lead bytes -/

/-- Where decoding reads a stray byte, narrowing does. -/
theorem narrowed_stray {a : UInt8} (high : ¬ a < 0x80) (leads : trailCount a = none) (used : a ∉ unusedLeads)
    (rest : Bytes) : narrowed (a :: rest) = questionMark :: narrowed rest := by
  have every : ∀ b : UInt8, ¬ b < 0x80 → trailCount b = none → b ∉ unusedLeads →
      b ≠ 0 ∧ leadsTwo b = false ∧ leadsThree b = false ∧ leadsFour b = false :=
    forall_byte (by decide +kernel)
  obtain ⟨nonzero, notTwo, notThree, notFour⟩ := every a high leads used
  rw [narrowed, if_neg nonzero, if_neg high]
  simp only [notTwo, notThree, notFour, Bool.false_eq_true, if_false]

/-- Where decoding reads a sequence, narrowing takes up the same continuation bytes. -/
theorem narrowed_lead {a : UInt8} {announced : Nat} (leads : trailCount a = some announced) (rest : Bytes) :
    narrowed (a :: rest) =
      sequenceByte announced a (continuations announced rest) ::
        narrowed (rest.drop (continuations announced rest).length) := by
  have nonzero : a ≠ 0 := by
    rintro rfl
    cases leads
  have high : ¬ a < 0x80 := by simpa [UInt8.lt_iff_toNat_lt] using high_of_leads leads
  rw [narrowed, if_neg nonzero, if_neg high, sequenceByte]
  rcases trailCount_eq_some leads with ⟨rfl, least, most⟩ | ⟨rfl, least, most⟩ | ⟨rfl, least, most⟩
  · have two : leadsTwo a = true := by simp [leadsTwo, UInt8.le_iff_toNat_le]; omega
    rw [if_pos two, if_pos rfl]
  · have notTwo : leadsTwo a = false := by simp [leadsTwo, UInt8.le_iff_toNat_le]; omega
    have three : leadsThree a = true := by simp [leadsThree, UInt8.le_iff_toNat_le]; omega
    rw [if_neg (by simp [notTwo]), if_pos three, if_neg (by decide)]
  · have notTwo : leadsTwo a = false := by simp [leadsTwo, UInt8.le_iff_toNat_le]; omega
    have notThree : leadsThree a = false := by simp [leadsThree, UInt8.le_iff_toNat_le]; omega
    have four : leadsFour a = true := by simp [leadsFour, UInt8.le_iff_toNat_le]; omega
    rw [if_neg (by simp [notTwo]), if_neg (by simp [notThree]), if_pos four, if_neg (by decide)]

/-! ## Sequences -/

/-- A lead of two bytes with the payload of any byte is complete, and narrowing writes its code point. -/
theorem narrowPair_complete {a : UInt8} (leads : trailCount a = some 1) (x : UInt8) :
    Complete 1 a [x] ∧ narrowPair a [x] = narrowCodepoint (payload a [x]) := by
  have range : 0xC2 ≤ a.toNat ∧ a.toNat ≤ 0xDF := by
    have := trailCount_eq_some leads
    omega
  have value := payload_one a x
  refine ⟨⟨rfl, ?_, ?_⟩, ?_⟩
  · simp only [List.length_singleton, leastOfLength]
    omega
  · refine ⟨by simp only [maxCodepoint]; omega, ?_⟩
    simp only [isSurrogate, Bool.and_eq_false_iff, decide_eq_false_iff_not]
    omega
  · by_cases latin : a.toNat ≤ 0xC3
    · -- The two leads of Latin-1 characters are tried one by one.
      have every : ∀ b : UInt8, narrowPair 0xC2 [b] = narrowCodepoint (payload 0xC2 [b]) ∧
          narrowPair 0xC3 [b] = narrowCodepoint (payload 0xC3 [b]) :=
        forall_byte (by decide +kernel)
      have either : a = 0xC2 ∨ a = 0xC3 := by
        simp only [← UInt8.toNat_inj]
        simp
        omega
      rcases either with rfl | rfl
      · exact (every x).1
      · exact (every x).2
    · have every : ∀ b : UInt8, 0xC3 < b.toNat → b.toNat ≤ 0xDF → ¬ b &&& 0x1F ≤ 3 :=
        forall_byte (by decide +kernel)
      rw [narrowPair, if_neg (every a (by omega) range.2), narrowCodepoint_past (by omega)]

/-- A complete sequence of a Latin-1 character has two bytes. -/
theorem past_of_complete {a : UInt8} {trails : Bytes} {announced : Nat} (leads : trailCount a = some announced)
    (long : announced ≠ 1) (good : Complete announced a trails) : 0xFF < payload a trails := by
  obtain ⟨full, least, -⟩ := good
  rcases trailCount_eq_some leads with ⟨rfl, -⟩ | ⟨rfl, -⟩ | ⟨rfl, -⟩
  · exact absurd rfl long
  · rw [full, leastOfLength] at least
    omega
  · rw [full, leastOfLength] at least
    omega

/-- A complete sequence is narrowed to its code point. -/
theorem sequenceByte_complete {a : UInt8} {announced : Nat} {trails : Bytes} (leads : trailCount a = some announced)
    (good : Complete announced a trails) : sequenceByte announced a trails = narrowCodepoint (payload a trails) := by
  by_cases pair : announced = 1
  · subst pair
    obtain ⟨x, rfl⟩ := List.length_eq_one_iff.1 good.1
    rw [sequenceByte, if_pos rfl, (narrowPair_complete leads x).2]
  · rw [sequenceByte, if_neg pair, narrowCodepoint_past (past_of_complete leads pair good)]

/-- Any other sequence is narrowed to the question mark of U+FFFD. -/
theorem sequenceByte_malformed {a : UInt8} {announced : Nat} {rest : Bytes} (leads : trailCount a = some announced)
    (bad : ¬ Complete announced a (continuations announced rest)) :
    sequenceByte announced a (continuations announced rest) = narrowCodepoint replacement := by
  by_cases pair : announced = 1
  · subst pair
    have short : (continuations 1 rest).length ≤ 1 :=
      (List.takeWhile_sublist _).length_le.trans (List.length_take_le ..)
    generalize continuations 1 rest = trails at bad short
    -- A continuation byte after a lead of two bytes completes it, so there is none.
    match trails, short with
    | [], _ => rfl
    | [x], _ => exact absurd (narrowPair_complete leads x).1 bad
  · rw [sequenceByte, if_neg pair]
    rfl

/-! ## Texts -/

theorem narrowed_end {rest : Bytes} (ended : decode rest = none) : narrowed rest = [] := by
  cases rest with
  | nil => rw [narrowed]
  | cons a rest =>
    by_cases nul : a = 0
    · rw [narrowed, if_pos nul]
    · rw [decode_eq_none, textOf_cons nul] at ended
      cases ended

/-- One step of narrowing is one step of decoding. -/
theorem narrowed_decode {a : UInt8} {rest : Bytes} {d : Decoded} (found : decode (a :: rest) = some d)
    (used : a ∉ unusedLeads) :
    narrowed (a :: rest) = narrowCodepoint d.codepoint :: narrowed ((a :: rest).drop d.length) := by
  obtain ⟨nonzero, reads⟩ := reads_of_decode found
  cases reads with
  | ascii short =>
    have low : a < 0x80 := UInt8.lt_iff_toNat_lt.2 short
    have latin : a.toNat ≤ 0xFF := by omega
    rw [narrowed, if_neg nonzero, if_pos low, narrowCodepoint, if_pos latin, UInt8.ofNat_toNat]
    rfl
  | stray high leads =>
    have notShort : ¬ a < 0x80 := by simpa [UInt8.lt_iff_toNat_lt] using high
    exact narrowed_stray notShort leads used rest
  | complete announced trails leads taken good =>
    rw [narrowed_lead leads, taken, sequenceByte_complete leads good]
    rfl
  | malformed announced trails leads taken bad =>
    subst taken
    rw [narrowed_lead leads, sequenceByte_malformed leads bad]
    rfl

private theorem narrowed_eq_codepoints {rest : Bytes} (used : ∀ b ∈ textOf rest, b ∉ unusedLeads) (offset : Nat) :
    narrowed rest = (stepsFrom rest offset).map (fun step => narrowCodepoint step.codepoint) := by
  fun_induction stepsFrom rest offset with
  | case1 rest offset ended => exact narrowed_end ended
  | case2 rest offset d found ih =>
    cases rest with
    | nil => cases found
    | cons a rest =>
      have first : a ∉ unusedLeads := used a (by rw [textOf_cons (reads_of_decode found).1]; exact List.mem_cons_self)
      have later : ∀ b ∈ textOf ((a :: rest).drop d.length), b ∉ unusedLeads := by
        intro b member
        apply used b
        rw [textOf_decode found]
        exact List.mem_append_right _ member
      rw [narrowed_decode found first, ih later, List.map_cons]

/-- Narrowing agrees with the walk. A text in which none of the bytes C0, C1, F5, F6 and F7 occurs is
narrowed to the code points that a walk finds, in order, each as one byte, or as a question mark when it
is past U+00FF. -/
theorem narrow_eq_codepoints {utf8 : Bytes} (used : ∀ b ∈ textOf utf8, b ∉ unusedLeads) :
    narrow utf8 = (codepointsOf utf8).map narrowCodepoint := by
  rw [narrow, sized_eq, narrowed_eq_codepoints used 0, codepointsOf, walk, List.drop_zero, List.map_map]
  rfl

/-- The theorem at a sequence cut short and a code point on each side of U+00FF, before a NUL with a byte after
it that leads nothing. -/
theorem narrow_eq_codepoints_malformed :
    (∀ b ∈ textOf [0xE2, 0x82, 0xC3, 0xA9, 0xC4, 0x80, 0, 0xC0], b ∉ unusedLeads) ∧
    narrow [0xE2, 0x82, 0xC3, 0xA9, 0xC4, 0x80, 0, 0xC0] =
      (codepointsOf [0xE2, 0x82, 0xC3, 0xA9, 0xC4, 0x80, 0, 0xC0]).map narrowCodepoint := by
  have used : ∀ b ∈ textOf [0xE2, 0x82, 0xC3, 0xA9, 0xC4, 0x80, 0, 0xC0], b ∉ unusedLeads := by
    simp [textOf, unusedLeads]
  exact ⟨used, narrow_eq_codepoints used⟩

end BoundedText
