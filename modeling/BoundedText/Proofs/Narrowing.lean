import BoundedText.Narrowing
import BoundedText.Proofs.Widening

/-!
# Narrowing

Narrowing takes a widened text back to its Latin-1 bytes, character by character (`narrowed_latin`), and
a widened text has the shape of UTF-8 (`wellShaped_latin`). So widening and narrowing are inverse between
Latin-1 texts and the UTF-8 texts of code points up to U+00FF (`widen_narrow_inverse`).
-/

namespace BoundedText
open Utf8

/-- The two bytes of a character that is not ASCII lead and continue, and are read as that character. -/
theorem latinForm_pair {b : UInt8} (high : ¬ b < 0x80) :
    ∃ lead last, latinForm b = [lead, last] ∧ leadsTwo lead = true ∧ isContinuation last = true ∧
      narrowPair lead [last] = b := by
  have every : ∀ c : UInt8, let lead := (0xC0 : UInt8) ||| (c >>> 6)
      let last := (0x80 : UInt8) ||| (c &&& 0x3F)
      leadsTwo lead = true ∧ isContinuation last = true ∧ narrowPair lead [last] = c :=
    forall_byte (by decide +kernel)
  exact ⟨_, _, if_neg high, every b⟩

private theorem leadsTwo_high {b : UInt8} (leads : leadsTwo b = true) :
    b ≠ 0 ∧ ¬ b < 0x80 ∧ ¬ isContinuation b = true := by
  simp only [leadsTwo, Bool.and_eq_true, decide_eq_true_eq, UInt8.le_iff_toNat_le] at leads
  have low : 0xC0 ≤ b.toNat := leads.1
  refine ⟨?_, ?_, ?_⟩
  · rintro rfl
    simp at low
  · rw [UInt8.lt_iff_toNat_lt]
    simp
    omega
  · rw [isContinuation_iff]
    omega

section latin
variable {b : UInt8} (nonzero : b ≠ 0) (rest : Bytes)
include nonzero

theorem narrowed_latin : narrowed (latinForm b ++ rest) = b :: narrowed rest := by
  by_cases low : b < 0x80
  · rw [latinForm, if_pos low, List.singleton_append, narrowed, if_neg nonzero, if_pos low]
  · obtain ⟨lead, last, form, leads, continues, same⟩ := latinForm_pair low
    obtain ⟨some, notAscii, -⟩ := leadsTwo_high leads
    have taken : continuations 1 (last :: rest) = [last] := by simp [continuations, continues]
    rw [form, List.cons_append, List.singleton_append, narrowed, if_neg some, if_neg notAscii, if_pos leads]
    simp only [taken, same, List.length_singleton, List.drop_one, List.tail_cons]

theorem wellShaped_latin : wellShaped 0 (latinForm b ++ rest) = wellShaped 0 rest := by
  by_cases low : b < 0x80
  · have single : ¬ isContinuation b = true := by
      rw [isContinuation_iff]
      rw [UInt8.lt_iff_toNat_lt] at low
      simp at low
      omega
    rw [latinForm, if_pos low, List.singleton_append, wellShaped, if_neg nonzero, if_neg single,
      if_neg (not_not.2 rfl), if_pos low]
  · obtain ⟨lead, last, form, leads, continues, -⟩ := latinForm_pair low
    obtain ⟨some, notAscii, notTrail⟩ := leadsTwo_high leads
    have visible := continuation_ne_zero continues
    rw [form, List.cons_append, List.singleton_append, wellShaped, if_neg some, if_neg notTrail,
      if_neg (not_not.2 rfl), if_neg notAscii, if_pos leads, wellShaped, if_neg visible, if_pos continues]
    rfl

end latin

/-- A widened text has the shape of UTF-8 and is narrowed to the text it was made of. -/
theorem narrowed_widen {latin : Bytes} (visible : 0 ∉ latin) :
    hasUtf8Shape (widen latin) = true ∧ narrowed (widen latin) = latin := by
  rw [widen_eq, hasUtf8Shape]
  induction latin with
  | nil => exact ⟨rfl, by rw [List.flatMap_nil, narrowed]⟩
  | cons b latin ih =>
    obtain ⟨first, others⟩ := not_or.1 (List.mem_cons.not.1 visible)
    obtain ⟨shape, back⟩ := ih others
    rw [List.flatMap_cons, wellShaped_latin (Ne.symm first), narrowed_latin (Ne.symm first), shape, back]
    exact ⟨rfl, rfl⟩

/-- Code points up to U+00FF are encoded as the Latin-1 text of them is widened. -/
theorem encodeAll_eq_widen {codepoints : List Nat} (inside : ∀ c ∈ codepoints, c ≤ 0xFF) :
    encodeAll codepoints = widen (codepoints.map UInt8.ofNat) := by
  have same : (codepoints.map UInt8.ofNat).map UInt8.toNat = codepoints := by
    conv_rhs => rw [← List.map_id codepoints]
    rw [List.map_map]
    apply List.map_congr_left
    intro c member
    exact UInt8.toNat_ofNat_of_lt' (Nat.lt_succ_of_le (inside c member))
  rw [widen, same]

/-- Widening and narrowing are inverse. A Latin-1 text without a NUL is widened to a text of the shape of
UTF-8 that is narrowed back to it, and a text without a NUL that encodes code points up to U+00FF is what
it is narrowed to, widened. -/
theorem widen_narrow_inverse :
    (∀ latin : Bytes, 0 ∉ latin →
      let utf8 := (latin1ToUtf8 latin none false).bytes
      hasUtf8Shape utf8 = true ∧ narrow utf8 = latin) ∧
    (∀ (utf8 : Bytes) (codepoints : List Nat), 0 ∉ utf8 → (∀ c ∈ codepoints, IsScalar c ∧ c ≤ 0xFF) →
      utf8 = encodeAll codepoints → (latin1ToUtf8 (narrow utf8) none false).bytes = utf8) := by
  have widens : ∀ latin : Bytes, latin1ToUtf8 latin none false = ⟨widen latin, []⟩ :=
    fun latin => latin1ToUtf8_all rfl false
  constructor
  · intro latin visible
    simp only [widens, narrow, sized_eq]
    exact narrowed_widen visible
  · intro utf8 codepoints visible inside made
    have latin := encodeAll_eq_widen (fun c member => (inside c member).2)
    have plain : 0 ∉ codepoints.map UInt8.ofNat := by
      intro member
      apply visible
      rw [made, latin, widen_eq, List.mem_flatMap]
      exact ⟨0, member, by decide⟩
    rw [widens, narrow, sized_eq, made, latin, (narrowed_widen plain).2]

/-- The theorem at a byte of each half and the last one, and at the encodings of U+0041 and U+00FF. -/
theorem widen_narrow_inverse_samples :
    (0 ∉ ([0x41, 0x80, 0xFF] : Bytes) ∧ hasUtf8Shape (latin1ToUtf8 [0x41, 0x80, 0xFF] none false).bytes = true ∧
      narrow (latin1ToUtf8 [0x41, 0x80, 0xFF] none false).bytes = [0x41, 0x80, 0xFF]) ∧
    (0 ∉ ([0x41, 0xC3, 0xBF] : Bytes) ∧ (∀ c ∈ [0x41, 0xFF], IsScalar c ∧ c ≤ 0xFF) ∧
      [0x41, 0xC3, 0xBF] = encodeAll [0x41, 0xFF] ∧
      (latin1ToUtf8 (narrow [0x41, 0xC3, 0xBF]) none false).bytes = [0x41, 0xC3, 0xBF]) := by
  have visible : 0 ∉ ([0x41, 0x80, 0xFF] : Bytes) := by decide
  have plain : 0 ∉ ([0x41, 0xC3, 0xBF] : Bytes) := by decide
  have inside : ∀ c ∈ [0x41, 0xFF], IsScalar c ∧ c ≤ 0xFF := by decide
  have made : [0x41, 0xC3, 0xBF] = encodeAll [0x41, 0xFF] := by decide
  refine ⟨⟨visible, widen_narrow_inverse.1 _ visible⟩, plain, inside, made, ?_⟩
  exact widen_narrow_inverse.2 _ _ plain inside made

end BoundedText
