import BoundedText.Proofs.EncodedOccurrences
import BoundedText.Proofs.Strings
import BoundedText.Text

/-!
# Decoded text

Decoding with replacement and walking are two readings of UTF-8. The one takes a byte at a time and bounds the
next, the other takes a sequence at a time and tests the number it spells. The bytes of a code point that a text
may hold keep all the bounds, so that decoding comes back to between two sequences after them and has given
that code point and nothing else (`codepointsAfter_spelled`). Text that is made of encodings is therefore read
alike by both, except for a byte order mark at its start, which decoding leaves out (`decoders_agree`).
-/

namespace BoundedText
open Utf8

namespace Replacing

/-! ## What a lead byte announces -/

section announced
variable {a : UInt8}

private theorem announced_two (low : 0xC2 ≤ a.toNat) (high : a.toNat ≤ 0xDF) :
    announced a = some ⟨a.toNat % 0x20, 0, 0x80, 0xBF⟩ := by
  have mask : a.toNat &&& 0x1F = a.toNat % 0x20 := Nat.and_two_pow_sub_one_eq_mod _ 5
  rw [announced, if_pos ⟨UInt8.le_iff_toNat_le.2 low, UInt8.le_iff_toNat_le.2 high⟩, mask]

private theorem announced_three (low : 0xE0 ≤ a.toNat) (high : a.toNat ≤ 0xEF) :
    announced a =
      some ⟨a.toNat % 0x10, 1, if a = 0xE0 then 0xA0 else 0x80, if a = 0xED then 0x9F else 0xBF⟩ := by
  have mask : a.toNat &&& 0x0F = a.toNat % 0x10 := Nat.and_two_pow_sub_one_eq_mod _ 4
  have past : ¬ (0xC2 ≤ a ∧ a ≤ 0xDF) := by
    rintro ⟨-, below⟩
    have := UInt8.le_iff_toNat_le.1 below
    simp at this
    omega
  rw [announced, if_neg past, if_pos ⟨UInt8.le_iff_toNat_le.2 low, UInt8.le_iff_toNat_le.2 high⟩, mask]

private theorem announced_four (low : 0xF0 ≤ a.toNat) (high : a.toNat ≤ 0xF4) :
    announced a =
      some ⟨a.toNat % 0x08, 2, if a = 0xF0 then 0x90 else 0x80, if a = 0xF4 then 0x8F else 0xBF⟩ := by
  have mask : a.toNat &&& 0x07 = a.toNat % 0x08 := Nat.and_two_pow_sub_one_eq_mod _ 3
  have past {top : UInt8} {bottom : UInt8} (under : top.toNat < 0xF0) : ¬ (bottom ≤ a ∧ a ≤ top) := by
    rintro ⟨-, below⟩
    have := UInt8.le_iff_toNat_le.1 below
    omega
  rw [announced, if_neg (past (by decide)), if_neg (past (by decide)),
    if_pos ⟨UInt8.le_iff_toNat_le.2 low, UInt8.le_iff_toNat_le.2 high⟩, mask]

/-- A bound that is tighter after one lead byte is kept where both bounds are. -/
theorem bound_le {edge tight loose b : UInt8} (kept : a = edge → tight.toNat ≤ b.toNat) (always : loose.toNat ≤ b.toNat) :
    (if a = edge then tight else loose).toNat ≤ b.toNat := by
  split
  · exact kept ‹_›
  · exact always

private theorem le_bound {edge tight loose b : UInt8} (kept : a = edge → b.toNat ≤ tight.toNat)
    (always : b.toNat ≤ loose.toNat) :
    b.toNat ≤ (if a = edge then tight else loose).toNat := by
  split
  · exact kept ‹_›
  · exact always

end announced

/-! ## One byte -/

private theorem first_ascii {b : UInt8} (short : b.toNat < 0x80) : first b = ([b.toNat], none) :=
  if_pos (UInt8.lt_iff_toNat_lt.2 short)

private theorem first_lead {b : UInt8} {pending : Pending} (high : 0x80 ≤ b.toNat)
    (leads : announced b = some pending) :
    first b = ([], some pending) := by
  have long : ¬ b < 0x80 := by simpa [UInt8.lt_iff_toNat_lt] using high
  rw [first, if_neg long, leads]

section next
variable {value : Nat} {low high b : UInt8} (above : low.toNat ≤ b.toNat) (below : b.toNat ≤ high.toNat)
include above below

private theorem next_last : (Pending.mk value 0 low high).next b = ([value * 0x40 + b.toNat % 0x40], none) := by
  rw [Pending.next, if_pos ⟨UInt8.le_iff_toNat_le.2 above, UInt8.le_iff_toNat_le.2 below⟩, append_six]

private theorem next_more (more : Nat) :
    (Pending.mk value (more + 1) low high).next b = ([], some ⟨value * 0x40 + b.toNat % 0x40, more, 0x80, 0xBF⟩) := by
  rw [Pending.next, if_pos ⟨UInt8.le_iff_toNat_le.2 above, UInt8.le_iff_toNat_le.2 below⟩, append_six]

end next

/-! ## One sequence -/

/-- The sequence of a code point gives that code point, and leaves nothing incomplete. -/
theorem codepointsAfter_spelled {c : Nat} {bytes : Bytes} (spelled : Spells c bytes) (scalar : IsScalar c) (rest : Bytes) :
    codepointsAfter none (bytes ++ rest) = c :: codepointsAfter none rest := by
  obtain ⟨inside, plain⟩ := scalar
  simp only [maxCodepoint] at inside
  simp only [isSurrogate, Bool.and_eq_false_iff, decide_eq_false_iff_not] at plain
  cases spelled with
  | one a short lead =>
    simp only [List.cons_append, List.nil_append, codepointsAfter, first_ascii (lead ▸ short), lead]
  | two a b long short lead last =>
    have leads := first_lead (by omega) (@announced_two a (by omega) (by omega))
    have ends := @next_last (a.toNat % 0x20) 0x80 0xBF b (by simp; omega) (by simp; omega)
    have value : a.toNat % 0x20 * 0x40 + b.toNat % 0x40 = c := by omega
    simp only [List.cons_append, List.nil_append, codepointsAfter, leads, ends, value]
  | three a b d long short lead next last =>
    -- The value is no overlong form after E0 and no surrogate after ED, which is what the tighter bounds ask.
    have above : (if a = 0xE0 then (0xA0 : UInt8) else 0x80).toNat ≤ b.toNat :=
      bound_le (by rintro rfl; simp at lead ⊢; omega) (by simp; omega)
    have below : b.toNat ≤ (if a = 0xED then (0x9F : UInt8) else 0xBF).toNat :=
      le_bound (by rintro rfl; simp at lead ⊢; omega) (by simp; omega)
    have leads := first_lead (by omega) (@announced_three a (by omega) (by omega))
    have goes := @next_more (a.toNat % 0x10) _ _ b above below 0
    have ends := @next_last (a.toNat % 0x10 * 0x40 + b.toNat % 0x40) 0x80 0xBF d (by simp; omega) (by simp; omega)
    have value : (a.toNat % 0x10 * 0x40 + b.toNat % 0x40) * 0x40 + d.toNat % 0x40 = c := by omega
    simp only [List.cons_append, List.nil_append, codepointsAfter, leads, goes, ends, value]
  | four a b d e long short lead next after last =>
    have above : (if a = 0xF0 then (0x90 : UInt8) else 0x80).toNat ≤ b.toNat :=
      bound_le (by rintro rfl; simp at lead ⊢; omega) (by simp; omega)
    have below : b.toNat ≤ (if a = 0xF4 then (0x8F : UInt8) else 0xBF).toNat :=
      le_bound (by rintro rfl; simp at lead ⊢; omega) (by simp; omega)
    have leads := first_lead (by omega) (@announced_four a (by omega) (by omega))
    have goes := @next_more (a.toNat % 0x08) _ _ b above below 1
    have goes' := @next_more (a.toNat % 0x08 * 0x40 + b.toNat % 0x40) 0x80 0xBF d (by simp; omega) (by simp; omega) 0
    have ends := @next_last ((a.toNat % 0x08 * 0x40 + b.toNat % 0x40) * 0x40 + d.toNat % 0x40) 0x80 0xBF e
      (by simp; omega) (by simp; omega)
    have value : ((a.toNat % 0x08 * 0x40 + b.toNat % 0x40) * 0x40 + d.toNat % 0x40) * 0x40 + e.toNat % 0x40 = c := by
      omega
    simp only [List.cons_append, List.nil_append, codepointsAfter, leads, goes, goes', ends, value]

/-! ## Encoded text -/

private theorem codepointsAfter_encodeAll {codepoints : List Nat} (scalars : Scalars codepoints) :
    codepointsAfter none (encodeAll codepoints) = codepoints := by
  induction codepoints with
  | nil => rfl
  | cons c rest ih =>
    obtain ⟨scalar, others⟩ := List.forall_mem_cons.1 scalars
    rw [encodeAll_cons, codepointsAfter_spelled (spells_encode scalar.1) scalar, ih others]

/-- The byte order mark. -/
def mark : Nat := 0xFEFF

private theorem withoutMark_mark (rest : Bytes) : withoutMark (encode mark ++ rest) = rest := rfl

private theorem withoutMark_other {bytes : Bytes} (unmarked : ¬ encode mark <+: bytes) : withoutMark bytes = bytes := by
  unfold withoutMark
  split
  · rename_i rest
    exact absurd ⟨rest, rfl⟩ unmarked
  · rfl

/-- A text that is made of encodings is decoded to its code points, without a byte order mark at its start. -/
theorem codepointsAfter_withoutMark {codepoints : List Nat} (scalars : ∀ c ∈ codepoints, IsScalar c ∧ c ≠ 0) :
    codepointsAfter none (withoutMark (encodeAll codepoints)) =
      if codepoints.head? = some mark then codepoints.tail else codepoints := by
  have inside : Scalars codepoints := fun c member => (scalars c member).1
  split
  · rename_i marked
    obtain ⟨rest, rfl⟩ := List.head?_eq_some_iff.1 marked
    rw [encodeAll_cons, withoutMark_mark, List.tail_cons]
    exact codepointsAfter_encodeAll (List.forall_mem_cons.1 inside).2
  · rename_i unmarked
    rw [withoutMark_other, codepointsAfter_encodeAll inside]
    intro begins
    have known : ∀ c ∈ [mark], IsScalar c ∧ c ≠ 0 := by decide
    have alone : encodeAll [mark] = encode mark := List.flatMap_singleton ..
    rw [← alone, prefix_encodeAll known scalars] at begins
    obtain ⟨rest, rfl⟩ := begins
    exact unmarked rfl

end Replacing

/-- The two readings agree on encoded text. Where the text from an offset on is made of encodings of code points
that a text may hold, decoding it gives the code points that are walked from there, and all but the first of
them where that is a byte order mark; the string of what was decoded has just these code points. -/
theorem decoders_agree {bytes : Bytes} {start : Nat} {codepoints : List Nat} (scalars : Scalars codepoints)
    (text : textOf (bytes.drop start) = encodeAll codepoints) :
    let walked := (walk bytes start).map Step.codepoint
    walked = codepoints ∧
    (walked.head? ≠ some Replacing.mark → decodeText bytes start = walked) ∧
    (walked.head? = some Replacing.mark → decodeText bytes start = walked.tail) ∧
    Utf16.codepoints (Utf16.ofCodepoints (decodeText bytes start)) = decodeText bytes start := by
  intro walked
  have nonzero : ∀ c ∈ codepoints, c ≠ 0 := nonzero_of_encodeAll fun b member => ne_zero_of_mem_text (text ▸ member)
  have known : ∀ c ∈ codepoints, IsScalar c ∧ c ≠ 0 := fun c member => ⟨scalars c member, nonzero c member⟩
  have same : walked = codepoints := (map_codepoint_walk bytes start).trans (codepointsOf_encoded known text)
  have decoded : decodeText bytes start = if codepoints.head? = some Replacing.mark then codepoints.tail else codepoints := by
    rw [decodeText, text, Replacing.codepointsAfter_withoutMark known]
  rw [same]
  refine ⟨rfl, fun unmarked => ?_, fun marked => ?_, ?_⟩
  · rw [decoded, if_neg unmarked]
  · rw [decoded, if_pos marked]
  · apply Utf16.codepoints_ofCodepoints
    rw [decoded]
    split
    · exact fun c member => scalars c (List.mem_of_mem_tail member)
    · exact scalars

/-- The theorem at code points of all four widths, the last of their ranges among them, behind a byte order mark
and from the code point after it on, before a NUL with a malformed byte behind it. -/
theorem decoders_agree_marked :
    let bytes : Bytes := [0xEF, 0xBB, 0xBF, 0x41, 0xC3, 0xA9, 0xED, 0x9F, 0xBF, 0xF4, 0x8F, 0xBF, 0xBF, 0, 0xC3]
    (Scalars [0xFEFF, 0x41, 0xE9, 0xD7FF, 0x10FFFF] ∧
      textOf (bytes.drop 0) = encodeAll [0xFEFF, 0x41, 0xE9, 0xD7FF, 0x10FFFF] ∧
      decodeText bytes 0 = [0x41, 0xE9, 0xD7FF, 0x10FFFF]) ∧
    (Scalars [0x41, 0xE9, 0xD7FF, 0x10FFFF] ∧
      textOf (bytes.drop 3) = encodeAll [0x41, 0xE9, 0xD7FF, 0x10FFFF] ∧
      decodeText bytes 3 = [0x41, 0xE9, 0xD7FF, 0x10FFFF]) := by
  intro bytes
  have scalars : Scalars [0xFEFF, 0x41, 0xE9, 0xD7FF, 0x10FFFF] := by unfold Scalars; decide
  have text : textOf (bytes.drop 0) = encodeAll [0xFEFF, 0x41, 0xE9, 0xD7FF, 0x10FFFF] := by decide
  have scalars' : Scalars [0x41, 0xE9, 0xD7FF, 0x10FFFF] := by unfold Scalars; decide
  have text' : textOf (bytes.drop 3) = encodeAll [0x41, 0xE9, 0xD7FF, 0x10FFFF] := by decide
  obtain ⟨walked, -, marked, -⟩ := decoders_agree scalars text
  obtain ⟨walked', unmarked, -, -⟩ := decoders_agree scalars' text'
  rw [walked] at marked
  rw [walked'] at unmarked
  exact ⟨⟨scalars, text, marked (by decide)⟩, scalars', text', unmarked (by decide)⟩

end BoundedText
