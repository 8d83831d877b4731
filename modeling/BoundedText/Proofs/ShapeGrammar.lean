import BoundedText.Narrowing
import BoundedText.Proofs.Walking

/-!
# The shape of UTF-8

One counter of the continuation bytes still to come recognises a grammar: the text of an array has the shape
of UTF-8 exactly when it is made of sequences, each a lead byte with as many continuation bytes as its range
asks for (`shape_iff_grammar`). The counter stands for what may come next (`ShapedAfter`), and each byte takes
both sides from one state of it to the next (`shaped_cons`, `wellShaped_lead`). The encodings of code points
are such sequences.
-/

namespace BoundedText
open Utf8

/-! ## The grammar -/

/-- The bytes that continue a sequence. -/
def Trails (b : UInt8) : Prop := 0x80 ≤ b ∧ b ≤ 0xBF

/-- A sequence by its shape alone, whatever number it spells. -/
inductive ShapedSequence : Bytes → Prop
  | one {a : UInt8} (lead : 0x01 ≤ a ∧ a ≤ 0x7F) : ShapedSequence [a]
  | two {a b : UInt8} (lead : 0xC0 ≤ a ∧ a ≤ 0xDF) (next : Trails b) : ShapedSequence [a, b]
  | three {a b c : UInt8} (lead : 0xE0 ≤ a ∧ a ≤ 0xEF) (next : Trails b) (last : Trails c) : ShapedSequence [a, b, c]
  | four {a b c d : UInt8} (lead : 0xF0 ≤ a ∧ a ≤ 0xF7) (next : Trails b) (after : Trails c) (last : Trails d) :
      ShapedSequence [a, b, c, d]

/-- A text that is made of sequences, one after another. -/
inductive Shaped : Bytes → Prop
  | nil : Shaped []
  | cons {sequence text : Bytes} (first : ShapedSequence sequence) (later : Shaped text) : Shaped (sequence ++ text)

/-- A text that is made of sequences once so many continuation bytes have been read. -/
def ShapedAfter : Nat → Bytes → Prop
  | 0, text => Shaped text
  | pending + 1, text => ∃ b later, text = b :: later ∧ Trails b ∧ ShapedAfter pending later

private theorem shapedAfter_succ_cons {pending : Nat} {b : UInt8} {text : Bytes} :
    ShapedAfter (pending + 1) (b :: text) ↔ Trails b ∧ ShapedAfter pending text := by
  constructor
  · rintro ⟨first, later, same, trails, rest⟩
    obtain ⟨rfl, rfl⟩ := List.cons.inj same
    exact ⟨trails, rest⟩
  · rintro ⟨trails, rest⟩
    exact ⟨b, text, rfl, trails, rest⟩

/-- What may come after the first byte of a text. -/
theorem shaped_cons {a : UInt8} {text : Bytes} :
    Shaped (a :: text) ↔
      (0x01 ≤ a ∧ a ≤ 0x7F) ∧ ShapedAfter 0 text ∨ (0xC0 ≤ a ∧ a ≤ 0xDF) ∧ ShapedAfter 1 text ∨
        (0xE0 ≤ a ∧ a ≤ 0xEF) ∧ ShapedAfter 2 text ∨ (0xF0 ≤ a ∧ a ≤ 0xF7) ∧ ShapedAfter 3 text := by
  constructor
  · intro shaped
    generalize whole : a :: text = bytes at shaped
    cases shaped with
    | nil => cases whole
    | cons first later =>
      cases first with
      | one lead =>
        obtain ⟨rfl, rfl⟩ := List.cons.inj whole
        exact .inl ⟨lead, later⟩
      | two lead next =>
        obtain ⟨rfl, rfl⟩ := List.cons.inj whole
        exact .inr (.inl ⟨lead, _, _, rfl, next, later⟩)
      | three lead next last =>
        obtain ⟨rfl, rfl⟩ := List.cons.inj whole
        exact .inr (.inr (.inl ⟨lead, _, _, rfl, next, _, _, rfl, last, later⟩))
      | four lead next after last =>
        obtain ⟨rfl, rfl⟩ := List.cons.inj whole
        exact .inr (.inr (.inr ⟨lead, _, _, rfl, next, _, _, rfl, after, _, _, rfl, last, later⟩))
  · rintro (⟨lead, later⟩ | ⟨lead, b, _, rfl, next, later⟩ | ⟨lead, b, _, rfl, next, c, _, rfl, last, later⟩ |
      ⟨lead, b, _, rfl, next, c, _, rfl, after, d, _, rfl, last, later⟩)
    · exact .cons (.one lead) later
    · exact .cons (.two lead next) later
    · exact .cons (.three lead next last) later
    · exact .cons (.four lead next after last) later

/-! ## The counter -/

private theorem isContinuation_iff_trails {b : UInt8} : isContinuation b = true ↔ Trails b := by
  rw [isContinuation_iff, Trails, UInt8.le_iff_toNat_le, UInt8.le_iff_toNat_le]
  simp
  omega

/-- While continuation bytes are still to come, the next byte is one. -/
theorem wellShaped_pending {a : UInt8} (visible : a ≠ 0) (pending : Nat) (rest : Bytes) :
    wellShaped (pending + 1) (a :: rest) = true ↔ Trails a ∧ wellShaped pending rest = true := by
  rw [wellShaped, if_neg visible, ← isContinuation_iff_trails]
  cases isContinuation a <;> simp

/-- When none is, the next byte leads a sequence. -/
theorem wellShaped_lead {a : UInt8} (visible : a ≠ 0) (rest : Bytes) :
    wellShaped 0 (a :: rest) = true ↔
      (0x01 ≤ a ∧ a ≤ 0x7F) ∧ wellShaped 0 rest = true ∨ (0xC0 ≤ a ∧ a ≤ 0xDF) ∧ wellShaped 1 rest = true ∨
        (0xE0 ≤ a ∧ a ≤ 0xEF) ∧ wellShaped 2 rest = true ∨ (0xF0 ≤ a ∧ a ≤ 0xF7) ∧ wellShaped 3 rest = true := by
  have positive : 0 < a.toNat := Nat.pos_of_ne_zero fun zero => visible (UInt8.toNat_inj.1 zero)
  rw [wellShaped, if_neg visible]
  simp only [leadsTwo, leadsThree, leadsFour, isContinuation_iff, Bool.and_eq_true, decide_eq_true_eq,
    UInt8.le_iff_toNat_le, UInt8.lt_iff_toNat_lt, UInt8.reduceToNat]
  -- The tests leave one of the four ranges to each byte, or none of them.
  split_ifs <;> grind

private theorem wellShaped_nil {pending : Nat} : wellShaped pending [] = true ↔ ShapedAfter pending [] := by
  cases pending with
  | zero => exact ⟨fun _ => .nil, fun _ => rfl⟩
  | succ pending =>
    constructor
    · intro ended
      cases ended
    · rintro ⟨b, later, nothing, -⟩
      cases nothing

/-- The counter accepts what may come next. -/
theorem wellShaped_iff (pending : Nat) (bytes : Bytes) :
    wellShaped pending bytes = true ↔ ShapedAfter pending (textOf bytes) := by
  induction bytes generalizing pending with
  | nil => exact wellShaped_nil
  | cons b rest ih =>
    by_cases nul : b = 0
    · subst nul
      have ended : wellShaped pending (0 :: rest) = wellShaped pending [] := by rw [wellShaped, wellShaped, if_pos rfl]
      rw [ended]
      exact wellShaped_nil
    · rw [textOf_cons nul]
      cases pending with
      | zero =>
        rw [wellShaped_lead nul, ih, ih, ih, ih]
        exact shaped_cons.symm
      | succ pending => rw [wellShaped_pending nul, ih, shapedAfter_succ_cons]

/-! ## Encodings -/

/-- What spells a code point has the shape of a sequence. -/
theorem Utf8.Spells.shaped {c : Nat} {bytes : Bytes} (spelled : Spells c bytes) (nonzero : c ≠ 0) :
    ShapedSequence bytes := by
  have range : ∀ {low high b : UInt8}, low.toNat ≤ b.toNat → b.toNat ≤ high.toNat → low ≤ b ∧ b ≤ high :=
    fun below above => ⟨UInt8.le_iff_toNat_le.2 below, UInt8.le_iff_toNat_le.2 above⟩
  have trails : ∀ {b : UInt8} {n : Nat}, b.toNat = 0x80 + n % 0x40 → Trails b := by
    intro b n value
    apply range <;> simp <;> omega
  cases spelled with
  | one a short lead => exact .one (range (by simp; omega) (by simp; omega))
  | two a b long short lead last => exact .two (range (by simp; omega) (by simp; omega)) (trails last)
  | three a b d long short lead next last =>
    exact .three (range (by simp; omega) (by simp; omega)) (trails next) (trails last)
  | four a b d e long short lead next after last =>
    simp only [maxCodepoint] at short
    exact .four (range (by simp; omega) (by simp; omega)) (trails next) (trails after) (trails last)

private theorem shaped_encodeAll {codepoints : List Nat} (inside : ∀ c ∈ codepoints, c ≤ maxCodepoint ∧ c ≠ 0) :
    Shaped (encodeAll codepoints) := by
  induction codepoints with
  | nil => exact .nil
  | cons c rest ih =>
    obtain ⟨⟨last, nonzero⟩, others⟩ := List.forall_mem_cons.1 inside
    exact .cons ((spells_encode last).shaped nonzero) (ih others)

/-- The shape of UTF-8 is its grammar. A text passes exactly when it is made of sequences, each a lead byte and
the continuation bytes of its range; and every text that is the encoding of the code points that a walk finds
in it passes. -/
theorem shape_iff_grammar (bytes : Bytes) :
    (hasUtf8Shape bytes = true ↔ Shaped (textOf bytes)) ∧
    (textOf bytes = encodeAll (codepointsOf bytes) → hasUtf8Shape bytes = true) := by
  have grammar : hasUtf8Shape bytes = true ↔ Shaped (textOf bytes) := wellShaped_iff 0 bytes
  refine ⟨grammar, ?_⟩
  intro encoded
  rw [grammar, encoded]
  exact shaped_encodeAll fun c => inside_of_mem_codepointsOf

/-- The theorem at a text of all four widths before a NUL with a stray byte after it. -/
theorem shape_iff_grammar_widths :
    let bytes : Bytes := [0x41, 0xC3, 0xA9, 0xE2, 0x82, 0xAC, 0xF0, 0x9F, 0x98, 0x80, 0, 0x80]
    textOf bytes = encodeAll (codepointsOf bytes) ∧ hasUtf8Shape bytes = true := by
  intro bytes
  have read : codepointsOf bytes = [0x41, 0xE9, 0x20AC, 0x1F600] := by cbv
  have encoded : textOf bytes = encodeAll (codepointsOf bytes) := by
    rw [read]
    decide
  exact ⟨encoded, (shape_iff_grammar bytes).2 encoded⟩

end BoundedText
