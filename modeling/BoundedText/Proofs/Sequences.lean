import BoundedText.Walk
import Mathlib.Data.List.TakeWhile
import Mathlib.Tactic

/-!
# Sequences

The byte sequence of a code point in arithmetic (`Spells`), and all that decoding can make of bytes
(`Reads`). Encoding writes exactly the sequence (`spells_encode`), decoding reads every sequence back
whatever follows (`decode_spelled`), and whatever it reads as anything but U+FFFD was one
(`spelled_of_decode`): no overlong form, surrogate, value out of range or sequence cut short gets
through. Decoding looks no further than the bytes it takes up (`decode_take`), there is no NUL among them,
and what follows them changes nothing unless it continues the sequence (`decode_append`).
-/

namespace BoundedText.Utf8

/-- The bytes that spell a code point: a lead byte with the high bits, then six bits a byte. -/
inductive Spells (c : Nat) : Bytes → Prop
  | one (a : UInt8) (short : c < 0x80) (lead : a.toNat = c) : Spells c [a]
  | two (a b : UInt8) (long : 0x80 ≤ c) (short : c < 0x800) (lead : a.toNat = 0xC0 + c / 0x40)
      (last : b.toNat = 0x80 + c % 0x40) : Spells c [a, b]
  | three (a b d : UInt8) (long : 0x800 ≤ c) (short : c < 0x10000) (lead : a.toNat = 0xE0 + c / 0x1000)
      (next : b.toNat = 0x80 + c / 0x40 % 0x40) (last : d.toNat = 0x80 + c % 0x40) : Spells c [a, b, d]
  | four (a b d e : UInt8) (long : 0x10000 ≤ c) (short : c ≤ maxCodepoint) (lead : a.toNat = 0xF0 + c / 0x40000)
      (next : b.toNat = 0x80 + c / 0x1000 % 0x40) (after : d.toNat = 0x80 + c / 0x40 % 0x40)
      (last : e.toNat = 0x80 + c % 0x40) : Spells c [a, b, d, e]

/-! ## Bits -/

private theorem mask_six (n : Nat) : n &&& 0x3F = n % 0x40 := Nat.and_two_pow_sub_one_eq_mod n 6

/-- The byte of a tag whose bits lie above those of a number. -/
private theorem toNat_tag {tag n i k : Nat} (low : n < 2 ^ i) (above : tag = 2 ^ i * k) (fits : tag + n < 0x100) :
    (UInt8.ofNat (tag ||| n)).toNat = tag + n := by
  have added : tag ||| n = tag + n := by
    rw [above]
    exact (Nat.two_pow_add_eq_or_of_lt low k).symm
  rw [added]
  exact UInt8.toNat_ofNat_of_lt' fits

private theorem toNat_trail (n : Nat) : (trail n).toNat = 0x80 + n % 0x40 := by
  rw [trail, mask_six, toNat_tag (i := 6) (k := 2) (by omega) (by rfl) (by omega)]

theorem isContinuation_iff (b : UInt8) : isContinuation b = true ↔ 0x80 ≤ b.toNat ∧ b.toNat < 0xC0 := by
  have every : ∀ n : Fin 256, (n.val &&& 0xC0 = 0x80) ↔ 0x80 ≤ n.val ∧ n.val < 0xC0 := by decide +kernel
  have here := every ⟨b.toNat, b.toNat_lt⟩
  simpa [isContinuation, ← UInt8.toNat_inj] using here

/-- Six bits put after a number. -/
theorem append_six (value : Nat) (b : UInt8) :
    (value <<< 6) ||| (b.toNat &&& 0x3F) = value * 0x40 + b.toNat % 0x40 := by
  rw [mask_six]
  have low : b.toNat % 0x40 < 2 ^ 6 := Nat.mod_lt _ (by decide)
  rw [← Nat.shiftLeft_add_eq_or_of_lt low, Nat.shiftLeft_eq]

theorem payload_one (a b : UInt8) : payload a [b] = a.toNat % 0x20 * 0x40 + b.toNat % 0x40 := by
  have mask : a.toNat &&& (0x3F >>> 1) = a.toNat % 0x20 := Nat.and_two_pow_sub_one_eq_mod _ 5
  simp only [payload, List.foldl_cons, List.foldl_nil, append_six, List.length_cons, List.length_nil]
  rw [mask]

private theorem payload_two (a b d : UInt8) :
    payload a [b, d] = (a.toNat % 0x10 * 0x40 + b.toNat % 0x40) * 0x40 + d.toNat % 0x40 := by
  have mask : a.toNat &&& (0x3F >>> 2) = a.toNat % 0x10 := Nat.and_two_pow_sub_one_eq_mod _ 4
  simp only [payload, List.foldl_cons, List.foldl_nil, append_six, List.length_cons, List.length_nil]
  rw [mask]

private theorem payload_three (a b d e : UInt8) :
    payload a [b, d, e] =
      ((a.toNat % 0x08 * 0x40 + b.toNat % 0x40) * 0x40 + d.toNat % 0x40) * 0x40 + e.toNat % 0x40 := by
  have mask : a.toNat &&& (0x3F >>> 3) = a.toNat % 0x08 := Nat.and_two_pow_sub_one_eq_mod _ 3
  simp only [payload, List.foldl_cons, List.foldl_nil, append_six, List.length_cons, List.length_nil]
  rw [mask]

/-! ## Encoding -/

theorem length_of_spells {c : Nat} {bytes : Bytes} (spelled : Spells c bytes) : bytes.length = width c := by
  cases spelled with
  | one a short lead => simp [width, short]
  | two a b long short lead last =>
    have : ¬ c < 0x80 := by omega
    simp [width, short, this]
  | three a b d long short lead next last =>
    have : ¬ c < 0x80 ∧ ¬ c < 0x800 := by omega
    simp [width, short, this]
  | four a b d e long short lead next after last =>
    have : ¬ c < 0x80 ∧ ¬ c < 0x800 ∧ ¬ c < 0x10000 := by omega
    simp [width, short, this]

theorem Spells.visible {c : Nat} {bytes : Bytes} (spelled : Spells c bytes) (nonzero : c ≠ 0) : ∀ b ∈ bytes, b ≠ 0 := by
  have positive : ∀ b ∈ bytes, 0 < b.toNat := by
    cases spelled with
    | one a short lead => simp; omega
    | two a b long short lead last => simp; omega
    | three a b d long short lead next last => simp; omega
    | four a b d e long short lead next after last => simp; omega
  rintro b member rfl
  exact Nat.lt_irrefl 0 (positive 0 member)

/-- A code point is spelled in one way only. -/
theorem Spells.unique {c : Nat} {first second : Bytes} (h : Spells c first) (h' : Spells c second) :
    first = second := by
  cases h <;> cases h' <;> first | omega | skip
  all_goals simp only [List.cons.injEq, and_true, ← UInt8.toNat_inj]
  all_goals omega

/-- Bytes spell one code point at most. -/
theorem Spells.inj {c d : Nat} {bytes : Bytes} (h : Spells c bytes) (h' : Spells d bytes) : c = d := by
  cases h <;> cases h' <;> omega

/-- Every number up to the last code point is encoded by what spells it. -/
theorem spells_encode {c : Nat} (inside : c ≤ maxCodepoint) : Spells c (encode c) := by
  have six : c >>> 6 = c / 0x40 := Nat.shiftRight_eq_div_pow c 6
  have twelve : c >>> 12 = c / 0x1000 := Nat.shiftRight_eq_div_pow c 12
  have eighteen : c >>> 18 = c / 0x40000 := Nat.shiftRight_eq_div_pow c 18
  simp only [maxCodepoint] at inside
  unfold encode
  split
  · rename_i short
    have fits : c < 0x100 := by omega
    exact .one _ short (UInt8.toNat_ofNat_of_lt' fits)
  · rename_i long
    split
    · rename_i short
      refine .two _ _ (by omega) short ?_ (toNat_trail c)
      rw [six, toNat_tag (i := 6) (k := 3) (by omega) (by rfl) (by omega)]
    · rename_i longer
      split
      · rename_i short
        refine .three _ _ _ (by omega) short ?_ (by rw [toNat_trail, six]) (toNat_trail c)
        rw [twelve, toNat_tag (i := 5) (k := 7) (by omega) (by rfl) (by omega)]
      · rename_i longest
        refine .four _ _ _ _ (by omega) inside ?_ (by rw [toNat_trail, twelve]) (by rw [toNat_trail, six])
          (toNat_trail c)
        rw [eighteen, toNat_tag (i := 4) (k := 15) (by omega) (by rfl) (by omega)]

@[simp] theorem length_encode {c : Nat} (inside : c ≤ maxCodepoint) : (encode c).length = width c :=
  length_of_spells (spells_encode inside)

theorem inside_of_widthOf {c : Int} (known : widthOf c ≠ 0) : 0 ≤ c ∧ c.toNat ≤ maxCodepoint := by
  rw [widthOf] at known
  split at known
  · exact absurd rfl known
  · refine ⟨by omega, ?_⟩
    by_contra past
    have large : ¬ c.toNat < 0x80 ∧ ¬ c.toNat < 0x800 ∧ ¬ c.toNat < 0x10000 := by
      simp only [maxCodepoint] at past
      omega
    exact known (by rw [width, if_neg large.1, if_neg large.2.1, if_neg large.2.2, if_neg past])

theorem encodeOf_known {c : Int} (known : widthOf c ≠ 0) : encodeOf c = encode c.toNat := by
  obtain ⟨positive, -⟩ := inside_of_widthOf known
  rw [encodeOf, if_neg (by omega)]

theorem length_encodeOf {c : Int} (known : widthOf c ≠ 0) : (encodeOf c).length = widthOf c := by
  obtain ⟨positive, inside⟩ := inside_of_widthOf known
  rw [encodeOf_known known, length_encode inside, widthOf, if_neg (by omega)]

/-! ## Decoding -/

private theorem trailCount_two {a : UInt8} (low : 0xC2 ≤ a.toNat) (high : a.toNat ≤ 0xDF) : trailCount a = some 1 := by
  simp [trailCount, UInt8.le_iff_toNat_le, low, high]
private theorem trailCount_three {a : UInt8} (low : 0xE0 ≤ a.toNat) (high : a.toNat ≤ 0xEF) :
    trailCount a = some 2 := by
  have : ¬ a.toNat ≤ 0xDF := by omega
  simp [trailCount, UInt8.le_iff_toNat_le, low, high, this]
private theorem trailCount_four {a : UInt8} (low : 0xF0 ≤ a.toNat) (high : a.toNat ≤ 0xF4) : trailCount a = some 3 := by
  have : ¬ a.toNat ≤ 0xDF ∧ ¬ a.toNat ≤ 0xEF := by omega
  simp [trailCount, UInt8.le_iff_toNat_le, low, high, this]

/-- The lead bytes, by the number of bytes that they announce. -/
theorem trailCount_eq_some {a : UInt8} {announced : Nat} (leads : trailCount a = some announced) :
    (announced = 1 ∧ 0xC2 ≤ a.toNat ∧ a.toNat ≤ 0xDF) ∨ (announced = 2 ∧ 0xE0 ≤ a.toNat ∧ a.toNat ≤ 0xEF) ∨
      (announced = 3 ∧ 0xF0 ≤ a.toNat ∧ a.toNat ≤ 0xF4) := by
  simp only [trailCount, UInt8.le_iff_toNat_le] at leads
  split at leads
  · rename_i range; cases leads; exact .inl ⟨rfl, range⟩
  · split at leads
    · rename_i range; cases leads; exact .inr (.inl ⟨rfl, range⟩)
    · split at leads
      · rename_i range; cases leads; exact .inr (.inr ⟨rfl, range⟩)
      · cases leads

theorem high_of_leads {a : UInt8} {announced : Nat} (leads : trailCount a = some announced) : 0x80 ≤ a.toNat := by
  have range := trailCount_eq_some leads
  omega

/-- Continuation bytes that are as many as announced are all taken. -/
theorem continuations_append (trails rest : Bytes) (all : ∀ b ∈ trails, isContinuation b = true) :
    continuations trails.length (trails ++ rest) = trails := by
  rw [continuations, List.take_left, List.takeWhile_eq_self_iff]
  exact all

/-- The bytes taken are what comes next, and each continues. -/
theorem continuations_spec (announced : Nat) (rest : Bytes) :
    continuations announced rest = rest.take (continuations announced rest).length ∧
      ∀ b ∈ continuations announced rest, isContinuation b = true := by
  have within : continuations announced rest <+: rest :=
    List.takeWhile_prefix _ |>.trans (List.take_prefix announced rest)
  exact ⟨List.prefix_iff_eq_take.1 within, fun b taken => List.mem_takeWhile_imp taken⟩

/-- A lead byte and the bytes after it are the sequence of a value: as many as announced, no longer than
the value needs, and of a code point that a text may hold. -/
def Complete (announced : Nat) (a : UInt8) (trails : Bytes) : Prop :=
  trails.length = announced ∧ leastOfLength (trails.length + 1) ≤ payload a trails ∧ IsScalar (payload a trails)

/-- What is read from a byte that is not NUL and what comes after it. -/
inductive Reads (a : UInt8) (rest : Bytes) : Decoded → Prop where
  | ascii (short : a.toNat < 0x80) : Reads a rest ⟨a.toNat, 1⟩
  | stray (high : 0x80 ≤ a.toNat) (leads : trailCount a = none) : Reads a rest ⟨replacement, 1⟩
  | complete (announced : Nat) (trails : Bytes) (leads : trailCount a = some announced)
    (taken : continuations announced rest = trails) (good : Complete announced a trails) :
    Reads a rest ⟨payload a trails, trails.length + 1⟩
  | malformed (announced : Nat) (trails : Bytes) (leads : trailCount a = some announced)
    (taken : continuations announced rest = trails) (bad : ¬ Complete announced a trails) :
    Reads a rest ⟨replacement, trails.length + 1⟩

theorem reads_of_decode {a : UInt8} {rest : Bytes} {d : Decoded} (found : decode (a :: rest) = some d) :
    a ≠ 0 ∧ Reads a rest d := by
  by_cases nul : a = 0
  · simp [decode, nul] at found
  refine ⟨nul, ?_⟩
  by_cases short : a < 0x80
  · simp only [decode, nul, short, if_true, if_false, Option.some.injEq] at found
    subst found
    exact .ascii (UInt8.lt_iff_toNat_lt.1 short)
  have high : 0x80 ≤ a.toNat := by simpa [UInt8.lt_iff_toNat_lt] using short
  cases leads : trailCount a with
  | none =>
    simp only [decode, nul, short, leads, if_false, Option.some.injEq] at found
    subst found
    exact .stray high leads
  | some announced =>
    simp only [decode, nul, short, leads, if_false] at found
    split at found
    · rename_i good
      cases found
      exact .complete announced _ leads rfl ⟨good.1, good.2.1, good.2.2.2, good.2.2.1⟩
    · rename_i bad
      cases found
      exact .malformed announced _ leads rfl fun good => bad ⟨good.1, good.2.1, good.2.2.2, good.2.2.1⟩

theorem decode_of_reads {a : UInt8} {rest : Bytes} {d : Decoded} (nonzero : a ≠ 0) (reads : Reads a rest d) :
    decode (a :: rest) = some d := by
  cases reads with
  | ascii short =>
    have low : a < 0x80 := UInt8.lt_iff_toNat_lt.2 short
    simp only [decode, nonzero, low, if_true, if_false]
  | stray high leads =>
    have notShort : ¬ a < 0x80 := by simpa [UInt8.lt_iff_toNat_lt] using high
    simp only [decode, nonzero, notShort, leads, if_false]
  | complete announced trails leads taken good =>
    obtain ⟨full, least, inside, plain⟩ := good
    have notShort : ¬ a < 0x80 := by simpa [UInt8.lt_iff_toNat_lt] using high_of_leads leads
    simp only [decode, nonzero, notShort, leads, taken, if_false]
    exact if_pos ⟨full, least, plain, inside⟩
  | malformed announced trails leads taken bad =>
    have notShort : ¬ a < 0x80 := by simpa [UInt8.lt_iff_toNat_lt] using high_of_leads leads
    simp only [decode, nonzero, notShort, leads, taken, if_false]
    exact if_neg fun good => bad ⟨good.1, good.2.1, good.2.2.2, good.2.2.1⟩

/-- A complete sequence is read whole, whatever comes after it. -/
theorem decode_complete {a : UInt8} {trails : Bytes} (leads : trailCount a = some trails.length)
    (all : ∀ b ∈ trails, isContinuation b = true) (least : leastOfLength (trails.length + 1) ≤ payload a trails)
    (scalar : IsScalar (payload a trails)) (rest : Bytes) :
    decode (a :: (trails ++ rest)) = some ⟨payload a trails, trails.length + 1⟩ := by
  have high := high_of_leads leads
  apply decode_of_reads
  · rintro rfl
    simp at high
  · exact .complete trails.length trails leads (continuations_append trails rest all) ⟨rfl, least, scalar⟩

/-- The sequence of a code point is read back, whatever comes after it. -/
theorem decode_spelled {c : Nat} {bytes : Bytes} (spelled : Spells c bytes) (scalar : IsScalar c) (nonzero : c ≠ 0)
    (rest : Bytes) : decode (bytes ++ rest) = some ⟨c, bytes.length⟩ := by
  have range := scalar.1
  simp only [maxCodepoint] at range
  cases spelled with
  | one a short lead =>
    subst lead
    apply decode_of_reads
    · rintro rfl
      exact nonzero rfl
    · exact .ascii short
  | two a b long short lead last =>
    have value : payload a [b] = c := by rw [payload_one]; omega
    subst value
    have all : ∀ x ∈ ([b] : Bytes), isContinuation x = true := by simp [isContinuation_iff]; omega
    exact decode_complete (trailCount_two (by omega) (by omega)) all long scalar rest
  | three a b d long short lead next last =>
    have value : payload a [b, d] = c := by rw [payload_two]; omega
    subst value
    have all : ∀ x ∈ ([b, d] : Bytes), isContinuation x = true := by simp [isContinuation_iff]; omega
    exact decode_complete (trailCount_three (by omega) (by omega)) all long scalar rest
  | four a b d e long short lead next after last =>
    have value : payload a [b, d, e] = c := by rw [payload_three]; omega
    subst value
    have all : ∀ x ∈ ([b, d, e] : Bytes), isContinuation x = true := by simp [isContinuation_iff]; omega
    exact decode_complete (trailCount_four (by omega) (by omega)) all long scalar rest

/-- The encoding of a code point is read back, whatever comes after it. -/
theorem decode_encode {c : Nat} (scalar : IsScalar c) (nonzero : c ≠ 0) (rest : Bytes) :
    decode (encode c ++ rest) = some ⟨c, width c⟩ := by
  rw [decode_spelled (spells_encode scalar.1) scalar nonzero rest, length_encode scalar.1]

/-- The sequence of a surrogate is read whole, as U+FFFD. -/
theorem decode_surrogate {c : Nat} (surrogate : isSurrogate c = true) (rest : Bytes) :
    decode (encode c ++ rest) = some ⟨replacement, width c⟩ := by
  have range : 0xD800 ≤ c ∧ c ≤ 0xDFFF := by simpa [isSurrogate] using surrogate
  have inside : c ≤ maxCodepoint := by simp only [maxCodepoint]; omega
  rw [← length_encode inside]
  generalize encode c = bytes, spells_encode inside = spelled
  cases spelled with
  | one a short lead => omega
  | two a b long short lead last => omega
  | three a b d long short lead next last =>
    have all : ∀ x ∈ ([b, d] : Bytes), isContinuation x = true := by simp [isContinuation_iff]; omega
    have value : payload a [b, d] = c := by rw [payload_two]; omega
    have bad : ¬ Complete 2 a [b, d] := by
      rintro ⟨-, -, scalar⟩
      rw [value] at scalar
      exact absurd scalar.2 (by simp [surrogate])
    apply decode_of_reads
    · rintro rfl
      simp at lead
      omega
    · exact .malformed 2 [b, d] (trailCount_three (by omega) (by omega)) (continuations_append [b, d] rest all) bad
  | four a b d e long short lead next after last => omega

/-- A value that a full sequence has and that its length is right for is spelled by that sequence. -/
theorem spells_payload {a : UInt8} {announced : Nat} {trails : Bytes} (leads : trailCount a = some announced)
    (all : ∀ b ∈ trails, isContinuation b = true) (full : trails.length = announced)
    (least : leastOfLength (trails.length + 1) ≤ payload a trails) (inside : payload a trails ≤ maxCodepoint) :
    Spells (payload a trails) (a :: trails) := by
  simp only [isContinuation_iff] at all
  rcases trailCount_eq_some leads with ⟨rfl, low, high⟩ | ⟨rfl, low, high⟩ | ⟨rfl, low, high⟩
  · obtain ⟨b, rfl⟩ := List.length_eq_one_iff.1 full
    have next := all b (by simp)
    simp only [List.length_cons, List.length_nil, leastOfLength] at least
    rw [payload_one] at least inside ⊢
    exact .two a b least (by omega) (by omega) (by omega)
  · obtain ⟨b, d, rfl⟩ := List.length_eq_two.1 full
    have next := all b (by simp)
    have last := all d (by simp)
    simp only [List.length_cons, List.length_nil, leastOfLength] at least
    rw [payload_two] at least inside ⊢
    exact .three a b d least (by omega) (by omega) (by omega) (by omega)
  · obtain ⟨b, d, e, rfl⟩ := List.length_eq_three.1 full
    have next := all b (by simp)
    have after := all d (by simp)
    have last := all e (by simp)
    simp only [List.length_cons, List.length_nil, leastOfLength] at least
    rw [payload_three] at least inside ⊢
    exact .four a b d e least inside (by omega) (by omega) (by omega) (by omega)

/-- Whatever is read as anything but U+FFFD is the sequence of a code point that a text may hold. -/
theorem spelled_of_decode {bytes : Bytes} {d : Decoded} (found : decode bytes = some d)
    (known : d.codepoint ≠ replacement) :
    Spells d.codepoint (bytes.take d.length) ∧ IsScalar d.codepoint ∧ d.codepoint ≠ 0 := by
  cases bytes with
  | nil => simp [decode] at found
  | cons a rest =>
    obtain ⟨lead, reads⟩ := reads_of_decode found
    cases reads with
    | ascii short =>
      refine ⟨by simpa using Spells.one a short rfl, ⟨by simp only [maxCodepoint]; omega, ?_⟩, ?_⟩
      · simp [isSurrogate]
        omega
      · exact fun zero => lead (UInt8.toNat_inj.1 zero)
    | stray high leads => exact absurd rfl known
    | complete announced trails leads taken good =>
      obtain ⟨full, least, scalar⟩ := good
      obtain ⟨next, all⟩ := continuations_spec announced rest
      rw [taken] at next all
      have spelled := spells_payload leads all full least scalar.1
      refine ⟨by simpa [← next] using spelled, scalar, ?_⟩
      intro zero
      have high := high_of_leads leads
      rw [show payload a trails = 0 from zero] at spelled
      cases spelled <;> omega
    | malformed announced trails leads taken bad => exact absurd rfl known

theorem scalar_of_decode {bytes : Bytes} {d : Decoded} (found : decode bytes = some d) :
    IsScalar d.codepoint ∧ d.codepoint ≠ 0 := by
  by_cases known : d.codepoint = replacement
  · rw [known]
    decide
  · exact (spelled_of_decode found known).2

/-! ## What decoding looks at -/

/-- A sequence takes up a lead byte that is not NUL and continuation bytes after it. -/
theorem decode_shape {a : UInt8} {rest : Bytes} {d : Decoded} (found : decode (a :: rest) = some d) :
    a ≠ 0 ∧ ∃ trails, d.length = trails.length + 1 ∧ rest.take trails.length = trails ∧
      ∀ b ∈ trails, isContinuation b = true := by
  obtain ⟨lead, reads⟩ := reads_of_decode found
  refine ⟨lead, ?_⟩
  cases reads with
  | ascii short => exact ⟨[], rfl, rfl, by simp⟩
  | stray high leads => exact ⟨[], rfl, rfl, by simp⟩
  | complete announced trails leads taken good =>
    obtain ⟨next, all⟩ := continuations_spec announced rest
    rw [taken] at next all
    exact ⟨trails, rfl, next.symm, all⟩
  | malformed announced trails leads taken bad =>
    obtain ⟨next, all⟩ := continuations_spec announced rest
    rw [taken] at next all
    exact ⟨trails, rfl, next.symm, all⟩

theorem continuation_ne_zero {b : UInt8} (continues : isContinuation b = true) : b ≠ 0 := by
  rintro rfl
  simp [isContinuation] at continues

/-- There is no NUL in the bytes of a sequence. -/
theorem ne_zero_of_mem_take {bytes : Bytes} {d : Decoded} (found : decode bytes = some d) :
    ∀ b ∈ bytes.take d.length, b ≠ 0 := by
  cases bytes with
  | nil => simp
  | cons a rest =>
    obtain ⟨lead, trails, size, taken, all⟩ := decode_shape found
    intro b inside
    rw [size, List.take_succ_cons, taken] at inside
    rcases List.mem_cons.1 inside with rfl | later
    · exact lead
    · exact continuation_ne_zero (all b later)

/-- Decoding finds nothing only at the end of the text. -/
theorem decode_eq_none {bytes : Bytes} : decode bytes = none ↔ textOf bytes = [] := by
  cases bytes with
  | nil => simp [decode, textOf]
  | cons a rest =>
    by_cases nul : a = 0
    · simp [decode, nul, textOf]
    · have more : decode (a :: rest) ≠ none := by
        simp only [decode, nul, if_false]
        repeat' split
        all_goals simp
      simp [more, textOf, nul]

theorem continuations_succ_cons (announced : Nat) (b : UInt8) (rest : Bytes) :
    continuations (announced + 1) (b :: rest) = if isContinuation b then b :: continuations announced rest else [] := by
  rw [continuations, List.take_succ_cons, List.takeWhile_cons]
  rfl

/-- The continuation bytes taken are the same when what is left is cut after them. -/
theorem continuations_take {announced : Nat} {rest : Bytes} {n : Nat}
    (enough : (continuations announced rest).length ≤ n) :
    continuations announced (rest.take n) = continuations announced rest := by
  have cut : (rest.take n).take announced = (rest.take announced).take n := by
    rw [List.take_take, List.take_take, Nat.min_comm]
  rw [continuations, cut, ← List.take_takeWhile]
  exact List.take_of_length_le enough

/-- Decoding looks no further than the sequence it reads. -/
theorem decode_take {bytes : Bytes} {d : Decoded} {n : Nat} (found : decode bytes = some d) (enough : d.length ≤ n) :
    decode (bytes.take n) = some d := by
  cases bytes with
  | nil => simp [decode] at found
  | cons a rest =>
    obtain ⟨m, rfl⟩ : ∃ m, n = m + 1 := ⟨n - 1, by have := (decode_length found).1; omega⟩
    obtain ⟨lead, reads⟩ := reads_of_decode found
    rw [List.take_succ_cons]
    apply decode_of_reads lead
    cases reads with
    | ascii short => exact .ascii short
    | stray high leads => exact .stray high leads
    | complete announced trails leads taken good =>
      have within : (continuations announced rest).length ≤ m := by rw [taken]; simpa using enough
      exact .complete announced trails leads ((continuations_take within).trans taken) good
    | malformed announced trails leads taken bad =>
      have within : (continuations announced rest).length ≤ m := by rw [taken]; simpa using enough
      exact .malformed announced trails leads ((continuations_take within).trans taken) bad

section apart
variable {back : Bytes} (apart : ∀ b ∈ back.head?, isContinuation b = false)
include apart

/-- The continuation bytes taken are the same before bytes that continue no sequence. -/
theorem continuations_apart (announced : Nat) (rest : Bytes) :
    continuations announced (rest ++ back) = continuations announced rest := by
  induction rest generalizing announced with
  | nil =>
    cases announced with
    | zero => rfl
    | succ announced =>
      cases back with
      | nil => rfl
      | cons b back => simp [continuations, apart b rfl]
  | cons b rest ih =>
    cases announced with
    | zero => rfl
    | succ announced => rw [List.cons_append, continuations_succ_cons, continuations_succ_cons, ih announced]

/-- Decoding finds the same sequence before bytes that continue none. -/
theorem decode_append {front : Bytes} {d : Decoded} (found : decode front = some d) :
    decode (front ++ back) = some d := by
  cases front with
  | nil => simp [decode] at found
  | cons a rest =>
    obtain ⟨lead, reads⟩ := reads_of_decode found
    rw [List.cons_append]
    apply decode_of_reads lead
    cases reads with
    | ascii short => exact .ascii short
    | stray high leads => exact .stray high leads
    | complete announced trails leads taken good =>
      exact .complete announced trails leads ((continuations_apart apart announced rest).trans taken) good
    | malformed announced trails leads taken bad =>
      exact .malformed announced trails leads ((continuations_apart apart announced rest).trans taken) bad

end apart

end BoundedText.Utf8
