import BoundedText.Utf16
import BoundedText.Proofs.Walking

/-!
# Strings of UTF-16 units

A string is determined by its code points, surrogates that stand alone among them
(`ofCodepoints_codepoints`), and code points that a text may hold by the string they make
(`codepoints_ofCodepoints`). Encoded to UTF-8, a string has a NUL byte exactly where it has a NUL unit, so
that its text is the encoding of what comes before that unit (`textOf_toUtf8`).
-/

namespace BoundedText
open Utf8

/-- Code points that a text may hold. -/
def Scalars (text : List Nat) : Prop := ∀ c ∈ text, IsScalar c

theorem Scalars.append {first second : List Nat} (scalars : Scalars (first ++ second)) :
    Scalars first ∧ Scalars second :=
  List.forall_mem_append.1 scalars

namespace Utf16

/-! ## Code points of a string -/

theorem ofCodepoints_append (first second : List Nat) :
    ofCodepoints (first ++ second) = ofCodepoints first ++ ofCodepoints second :=
  List.flatMap_append

theorem length_ofCodepoint_pos (c : Nat) : 0 < (ofCodepoint c).length := by
  unfold ofCodepoint
  split <;> simp

theorem ofCodepoints_eq_nil {text : List Nat} : ofCodepoints text = [] ↔ text = [] := by
  cases text with
  | nil => simp [ofCodepoints]
  | cons c text =>
    have positive := length_ofCodepoint_pos c
    have some : ofCodepoint c ≠ [] := List.length_pos_iff.1 positive
    simp [ofCodepoints, some]

/-- A unit that makes no pair with the one after it is a code point by itself. -/
theorem codepoints_unpaired {u : UInt16} {rest : Units}
    (unpaired : ∀ next ∈ rest.head?, ¬ (isHigh u = true ∧ isLow next = true)) :
    codepoints (u :: rest) = u.toNat :: codepoints rest := by
  cases rest with
  | nil => rfl
  | cons next rest => rw [codepoints, if_neg (unpaired next rfl)]

private theorem codepoints_alone {u : UInt16} (alone : isHigh u = false) (rest : Units) :
    codepoints (u :: rest) = u.toNat :: codepoints rest :=
  codepoints_unpaired (by simp [alone])

private theorem codepoints_pair {high low : UInt16} (isPair : isHigh high = true ∧ isLow low = true) (rest : Units) :
    codepoints (high :: low :: rest) = combine high low :: codepoints rest := by
  rw [codepoints, if_pos isPair]

private theorem codepoints_ofCodepoint {c : Nat} (scalar : IsScalar c) (rest : Units) :
    codepoints (ofCodepoint c ++ rest) = c :: codepoints rest := by
  obtain ⟨inside, plain⟩ := scalar
  simp only [maxCodepoint] at inside
  simp only [isSurrogate, Bool.and_eq_false_iff, decide_eq_false_iff_not] at plain
  unfold ofCodepoint
  split
  · rename_i short
    have value : (UInt16.ofNat c).toNat = c := UInt16.toNat_ofNat_of_lt' (by simpa only [UInt16.size] using short)
    have alone : isHigh (UInt16.ofNat c) = false := by
      simp only [isHigh, UInt16.le_iff_toNat_le, value, Bool.and_eq_false_iff, decide_eq_false_iff_not]
      simp
      omega
    rw [List.singleton_append, codepoints_alone alone, value]
  · rename_i long
    have top : (UInt16.ofNat (0xD800 + (c - 0x10000) / 0x400)).toNat = 0xD800 + (c - 0x10000) / 0x400 :=
      UInt16.toNat_ofNat_of_lt' (by simp [UInt16.size]; omega)
    have bottom : (UInt16.ofNat (0xDC00 + (c - 0x10000) % 0x400)).toNat = 0xDC00 + (c - 0x10000) % 0x400 :=
      UInt16.toNat_ofNat_of_lt' (by simp [UInt16.size]; omega)
    have isPair : isHigh (UInt16.ofNat (0xD800 + (c - 0x10000) / 0x400)) = true ∧
        isLow (UInt16.ofNat (0xDC00 + (c - 0x10000) % 0x400)) = true := by
      simp only [isHigh, isLow, UInt16.le_iff_toNat_le, top, bottom, Bool.and_eq_true, decide_eq_true_eq]
      simp
      omega
    have value : combine (UInt16.ofNat (0xD800 + (c - 0x10000) / 0x400))
        (UInt16.ofNat (0xDC00 + (c - 0x10000) % 0x400)) = c := by
      unfold combine
      omega
    rw [List.cons_append, List.singleton_append, codepoints_pair isPair, value]

theorem codepoints_ofCodepoints {text : List Nat} (scalars : Scalars text) : codepoints (ofCodepoints text) = text := by
  induction text with
  | nil => rfl
  | cons c text ih =>
    obtain ⟨first, others⟩ := List.forall_mem_cons.1 scalars
    rw [ofCodepoints, List.flatMap_cons, codepoints_ofCodepoint first]
    exact congrArg (c :: ·) (ih others)

theorem ofCodepoints_inj {first second : List Nat} (scalars : Scalars first) (scalars' : Scalars second)
    (same : ofCodepoints first = ofCodepoints second) : first = second := by
  rw [← codepoints_ofCodepoints scalars, same, codepoints_ofCodepoints scalars']

/-! ## The string of code points -/

private theorem isHigh_range {u : UInt16} : isHigh u = true ↔ 0xD800 ≤ u.toNat ∧ u.toNat ≤ 0xDBFF := by
  simp [isHigh, UInt16.le_iff_toNat_le]

private theorem isLow_range {u : UInt16} : isLow u = true ↔ 0xDC00 ≤ u.toNat ∧ u.toNat ≤ 0xDFFF := by
  simp [isLow, UInt16.le_iff_toNat_le]

/-- A pair is a code point past U+FFFF. -/
theorem combine_range {high low : UInt16} (isPair : isHigh high = true ∧ isLow low = true) :
    0x10000 ≤ combine high low ∧ combine high low ≤ maxCodepoint := by
  have first := isHigh_range.1 isPair.1
  have second := isLow_range.1 isPair.2
  unfold combine maxCodepoint
  omega

private theorem ofCodepoint_unit (u : UInt16) : ofCodepoint u.toNat = [u] := by
  rw [ofCodepoint, if_pos u.toNat_lt, UInt16.ofNat_toNat]

private theorem ofCodepoint_combine {high low : UInt16} (isPair : isHigh high = true ∧ isLow low = true) :
    ofCodepoint (combine high low) = [high, low] := by
  have past := (combine_range isPair).1
  have first := isHigh_range.1 isPair.1
  have second := isLow_range.1 isPair.2
  have top : 0xD800 + (combine high low - 0x10000) / 0x400 = high.toNat := by
    unfold combine
    omega
  have bottom : 0xDC00 + (combine high low - 0x10000) % 0x400 = low.toNat := by
    unfold combine
    omega
  rw [ofCodepoint, if_neg (by omega), top, bottom, UInt16.ofNat_toNat, UInt16.ofNat_toNat]

/-- The code points of a string make it up again, surrogates that stand alone included. -/
theorem ofCodepoints_codepoints (units : Units) : ofCodepoints (codepoints units) = units := by
  fun_induction codepoints units with
  | case1 => rfl
  | case2 u => rw [ofCodepoints, List.flatMap_cons, ofCodepoint_unit]; rfl
  | case3 high low rest isPair ih =>
    rw [ofCodepoints, List.flatMap_cons, ofCodepoint_combine isPair]
    exact congrArg ([high, low] ++ ·) ih
  | case4 high low rest unpaired ih =>
    rw [ofCodepoints, List.flatMap_cons, ofCodepoint_unit]
    exact congrArg ([high] ++ ·) ih

theorem codepoints_inj {first second : Units} : codepoints first = codepoints second ↔ first = second :=
  (Function.LeftInverse.injective ofCodepoints_codepoints).eq_iff

end Utf16

/-! ## Encoded strings -/

theorem scalarOf_surrogate {c : Nat} (surrogate : isSurrogate c = true) : Utf16.scalarOf c = replacement := by
  rw [Utf16.scalarOf, if_pos surrogate]

theorem scalarOf_scalar {c : Nat} (scalar : isSurrogate c = false) : Utf16.scalarOf c = c := by
  rw [Utf16.scalarOf, scalar]
  rfl

theorem isScalar_scalarOf {c : Nat} (inside : c ≤ maxCodepoint) : IsScalar (Utf16.scalarOf c) := by
  cases surrogate : isSurrogate c with
  | true =>
    rw [scalarOf_surrogate surrogate]
    decide
  | false =>
    rw [scalarOf_scalar surrogate]
    exact ⟨inside, surrogate⟩

/-- What a code point of a string is encoded as has a NUL byte only if it is NUL. -/
theorem encode_scalarOf_visible {c : Nat} (inside : c ≤ maxCodepoint) (nonzero : c ≠ 0) :
    ∀ b ∈ encode (Utf16.scalarOf c), b ≠ 0 := by
  refine (spells_encode (isScalar_scalarOf inside).1).visible ?_
  rw [Utf16.scalarOf]
  split
  · decide
  · exact nonzero

private theorem toUtf8_cons {c : Nat} {units rest : Units}
    (first : Utf16.codepoints units = c :: Utf16.codepoints rest) :
    Utf16.toUtf8 units = encode (Utf16.scalarOf c) ++ Utf16.toUtf8 rest := by
  rw [Utf16.toUtf8, first, List.map_cons, encodeAll, List.flatMap_cons]
  rfl

/-- An ASCII character at the head of a string is encoded as itself. -/
theorem toUtf8_cons_ascii {first : UInt16} (ascii : first ≤ 0x7F) (rest : Units) :
    Utf16.toUtf8 (first :: rest) = UInt8.ofNat first.toNat :: Utf16.toUtf8 rest := by
  have low : first.toNat ≤ 0x7F := UInt16.le_iff_toNat_le.1 ascii
  have plain : Utf16.isHigh first = false := by simp [Utf16.isHigh, UInt16.le_iff_toNat_le]; omega
  have scalar : Utf16.scalarOf first.toNat = first.toNat := by simp [Utf16.scalarOf, Utf8.isSurrogate]; omega
  have short : Utf8.encode first.toNat = [UInt8.ofNat first.toNat] := by simp [Utf8.encode]; omega
  rw [toUtf8_cons (Utf16.codepoints_alone plain rest), scalar, short, List.singleton_append]

theorem textOf_toUtf8_nul (rest : Units) : textOf (Utf16.toUtf8 (0 :: rest)) = [] := by
  rw [toUtf8_cons_ascii (by decide)]
  rfl

/-- The text of a string of one ASCII character is one byte. -/
theorem textOf_toUtf8_ascii {first : UInt16} (ascii : first ≤ 0x7F) (nonzero : first ≠ 0) :
    textOf (Utf16.toUtf8 [first]) = [byteOf first.toNat] := by
  have low : first.toNat ≤ 0x7F := UInt16.le_iff_toNat_le.1 ascii
  have positive : first.toNat ≠ 0 := fun zero => nonzero (UInt16.toNat_inj.1 zero)
  have value : ((first.toNat : Int) % 256).toNat = first.toNat := by omega
  have visible : UInt8.ofNat first.toNat ≠ 0 := by
    intro zero
    have : (UInt8.ofNat first.toNat).toNat = 0 := by rw [zero]; rfl
    rw [UInt8.toNat_ofNat_of_lt' (by simp [UInt8.size]; omega)] at this
    exact positive this
  rw [toUtf8_cons_ascii ascii, byteOf, value]
  exact List.takeWhile_cons_of_pos (by simpa using visible)

/-- The units of a string before its first NUL. -/
def beforeNul (units : Units) : Units := units.takeWhile (· != 0)

private theorem beforeNul_cons {u : UInt16} (visible : u ≠ 0) (rest : Units) :
    beforeNul (u :: rest) = u :: beforeNul rest :=
  List.takeWhile_cons_of_pos (by simpa using visible)

private theorem beforeNul_eq_self {units : Units} : beforeNul units = units ↔ 0 ∉ units := by
  rw [beforeNul, List.takeWhile_eq_self_iff]
  constructor
  · intro all member
    simpa using all 0 member
  · intro none u member
    have visible : u ≠ 0 := fun nul => none (nul ▸ member)
    simpa using visible

/-- The unit at the head of what comes before a NUL is that of the string. -/
theorem head_beforeNul {units : Units} {u : UInt16} (first : u ∈ (beforeNul units).head?) : u ∈ units.head? := by
  cases units with
  | nil => cases first
  | cons v rest =>
    by_cases nul : v = 0
    · subst nul
      cases first
    · rwa [beforeNul_cons nul] at first

/-- A unit that makes no pair is encoded at the head of the text, unless it is NUL. -/
theorem textOf_toUtf8_unpaired {u : UInt16} {rest : Units}
    (unpaired : ∀ next ∈ rest.head?, ¬ (Utf16.isHigh u = true ∧ Utf16.isLow next = true))
    (later : textOf (Utf16.toUtf8 rest) = Utf16.toUtf8 (beforeNul rest)) :
    textOf (Utf16.toUtf8 (u :: rest)) = Utf16.toUtf8 (beforeNul (u :: rest)) := by
  by_cases nul : u = 0
  · rw [nul, textOf_toUtf8_nul]
    rfl
  · have inside : u.toNat ≤ maxCodepoint := u.toNat_lt.le.trans (by decide)
    have visible := encode_scalarOf_visible inside fun zero => nul (UInt16.toNat_inj.1 zero)
    have cut := Utf16.codepoints_unpaired fun next first => unpaired next (head_beforeNul first)
    rw [toUtf8_cons (Utf16.codepoints_unpaired unpaired), textOf_append visible, later, beforeNul_cons nul,
      toUtf8_cons cut]

/-- The text of an encoded string is the encoding of what comes before its first NUL. -/
theorem textOf_toUtf8 (units : Units) : textOf (Utf16.toUtf8 units) = Utf16.toUtf8 (beforeNul units) := by
  fun_induction Utf16.codepoints units with
  | case1 => rfl
  | case2 u => exact textOf_toUtf8_unpaired (by simp) rfl
  | case3 high low rest isPair ih =>
    have range := Utf16.combine_range isPair
    have visible := encode_scalarOf_visible range.2 (by omega)
    have first : high ≠ 0 := by
      rintro rfl
      exact absurd isPair.1 (by decide)
    have second : low ≠ 0 := by
      rintro rfl
      exact absurd isPair.2 (by decide)
    rw [toUtf8_cons (Utf16.codepoints_pair isPair rest), textOf_append visible, ih, beforeNul_cons first,
      beforeNul_cons second, toUtf8_cons (Utf16.codepoints_pair isPair _)]
  | case4 high low rest unpaired ih => exact textOf_toUtf8_unpaired (by simpa using unpaired) ih

private theorem zero_mem_toUtf8 {units : Units} (nul : 0 ∈ units) : 0 ∈ Utf16.toUtf8 units := by
  have read : 0 ∈ Utf16.codepoints units := by
    fun_induction Utf16.codepoints units with
    | case1 => cases nul
    | case2 u => simpa using (congrArg UInt16.toNat (List.mem_singleton.1 nul))
    | case3 high low rest isPair ih =>
      have later : 0 ∈ rest := by
        rcases List.mem_cons.1 nul with rfl | next
        · exact absurd isPair.1 (by decide)
        · rcases List.mem_cons.1 next with rfl | later
          · exact absurd isPair.2 (by decide)
          · exact later
      exact List.mem_cons_of_mem _ (ih later)
    | case4 high low rest _ ih =>
      rcases List.mem_cons.1 nul with rfl | later
      · exact List.mem_cons_self
      · exact List.mem_cons_of_mem _ (ih later)
  exact List.mem_flatMap.2 ⟨0, List.mem_map.2 ⟨0, read, rfl⟩, List.mem_singleton.2 rfl⟩

/-- An encoded string is all text when the string has no NUL, and then only. -/
theorem textOf_toUtf8_eq_self {units : Units} : textOf (Utf16.toUtf8 units) = Utf16.toUtf8 units ↔ 0 ∉ units := by
  constructor
  · intro whole nul
    have member := zero_mem_toUtf8 nul
    rw [← whole] at member
    exact ne_zero_of_mem_text member rfl
  · intro none
    rw [textOf_toUtf8, beforeNul_eq_self.2 none]

private theorem inside_of_mem_codepoints (units : Units) : ∀ c ∈ Utf16.codepoints units, c ≤ maxCodepoint := by
  have unit (u : UInt16) : u.toNat ≤ maxCodepoint := u.toNat_lt.le.trans (by decide)
  fun_induction Utf16.codepoints units with
  | case1 => exact List.forall_mem_nil _
  | case2 u => exact List.forall_mem_singleton.2 (unit u)
  | case3 high low rest isPair ih => exact List.forall_mem_cons.2 ⟨(Utf16.combine_range isPair).2, ih⟩
  | case4 high low rest _ ih => exact List.forall_mem_cons.2 ⟨unit high, ih⟩

/-- A string without a NUL is encoded as code points that a text may hold. -/
theorem encoded_toUtf8 {units : Units} (none : 0 ∉ units) : Encoded (Utf16.toUtf8 units) := by
  have visible : ∀ b ∈ Utf16.toUtf8 units, b ≠ 0 := fun b member =>
    ne_zero_of_mem_text (by rwa [textOf_toUtf8_eq_self.2 none])
  refine ⟨(Utf16.codepoints units).map Utf16.scalarOf, fun c member => ⟨?_, nonzero_of_encodeAll visible c member⟩, rfl⟩
  obtain ⟨own, read, rfl⟩ := List.mem_map.1 member
  exact isScalar_scalarOf (inside_of_mem_codepoints units own read)

end BoundedText
