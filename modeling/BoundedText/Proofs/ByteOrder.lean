import BoundedText.Collation
import BoundedText.Proofs.Walking
import Mathlib.Data.List.Lex

/-!
# Byte order

Texts are compared byte by byte, which is the lexicographic order of their bytes (`compareBytes_eq`) and so a
total order on the texts. It is also the order of their code points (`byte_order_is_codepoint_order`): the
first byte in which the encodings of two code points differ is the lesser in that of the lesser code point,
whatever comes after (`encode_lt`).
-/

namespace BoundedText
open Utf8

/-! ## Orders as numbers -/

/-- The order of two values as a number, negative when the first is the lesser. Lists are ordered as in a
dictionary: by the first item in which they differ, and a list before all that it begins. -/
def orderSign {α : Type} [LinearOrder α] (a b : α) : Int := if a < b then -1 else if b < a then 1 else 0

section order
variable {α : Type} [LinearOrder α]

private theorem orderSign_of_lt {a b : α} (less : a < b) : orderSign a b = -1 := if_pos less

private theorem orderSign_of_gt {a b : α} (more : b < a) : orderSign a b = 1 := by
  rw [orderSign, if_neg more.asymm, if_pos more]

theorem orderSign_self (a : α) : orderSign a a = 0 := by
  rw [orderSign, if_neg (lt_irrefl a), if_neg (lt_irrefl a)]

theorem orderSign_swap (a b : α) : orderSign a b = -orderSign b a := by
  rcases lt_trichotomy a b with less | rfl | more
  · rw [orderSign_of_lt less, orderSign_of_gt less]
  · rw [orderSign_self]
    rfl
  · rw [orderSign_of_gt more, orderSign_of_lt more]
    rfl

theorem orderSign_nonpos {a b : α} : orderSign a b ≤ 0 ↔ a ≤ b := by
  rcases lt_trichotomy a b with less | rfl | more
  · simp [orderSign_of_lt less, less.le]
  · simp [orderSign_self]
  · simp [orderSign_of_gt more, more]

theorem orderSign_eq_zero {a b : α} : orderSign a b = 0 ↔ a = b := by
  rcases lt_trichotomy a b with less | rfl | more
  · simp [orderSign_of_lt less, less.ne]
  · simp [orderSign_self]
  · simp [orderSign_of_gt more, more.ne']

/-- Values in the same order as others have the same number. -/
theorem orderSign_congr {β : Type} [LinearOrder β] {a b : α} {x y : β} (less : a < b ↔ x < y) (more : b < a ↔ y < x) :
    orderSign a b = orderSign x y :=
  if_congr less rfl (if_congr more rfl rfl)

end order

/-- Comparing item by item is the order of a dictionary. -/
theorem compareLists_eq (as bs : List Nat) : compareLists as bs = orderSign as bs := by
  fun_induction compareLists as bs with
  | case1 => rfl
  | case2 b bs => exact (orderSign_of_lt (List.nil_lt_cons b bs)).symm
  | case3 a as => exact (orderSign_of_gt (List.nil_lt_cons a as)).symm
  | case4 a as b bs less => exact (orderSign_of_lt (List.cons_lt_cons_iff.2 (.inl less))).symm
  | case5 a as b bs _ more => exact (orderSign_of_gt (List.cons_lt_cons_iff.2 (.inl more))).symm
  | case6 a as b bs notLess notMore ih =>
    obtain rfl : a = b := by omega
    rw [ih]
    exact orderSign_congr List.cons_lt_cons_self.symm List.cons_lt_cons_self.symm

/-! ## Encodings in order -/

/-- The bytes of a text as numbers. -/
def numbersOf (bytes : Bytes) : List Nat := bytes.map UInt8.toNat

private theorem numbersOf_append (first second : Bytes) :
    numbersOf (first ++ second) = numbersOf first ++ numbersOf second :=
  List.map_append

/-- Of the sequences of two code points that of the lesser comes first, whatever comes after each. -/
theorem spells_lt {c d : Nat} {first second : Bytes} (spelled : Spells c first) (other : Spells d second) (less : c < d)
    (after later : List Nat) : numbersOf first ++ after < numbersOf second ++ later := by
  -- The longer sequence has the greater lead byte, and the bytes of two of one length are the digits of the
  -- code points; which of them differs first is for arithmetic to find out.
  cases spelled <;> cases other
  all_goals
    simp only [numbersOf, List.map_cons, List.map_nil, List.cons_append, List.nil_append, List.cons_lt_cons_iff]
    omega

theorem encode_lt {c d : Nat} (less : c < d) (inside : d ≤ maxCodepoint) (after later : List Nat) :
    numbersOf (encode c) ++ after < numbersOf (encode d) ++ later :=
  spells_lt (spells_encode (less.le.trans inside)) (spells_encode inside) less after later

/-- Encoding keeps the order of lists of code points. -/
theorem encodeAll_lt {cs ds : List Nat} (first : ∀ c ∈ cs, c ≤ maxCodepoint) (second : ∀ d ∈ ds, d ≤ maxCodepoint)
    (less : cs < ds) : numbersOf (encodeAll cs) < numbersOf (encodeAll ds) := by
  induction cs generalizing ds with
  | nil =>
    cases ds with
    | nil => exact absurd less (List.not_lt_nil [])
    | cons d ds =>
      obtain ⟨inside, -⟩ := List.forall_mem_cons.1 second
      rw [encodeAll, encodeAll, List.flatMap_cons, numbersOf_append]
      have some : numbersOf (encode d) ≠ [] := by simpa [numbersOf] using encode_ne_nil inside
      obtain ⟨n, rest, bytes⟩ := List.exists_cons_of_ne_nil some
      rw [bytes]
      exact List.nil_lt_cons n _
  | cons c cs ih =>
    cases ds with
    | nil => exact absurd less (List.not_lt_nil _)
    | cons d ds =>
      obtain ⟨-, others⟩ := List.forall_mem_cons.1 first
      obtain ⟨inside, others'⟩ := List.forall_mem_cons.1 second
      rw [encodeAll, encodeAll, List.flatMap_cons, List.flatMap_cons, numbersOf_append, numbersOf_append]
      rcases List.cons_lt_cons_iff.1 less with head | ⟨rfl, tail⟩
      · exact encode_lt head inside _ _
      · exact List.append_left_lt (ih others others' tail)

private theorem encodeAll_lt_iff {cs ds : List Nat} (first : ∀ c ∈ cs, c ≤ maxCodepoint)
    (second : ∀ d ∈ ds, d ≤ maxCodepoint) :
    numbersOf (encodeAll cs) < numbersOf (encodeAll ds) ↔ cs < ds := by
  refine ⟨fun less => ?_, encodeAll_lt first second⟩
  rcases lt_trichotomy cs ds with before | rfl | behind
  · exact before
  · exact absurd less (lt_irrefl _)
  · exact absurd less (encodeAll_lt second first behind).asymm

/-! ## Texts in order -/

theorem compareBytes_eq (a b : Bytes) :
    compareBytes (.bytes a) (.bytes b) = orderSign (numbersOf (textOf a)) (numbersOf (textOf b)) :=
  compareLists_eq _ _

private theorem compareBytes_encoded {a b : Bytes} (first : Encoded a) (second : Encoded b) :
    compareBytes (.bytes a) (.bytes b) = orderSign (codepointsOf a) (codepointsOf b) := by
  obtain ⟨cs, known, rfl⟩ := first
  obtain ⟨ds, known', rfl⟩ := second
  have inside : ∀ c ∈ cs, c ≤ maxCodepoint := fun c member => (known c member).1.1
  have inside' : ∀ d ∈ ds, d ≤ maxCodepoint := fun d member => (known' d member).1.1
  have whole : textOf (encodeAll cs) = encodeAll cs :=
    textOf_self (encodeAll_visible fun c member => ⟨inside c member, (known c member).2⟩)
  have whole' : textOf (encodeAll ds) = encodeAll ds :=
    textOf_self (encodeAll_visible fun d member => ⟨inside' d member, (known' d member).2⟩)
  rw [compareBytes_eq, whole, whole', codepointsOf_encodeAll known, codepointsOf_encodeAll known']
  exact orderSign_congr (encodeAll_lt_iff inside inside') (encodeAll_lt_iff inside' inside)

/-- Byte order is code point order. Comparing arrays by their bytes is a total order on the texts in them:
the two ways round answer opposite numbers, 0 means that the texts are the same, and the order is transitive.
Of two encodings it answers the order of the code points that walks find in them. -/
theorem byte_order_is_codepoint_order :
    (∀ a b : Bytes, compareBytes (.bytes a) (.bytes b) = -compareBytes (.bytes b) (.bytes a) ∧
      (compareBytes (.bytes a) (.bytes b) = 0 ↔ textOf a = textOf b)) ∧
    (∀ a b c : Bytes, compareBytes (.bytes a) (.bytes b) ≤ 0 → compareBytes (.bytes b) (.bytes c) ≤ 0 →
      compareBytes (.bytes a) (.bytes c) ≤ 0) ∧
    (∀ a b : Bytes, Encoded a → Encoded b →
      compareBytes (.bytes a) (.bytes b) = orderSign (codepointsOf a) (codepointsOf b)) := by
  refine ⟨?_, ?_, ?_⟩
  · intro a b
    rw [compareBytes_eq, compareBytes_eq b a, orderSign_eq_zero, numbersOf, numbersOf, map_toNat_inj]
    exact ⟨orderSign_swap _ _, Iff.rfl⟩
  · intro a b c
    rw [compareBytes_eq, compareBytes_eq, compareBytes_eq, orderSign_nonpos, orderSign_nonpos, orderSign_nonpos]
    exact le_trans
  · intro a b first second
    exact compareBytes_encoded first second

/-- The theorem at a text before two that it begins, one of them past its end only, and at code points of three
and of four bytes, where the first bytes that differ are lead bytes. -/
theorem byte_order_is_codepoint_order_widths :
    (compareBytes (.bytes [0x41, 0, 0x43]) (.bytes [0x41]) ≤ 0 ∧ compareBytes (.bytes [0x41]) (.bytes [0x41, 0x80]) ≤ 0 ∧
      compareBytes (.bytes [0x41, 0, 0x43]) (.bytes [0x41, 0x80]) ≤ 0) ∧
    Encoded [0x61, 0xEF, 0xBF, 0xBF] ∧ Encoded [0x61, 0xF0, 0x90, 0x80, 0x80] ∧
    compareBytes (.bytes [0x61, 0xEF, 0xBF, 0xBF]) (.bytes [0x61, 0xF0, 0x90, 0x80, 0x80]) = -1 := by
  have short : Encoded [0x61, 0xEF, 0xBF, 0xBF] := ⟨[0x61, 0xFFFF], by decide, by decide⟩
  have long : Encoded [0x61, 0xF0, 0x90, 0x80, 0x80] := ⟨[0x61, 0x10000], by decide, by decide⟩
  have same : compareBytes (.bytes [0x41, 0, 0x43]) (.bytes [0x41]) ≤ 0 := by decide
  have shorter : compareBytes (.bytes [0x41]) (.bytes [0x41, 0x80]) ≤ 0 := by decide
  have read : codepointsOf [0x61, 0xEF, 0xBF, 0xBF] = [0x61, 0xFFFF] := by cbv
  have read' : codepointsOf [0x61, 0xF0, 0x90, 0x80, 0x80] = [0x61, 0x10000] := by cbv
  refine ⟨⟨same, shorter, byte_order_is_codepoint_order.2.1 _ _ _ same shorter⟩, short, long, ?_⟩
  rw [byte_order_is_codepoint_order.2.2 _ _ short long, read, read']
  exact orderSign_of_lt (by decide)

end BoundedText
