import BoundedText.Proofs.ProperText
import BoundedText.Proofs.Truncation

/-!
# Numerals and their limit

The text of an integer in a base has one form (`isNumeral_iff`): a minus sign before a negative one, and
the places of its magnitude with no zero in front. Writing an integer writes that text as far as the room
goes (`integer_is_cut_numeral`). The length that is given for the destination is kept to but where it is
no whole number, and for the most negative word (`integer_stays_within_iff`).
-/

namespace BoundedText.Numeral

/-- The value of a figure or of a lower-case letter; letters count from ten on. -/
def placeOf (b : UInt8) : Option Nat :=
  if 0x30 ≤ b ∧ b ≤ 0x39 then some (b.toNat - 0x30)
  else if 0x61 ≤ b ∧ b ≤ 0x7A then some (b.toNat - 0x61 + 10)
  else none

/-- Places of a base, first one first, that have a value. There is no zero in front of another place. -/
structure IsPlaces (base n : Nat) (places : List Nat) : Prop where
  someDigit : places ≠ []
  below : ∀ d ∈ places, d < base
  shortest : places.head? = some 0 → places = [0]
  value : Literal.valueOf base places = n

/-- The text of an integer in a base: digits that spell its magnitude, after a minus sign when it is
negative. -/
inductive IsNumeral (base : Nat) (n : Int) : Bytes → Prop where
  | plain {places : List Nat} {text : Bytes} (sign : 0 ≤ n) (magnitude : IsPlaces base n.natAbs places)
    (spelled : text.map placeOf = places.map some) : IsNumeral base n text
  | signed {places : List Nat} {text : Bytes} (sign : n < 0) (magnitude : IsPlaces base n.natAbs places)
    (spelled : text.map placeOf = places.map some) : IsNumeral base n (0x2D :: text)

/-! ## Places -/

private theorem valueOf_append (base : Nat) (front : List Nat) (d : Nat) :
    Literal.valueOf base (front ++ [d]) = Literal.valueOf base front * base + d := by
  simp [Literal.valueOf]

private theorem places_small {base n : Nat} (small : n < base) : places base n = [n] := by
  rw [places, if_pos (.inl small)]

section places
variable {base : Nat} (two : 2 ≤ base)
include two

private theorem places_large {n : Nat} (large : base ≤ n) : places base n = places base (n / base) ++ [n % base] := by
  rw [places, if_neg (by omega)]

private theorem isPlaces_places (n : Nat) : IsPlaces base n (places base n) := by
  induction n using Nat.strong_induction_on with
  | _ n ih =>
  by_cases small : n < base
  · rw [places_small small]
    refine ⟨by simp, by simpa using small, ?_, by simp [Literal.valueOf]⟩
    intro zero
    simpa using zero
  · have fewer : n / base < n := Nat.div_lt_self (by omega) two
    have front := ih (n / base) fewer
    have positive : 0 < n / base := Nat.div_pos (by omega) (by omega)
    rw [places_large two (by omega)]
    refine ⟨by simp, ?_, ?_, ?_⟩
    · intro d member
      rcases List.mem_append.1 member with before | last
      · exact front.below d before
      · rw [List.mem_singleton.1 last]
        exact Nat.mod_lt n (by omega)
    · intro zero
      -- A zero in front would be all of the front, whose value is not zero.
      rw [List.head?_append_of_ne_nil _ front.someDigit] at zero
      have value := front.value
      rw [front.shortest zero] at value
      simp [Literal.valueOf] at value
      omega
    · rw [valueOf_append, front.value]
      exact Nat.div_add_mod' n base

/-- The places of a number are the only ones. -/
theorem IsPlaces.eq_places {n : Nat} {found : List Nat} (spelled : IsPlaces base n found) : found = places base n := by
  induction found using List.reverseRecOn generalizing n with
  | nil => exact absurd rfl spelled.someDigit
  | append_singleton front d ih =>
    have last : d < base := spelled.below d (by simp)
    have value := spelled.value
    rw [valueOf_append] at value
    by_cases alone : front = []
    · subst alone
      have single : d = n := by simpa [Literal.valueOf] using value
      rw [single] at last
      rw [places_small last, single]
      rfl
    · have head : front.head? ≠ some 0 := by
        intro zero
        have whole := spelled.shortest (by rw [List.head?_append_of_ne_nil _ alone, zero])
        have size := congrArg List.length whole
        have more := List.length_pos_iff.2 alone
        simp only [List.length_append, List.length_singleton] at size
        omega
      have before : IsPlaces base (Literal.valueOf base front) front :=
        ⟨alone, fun x member => spelled.below x (by simp [member]), fun zero => absurd zero head, rfl⟩
      have found := ih before
      have positive : Literal.valueOf base front ≠ 0 := by
        intro zero
        rw [zero, places_small (by omega)] at found
        exact head (by rw [found]; rfl)
      have shifted : n / base = Literal.valueOf base front ∧ n % base = d := by
        rw [← value, Nat.mul_comm, Nat.mul_add_div (by omega), Nat.div_eq_of_lt last, Nat.mul_add_mod]
        exact ⟨rfl, Nat.mod_eq_of_lt last⟩
      have large : base ≤ n := by
        by_contra less
        rw [Nat.div_eq_of_lt (by omega)] at shifted
        exact positive shifted.1.symm
      rw [places_large two large, shifted.1, shifted.2, ← found]

private theorem length_places_le {n k : Nat} (some : 0 < k) (small : n < 2 ^ k) : (places base n).length ≤ k := by
  induction k generalizing n with
  | zero => cases some
  | succ k ih =>
    by_cases short : n < base
    · rw [places_small short]
      simp
    · have half : n / base ≤ n / 2 := Nat.div_le_div_left two (by decide)
      rw [pow_succ] at small
      have more : 0 < k := by
        rcases Nat.eq_zero_or_pos k with rfl | positive
        · omega
        · exact positive
      have front := ih more (n := n / base) (by omega)
      rw [places_large two (by omega), List.length_append, List.length_singleton]
      omega

end places

/-! ## Digits -/

private theorem placeOf_digit {d : Nat} (low : d < 36) : placeOf (digit d) = some d := by
  have every : ∀ d : Fin 36, placeOf (digit d.val) = some d.val := by decide
  exact every ⟨d, low⟩

private theorem eq_digit_of_placeOf {b : UInt8} {d : Nat} (place : placeOf b = some d) : b = digit d := by
  have small := b.toNat_lt
  rw [placeOf] at place
  rw [← UInt8.toNat_inj, digit]
  simp only [UInt8.le_iff_toNat_le, UInt8.toNat_ofNat'] at place ⊢
  split at place
  · rename_i figure
    simp at figure
    cases place
    rw [if_pos (by omega)]
    omega
  · split at place
    · rename_i letter
      simp at letter
      cases place
      rw [if_neg (by omega)]
      omega
    · cases place

private theorem map_placeOf_eq_iff {base : Nat} (last : base ≤ 36) {places : List Nat} (below : ∀ d ∈ places, d < base)
    {text : Bytes} : text.map placeOf = places.map some ↔ text = places.map digit := by
  constructor
  · intro spelled
    induction text generalizing places with
    | nil => simpa using spelled
    | cons b text ih =>
      cases places with
      | nil => simp at spelled
      | cons d places =>
        simp only [List.map_cons, List.cons.injEq] at spelled ⊢
        exact ⟨eq_digit_of_placeOf spelled.1, ih (fun x member => below x (by simp [member])) spelled.2⟩
  · rintro rfl
    rw [List.map_map, List.map_inj_left]
    intro d member
    have := below d member
    exact placeOf_digit (by omega)

/-- An integer has one numeral in a base. -/
theorem isNumeral_iff {base : Nat} (two : 2 ≤ base) (last : base ≤ 36) {n : Int} {text : Bytes} :
    IsNumeral base n text ↔ text = ofInt base n := by
  have own := isPlaces_places two n.natAbs
  constructor
  · rintro (⟨sign, magnitude, spelled⟩ | ⟨sign, magnitude, spelled⟩)
    · rw [(map_placeOf_eq_iff last magnitude.below).1 spelled, magnitude.eq_places two, ofInt, if_neg (by omega)]
      rfl
    · rw [(map_placeOf_eq_iff last magnitude.below).1 spelled, magnitude.eq_places two, ofInt, if_pos sign]
      rfl
  · rintro rfl
    have spelled := (map_placeOf_eq_iff last own.below).2 rfl
    by_cases sign : n < 0
    · rw [ofInt, if_pos sign]
      exact .signed sign own spelled
    · rw [ofInt, if_neg sign]
      exact .plain (by omega) own spelled

private theorem length_ofInt_le {base : Nat} (two : 2 ≤ base) {n : Int} (small : n.natAbs < 2 ^ 63) :
    (ofInt base n).length ≤ 64 := by
  have magnitude := length_places_le two (by decide) small
  rw [ofInt, List.length_append, digits, List.length_map]
  split <;> simp <;> omega

private theorem ofInt_ne_nil (base : Nat) (n : Int) : ofInt base n ≠ [] := by
  simp [ofInt, Cursor.digits_ne_nil]

/-- The signed word of an integer is the one that differs from it by a multiple of the number of words. -/
theorem wrapSigned_eq {n word : Int} (wraps : 2 ^ 64 ∣ n - word) (above : -2 ^ 63 ≤ word) (below : word < 2 ^ 63) :
    wrapSigned n = word := by
  obtain ⟨k, multiple⟩ := wraps
  rw [wrapSigned, show n = word + (0x10000000000000000 : Nat) * k by omega, Int.add_mul_bmod_self_left]
  exact Int.bmod_eq_of_le_mul_two (by omega) (by omega)

end BoundedText.Numeral

namespace BoundedText.Cursor
open Numeral

/-- The number of whole bytes of the destination that an integer is written into: its length rounded down,
which bounds a position as the length does. One that is not a number leaves the bound of the buffer. -/
def destinationLength (cursor : Cursor) (length : Option Double) : Int :=
  if destination cursor.buffer.length length = .nan then cursor.buffer.length
  else (destination cursor.buffer.length length).floor.getD 0

/-- What an append is held to whose destination has a length: it answers 0 or 1, the cursor does not move
past the last byte of the destination, and from there on every byte is as it was. -/
structure StaysWithin (length : Int) (cursor : Cursor) (answer : Nat) (after : Cursor) : Prop where
  answer : answer = 0 ∨ answer = 1
  pos : (after.pos : Int) ≤ max (cursor.pos : Int) (length - 1)
  frame : ∀ i : Nat, max (cursor.pos : Int) (length - 1) ≤ i → after.buffer[i]? = cursor.buffer[i]?

/-! ## Writing an integer -/

/-- An integer that is given is the length when it is not more than that of the buffer. -/
theorem destinationLength_whole (cursor : Cursor) (length : Option Int) :
    cursor.destinationLength (length.map Double.ofWhole) =
      min (length.getD cursor.buffer.length) cursor.buffer.length := by
  rw [destinationLength, destination_whole, if_neg nofun, Double.floor_ofWhole, Option.getD_some]

/-- A word that is not the most negative one is written as far as its destination goes. -/
theorem appendInteger_eq (cursor : Cursor) {value : Number} {n : Int} (whole : value.trunc = some n)
    (ordinary : wrapSigned n ≠ mostNegative) (base : Double) {length : Option Double} (number : length ≠ some .nan) :
    let numeral := ofInt (clampBase base) (wrapSigned n)
    let free := reach (destination cursor.buffer.length length) - 1 - cursor.pos
    cursor.appendInteger value base length =
      (min (numeral.length - free) 1, cursor.write (numeral.take free), none) := by
  intro numeral free
  have some : 0 < numeral.length := List.length_pos_iff.2 (ofInt_ne_nil _ _)
  have ends := endsAt_destination cursor.buffer.length number
  simp only [appendInteger, isFull, ends.full, whole, if_neg ordinary]
  split
  · rename_i full
    have none : free = 0 := by omega
    rw [none, List.take_zero, write_nil, Nat.sub_zero, Nat.min_eq_right some]
  · rw [appendNumeral_eq ends]

/-- Nothing is written into a destination that is full. -/
theorem appendInteger_full {cursor : Cursor} {length : Option Double}
    (full : isFull (destination cursor.buffer.length length) cursor.pos = true) (value : Number) (base : Double) :
    cursor.appendInteger value base length = (1, cursor, none) := by
  simp only [appendInteger, full, if_true]

/-- The most negative word is appended as a text, in the bases that have one. -/
theorem appendInteger_least {cursor : Cursor} {value : Number} {n : Int} (whole : value.trunc = some n)
    (least : wrapSigned n = mostNegative) (base : Double) {length : Option Double}
    (free : isFull (destination cursor.buffer.length length) cursor.pos = false) :
    cursor.appendInteger value base length =
      match mostNegativeText (clampBase base) with
      | some text => ((cursor.append text).1, (cursor.append text).2, none)
      | none => (0, cursor, some (unsupportedBase (clampBase base))) := by
  cases known : mostNegativeText (clampBase base) with
  | none => simp only [appendInteger, whole, least, free, known, Bool.false_eq_true, if_true, if_false]
  | some text => simp only [appendInteger, whole, least, free, known, Bool.false_eq_true, if_true, if_false]

/-- An integer is written as its numeral. A number counts without its fraction and as a signed word of 64
bits; when that is not the most negative one, its text in the base is one numeral of at most 65 bytes.
What fits of it is written, up to the byte before the last one of the destination, and no other byte
changes; the answer is 0 when all of it fits and 1 when not. -/
theorem integer_is_cut_numeral (cursor : Cursor) (value : Number) {n word : Int} (whole : value.trunc = some n)
    (wraps : 2 ^ 64 ∣ n - word) (above : -2 ^ 63 < word) (below : word < 2 ^ 63) (base : Double) (bound : Option Int) :
    let length := bound.map Double.ofWhole
    let room := cursor.destinationLength length - 1 - cursor.pos
    let answer := (cursor.appendInteger value base length).1
    let after := (cursor.appendInteger value base length).2.1
    (∃! numeral, IsNumeral (clampBase base) word numeral) ∧
    ∀ numeral, IsNumeral (clampBase base) word numeral →
      let fitting := min numeral.length room.toNat
      numeral.length ≤ 65 ∧
      after.pos = cursor.pos + fitting ∧
      after.buffer.length = cursor.buffer.length ∧
      slice after.buffer cursor.pos after.pos = numeral.take fitting ∧
      (∀ i, i < cursor.pos ∨ after.pos ≤ i → after.buffer[i]? = cursor.buffer[i]?) ∧
      answer = if (numeral.length : Int) ≤ room then 0 else 1 := by
  intro length room answer after
  obtain ⟨two, last⟩ := clampBase_range base
  have wrapped : wrapSigned n = word := wrapSigned_eq wraps above.le below
  have ordinary : wrapSigned n ≠ mostNegative := by rw [wrapped, mostNegative]; omega
  have number : length ≠ some .nan := by cases bound <;> simp [length, Double.ofWhole]
  have destined : cursor.destinationLength length = min (bound.getD cursor.buffer.length) cursor.buffer.length :=
    destinationLength_whole cursor bound
  have free : reach (destination cursor.buffer.length length) - 1 - cursor.pos = room.toNat := by
    rw [destination_whole, reach, Double.ceil_ofWhole, Option.getD_some]
    omega
  have result := appendInteger_eq cursor whole ordinary base number
  dsimp only at result
  rw [wrapped, free] at result
  refine ⟨⟨ofInt (clampBase base) word, (isNumeral_iff two last).2 rfl, fun _ => (isNumeral_iff two last).1⟩, ?_⟩
  intro numeral shown fitting
  obtain rfl := (isNumeral_iff two last).1 shown
  have short : (ofInt (clampBase base) word).length ≤ 64 := length_ofInt_le two (by omega)
  have inside : ((ofInt (clampBase base) word).take room.toNat).length ≤ cursor.room := by
    rw [List.length_take, Cursor.room]
    omega
  have moved : after = (cursor.append ((ofInt (clampBase base) word).take room.toNat)).2 := by
    rw [append_room inside]
    simp only [after, result]
  have size : ((ofInt (clampBase base) word).take room.toNat).length = fitting := by
    rw [List.length_take, Nat.min_comm]
  have pos : after.pos = cursor.pos + fitting := by rw [moved, pos_append, size]; omega
  refine ⟨by omega, pos, ?_, ?_, ?_, ?_⟩
  · rw [moved, length_append]
  · rw [moved, slice_append, List.take_take, List.take_eq_take_iff]
    omega
  · intro i outside
    rw [moved] at outside ⊢
    exact getElem?_append cursor _ outside
  · have answered : answer = min ((ofInt (clampBase base) word).length - room.toNat) 1 := by
      simp only [answer, result]
    have some : 0 < (ofInt (clampBase base) word).length := List.length_pos_iff.2 (ofInt_ne_nil _ _)
    rw [answered]
    split <;> omega

/-- A negative number past 64 bits in hexadecimal, where its last digit is cut by the length given. -/
theorem integer_is_cut_numeral_wrapped :
    let cursor : Cursor := ⟨List.replicate 10 9, 1⟩
    let value : Number := .integer (3 * 2 ^ 64 - 255)
    let result := cursor.appendInteger value (.ofInt 16) (some (.ofWhole 4))
    value.trunc = some (3 * 2 ^ 64 - 255) ∧ (2 ^ 64 : Int) ∣ 3 * 2 ^ 64 - 255 - -255 ∧
    (-2 ^ 63 : Int) < -255 ∧ (-255 : Int) < 2 ^ 63 ∧ IsNumeral (clampBase (.ofInt 16)) (-255) [0x2D, 0x66, 0x66] ∧
    result.2.1.pos = 3 ∧ slice result.2.1.buffer 1 3 = [0x2D, 0x66] ∧ result.2.1.buffer[3]? = some 9 ∧
    result.1 = 1 := by
  intro cursor value result
  have sixteen : clampBase (.ofInt 16) = 16 := by decide +kernel
  have magnitude : IsPlaces 16 255 [15, 15] := ⟨by decide, by decide, by decide, by decide⟩
  have shown : IsNumeral (clampBase (.ofInt 16)) (-255) [0x2D, 0x66, 0x66] := by
    rw [sixteen]
    exact .signed (by decide) magnitude (by decide)
  have wraps : (2 ^ 64 : Int) ∣ 3 * 2 ^ 64 - 255 - -255 := ⟨3, by decide⟩
  obtain ⟨-, cut⟩ := integer_is_cut_numeral cursor value rfl wraps (by decide) (by decide) (.ofInt 16) (some 4)
  obtain ⟨-, pos, -, front, frame, answer⟩ := cut _ shown
  have stop : result.2.1.pos = 3 := pos
  refine ⟨rfl, wraps, by decide, by decide, shown, stop, ?_, ?_, answer⟩
  · rw [← stop]
    exact front
  · exact (frame 3 (.inr stop.le)).trans rfl

/-! ## The length of the destination -/

/-- The text that a word is written as, if it has one. -/
def integerText (base : Nat) (word : Int) : Option Bytes :=
  if word = mostNegative then mostNegativeText base else some (ofInt base word)

/-- The whole bytes of a destination are all of it, or all but the part of a byte at its end. -/
theorem destinationLength_reach (cursor : Cursor) {length : Option Double} (number : length ≠ some .nan) :
    let limit := destination cursor.buffer.length length
    1 < reach limit → cursor.destinationLength length = (reach limit : Int) - if limit.isWhole then 0 else 1 := by
  intro limit more
  rcases destination_cases cursor.buffer.length length with ⟨nan, -⟩ | ⟨-, below | ⟨below, above, down, up, _, _, _⟩⟩
  · exact absurd nan number
  · simp [limit, below, reach, Double.ceil] at more
  · have finite : limit ≠ .nan := by
      intro nan
      have none : some below = none := down.symm.trans (congrArg Double.floor nan)
      cases none
    simp only [limit, reach, up, Option.getD_some] at more
    simp only [destinationLength, limit, if_neg finite, down, reach, up, Option.getD_some, Double.isWhole_iff down up]
    split <;> omega

private theorem isFull_eq_false_iff {capacity : Nat} {length : Option Double} (number : length ≠ some .nan)
    (pos : Nat) :
    isFull (destination capacity length) pos = false ↔ pos + 1 < reach (destination capacity length) := by
  rw [isFull, Bool.eq_false_iff, ne_eq, (endsAt_destination capacity number).full, not_le]

/-- What a written piece is held to comes down to the answer and to where the piece ends. -/
theorem write_within_iff (cursor : Cursor) (size : Int) (answer : Nat) (piece : Bytes) :
    StaysWithin size cursor answer (cursor.write piece) ↔
      (answer = 0 ∨ answer = 1) ∧ ((cursor.pos + piece.length : Nat) : Int) ≤ max (cursor.pos : Int) (size - 1) := by
  constructor
  · rintro ⟨small, pos, -⟩
    exact ⟨small, pos⟩
  · rintro ⟨small, pos⟩
    refine ⟨small, pos, ?_⟩
    intro i past
    exact getElem?_overwrite_of_outside (.inr (by omega))

private theorem still_within (cursor : Cursor) (size : Int) {answer : Nat} (small : answer = 0 ∨ answer = 1) :
    StaysWithin size cursor answer cursor :=
  ⟨small, by omega, fun _ _ => rfl⟩

private theorem two_le_length_mostNegativeText {base : Nat} {text : Bytes} (known : mostNegativeText base = some text) :
    2 ≤ text.length := by
  have decimal : 2 ≤ (ofInt 10 mostNegative).length := by decide +kernel
  have hexadecimal : 2 ≤ (digits 16 (wrapUnsigned mostNegative)).length := by decide +kernel
  have octal : 2 ≤ (digits 8 (wrapUnsigned mostNegative)).length := by decide +kernel
  rw [mostNegativeText] at known
  split at known
  · cases known
    exact decimal
  · split at known
    · rename_i base
      cases known
      rcases base with rfl | rfl
      · exact hexadecimal
      · exact octal
    · cases known

section within
variable (cursor : Cursor) {value : Number} {n : Int} (whole : value.trunc = some n) (base : Double)
  (length : Option Double)
include whole

/-- A word that is not the most negative one is cut where its destination ends, in the middle of a byte if
the length has a fraction. Where the length is not a number it is not cut at all. -/
theorem ordinary_within_iff (ordinary : wrapSigned n ≠ mostNegative) :
    let numeral := ofInt (clampBase base) (wrapSigned n)
    let limit := destination cursor.buffer.length length
    let size := cursor.destinationLength length
    StaysWithin size cursor (cursor.appendInteger value base length).1 (cursor.appendInteger value base length).2.1 ↔
      (isFull limit cursor.pos = false → cursor.pos + numeral.length < size ∨ limit.isWhole = true) := by
  intro numeral limit size
  have positive : 0 < numeral.length := List.length_pos_iff.2 (ofInt_ne_nil _ _)
  by_cases nan : length = some .nan
  · subst nan
    have all : size = cursor.buffer.length := rfl
    have never : isFull limit cursor.pos = false := rfl
    have fraction : limit.isWhole = false := rfl
    have result : cursor.appendInteger value base (some .nan) = (0, cursor.write numeral, none) :=
      appendInteger_nan cursor whole ordinary base
    rw [result, write_within_iff, never, fraction]
    simp only [true_or, true_and, Bool.false_eq_true, or_false, forall_const]
    omega
  · have inside : reach limit ≤ cursor.buffer.length := reach_destination_le cursor.buffer.length length
    have sized : 1 < reach limit → size = (reach limit : Int) - if limit.isWhole then 0 else 1 :=
      destinationLength_reach cursor nan
    have result : cursor.appendInteger value base length =
        (min (numeral.length - (reach limit - 1 - cursor.pos)) 1,
          cursor.write (numeral.take (reach limit - 1 - cursor.pos)), none) :=
      appendInteger_eq cursor whole ordinary base nan
    have free : isFull limit cursor.pos = false ↔ cursor.pos + 1 < reach limit := isFull_eq_false_iff nan cursor.pos
    rw [result, write_within_iff, List.length_take, free]
    cases shape : limit.isWhole with
    | true =>
      simp only [shape, if_true] at sized
      simp only [or_true, implies_true, iff_true]
      omega
    | false =>
      simp only [shape, Bool.false_eq_true, if_false] at sized
      simp only [Bool.false_eq_true, or_false]
      omega

/-- The text of the most negative word is cut at the end of the buffer only, wherever its destination ends. -/
theorem least_within_iff (least : wrapSigned n = mostNegative) {text : Bytes}
    (known : mostNegativeText (clampBase base) = some text) :
    let limit := destination cursor.buffer.length length
    let size := cursor.destinationLength length
    StaysWithin size cursor (cursor.appendInteger value base length).1 (cursor.appendInteger value base length).2.1 ↔
      (isFull limit cursor.pos = false →
        cursor.pos + text.length < size ∨ size = cursor.buffer.length ∧ cursor.pos + text.length = size) := by
  intro limit size
  have long := two_le_length_mostNegativeText known
  have room : cursor.room = cursor.buffer.length - 1 - cursor.pos := rfl
  cases full : isFull limit cursor.pos with
  | true =>
    rw [appendInteger_full full]
    exact ⟨fun _ => nofun, fun _ => still_within cursor size (.inr rfl)⟩
  | false =>
    have result := appendInteger_least whole least base full
    simp only [known, append_eq] at result
    rw [result, write_within_iff, List.length_take]
    simp only [forall_const]
    by_cases nan : length = some .nan
    · subst nan
      have all : size = cursor.buffer.length := rfl
      omega
    · have inside : reach limit ≤ cursor.buffer.length := reach_destination_le cursor.buffer.length length
      have sized : 1 < reach limit → size = (reach limit : Int) - if limit.isWhole then 0 else 1 :=
        destinationLength_reach cursor nan
      have free : cursor.pos + 1 < reach limit := (isFull_eq_false_iff nan cursor.pos).1 full
      split at sized <;> omega

end within

/-- Writing an integer keeps to the length of its destination and answers 0 or 1, with three exceptions, all
of them where there is room to begin and the text does not fit with a byte to spare. A numeral goes on over
the part of a byte at the end of a length that has a fraction. It is not cut where the length is not a
number. And the most negative word has a text in three bases that is cut only at the end of the buffer,
where the answer is the number of bytes left out. -/
theorem integer_stays_within_iff (cursor : Cursor) (value : Number) {n : Int} (whole : value.trunc = some n)
    (base : Double) (length : Option Double) :
    let limit := destination cursor.buffer.length length
    let size := cursor.destinationLength length
    StaysWithin size cursor (cursor.appendInteger value base length).1 (cursor.appendInteger value base length).2.1 ↔
      ∀ text, integerText (clampBase base) (wrapSigned n) = some text → isFull limit cursor.pos = false →
        cursor.pos + text.length < size ∨
        (wrapSigned n ≠ mostNegative ∧ limit.isWhole = true) ∨
        (wrapSigned n = mostNegative ∧ size = cursor.buffer.length ∧ cursor.pos + text.length = size) := by
  intro limit size
  by_cases least : wrapSigned n = mostNegative
  · simp only [integerText, least, if_true, ne_eq, not_true_eq_false, false_and, true_and, false_or]
    cases known : mostNegativeText (clampBase base) with
    | none =>
      refine ⟨fun _ => nofun, fun _ => ?_⟩
      cases full : isFull limit cursor.pos with
      | true =>
        rw [appendInteger_full full]
        exact still_within cursor size (.inr rfl)
      | false =>
        rw [appendInteger_least whole least base full, known]
        exact still_within cursor size (.inl rfl)
    | some text =>
      have fit := least_within_iff cursor whole base length least known
      simp only [Option.some.injEq, forall_eq']
      exact fit
  · have fit := ordinary_within_iff cursor whole base length least
    simp only [integerText, least, if_false, Option.some.injEq, forall_eq', ne_eq, not_false_eq_true, true_and,
      false_and, or_false]
    exact fit

/-- The bits of the most negative word in hexadecimal fill a buffer of 17 bytes. -/
theorem integer_stays_within_iff_filled :
    let cursor := ofCapacity 17
    let value : Number := .integer (-2 ^ 63)
    let result := cursor.appendInteger value (.ofInt 16) none
    value.trunc = some (-2 ^ 63) ∧ StaysWithin (cursor.destinationLength none) cursor result.1 result.2.1 := by
  intro cursor value result
  refine ⟨rfl, (integer_stays_within_iff cursor value rfl (.ofInt 16) none).2 ?_⟩
  intro text known _
  have size : (integerText (clampBase (.ofInt 16)) (wrapSigned (-2 ^ 63))).map List.length = some 16 := by
    decide +kernel
  rw [known, Option.map_some, Option.some_inj] at size
  rw [size]
  exact .inl (by decide)

/-- The decimal text of the most negative word is written whole into a destination of five bytes. -/
theorem least_word_outruns_destination :
    let cursor := ofCapacity 64
    let five : Option Double := some (.ofWhole 5)
    let result := cursor.appendInteger (.integer (-2 ^ 63)) (.ofInt 10) five
    ¬ StaysWithin (cursor.destinationLength five) cursor result.1 result.2.1 := by
  intro cursor five result within
  have stop : result.2.1.pos = 20 := by decide +kernel
  have length : cursor.destinationLength five = 5 := by decide
  have short := within.pos
  rw [stop, length] at short
  exact absurd short (by decide)

end BoundedText.Cursor
