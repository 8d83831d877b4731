import BoundedText.Proofs.Sequences

/-!
# Walking and encoding

Walking reads back what encoding writes, step for step, and a step that is not U+FFFD lies on the
encoding of its code point (`encode_walk_inverse`). A text whose walk meets no U+FFFD is therefore
determined by its code points.
-/

namespace BoundedText
open Utf8

/-! ## Steps -/

theorem stepsFrom_end {rest : Bytes} (ended : decode rest = none) (offset : Nat) : stepsFrom rest offset = [] := by
  rw [stepsFrom]
  split
  · rfl
  · rename_i found; rw [ended] at found; cases found

theorem stepsFrom_next {rest : Bytes} {d : Decoded} (found : decode rest = some d) (offset : Nat) :
    stepsFrom rest offset = ⟨d.codepoint, offset, d.length⟩ :: stepsFrom (rest.drop d.length) (offset + d.length) := by
  rw [stepsFrom]
  split
  · rename_i ended; rw [found] at ended; cases ended
  · rename_i other; rw [found] at other; cases other; rfl

/-- Each step is what decoding finds at its offset. -/
theorem decode_of_mem_stepsFrom {rest : Bytes} {offset : Nat} {step : Step} (taken : step ∈ stepsFrom rest offset) :
    offset ≤ step.offset ∧ decode (rest.drop (step.offset - offset)) = some ⟨step.codepoint, step.length⟩ := by
  fun_induction stepsFrom rest offset with
  | case1 rest offset ended => simp at taken
  | case2 rest offset d found ih =>
    rcases List.mem_cons.1 taken with rfl | later
    · simpa using found
    · obtain ⟨after, decoded⟩ := ih later
      refine ⟨by omega, ?_⟩
      rw [List.drop_drop] at decoded
      rwa [show step.offset - offset = d.length + (step.offset - (offset + d.length)) by omega]

theorem decode_of_mem_walk {bytes : Bytes} {start : Nat} {step : Step} (taken : step ∈ walk bytes start) :
    decode (bytes.drop step.offset) = some ⟨step.codepoint, step.length⟩ := by
  obtain ⟨after, decoded⟩ := decode_of_mem_stepsFrom taken
  rw [List.drop_drop] at decoded
  rwa [show step.offset = start + (step.offset - start) by omega]

/-! ## A text and what is left of it -/

/-- Where a walk begins only moves its steps. -/
theorem stepsFrom_add (rest : Bytes) (first second : Nat) :
    stepsFrom rest (first + second) =
      (stepsFrom rest second).map (fun step => { step with offset := first + step.offset }) := by
  fun_induction stepsFrom rest second with
  | case1 rest second ended => exact stepsFrom_end ended _
  | case2 rest second d found ih => rw [stepsFrom_next found, Nat.add_assoc, ih, List.map_cons]

theorem walk_next {rest : Bytes} {d : Decoded} (found : decode rest = some d) :
    walk rest 0 = ⟨d.codepoint, 0, d.length⟩ ::
      (walk (rest.drop d.length) 0).map (fun step => { step with offset := d.length + step.offset }) := by
  rw [walk, List.drop_zero, stepsFrom_next found, Nat.zero_add]
  exact congrArg _ (stepsFrom_add (rest.drop d.length) d.length 0)

theorem walk_end {rest : Bytes} (ended : decode rest = none) : walk rest 0 = [] := by
  rw [walk, List.drop_zero, stepsFrom_end ended]

/-- The code points of a walk are those of what is left where it begins. -/
theorem map_codepoint_walk (bytes : Bytes) (start : Nat) :
    (walk bytes start).map Step.codepoint = codepointsOf (bytes.drop start) := by
  have moved := stepsFrom_add (bytes.drop start) start 0
  rw [Nat.add_zero] at moved
  rw [codepointsOf, walk, walk, moved, List.map_map, List.drop_zero]
  rfl

theorem codepointsOf_end {rest : Bytes} (ended : decode rest = none) : codepointsOf rest = [] := by
  rw [codepointsOf, walk_end ended, List.map_nil]

theorem codepointsOf_next {rest : Bytes} {d : Decoded} (found : decode rest = some d) :
    codepointsOf rest = d.codepoint :: codepointsOf (rest.drop d.length) := by
  rw [codepointsOf, walk_next found, List.map_cons, List.map_map]
  rfl

theorem codepointsOf_eq_nil {rest : Bytes} : codepointsOf rest = [] ↔ textOf rest = [] := by
  rw [← decode_eq_none]
  cases found : decode rest with
  | none => simp [codepointsOf_end found]
  | some d => simp [codepointsOf_next found]

theorem prefixLength_none (rest : Bytes) {limit : Limit} (spent : limit.next? = none) :
    codepointPrefixLength rest limit = 0 := by
  rw [codepointPrefixLength, spent]

theorem prefixLength_zero (rest : Bytes) : codepointPrefixLength rest (.atMost 0) = 0 := prefixLength_none rest rfl

theorem prefixLength_end {rest : Bytes} (ended : decode rest = none) (limit : Limit) :
    codepointPrefixLength rest limit = 0 := by
  rw [codepointPrefixLength]
  split
  · rfl
  · split
    · rfl
    · rename_i found; rw [ended] at found; cases found

theorem prefixLength_some {rest : Bytes} {d : Decoded} {limit later : Limit} (found : decode rest = some d)
    (more : limit.next? = some later) :
    codepointPrefixLength rest limit = d.length + codepointPrefixLength (rest.drop d.length) later := by
  rw [codepointPrefixLength, more]
  dsimp only
  split
  · rename_i ended; rw [found] at ended; cases ended
  · rename_i other; rw [found] at other; cases other; rfl

theorem prefixLength_next {rest : Bytes} {d : Decoded} (found : decode rest = some d) (count : Nat) :
    codepointPrefixLength rest (.atMost (count + 1)) =
      d.length + codepointPrefixLength (rest.drop d.length) (.atMost count) :=
  prefixLength_some found rfl

/-- The code points after the first ones are those of the bytes after theirs. -/
theorem codepointsOf_drop (rest : Bytes) (count : Nat) :
    codepointsOf (rest.drop (codepointPrefixLength rest (.atMost count))) = (codepointsOf rest).drop count := by
  induction count generalizing rest with
  | zero => rw [prefixLength_zero, List.drop_zero, List.drop_zero]
  | succ count ih =>
    cases found : decode rest with
    | none => rw [prefixLength_end found, List.drop_zero, codepointsOf_end found, List.drop_nil]
    | some d => rw [prefixLength_next found, ← List.drop_drop, ih, codepointsOf_next found, List.drop_succ_cons]

/-! ## The text that a walk covers -/

theorem textOf_append {front : Bytes} (all : ∀ b ∈ front, b ≠ 0) (back : Bytes) :
    textOf (front ++ back) = front ++ textOf back :=
  List.takeWhile_append_of_pos (by simpa using all)

theorem textOf_cons {b : UInt8} (visible : b ≠ 0) (rest : Bytes) : textOf (b :: rest) = b :: textOf rest :=
  List.takeWhile_cons_of_pos (by simpa using visible)

theorem textOf_self {bytes : Bytes} (visible : ∀ b ∈ bytes, b ≠ 0) : textOf bytes = bytes :=
  List.takeWhile_eq_self_iff.2 (by simpa using visible)

theorem ne_zero_of_mem_text {bytes : Bytes} {b : UInt8} (member : b ∈ textOf bytes) : b ≠ 0 := by
  simpa using List.mem_takeWhile_imp member

theorem textOf_eq_take (bytes : Bytes) : textOf bytes = bytes.take (textLength bytes) :=
  List.prefix_iff_eq_take.1 <| List.takeWhile_prefix _

theorem drop_length_takeWhile {α : Type} (test : α → Bool) (items : List α) :
    items.drop (items.takeWhile test).length = items.dropWhile test := by
  have left : (items.takeWhile test ++ items.dropWhile test).drop (items.takeWhile test).length = items.dropWhile test :=
    List.drop_left ..
  rwa [List.takeWhile_append_dropWhile] at left

theorem textOf_append_drop (bytes : Bytes) : textOf bytes ++ bytes.drop (textLength bytes) = bytes := by
  rw [textOf_eq_take]
  exact List.take_append_drop ..

theorem ne_zero_of_mem_front {bytes : Bytes} {n : Nat} (inside : n ≤ textLength bytes) :
    ∀ b ∈ bytes.take n, b ≠ 0 := by
  intro b member
  refine @ne_zero_of_mem_text bytes b ?_
  rw [textOf_eq_take]
  exact List.take_subset_take_left bytes inside member

/-- The bytes up to where the text ends are the text. -/
theorem slice_textEnd (bytes : Bytes) (start : Nat) : slice bytes start (textEnd bytes start) = textOf (bytes.drop start) := by
  rw [slice, List.drop_take, textEnd, textOf_eq_take]
  by_cases inside : start ≤ bytes.length
  · rw [Nat.min_eq_left inside, Nat.add_sub_cancel_left]
  · rw [List.drop_eq_nil_of_le (by omega), List.take_nil, List.take_nil]

/-- What is left of the text after some of its bytes. -/
theorem textOf_drop {bytes : Bytes} {n : Nat} (inside : n ≤ textLength bytes) :
    textOf bytes = bytes.take n ++ textOf (bytes.drop n) := by
  conv_lhs => rw [← List.take_append_drop n bytes]
  exact textOf_append (ne_zero_of_mem_front inside) _

theorem textLength_drop {bytes : Bytes} {n : Nat} (inside : n ≤ textLength bytes) :
    textLength (bytes.drop n) = textLength bytes - n := by
  have whole := congrArg List.length (textOf_drop inside)
  have within := textLength_le bytes
  rw [List.length_append, List.length_take] at whole
  simp only [textLength] at inside within ⊢
  omega

theorem le_textLength {bytes : Bytes} {n : Nat} (within : n ≤ bytes.length) (all : ∀ b ∈ bytes.take n, b ≠ 0) :
    n ≤ textLength bytes := by
  have whole : textOf bytes = bytes.take n ++ textOf (bytes.drop n) := by
    conv_lhs => rw [← List.take_append_drop n bytes]
    exact textOf_append all _
  rw [textLength, whole, List.length_append, List.length_take]
  omega

/-- Nothing is left of a text where it ends. -/
theorem decode_textLength (bytes : Bytes) : decode (bytes.drop (textLength bytes)) = none := by
  have ended : textLength (bytes.drop (textLength bytes)) = 0 := by rw [textLength_drop (Nat.le_refl _), Nat.sub_self]
  exact decode_eq_none.2 (List.length_eq_zero_iff.1 ended)

/-- Bytes are walked as they are by themselves before bytes that continue no sequence, and these after them. -/
theorem stepsFrom_append {front back : Bytes} (visible : ∀ b ∈ front, b ≠ 0)
    (apart : ∀ b ∈ back.head?, isContinuation b = false) (offset : Nat) :
    stepsFrom (front ++ back) offset = stepsFrom front offset ++ stepsFrom back (offset + front.length) := by
  fun_induction stepsFrom front offset with
  | case1 front offset ended =>
    have none : front = [] := (textOf_self visible).symm.trans (decode_eq_none.1 ended)
    rw [none, List.nil_append, List.nil_append, List.length_nil, Nat.add_zero]
  | case2 front offset d found ih =>
    have within := (decode_length found).2
    have tail := ih fun b member => visible b (List.mem_of_mem_drop member)
    rw [List.length_drop, show offset + d.length + (front.length - d.length) = offset + front.length by omega] at tail
    rw [stepsFrom_next (decode_append apart found), List.drop_append_of_le_length within, tail, List.cons_append]

/-- Where a text has ended no sequence goes on. -/
theorem apart_of_ended {rest : Bytes} (ended : decode rest = none) : ∀ b ∈ rest.head?, isContinuation b = false := by
  intro b first
  by_contra continues
  obtain ⟨tail, rfl⟩ := List.head?_eq_some_iff.1 first
  have visible := continuation_ne_zero (Bool.eq_true_of_not_eq_false continues)
  have begins := decode_eq_none.1 ended
  rw [textOf_cons visible] at begins
  cases begins

/-- The steps of an array are those of its text. -/
theorem stepsFrom_textOf (bytes : Bytes) (offset : Nat) : stepsFrom (textOf bytes) offset = stepsFrom bytes offset := by
  have ended := decode_textLength bytes
  conv_rhs => rw [← textOf_append_drop bytes]
  rw [stepsFrom_append (fun _ => ne_zero_of_mem_text) (apart_of_ended ended), stepsFrom_end ended, List.append_nil]

theorem map_toNat_inj {first second : Bytes} : first.map UInt8.toNat = second.map UInt8.toNat ↔ first = second :=
  (List.map_injective_iff.2 fun _ _ => UInt8.toNat_inj.1).eq_iff

/-- The text begins with the sequence that decoding finds. -/
theorem textOf_decode {bytes : Bytes} {d : Decoded} (found : decode bytes = some d) :
    textOf bytes = bytes.take d.length ++ textOf (bytes.drop d.length) := by
  conv_lhs => rw [← List.take_append_drop d.length bytes]
  exact textOf_append (ne_zero_of_mem_take found) _

/-- A sequence that is not read as U+FFFD is the encoding of what it is read as. -/
theorem take_eq_encode {bytes : Bytes} {d : Decoded} (found : decode bytes = some d) (known : d.codepoint ≠ replacement) :
    d.length = width d.codepoint ∧ bytes.take d.length = encode d.codepoint := by
  obtain ⟨spelled, scalar, nonzero⟩ := spelled_of_decode found known
  have size := length_of_spells spelled
  rw [List.length_take, Nat.min_eq_left (decode_length found).2] at size
  exact ⟨size, spelled.unique (spells_encode scalar.1)⟩

/-- A text in which every step is known is the encoding of its code points. -/
theorem textOf_eq_encodeAll {rest : Bytes} {offset : Nat}
    (known : replacement ∉ (stepsFrom rest offset).map Step.codepoint) :
    textOf rest = encodeAll ((stepsFrom rest offset).map Step.codepoint) := by
  fun_induction stepsFrom rest offset with
  | case1 rest offset ended => simpa [encodeAll] using decode_eq_none.1 ended
  | case2 rest offset d found ih =>
    simp only [List.map_cons, List.mem_cons, not_or] at known
    have head := (take_eq_encode found (Ne.symm known.1)).2
    rw [textOf_decode found, head, ih known.2]
    simp [encodeAll]

/-! ## Writing -/

theorem length_encodeAll {codepoints : List Nat} (inside : ∀ c ∈ codepoints, c ≤ maxCodepoint) :
    (encodeAll codepoints).length = total (codepoints.map width) := by
  induction codepoints with
  | nil => rfl
  | cons c rest ih =>
    obtain ⟨first, others⟩ := List.forall_mem_cons.1 inside
    simp only [encodeAll] at ih
    simp [encodeAll, total, length_encode first, ih others]

/-- A text that is the encoding of code points that a text may hold. -/
def Encoded (bytes : Bytes) : Prop := ∃ codepoints, (∀ c ∈ codepoints, IsScalar c ∧ c ≠ 0) ∧ bytes = encodeAll codepoints

theorem encode_ne_nil {c : Nat} (inside : c ≤ maxCodepoint) : encode c ≠ [] := by
  generalize encode c = bytes, spells_encode inside = spelled
  cases spelled <;> simp

theorem encodeAll_cons (c : Nat) (codepoints : List Nat) : encodeAll (c :: codepoints) = encode c ++ encodeAll codepoints :=
  List.flatMap_cons

theorem encodeAll_append (first second : List Nat) : encodeAll (first ++ second) = encodeAll first ++ encodeAll second :=
  List.flatMap_append

theorem encodeAll_visible {codepoints : List Nat} (scalars : ∀ c ∈ codepoints, c ≤ maxCodepoint ∧ c ≠ 0) :
    ∀ b ∈ encodeAll codepoints, b ≠ 0 := by
  intro b member
  obtain ⟨c, known, inside⟩ := List.mem_flatMap.1 member
  obtain ⟨last, nonzero⟩ := scalars c known
  exact (spells_encode last).visible nonzero b inside

theorem nonzero_of_encodeAll {codepoints : List Nat} (visible : ∀ b ∈ encodeAll codepoints, b ≠ 0) :
    ∀ c ∈ codepoints, c ≠ 0 := by
  rintro c member rfl
  exact visible 0 (List.mem_flatMap.2 ⟨0, member, List.mem_singleton.2 rfl⟩) rfl

/-- Code points that fill the rest of an array are written there as their encodings. -/
theorem putAll_eq (codepoints : List Nat) (array : Bytes) (offset : Nat)
    (fits : offset + (encodeAll codepoints).length = array.length) :
    putAll array offset codepoints = (array.take offset ++ encodeAll codepoints, array.length) := by
  induction codepoints generalizing array offset with
  | nil => simp [putAll, encodeAll] at fits ⊢; omega
  | cons c rest ih =>
    simp only [encodeAll, List.flatMap_cons, List.length_append] at fits
    have room : offset + (encode c).length ≤ array.length := by omega
    have written := take_overwrite array offset (encode c) room
    have tail := ih (overwrite array offset (encode c)) (offset + (encode c).length)
      (by rw [length_overwrite]; simp only [encodeAll]; omega)
    rw [written, length_overwrite] at tail
    simpa [putAll, put, encodeAll] using tail

/-- The steps of code points that are encoded one after another. -/
theorem stepsFrom_encodeAll {codepoints : List Nat} (scalars : ∀ c ∈ codepoints, IsScalar c ∧ c ≠ 0) (rest : Bytes)
    (offset : Nat) :
    stepsFrom (encodeAll codepoints ++ rest) offset =
      codepoints.mapIdx (fun i c => ⟨c, offset + total ((codepoints.take i).map width), width c⟩) ++
        stepsFrom rest (offset + (encodeAll codepoints).length) := by
  induction codepoints generalizing offset with
  | nil => simp [encodeAll]
  | cons c others ih =>
    obtain ⟨⟨scalar, nonzero⟩, tail⟩ := List.forall_mem_cons.1 scalars
    have found : decode (encodeAll (c :: others) ++ rest) = some ⟨c, width c⟩ := by
      simpa [encodeAll] using decode_encode scalar nonzero (encodeAll others ++ rest)
    have left : (encodeAll (c :: others) ++ rest).drop (width c) = encodeAll others ++ rest := by
      rw [← length_encode scalar.1]
      simp [encodeAll]
    rw [stepsFrom_next found, left, ih tail, List.mapIdx_cons]
    simp [total, encodeAll, length_encode scalar.1, Nat.add_assoc]

/-- Every code point of a text is one that a text may hold. -/
theorem scalar_of_mem_codepointsOf {bytes : Bytes} {c : Nat} (member : c ∈ codepointsOf bytes) : IsScalar c ∧ c ≠ 0 := by
  obtain ⟨step, taken, rfl⟩ := List.mem_map.1 member
  exact scalar_of_decode (decode_of_mem_walk taken)

theorem inside_of_mem_codepointsOf {bytes : Bytes} {c : Nat} (member : c ∈ codepointsOf bytes) :
    c ≤ maxCodepoint ∧ c ≠ 0 := by
  obtain ⟨scalar, nonzero⟩ := scalar_of_mem_codepointsOf member
  exact ⟨scalar.1, nonzero⟩

theorem codepointsOf_encodeAll {codepoints : List Nat} (scalars : ∀ c ∈ codepoints, IsScalar c ∧ c ≠ 0) :
    codepointsOf (encodeAll codepoints) = codepoints := by
  have steps := stepsFrom_encodeAll scalars [] 0
  rw [stepsFrom_end (show decode [] = none from rfl), List.append_nil, List.append_nil] at steps
  rw [codepointsOf, walk, List.drop_zero, steps]
  apply List.ext_getElem
  · simp
  · intro i _ _
    simp

/-- Encoding and walking are inverse over whole texts. Code points that are written one after another
into an array they fill are walked as written, each where the widths before it add up to. Whatever the
bytes, a step that is not U+FFFD has the width of its code point and lies on its encoding; so two arrays
in which the same code points are found, U+FFFD not among them, hold the same text. -/
theorem encode_walk_inverse :
    (∀ (codepoints : List Nat) (array : Bytes), (∀ c ∈ codepoints, IsScalar c ∧ c ≠ 0) →
      array.length = total (codepoints.map width) →
      (putAll array 0 codepoints).2 = array.length ∧
        walk (putAll array 0 codepoints).1 0 =
          codepoints.mapIdx (fun i c => ⟨c, total ((codepoints.take i).map width), width c⟩)) ∧
    (∀ (bytes : Bytes) (start : Nat), ∀ step ∈ walk bytes start, step.codepoint ≠ replacement →
      step.length = width step.codepoint ∧
        slice bytes step.offset (step.offset + step.length) = encode step.codepoint) ∧
    (∀ first second : Bytes, codepointsOf first = codepointsOf second → replacement ∉ codepointsOf first →
      textOf first = textOf second) := by
  refine ⟨?_, ?_, ?_⟩
  · intro codepoints array scalars size
    have inside : ∀ c ∈ codepoints, c ≤ maxCodepoint := fun c member => (scalars c member).1.1
    have filled := putAll_eq codepoints array 0 (by rw [length_encodeAll inside, size, Nat.zero_add])
    refine ⟨by rw [filled], ?_⟩
    have steps := stepsFrom_encodeAll scalars [] 0
    rw [stepsFrom_end (show decode [] = none from rfl), List.append_nil, List.append_nil] at steps
    simpa [filled, walk] using steps
  · intro bytes start step taken known
    obtain ⟨size, spelled⟩ := take_eq_encode (decode_of_mem_walk taken) known
    refine ⟨size, ?_⟩
    rw [slice, List.drop_take, Nat.add_sub_cancel_left]
    exact spelled
  · intro first second same known
    have left : textOf first = encodeAll (codepointsOf first) := textOf_eq_encodeAll known
    have right : textOf second = encodeAll (codepointsOf second) := textOf_eq_encodeAll (by rwa [same] at known)
    rw [left, right, same]

/-- The theorem at code points of all four widths, at a sequence before a malformed byte, and at two
arrays that differ after their NUL only. -/
theorem encode_walk_inverse_samples :
    ((∀ c ∈ [0x41, 0xE9, 0x20AC, 0x1F600], IsScalar c ∧ c ≠ 0) ∧
      (List.replicate 10 (7 : UInt8)).length = total ([0x41, 0xE9, 0x20AC, 0x1F600].map width) ∧
      walk (putAll (List.replicate 10 7) 0 [0x41, 0xE9, 0x20AC, 0x1F600]).1 0 =
        [⟨0x41, 0, 1⟩, ⟨0xE9, 1, 2⟩, ⟨0x20AC, 3, 3⟩, ⟨0x1F600, 6, 4⟩]) ∧
    (⟨0x20AC, 0, 3⟩ ∈ walk [0xE2, 0x82, 0xAC, 0xC3, 0x28] 0 ∧
      slice [0xE2, 0x82, 0xAC, 0xC3, 0x28] 0 3 = encode 0x20AC) ∧
    (codepointsOf [0x41, 0, 0x42] = codepointsOf [0x41] ∧ replacement ∉ codepointsOf [0x41, 0, 0x42] ∧
      textOf [0x41, 0, 0x42] = textOf [0x41]) := by
  have euro : (⟨0x20AC, 0, 3⟩ : Step) ∈ walk [0xE2, 0x82, 0xAC, 0xC3, 0x28] 0 := by
    rw [walk, stepsFrom_next (d := ⟨0x20AC, 3⟩) (by decide)]
    exact List.mem_cons_self
  have cut : codepointsOf [0x41, 0, 0x42] = [0x41] := by
    rw [codepointsOf, walk, stepsFrom_next (d := ⟨0x41, 1⟩) (by decide), stepsFrom_end (by decide)]
    rfl
  have whole : codepointsOf [0x41] = [0x41] := by
    rw [codepointsOf, walk, stepsFrom_next (d := ⟨0x41, 1⟩) (by decide), stepsFrom_end (by decide)]
    rfl
  have known : replacement ∉ codepointsOf [0x41, 0, 0x42] := by rw [cut]; decide
  refine ⟨⟨by decide, by decide, ?_⟩, ⟨euro, ?_⟩, by rw [cut, whole], known, ?_⟩
  · exact (encode_walk_inverse.1 _ (List.replicate 10 7) (by decide) (by decide)).2
  · exact (encode_walk_inverse.2.1 _ _ _ euro (by decide)).2
  · exact encode_walk_inverse.2.2 _ _ (by rw [cut, whole]) known

end BoundedText
