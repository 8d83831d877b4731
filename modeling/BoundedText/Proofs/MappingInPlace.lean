import BoundedText.Proofs.MappedPrefixes

/-!
# Mapping in place

The loop that maps a text in place reads its sequences from the array that it rewrites. Every sequence is followed by
what the loop has not come to yet, or by what it has left there, and the second continues a sequence only where the
first does; so each is read as it was, whether it is well-formed or not (`decode_before`). The loop therefore gives
what mapping the sequences of the old array one by one gives (`run_eq`): the same sequences at the same places, a code
point changed wherever its mapping has the same size, and the copied mapping when that was so everywhere
(`mapInPlace_keeps_sequences`).
-/

namespace BoundedText
open Utf8

/-! ## A sequence before other bytes -/

/-- Continuation bytes are taken wherever some are announced and one is there. -/
theorem continuations_eq_nil {announced : Nat} {rest : Bytes} : continuations (announced + 1) rest = [] ↔ ¬ ContinuesAt rest 0 := by
  cases rest with
  | nil => simp [continuations, ContinuesAt]
  | cons b rest => rw [continuations_succ_cons]; simp [ContinuesAt]

section before
variable {front back back' : Bytes} (leads : ContinuesAt back' 0 → ContinuesAt back 0)
include leads

/-- The continuation bytes up to the end of a front are the same before bytes that do not continue it more. -/
theorem continuations_before {announced : Nat} (all : (continuations announced (front ++ back)).length = front.length) :
    continuations announced (front ++ back') = continuations announced (front ++ back) := by
  induction front generalizing announced with
  | nil =>
    cases announced with
    | zero => rfl
    | succ announced =>
      -- More was announced and none was taken, so that what came next did not continue the sequence.
      have none : continuations (announced + 1) back = [] := List.eq_nil_of_length_eq_zero all
      have ended : ¬ ContinuesAt back' 0 := fun more => continuations_eq_nil.1 none (leads more)
      rw [List.nil_append, List.nil_append, none, continuations_eq_nil.2 ended]
  | cons b front ih =>
    cases announced with
    | zero => cases all
    | succ announced =>
      rw [List.cons_append, continuations_succ_cons] at all
      rw [List.cons_append, List.cons_append, continuations_succ_cons, continuations_succ_cons]
      split at all
      · rw [ih (Nat.succ.inj all)]
      · cases all

/-- The sequence that ends with a front is read from it before other bytes too. -/
theorem decode_before {d : Decoded} (found : decode (front ++ back) = some d) (size : d.length = front.length) :
    decode (front ++ back') = some d := by
  cases front with
  | nil => exact absurd size (Nat.ne_of_gt (decode_length found).1)
  | cons a front =>
    rw [List.cons_append] at found
    obtain ⟨lead, reads⟩ := reads_of_decode found
    apply decode_of_reads lead
    cases reads with
    | ascii short => exact .ascii short
    | stray high leads => exact .stray high leads
    | complete announced trails first taken good =>
      have all : (continuations announced (front ++ back)).length = front.length := by rw [taken]; simpa using size
      exact .complete announced trails first ((continuations_before leads all).trans taken) good
    | malformed announced trails first taken bad =>
      have all : (continuations announced (front ++ back)).length = front.length := by rw [taken]; simpa using size
      exact .malformed announced trails first ((continuations_before leads all).trans taken) bad

end before

/-! ## One sequence -/

/-- What a code point that takes up so many bytes is mapped to in place: its mapping when that is one code point of
the same size, and itself otherwise. -/
def recased (mapping : CaseMapping) (c length : Nat) : Nat :=
  match mapping c with
  | [m] => if width m = length then m else c
  | _ => c

/-- The bytes of a sequence after it is mapped in place. -/
def recasedBytes (mapping : CaseMapping) (rest : Bytes) (d : Decoded) : Bytes :=
  if recased mapping d.codepoint d.length = d.codepoint then rest.take d.length
  else encode (recased mapping d.codepoint d.length)

section sequence
variable {mapping : CaseMapping} {rest : Bytes} {d : Decoded}

private theorem recased_single {c m length : Nat} (only : mapping c = [m]) (size : width m = length) :
    recased mapping c length = m := by
  rw [recased, only]
  exact if_pos size

private theorem recased_changed {c length : Nat} (changed : recased mapping c length ≠ c) :
    mapping c = [recased mapping c length] ∧ width (recased mapping c length) = length := by
  unfold recased at changed ⊢
  split at changed
  · rename_i m only
    split at changed
    · rename_i same
      rw [only]
      exact ⟨by rw [if_pos same], by rwa [if_pos same]⟩
    · exact absurd rfl changed
  · exact absurd rfl changed

/-- A changed sequence is the encoding of a code point that takes up as many bytes. -/
theorem recased_scalar (maps : MapsScalars mapping) (found : decode rest = some d)
    (changed : recased mapping d.codepoint d.length ≠ d.codepoint) :
    (IsScalar (recased mapping d.codepoint d.length) ∧ recased mapping d.codepoint d.length ≠ 0) ∧
      (encode (recased mapping d.codepoint d.length)).length = d.length := by
  obtain ⟨only, size⟩ := recased_changed changed
  have known := maps _ (scalar_of_decode found) _ (only ▸ List.mem_singleton_self _)
  exact ⟨known, (length_encode known.1.1).trans size⟩

private theorem length_recasedBytes (maps : MapsScalars mapping) (found : decode rest = some d) :
    (recasedBytes mapping rest d).length = d.length := by
  unfold recasedBytes
  split
  · exact List.length_take_of_le (decode_length found).2
  · rename_i changed
    exact (recased_scalar maps found changed).2

private theorem decode_recasedBytes (maps : MapsScalars mapping) (found : decode rest = some d) :
    decode (recasedBytes mapping rest d ++ rest.drop d.length) =
      some ⟨recased mapping d.codepoint d.length, d.length⟩ := by
  unfold recasedBytes
  split
  · rename_i same
    rw [List.take_append_drop, found, same]
  · rename_i changed
    obtain ⟨⟨scalar, nonzero⟩, size⟩ := recased_scalar maps found changed
    rw [decode_encode scalar nonzero, ← length_encode scalar.1, size]

/-- A mapped sequence continues the one before it only where it did so before. -/
theorem continuesAt_recasedBytes (maps : MapsScalars mapping) (found : decode rest = some d) {back : Bytes}
    (continues : ContinuesAt (recasedBytes mapping rest d ++ back) 0) : ContinuesAt rest 0 := by
  unfold recasedBytes at continues
  split at continues
  · cases rest with
    | nil => cases found
    | cons a rest =>
      obtain ⟨k, size⟩ := Nat.exists_eq_succ_of_ne_zero (Nat.ne_of_gt (decode_length found).1)
      rw [size] at continues
      exact continues
  · rename_i changed
    exact absurd continues (encode_leads (recased_scalar maps found changed).1 back)

end sequence

/-! ## All sequences -/

/-- A text, each sequence of which is mapped in place. -/
def remapped (mapping : CaseMapping) (rest : Bytes) : Bytes :=
  match _found : decode rest with
  | none => rest
  | some d => recasedBytes mapping rest d ++ remapped mapping (rest.drop d.length)
termination_by rest.length
decreasing_by
  have := Utf8.decode_length _found
  simp only [List.length_drop]
  omega

/-- A step with the code point that its own is mapped to in place. -/
def Step.recase (mapping : CaseMapping) (step : Step) : Step :=
  { step with codepoint := recased mapping step.codepoint step.length }

section remapped
variable {mapping : CaseMapping} {rest : Bytes}

private theorem remapped_end (ended : decode rest = none) : remapped mapping rest = rest := by
  rw [remapped]
  split
  · rfl
  · rename_i found
    rw [ended] at found
    cases found

private theorem remapped_next {d : Decoded} (found : decode rest = some d) :
    remapped mapping rest = recasedBytes mapping rest d ++ remapped mapping (rest.drop d.length) := by
  rw [remapped]
  split
  · rename_i ended
    rw [found] at ended
    cases ended
  · rename_i other
    rw [found] at other
    cases other
    rfl

private theorem continuesAt_remapped (maps : MapsScalars mapping) (continues : ContinuesAt (remapped mapping rest) 0) :
    ContinuesAt rest 0 := by
  cases found : decode rest with
  | none => rwa [remapped_end found] at continues
  | some d =>
    rw [remapped_next found] at continues
    exact continuesAt_recasedBytes maps found continues

/-- The sequence at the head of a mapped text is the mapped sequence at the head of the text. -/
theorem decode_remapped (maps : MapsScalars mapping) {d : Decoded} (found : decode rest = some d) :
    decode (remapped mapping rest) = some ⟨recased mapping d.codepoint d.length, d.length⟩ := by
  rw [remapped_next found]
  exact decode_before (continuesAt_remapped maps) (decode_recasedBytes maps found) (length_recasedBytes maps found).symm

private theorem drop_remapped (maps : MapsScalars mapping) {d : Decoded} (found : decode rest = some d) :
    (remapped mapping rest).drop d.length = remapped mapping (rest.drop d.length) := by
  rw [remapped_next found]
  exact List.drop_left' (length_recasedBytes maps found)

private theorem length_remapped (maps : MapsScalars mapping) (rest : Bytes) :
    (remapped mapping rest).length = rest.length := by
  fun_induction remapped mapping rest with
  | case1 rest ended => rfl
  | case2 rest d found ih =>
    have short := (decode_length found).2
    rw [List.length_append, length_recasedBytes maps found, ih, List.length_drop]
    omega

/-- Mapping in place keeps the sequences of a text, whatever its bytes, and maps their code points. -/
theorem stepsFrom_remapped (maps : MapsScalars mapping) (rest : Bytes) (offset : Nat) :
    stepsFrom (remapped mapping rest) offset = (stepsFrom rest offset).map (Step.recase mapping) := by
  fun_induction stepsFrom rest offset with
  | case1 rest offset ended =>
    rw [remapped_end ended, stepsFrom_end ended]
    rfl
  | case2 rest offset d found ih =>
    rw [stepsFrom_next (decode_remapped maps found), drop_remapped maps found, ih]
    rfl

/-- From the end of the text on all bytes are kept. -/
theorem drop_textLength_remapped (maps : MapsScalars mapping) (rest : Bytes) :
    (remapped mapping rest).drop (textLength rest) = rest.drop (textLength rest) := by
  fun_induction remapped mapping rest with
  | case1 rest ended => rfl
  | case2 rest d found ih =>
    rw [textLength_decode found, ← List.drop_drop, List.drop_left' (length_recasedBytes maps found), ih, List.drop_drop]

/-- Encoded text stays encoded: its code points are mapped to those of the same width. -/
theorem remapped_encodeAll {codepoints : List Nat} (scalars : ∀ c ∈ codepoints, IsScalar c ∧ c ≠ 0)
    {rest : Bytes} (ended : decode rest = none) :
    remapped mapping (encodeAll codepoints ++ rest) =
      encodeAll (codepoints.map fun c => recased mapping c (width c)) ++ rest := by
  induction codepoints with
  | nil => exact remapped_end ended
  | cons c others ih =>
    obtain ⟨⟨scalar, nonzero⟩, later⟩ := List.forall_mem_cons.1 scalars
    have found := decode_encode scalar nonzero (encodeAll others ++ rest)
    have front : (encode c ++ (encodeAll others ++ rest)).take (width c) = encode c := List.take_left' (length_encode scalar.1)
    have left : (encode c ++ (encodeAll others ++ rest)).drop (width c) = encodeAll others ++ rest :=
      List.drop_left' (length_encode scalar.1)
    rw [encodeAll_cons, List.append_assoc, remapped_next found, left, ih later, List.map_cons, encodeAll_cons, List.append_assoc,
      recasedBytes, front]
    split
    · rename_i same
      rw [same]
    · rfl

end remapped

/-! ## The loop -/

/-- The mapping in place changes the code point of a step. -/
def Step.Changed (mapping : CaseMapping) (step : Step) : Prop := (step.recase mapping).codepoint ≠ step.codepoint

/-- The mapping in place keeps the code point of a step, although it is mapped to something else. -/
def Step.Skipped (mapping : CaseMapping) (step : Step) : Prop :=
  mapping step.codepoint ≠ [step.codepoint] ∧ (step.recase mapping).codepoint = step.codepoint

instance (mapping : CaseMapping) (step : Step) : Decidable (step.Changed mapping) := inferInstanceAs (Decidable (_ ≠ _))

instance (mapping : CaseMapping) (step : Step) : Decidable (step.Skipped mapping) := inferInstanceAs (Decidable (_ ∧ _))

namespace Casing.InPlace

variable {mapping : CaseMapping} {state : InPlace} {offset : Nat} {d : Decoded}

private theorem step_same (own : mapping d.codepoint = [d.codepoint]) : state.step mapping offset d = state := by
  rw [step, own]
  exact if_pos rfl

private theorem step_skipped (other : mapping d.codepoint ≠ [d.codepoint])
    (kept : recased mapping d.codepoint d.length = d.codepoint) :
    state.step mapping offset d = { state with skipped := state.skipped + 1 } := by
  unfold step
  split
  · rename_i m only
    have changed : m ≠ d.codepoint := fun same => other (by rw [only, same])
    have wide : width m ≠ d.length := fun size => changed ((recased_single only size).symm.trans kept)
    rw [if_neg changed, if_neg wide]
  · rfl

private theorem step_changed (changed : recased mapping d.codepoint d.length ≠ d.codepoint) :
    state.step mapping offset d =
      { state with
        bytes := overwrite state.bytes offset (encode (recased mapping d.codepoint d.length))
        changed := state.changed + 1 } := by
  obtain ⟨only, size⟩ := recased_changed changed
  rw [step, only]
  dsimp only
  rw [if_neg changed, if_pos size]
  rfl

/-- One step of the loop maps the sequence at its offset, leaves the bytes around it, and counts it. -/
theorem step_eq (maps : MapsScalars mapping) (state : InPlace) {offset : Nat} {d : Decoded}
    (found : decode (state.bytes.drop offset) = some d) :
    let read : Step := ⟨d.codepoint, offset, d.length⟩
    state.step mapping offset d =
      ⟨state.bytes.take offset ++ recasedBytes mapping (state.bytes.drop offset) d ++ state.bytes.drop (offset + d.length),
        state.changed + (if read.Changed mapping then 1 else 0),
        state.skipped + (if read.Skipped mapping then 1 else 0)⟩ := by
  intro read
  by_cases changed : read.Changed mapping
  · have mapped : recasedBytes mapping (state.bytes.drop offset) d = encode (recased mapping d.codepoint d.length) :=
      if_neg changed
    have fits : offset + d.length ≤ state.bytes.length := by
      have short := decode_length found
      rw [List.length_drop] at short
      omega
    have size := (recased_scalar maps found changed).2
    rw [step_changed changed, mapped, overwrite_eq _ _ _ (by rwa [size]), size, if_pos changed,
      if_neg fun skipped : read.Skipped mapping => changed skipped.2]
    rfl
  · have kept : recased mapping d.codepoint d.length = d.codepoint := not_not.1 changed
    have whole : state.bytes.take offset ++ recasedBytes mapping (state.bytes.drop offset) d ++
        state.bytes.drop (offset + d.length) = state.bytes := by
      rw [recasedBytes, if_pos kept, List.append_assoc, ← List.drop_drop, List.take_append_drop, List.take_append_drop]
    rw [whole, if_neg changed]
    by_cases own : mapping d.codepoint = [d.codepoint]
    · rw [step_same own, if_neg fun skipped : read.Skipped mapping => skipped.1 own]
      rfl
    · rw [step_skipped own kept, if_pos ⟨own, kept⟩]
      rfl

/-- The loop gives what mapping the sequences that were there gives, and counts them. -/
theorem run_eq (maps : MapsScalars mapping) (state : InPlace) (offset : Nat) :
    let steps := stepsFrom (state.bytes.drop offset) offset
    state.run mapping offset =
      ⟨state.bytes.take offset ++ remapped mapping (state.bytes.drop offset),
        state.changed + steps.countP (·.Changed mapping), state.skipped + steps.countP (·.Skipped mapping)⟩ := by
  fun_induction run mapping state offset with
  | case1 state offset ended =>
    rw [remapped_end ended, List.take_append_drop, stepsFrom_end ended]
    rfl
  | case2 state offset d found ih =>
    have front : (state.bytes.take offset ++ recasedBytes mapping (state.bytes.drop offset) d).length = offset + d.length := by
      have short := decode_length found
      rw [List.length_drop] at short
      rw [List.length_append, List.length_take, length_recasedBytes maps found]
      omega
    -- What is read after this step lies behind its sequence, where the array is still as it was.
    rw [ih, step_eq maps state found, stepsFrom_next found, remapped_next found]
    dsimp only
    rw [List.take_left' front, List.drop_left' front, List.drop_drop, List.countP_cons, List.countP_cons, List.append_assoc]
    simp only [decide_eq_true_eq, Nat.add_assoc, Nat.add_comm]

end Casing.InPlace

/-! ## Text that was encoded -/

section encoded
variable {mapping : CaseMapping} {bytes : Bytes} {codepoints : List Nat} (scalars : ∀ c ∈ codepoints, IsScalar c ∧ c ≠ 0)
  (text : textOf bytes = encodeAll codepoints)
include scalars text

/-- Each code point of an encoded text is walked, and takes up as many bytes as it needs. -/
theorem step_of_mem {c : Nat} (member : c ∈ codepoints) : ∃ offset, ⟨c, offset, width c⟩ ∈ walk bytes 0 := by
  obtain ⟨i, within, rfl⟩ := List.mem_iff_getElem.1 member
  rw [← encodeAll_append_drop text, walk, List.drop_zero, stepsFrom_encodeAll scalars]
  exact ⟨_, List.mem_append_left _ (List.mem_mapIdx.2 ⟨i, within, rfl⟩)⟩

/-- Where no code point of an encoded text is skipped, each is mapped to the one that stands in its place. -/
theorem mapping_eq_recased (none : ∀ step ∈ walk bytes 0, ¬ step.Skipped mapping) :
    ∀ c ∈ codepoints, mapping c = [recased mapping c (width c)] := by
  intro c member
  by_cases kept : recased mapping c (width c) = c
  · obtain ⟨offset, taken⟩ := step_of_mem scalars text member
    have own : mapping c = [c] := by
      by_contra other
      exact none _ taken ⟨other, kept⟩
    rw [own, kept]
  · exact (recased_changed kept).1

/-- Mapping in place is then mapping into new bytes. -/
theorem textOf_remapped (maps : MapsScalars mapping) (none : ∀ step ∈ walk bytes 0, ¬ step.Skipped mapping) :
    textOf (remapped mapping bytes) = Casing.map mapping mapping (some (.bytes bytes)) := by
  have alone := mapping_eq_recased scalars text none
  have mapped : codepoints.flatMap mapping = codepoints.map fun c => recased mapping c (width c) := by
    rw [List.map_eq_flatMap]
    exact List.flatMap_congr alone
  have ended := decode_textLength bytes
  have visible : ∀ b ∈ encodeAll (codepoints.flatMap mapping), b ≠ 0 :=
    encodeAll_visible fun d member => ⟨(maps.flatMap scalars d member).1.1, (maps.flatMap scalars d member).2⟩
  have read : codepointsOf (Text.bytesOrEmpty (some (.bytes bytes))) = codepoints := codepointsOf_encoded scalars text
  rw [Casing.map_same maps, read]
  conv_lhs => rw [← encodeAll_append_drop text]
  rw [remapped_encodeAll scalars ended, ← mapped, textOf_append visible, decode_eq_none.1 ended, List.append_nil]

end encoded

/-- Mapping in place keeps the sequences of a text, whatever its bytes. The walk has the same offsets and lengths
before and after it, each code point has become its mapping where that is one code point of the same size, and
has stayed otherwise; the array keeps its size and all bytes from the end of the text on. The counts are those of the
code points that differ, and of those that do not although their mapping does. Where the text was encoded and
none of the latter were met, it has become what mapping into new bytes gives. -/
theorem mapInPlace_keeps_sequences {mapping : CaseMapping} (maps : MapsScalars mapping) (bytes : Bytes) :
    let steps := walk bytes 0
    let after := Casing.mapInPlace mapping bytes
    walk after.bytes 0 = steps.map (Step.recase mapping) ∧
    (after.bytes.length = bytes.length ∧ after.bytes.drop (textLength bytes) = bytes.drop (textLength bytes)) ∧
    (after.changed = steps.countP (·.Changed mapping) ∧ after.skipped = steps.countP (·.Skipped mapping)) ∧
    (Encoded (textOf bytes) → after.skipped = 0 →
      textOf after.bytes = Casing.map mapping mapping (some (.bytes bytes))) := by
  intro steps after
  have ran : after = ⟨remapped mapping bytes, steps.countP (·.Changed mapping), steps.countP (·.Skipped mapping)⟩ := by
    have run := Casing.InPlace.run_eq maps ⟨bytes, 0, 0⟩ 0
    simp only [List.take_zero, List.drop_zero, List.nil_append, Nat.zero_add] at run
    exact run
  rw [ran]
  refine ⟨?_, ⟨length_remapped maps bytes, drop_textLength_remapped maps bytes⟩, ⟨rfl, rfl⟩, fun encoded none => ?_⟩
  · exact stepsFrom_remapped maps bytes 0
  · obtain ⟨codepoints, scalars, text⟩ := encoded
    refine textOf_remapped scalars text maps fun step taken => ?_
    simpa using List.countP_eq_zero.1 none step taken

/-- The theorem at the Unicode capitals: in a text with a letter whose capitals are two and a malformed byte, with a
letter behind its NUL, and in an encoded text. -/
theorem mapInPlace_keeps_sequences_capitals :
    let bytes : Bytes := [0x61, 0xC3, 0x9F, 0xC3, 0xA9, 0x80, 0, 0x61]
    let encoded : Bytes := [0xC3, 0xA9, 0x61, 0, 0x61]
    MapsScalars capitalOf ∧ Encoded (textOf encoded) ∧
    (walk [0x41, 0xC3, 0x9F, 0xC3, 0x89, 0x80, 0, 0x61] 0 = (walk bytes 0).map (Step.recase capitalOf) ∧
      (walk bytes 0).countP (·.Changed capitalOf) = 2 ∧ (walk bytes 0).countP (·.Skipped capitalOf) = 1) ∧
    textOf [0xC3, 0x89, 0x41, 0, 0x61] = Casing.map capitalOf capitalOf (some (.bytes encoded)) := by
  intro bytes encoded
  obtain ⟨walked, -, ⟨changed, skipped⟩, -⟩ := mapInPlace_keeps_sequences capitalOf_maps bytes
  obtain ⟨-, -, -, copied⟩ := mapInPlace_keeps_sequences capitalOf_maps encoded
  have after : Casing.mapInPlace capitalOf bytes = ⟨[0x41, 0xC3, 0x9F, 0xC3, 0x89, 0x80, 0, 0x61], 2, 1⟩ := by
    decide +kernel
  have after' : Casing.mapInPlace capitalOf encoded = ⟨[0xC3, 0x89, 0x41, 0, 0x61], 2, 0⟩ := by decide +kernel
  have text : Encoded (textOf encoded) := ⟨[0xE9, 0x61], by decide, by decide⟩
  rw [after] at walked changed skipped
  rw [after'] at copied
  exact ⟨capitalOf_maps, text, ⟨walked, changed.symm, skipped.symm⟩, copied text rfl⟩

end BoundedText
