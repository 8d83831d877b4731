import BoundedText.Proofs.AsciiSeparators

/-!
# The span automaton

A scan for a separator jumps over control spans. What it finds is the first unit with the value of the
separator before which the automaton of the spans, run byte by byte from where the scan began, is outside
of any (`findSeparator_eq_automaton`). The automaton changes its state at ASCII characters only, and a
unit is either one of these or has none in it; so the end of a span is always the end of a unit
(`spanRest_unit`), and what the scan passes at once is a unit and the rest of the span that the automaton
is in after it (`scanStep_unit`).
-/

namespace BoundedText

/-! ## Units as steps -/

/-- A step so many bytes further on. -/
def Step.later (step : Step) (count : Nat) : Step := { step with offset := count + step.offset }

private theorem offset_later (found : Option Step) (count : Nat) :
    (found.map (·.later count)).map Step.offset = (found.map Step.offset).map (count + ·) := by
  cases found <;> rfl

/-- The units of a text, each as a step. -/
def unitSteps (unit : TextUnit) (rest : Bytes) : List Step :=
  if _ended : unit.length rest = 0 then []
  else
    ⟨unit.value rest, 0, unit.length rest⟩ ::
      (unitSteps unit (rest.drop (unit.length rest))).map (·.later (unit.length rest))
termination_by rest.length
decreasing_by
  have := unit.length_le rest
  simp only [List.length_drop]
  omega

/-- The bytes of the text from an offset on, each as a step. -/
def byteWalk (bytes : Bytes) (start : Nat) : List Step :=
  ((textOf (bytes.drop start)).zipIdx start).map (fun (b, offset) => ⟨b.toNat, offset, 1⟩)

private theorem unitSteps_end {unit : TextUnit} {rest : Bytes} (ended : unit.length rest = 0) :
    unitSteps unit rest = [] := by
  rw [unitSteps, dif_pos ended]

private theorem unitSteps_next {unit : TextUnit} {rest : Bytes} (more : 0 < unit.length rest) :
    unitSteps unit rest = ⟨unit.value rest, 0, unit.length rest⟩ ::
      (unitSteps unit (rest.drop (unit.length rest))).map (·.later (unit.length rest)) := by
  rw [unitSteps, dif_neg more.ne']

private theorem unitSteps_codepoint (rest : Bytes) : unitSteps .codepoint rest = walk rest 0 := by
  induction rest using unitSteps.induct .codepoint with
  | case1 rest ended =>
    have none : Utf8.decode rest = none := Utf8.decode_eq_none.2 ((codepoint_keeps.ended rest).1 ended)
    rw [unitSteps_end ended, walk_end none]
  | case2 rest more ih =>
    cases found : Utf8.decode rest with
    | none =>
      have ended := (codepoint_keeps.ended rest).2 (Utf8.decode_eq_none.1 found)
      exact absurd ended more
    | some d =>
      obtain ⟨length, value⟩ := codepoint_unit found
      rw [unitSteps_next (Nat.pos_of_ne_zero more), ih, walk_next found, length, value]
      rfl

/-- The walk from an offset is the walk of what is left, so much further on. -/
theorem walk_later (bytes : Bytes) (start : Nat) :
    walk bytes start = (walk (bytes.drop start) 0).map (·.later start) := by
  rw [walk, walk, List.drop_zero]
  exact stepsFrom_add (bytes.drop start) start 0

private theorem byteWalk_later (bytes : Bytes) (start : Nat) :
    byteWalk bytes start = (byteWalk (bytes.drop start) 0).map (·.later start) := by
  rw [byteWalk, byteWalk, List.drop_zero, List.zipIdx_eq_map_add, List.map_map, List.map_map]
  rfl

private theorem byteWalk_cons {b : UInt8} (visible : b ≠ 0) (rest : Bytes) :
    byteWalk (b :: rest) 0 = ⟨b.toNat, 0, 1⟩ :: (byteWalk rest 0).map (·.later 1) := by
  have tail := byteWalk_later (b :: rest) 1
  simp only [List.drop_succ_cons, List.drop_zero] at tail
  rw [← tail, byteWalk, byteWalk, List.drop_zero, textOf_cons visible, List.zipIdx_cons]
  rfl

private theorem unitSteps_byte (rest : Bytes) : unitSteps .byte rest = byteWalk rest 0 := by
  induction rest with
  | nil => exact unitSteps_end rfl
  | cons b rest ih =>
    by_cases nul : b = 0
    · subst nul
      exact unitSteps_end rfl
    · have length : TextUnit.byte.length (b :: rest) = 1 := by simp [TextUnit.byte, nul]
      rw [unitSteps_next (by omega), length, List.drop_succ_cons, List.drop_zero, ih, byteWalk_cons nul]
      rfl

/-! ## The automaton along units -/

theorem after_append (state : SpanState) (front back : Bytes) :
    state.after (front ++ back) = (state.after front).after back :=
  List.foldl_append

/-- Bytes that are no ASCII characters leave the automaton where it is. -/
theorem after_high (state : SpanState) {front : Bytes} (high : ∀ b ∈ front, 0x80 ≤ b.toNat) :
    state.after front = state := by
  induction front with
  | nil => rfl
  | cons b front ih =>
    obtain ⟨first, others⟩ := List.forall_mem_cons.1 high
    have stays : state.next b.toNat = state := by
      cases state with
      | outside => rw [SpanState.next, if_neg, if_neg] <;> simp only [Characters.tagStart, Characters.escape] <;> omega
      | inTag => exact if_neg (by simp only [Characters.tagEnd]; omega)
      | inEscape => exact if_neg (by simp only [Characters.escapeEnd]; omega)
    rw [← List.singleton_append, after_append]
    simp only [SpanState.after, List.foldl_cons, List.foldl_nil, stays] at ih ⊢
    exact ih others

theorem spanRest_outside (rest : Bytes) : spanRest .outside rest = 0 := by
  cases rest with
  | nil => rfl
  | cons b rest => rw [spanRest, if_pos (.inl rfl)]

/-- A span goes on through bytes that are no ASCII characters. -/
theorem spanRest_high {state : SpanState} (inside : state ≠ .outside) {front : Bytes}
    (high : ∀ b ∈ front, 0x80 ≤ b.toNat) (back : Bytes) :
    spanRest state (front ++ back) = front.length + spanRest state back := by
  induction front with
  | nil => simp
  | cons b front ih =>
    obtain ⟨first, others⟩ := List.forall_mem_cons.1 high
    have visible : b ≠ 0 := by
      rintro rfl
      cases first
    have single : ∀ c ∈ [b], 0x80 ≤ c.toNat := by simpa using first
    have stays : state.next b.toNat = state := after_high state single
    rw [List.cons_append, spanRest, if_neg (by simp [inside, visible]), stays, ih others, List.length_cons]
    omega

/-- A unit of which no byte is an ASCII character unless it is one. -/
def SplitsNoAscii (unit : TextUnit) : Prop :=
  ∀ rest, 0x80 ≤ unit.value rest → ∀ b ∈ rest.take (unit.length rest), 0x80 ≤ b.toNat

private theorem byte_splitsNoAscii : SplitsNoAscii .byte := by
  intro rest high b member
  cases rest with
  | nil => simp at member
  | cons a tail =>
    obtain ⟨one, -⟩ : _ ∧ _ := byte_unit_high high tail
    rw [one, List.take_succ_cons, List.take_zero, List.mem_singleton] at member
    exact member ▸ high

theorem codepoint_splitsNoAscii : SplitsNoAscii .codepoint := by
  intro rest high b member
  cases found : Utf8.decode rest with
  | none =>
    have ended : TextUnit.codepoint.length rest = 0 := (codepoint_keeps.ended rest).2 (Utf8.decode_eq_none.1 found)
    rw [ended] at member
    cases member
  | some d =>
    obtain ⟨length, value⟩ := codepoint_unit found
    rw [length] at member
    rw [value] at high
    exact high_of_decode found high b member

section units
variable {unit : TextUnit} {separator : Int} {rest : Bytes}

/-- A span that goes on at a unit goes on through it, and then as far as the state after it. -/
theorem spanRest_unit (keeps : Keeps unit) (apart : SplitsNoAscii unit) (more : 0 < unit.length rest)
    {state : SpanState} (inside : state ≠ .outside) :
    spanRest state rest =
      unit.length rest + spanRest (state.after (rest.take (unit.length rest))) (rest.drop (unit.length rest)) := by
  by_cases low : unit.value rest < 0x80
  · obtain ⟨b, tail, rfl, visible, one, -⟩ := keeps.ascii_of rest more low
    rw [one, spanRest, if_neg (by simp [inside, visible])]
    rfl
  · have high := apart rest (by omega)
    have size : (rest.take (unit.length rest)).length = unit.length rest := List.length_take_of_le (unit.length_le rest)
    rw [after_high state high]
    conv_lhs => rw [← List.take_append_drop (unit.length rest) rest, spanRest_high inside high, size]

/-- A scan passes a unit, and the rest of the span that the unit opens if it opens one. -/
theorem scanStep_unit (keeps : Keeps unit) (apart : SplitsNoAscii unit) (more : 0 < unit.length rest) :
    scanStep unit rest = unit.length rest +
      spanRest (SpanState.outside.after (rest.take (unit.length rest))) (rest.drop (unit.length rest)) := by
  by_cases low : unit.value rest < 0x80
  · obtain ⟨b, tail, rfl, -, one, value⟩ := keeps.ascii_of rest more low
    rw [scanStep, one, value]
    split
    · rfl
    · rename_i plain
      have stays : SpanState.outside.next b.toNat = .outside := by
        simp only [Characters.isSpanStart, Bool.or_eq_true, beq_iff_eq, not_or] at plain
        rw [SpanState.next, if_neg plain.1, if_neg plain.2]
      simp [SpanState.after, stays, spanRest_outside]
  · have plain : ¬ Characters.isSpanStart (unit.value rest) = true := fun opens => low (isSpanStart_lt opens)
    rw [scanStep, if_neg plain, after_high _ (apart rest (by omega)), spanRest_outside, Nat.add_zero]

/-- What comes after the span at a unit is scanned as what comes after the unit and the span it leaves the
automaton in, unless the unit is a separator outside of spans. -/
theorem scan_passes (keeps : Keeps unit) (apart : SplitsNoAscii unit) (more : 0 < unit.length rest) (state : SpanState)
    (other : ¬ (unit.value rest = separator ∧ state = .outside)) :
    let passed := unit.length rest +
      spanRest (state.after (rest.take (unit.length rest))) (rest.drop (unit.length rest))
    (separatorAt unit separator (rest.drop (spanRest state rest))).map (spanRest state rest + ·) =
      (separatorAt unit separator (rest.drop passed)).map (passed + ·) := by
  intro passed
  by_cases outside : state = .outside
  · subst outside
    have step : scanStep unit rest = passed := scanStep_unit keeps apart more
    rw [spanRest_outside, List.drop_zero, separatorAt_step more fun here => other ⟨here, rfl⟩, step]
    simp only [Nat.zero_add, Option.map_id']
  · have span : spanRest state rest = passed := spanRest_unit keeps apart more outside
    rw [span]

/-! ## What a scan finds -/

/-- Whether a step is the separator, and the automaton is outside of spans before it. -/
def cutsAt (state : SpanState) (separator : Int) (rest : Bytes) (step : Step) : Bool :=
  step.codepoint == separator && state.after (rest.take step.offset) == .outside

private theorem cutsAt_later (state : SpanState) (separator : Int) (rest : Bytes) (count : Nat) (step : Step) :
    cutsAt state separator rest (step.later count) =
      cutsAt (state.after (rest.take count)) separator (rest.drop count) step := by
  simp only [cutsAt, Step.later, List.take_add, after_append]

/-- The automaton in any state finds what a scan of what comes after its span finds. -/
theorem find_cut (keeps : Keeps unit) (apart : SplitsNoAscii unit) (state : SpanState) (separator : Int)
    (rest : Bytes) :
    ((unitSteps unit rest).find? (cutsAt state separator rest)).map Step.offset =
      (separatorAt unit separator (rest.drop (spanRest state rest))).map (spanRest state rest + ·) := by
  induction rest using unitSteps.induct unit generalizing state with
  | case1 rest ended =>
    have none : spanRest state rest = 0 := by
      have short := spanRest_le state rest
      rw [textLength, (keeps.ended rest).1 ended] at short
      exact Nat.le_zero.1 short
    rw [unitSteps_end ended, none, List.drop_zero, separatorAt_ended ended]
    rfl
  | case2 rest some ih =>
    have more := Nat.pos_of_ne_zero some
    have tail := ih (state.after (rest.take (unit.length rest)))
    have later : cutsAt state separator rest ∘ (·.later (unit.length rest)) =
        cutsAt (state.after (rest.take (unit.length rest))) separator (rest.drop (unit.length rest)) :=
      funext (cutsAt_later state separator rest (unit.length rest))
    rw [unitSteps_next more]
    by_cases cut : unit.value rest = separator ∧ state = .outside
    · obtain ⟨here, rfl⟩ := cut
      rw [List.find?_cons_of_pos (by simp [cutsAt, here, SpanState.after]), spanRest_outside, List.drop_zero,
        separatorAt_here more here]
      rfl
    · rw [List.find?_cons_of_neg (by simpa [cutsAt, SpanState.after] using cut), List.find?_map, later,
        scan_passes keeps apart more state cut]
      rw [offset_later, tail, Option.map_map, List.drop_drop]
      congr 1
      funext place
      exact (Nat.add_assoc ..).symm

end units

/-- The offset of the first step that is the separator and before which the automaton, run over the bytes
from where the steps begin, is outside of spans. -/
def firstCut (separator : Int) (bytes : Bytes) (start : Nat) (steps : List Step) : Option Nat :=
  (steps.find? fun step => step.codepoint == separator &&
    SpanState.outside.after (slice bytes start step.offset) == .outside).map Step.offset

private theorem firstCut_later (separator : Int) (bytes : Bytes) (start : Nat) (steps : List Step) :
    firstCut separator bytes start (steps.map (·.later start)) =
      ((steps.find? (cutsAt .outside separator (bytes.drop start))).map Step.offset).map (start + ·) := by
  have same : (fun step : Step => step.codepoint == separator &&
      SpanState.outside.after (slice bytes start step.offset) == .outside) ∘ (·.later start) =
        cutsAt .outside separator (bytes.drop start) := by
    funext step
    simp only [Function.comp_apply, cutsAt, Step.later, slice, List.drop_take, Nat.add_sub_cancel_left]
  rw [firstCut, List.find?_map, same, offset_later]

private theorem findSeparator_eq_firstCut {unit : TextUnit} (keeps : Keeps unit) (apart : SplitsNoAscii unit)
    (separator : Int) (bytes : Bytes) (start : Nat) :
    findSeparator unit separator bytes start =
      firstCut separator bytes start ((unitSteps unit (bytes.drop start)).map (·.later start)) := by
  rw [firstCut_later, find_cut keeps apart, spanRest_outside, List.drop_zero, findSeparator]
  simp only [Nat.zero_add, Option.map_id']

/-- A scan finds what the automaton does. Whatever the bytes and the separator, a scan by code points finds
the first step of the walk that is the separator, with the automaton outside of spans after the bytes before
it; a scan by bytes finds the first such byte of the text. -/
theorem findSeparator_eq_automaton (separator : Int) (bytes : Bytes) (start : Nat) :
    findSeparator .codepoint separator bytes start = firstCut separator bytes start (walk bytes start) ∧
      findSeparator .byte separator bytes start = firstCut separator bytes start (byteWalk bytes start) := by
  constructor
  · rw [findSeparator_eq_firstCut codepoint_keeps codepoint_splitsNoAscii, unitSteps_codepoint, ← walk_later]
  · rw [findSeparator_eq_firstCut byte_keeps byte_splitsNoAscii, unitSteps_byte, ← byteWalk_later]

end BoundedText
