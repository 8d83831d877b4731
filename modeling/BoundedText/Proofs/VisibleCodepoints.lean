import BoundedText.Proofs.SpanAutomaton

/-!
# Visible code points

Measuring the visible length skips spans byte by byte and counts code points in between. It counts the steps
of the walk before which the automaton of the spans is outside of any, and which open none themselves
(`visibleLength_eq_steps_outside`): after a span it goes on at a step of the walk, whatever bytes the span
hides, since no span ends in the middle of one (`spanRest_unit`).
-/

namespace BoundedText

/-! ## One step -/

/-- A control span opens at the byte at an offset. -/
def opensAt (bytes : Bytes) (offset : Nat) : Bool := bytes[offset]?.any fun b => Characters.isSpanStart b.toNat

private theorem opensAt_drop (bytes : Bytes) (count offset : Nat) :
    opensAt (bytes.drop count) offset = opensAt bytes (count + offset) := by
  rw [opensAt, opensAt, List.getElem?_drop]

/-- A span opens at a sequence exactly when the sequence is read as a character that opens one. -/
theorem opensAt_zero {rest : Bytes} {d : Utf8.Decoded} (found : Utf8.decode rest = some d) :
    opensAt rest 0 = Characters.isSpanStart d.codepoint := by
  cases rest with
  | nil => cases found
  | cons b tail =>
    have first : opensAt (b :: tail) 0 = Characters.isSpanStart b.toNat := rfl
    by_cases low : b < 0x80
    · have visible : b ≠ 0 := (Utf8.decode_shape found).1
      obtain ⟨-, value⟩ := codepoint_keeps.ascii b tail visible low
      rw [first, ← value, (codepoint_unit found).2]
    · have high : 0x80 ≤ b.toNat := Nat.not_lt.1 fun short => low (UInt8.lt_iff_toNat_lt.2 short)
      have other : ¬ d.codepoint < 0x80 := by
        intro short
        rw [← (codepoint_unit found).2] at short
        obtain ⟨b', tail', same, -, -, value⟩ := codepoint_keeps.ascii_of (b :: tail)
          ((codepoint_unit found).1 ▸ (Utf8.decode_length found).1) short
        obtain ⟨rfl, -⟩ := List.cons.inj same
        omega
      have closed : Characters.isSpanStart b.toNat = false :=
        Bool.eq_false_iff.2 fun opens => absurd (isSpanStart_lt opens) (by omega)
      have closed' : Characters.isSpanStart d.codepoint = false :=
        Bool.eq_false_iff.2 fun opens => other (isSpanStart_lt opens)
      rw [first, closed, closed']

theorem visibleLength_end {rest : Bytes} (ended : Utf8.decode rest = none) : visibleLength rest = 0 := by
  rw [visibleLength]
  split
  · rfl
  · rename_i found; rw [ended] at found; cases found

/-- Measuring passes what a scan by code points passes, and counts it unless it is a span. -/
theorem visibleLength_next {rest : Bytes} {d : Utf8.Decoded} (found : Utf8.decode rest = some d) :
    visibleLength rest =
      (if opensAt rest 0 then 0 else 1) + visibleLength (rest.drop (scanStep .codepoint rest)) := by
  have step : scanStep .codepoint rest = if opensAt rest 0 then spanLength rest else d.length := by
    obtain ⟨length, value⟩ := codepoint_unit found
    rw [scanStep, length, value, opensAt_zero found]
  have head : rest.head?.any (fun b => Characters.isSpanStart b.toNat) = opensAt rest 0 := by
    rw [List.head?_eq_getElem?, opensAt]
  rw [visibleLength]
  split
  · rename_i ended; rw [found] at ended; cases ended
  · rename_i other
    rw [found] at other
    cases other
    rw [head, step]
    split
    · rw [Nat.zero_add]
    · rfl

/-! ## All steps -/

/-- Whether a step is visible: the automaton, run over the bytes before it, is outside of spans, and the step
opens none. -/
def isVisible (state : SpanState) (bytes : Bytes) (step : Step) : Bool :=
  state.after (bytes.take step.offset) == .outside && !opensAt bytes step.offset

theorem isVisible_later (state : SpanState) (rest : Bytes) (count : Nat) (step : Step) :
    isVisible state rest (step.later count) = isVisible (state.after (rest.take count)) (rest.drop count) step := by
  simp only [isVisible, Step.later, List.take_add, after_append, opensAt_drop]

/-- The visible steps of a text that an open span reaches into are those that are measured after it. -/
theorem length_visible (state : SpanState) (rest : Bytes) :
    ((walk rest 0).filter (isVisible state rest)).length = visibleLength (rest.drop (spanRest state rest)) := by
  induction rest using codepointCount.induct generalizing state with
  | case1 rest ended =>
    have none : spanRest state rest = 0 := by
      have short := spanRest_le state rest
      rw [textLength, Utf8.decode_eq_none.1 ended] at short
      exact Nat.le_zero.1 short
    rw [walk_end ended, none, List.drop_zero, visibleLength_end ended]
    rfl
  | case2 rest d found ih =>
    obtain ⟨length, -⟩ := codepoint_unit found
    have more : 0 < TextUnit.codepoint.length rest := length ▸ (Utf8.decode_length found).1
    have tail := ih (state.after (rest.take d.length))
    have later : isVisible state rest ∘ (·.later d.length) =
        isVisible (state.after (rest.take d.length)) (rest.drop d.length) :=
      funext (isVisible_later state rest d.length)
    have steps : walk rest 0 = ⟨d.codepoint, 0, d.length⟩ :: (walk (rest.drop d.length) 0).map (·.later d.length) :=
      walk_next found
    have first : isVisible state rest ⟨d.codepoint, 0, d.length⟩ = (state == .outside && !opensAt rest 0) := rfl
    rw [List.drop_drop] at tail
    rw [steps, List.filter_cons, first, List.filter_map, later]
    by_cases outside : state = .outside
    · subst outside
      have step := scanStep_unit codepoint_keeps codepoint_splitsNoAscii more
      rw [length] at step
      rw [← step] at tail
      rw [spanRest_outside, List.drop_zero, visibleLength_next found, ← tail]
      cases opensAt rest 0 with
      | true => simp
      | false => simp [Nat.add_comm]
    · have span := spanRest_unit codepoint_keeps codepoint_splitsNoAscii more outside
      rw [length] at span
      simp [outside, span, ← tail]

/-- The visible length of a text is the number of steps of its walk that open no span and before which the
automaton, run over all bytes before the step, is outside of spans. -/
theorem visibleLength_eq_steps_outside (bytes : Bytes) :
    visibleLength bytes = ((walk bytes 0).filter fun step =>
      SpanState.outside.after (bytes.take step.offset) == .outside && !opensAt bytes step.offset).length := by
  have counted := length_visible .outside bytes
  rw [spanRest_outside, List.drop_zero] at counted
  exact counted.symm

/-- A sequence cut short before a tag with broken ones in it, a letter, and an escape that does not end. -/
example : visibleLength [0xE2, 0x82, 0x02, 0x80, 0xC3, 0x03, 0x41, 0x1B, 0x41] = 2 := by cbv

end BoundedText
