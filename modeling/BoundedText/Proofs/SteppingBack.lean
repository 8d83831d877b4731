import BoundedText.Proofs.Tiling

/-!
# Stepping back

Stepping back looks for the lead byte of a sequence among the last few bytes and reads the sequence again.
It comes to where the last step began all the same (`previousOffset_step`): moving back stops inside no step,
and what begins before a step ends before it (`sequence_before`), so that a sequence found further back is
not taken for one that ends there. Stepping back from the end of a text therefore comes to the offsets of its
walk in reverse (`back_undoes_forward`).
-/

namespace BoundedText
open Utf8

/-! ## Sequences at an offset -/

private theorem sequenceLength_eq {bytes : Bytes} {offset : Nat} {d : Decoded}
    (found : decode (bytes.drop offset) = some d) :
    sequenceLength bytes offset = d.length := by
  rw [sequenceLength, found]

private theorem sequenceLength_stray {bytes : Bytes} {offset : Nat} (continues : ContinuesAt bytes offset) :
    sequenceLength bytes offset = 1 := by
  obtain ⟨a, here, trail⟩ := continuesAt_iff.1 continues
  obtain ⟨inside, same⟩ := List.getElem?_eq_some_iff.1 here
  have left : bytes.drop offset = a :: bytes.drop (offset + 1) := by rw [List.drop_eq_getElem_cons inside, same]
  exact sequenceLength_eq (by rw [left, decode_stray trail])

private theorem sequenceLength_step {bytes : Bytes} {step : Step} (taken : step ∈ walk bytes 0) :
    sequenceLength bytes step.offset = step.length :=
  sequenceLength_eq (decode_of_mem_walk taken)

/-- What begins before a step, be it in the middle of another, ends before it. -/
theorem sequence_before {bytes : Bytes} {step : Step} (taken : step ∈ walk bytes 0) {i : Nat} (before : i < step.offset) :
    i + sequenceLength bytes i ≤ step.offset := by
  by_cases continues : ContinuesAt bytes i
  · rw [sequenceLength_stray continues]
    exact before
  · have within := step_within taken
    rw [List.drop_zero] at within
    obtain ⟨earlier, taken', place⟩ := @step_of_lead bytes i (by omega) continues 0
    rw [Nat.zero_add] at place
    subst place
    rw [sequenceLength_step taken']
    exact steps_apart taken' taken before

/-! ## One step back -/

/-- Where moving back over continuation bytes stops: so far back at most, only past bytes that continue, and
at one that does not unless it may go no further. -/
structure Backed (bytes : Bytes) (budget start stop : Nat) : Prop where
  le : stop ≤ start
  near : start ≤ stop + budget
  passed : ∀ k, stop < k → k ≤ start → ContinuesAt bytes k
  stopped : ContinuesAt bytes stop → stop = 0 ∨ stop + budget = start

private theorem backOver_backed (bytes : Bytes) (budget start : Nat) :
    Backed bytes budget start (backOver bytes budget start) := by
  fun_induction backOver bytes budget start with
  | case1 i => exact ⟨Nat.le_refl i, Nat.le_refl i, fun k after upTo => by omega, fun _ => .inr rfl⟩
  | case2 budget i more ih =>
    obtain ⟨positive, continues⟩ := more
    refine ⟨?_, ?_, ?_, ?_⟩
    · have := ih.le
      omega
    · have := ih.near
      omega
    · intro k after upTo
      rcases Nat.lt_or_eq_of_le upTo with earlier | rfl
      · exact ih.passed k after (by omega)
      · exact continues
    · intro continues
      rcases ih.stopped continues with zero | far
      · exact .inl zero
      · exact .inr (by omega)
  | case3 budget i stays =>
    refine ⟨Nat.le_refl i, by omega, fun k after upTo => by omega, ?_⟩
    intro continues
    by_contra elsewhere
    exact stays ⟨by omega, continues⟩

private theorem previousOffset_lt {bytes : Bytes} {offset : Nat} (inside : offset ≠ 0) :
    previousOffset bytes offset < offset := by
  have back := (backOver_backed bytes 3 (offset - 1)).le
  rw [previousOffset, if_neg inside]
  dsimp only
  split <;> omega

/-- Stepping back from the end of a step comes to where it begins. -/
theorem previousOffset_step {bytes : Bytes} {step : Step} (taken : step ∈ walk bytes 0) :
    previousOffset bytes (step.offset + step.length) = step.offset := by
  have found := decode_of_mem_walk taken
  have length := sequenceLength_step taken
  have before := fun i => sequence_before taken (i := i)
  have short : step.length ≤ 4 := decode_length_le_four found
  generalize step.offset = o, step.length = l at *
  have positive : 0 < l := (decode_length found).1
  have back := backOver_backed bytes 3 (o + l - 1)
  rw [previousOffset, if_neg (by omega)]
  generalize backOver bytes 3 (o + l - 1) = i at back
  dsimp only
  rcases Nat.lt_trichotomy i o with passed | rfl | inside
  · -- Moving back passed the whole step, which is a single continuation byte.
    have single := sequenceLength_stray (back.passed o passed (by omega))
    have ends := before i passed
    rw [if_neg (by omega)]
    omega
  · rw [length, if_pos (by omega)]
  · -- It does not stop inside the step, where all bytes continue and the first is near enough.
    have continues : ContinuesAt bytes i := by
      have := back.le
      have inner := decode_continues found (i := i - o) (by omega) (by dsimp only; omega)
      rwa [continuesAt_drop, Nat.add_sub_cancel' inside.le] at inner
    rcases back.stopped continues with zero | far <;> omega

/-! ## All the way back -/

/-- The offsets that stepping back again and again comes to, down to the start. -/
def offsetsBack (bytes : Bytes) (offset : Nat) : List Nat :=
  if _start : offset = 0 then []
  else previousOffset bytes offset :: offsetsBack bytes (previousOffset bytes offset)
termination_by offset
decreasing_by exact previousOffset_lt _start

/-- Steps that lie side by side and are each stepped back over are passed in reverse. -/
theorem offsetsBack_contiguous {bytes : Bytes} {start stop : Nat} {steps : List Step} (tiled : Contiguous start steps stop)
    (back : ∀ step ∈ steps, 0 < step.length ∧ previousOffset bytes (step.offset + step.length) = step.offset) :
    offsetsBack bytes stop = (steps.map Step.offset).reverse ++ offsetsBack bytes start := by
  induction tiled with
  | nil offset => rfl
  | @cons step steps stop later ih =>
    obtain ⟨⟨positive, here⟩, others⟩ := List.forall_mem_cons.1 back
    have passed : offsetsBack bytes (step.offset + step.length) = step.offset :: offsetsBack bytes step.offset := by
      rw [offsetsBack, dif_neg (by omega), here]
    rw [ih others, passed, List.map_cons, List.reverse_cons, List.append_assoc]
    rfl

/-- Stepping back undoes stepping forward. From the end of any step of a text, whatever its bytes, stepping
back comes to where the step begins; so from the end of the text it comes to the offsets of the steps, one
after another from the last to the first, and to no others. -/
theorem back_undoes_forward (bytes : Bytes) :
    (∀ step ∈ walk bytes 0, previousOffset bytes (nextOffset bytes step.offset) = step.offset) ∧
    offsetsBack bytes (textEnd bytes 0) = ((walk bytes 0).map Step.offset).reverse := by
  have each : ∀ step ∈ walk bytes 0, previousOffset bytes (step.offset + step.length) = step.offset :=
    fun step => previousOffset_step
  constructor
  · intro step taken
    rw [nextOffset, sequenceLength_step taken]
    exact each step taken
  · have tiled : Contiguous 0 (walk bytes 0) (textEnd bytes 0) := by
      have whole := stepsFrom_contiguous (bytes.drop 0) 0
      rwa [textEnd, Nat.min_eq_left (Nat.zero_le _)]
    have back := offsetsBack_contiguous tiled fun step taken =>
      ⟨(decode_length (decode_of_mem_walk taken)).1, each step taken⟩
    have ended : offsetsBack bytes 0 = [] := by rw [offsetsBack, dif_pos rfl]
    rw [back, ended, List.append_nil]

/-- The theorem at a text with stray continuation bytes, more of them than a sequence has, a sequence that is cut
short and one that is too long for its value, before a NUL and a continuation byte. -/
theorem back_undoes_forward_malformed :
    let bytes : Bytes := [0x80, 0x80, 0x80, 0x80, 0x80, 0xE2, 0x82, 0xF0, 0x80, 0x80, 0x80, 0x80, 0, 0x80]
    (⟨0xFFFD, 7, 4⟩ ∈ walk bytes 0 ∧ previousOffset bytes (nextOffset bytes 7) = 7) ∧
    offsetsBack bytes (textEnd bytes 0) = [11, 7, 5, 4, 3, 2, 1, 0] := by
  intro bytes
  have steps : walk bytes 0 = [⟨0xFFFD, 0, 1⟩, ⟨0xFFFD, 1, 1⟩, ⟨0xFFFD, 2, 1⟩, ⟨0xFFFD, 3, 1⟩, ⟨0xFFFD, 4, 1⟩,
      ⟨0xFFFD, 5, 2⟩, ⟨0xFFFD, 7, 4⟩, ⟨0xFFFD, 11, 1⟩] := by cbv
  have overlong : (⟨0xFFFD, 7, 4⟩ : Step) ∈ walk bytes 0 := by rw [steps]; decide
  obtain ⟨undone, back⟩ := back_undoes_forward bytes
  refine ⟨⟨overlong, undone _ overlong⟩, ?_⟩
  rw [back, steps]
  rfl

end BoundedText
