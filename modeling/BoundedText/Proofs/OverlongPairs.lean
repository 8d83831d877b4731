import BoundedText.Proofs.NarrowedCodepoints
import BoundedText.Proofs.Tiling

/-!
# Overlong pairs

Narrowing takes up continuation bytes after lead bytes that decoding reads by themselves. But for one kind of
them it writes a question mark, as it does where decoding reads the bytes one by one: a lead byte of two that
is too low for a code point of two bytes, followed by a continuation byte, is narrowed to the character that
the pair spells (`narrowed_low`). So what is narrowed, question marks apart, are the characters of the walk and
of these pairs (`kept_narrowed`), and no others exactly when none of the pairs spells one
(`narrow_characters_iff`).
-/

namespace BoundedText
open Utf8

/-- The bytes of a text without its question marks. -/
def kept (latin : Bytes) : Bytes := latin.filter (· ≠ questionMark)

/-- The lead bytes of two that are too low for a code point of two bytes. -/
def LowLead (a : UInt8) : Prop := a = 0xC0 ∨ a = 0xC1

instance (a : UInt8) : Decidable (LowLead a) := inferInstanceAs (Decidable (_ ∨ _))

/-- A lead byte that is too low and a continuation byte: two bytes for what takes one. -/
def Overlong (lead b : UInt8) : Prop := LowLead lead ∧ isContinuation b = true

instance (lead b : UInt8) : Decidable (Overlong lead b) := inferInstanceAs (Decidable (_ ∧ _))

/-- The character that an overlong pair spells. -/
def pairByte (lead b : UInt8) : UInt8 := UInt8.ofNat (payload lead [b])

/-- The character of an overlong pair at the head of an array. -/
def overlongByte : Bytes → Option UInt8
  | lead :: b :: _ => if Overlong lead b then some (pairByte lead b) else none
  | _ => none

/-- What narrowing reads at each step of a text: its code point, or the character of an overlong pair. -/
def readings (utf8 : Bytes) : Bytes :=
  (walk utf8 0).map (fun step => (overlongByte (utf8.drop step.offset)).getD (narrowCodepoint step.codepoint))

/-! ## Question marks -/

private theorem kept_cons_mark (latin : Bytes) : kept (questionMark :: latin) = kept latin := rfl

private theorem kept_cons_visible {b : UInt8} (visible : b ≠ questionMark) (latin : Bytes) :
    kept (b :: latin) = b :: kept latin :=
  List.filter_cons_of_pos (by simpa using visible)

private theorem kept_cons (b : UInt8) {first second : Bytes} (same : kept first = kept second) :
    kept (b :: first) = kept (b :: second) := by
  simp only [kept] at same ⊢
  rw [List.filter_cons, List.filter_cons, same]

private theorem mem_kept {b : UInt8} (visible : b ≠ questionMark) {latin : Bytes} : b ∈ kept latin ↔ b ∈ latin := by
  rw [kept, List.mem_filter]
  simp [visible]

/-! ## Pairs -/

theorem LowLead.unused {a : UInt8} (low : LowLead a) : a ∈ unusedLeads := by
  rcases low with rfl | rfl <;> decide

/-- The lead bytes that are not used are too low or too high. -/
theorem low_or_high {a : UInt8} (unused : a ∈ unusedLeads) : LowLead a ∨ a = 0xF5 ∨ a = 0xF6 ∨ a = 0xF7 := by
  simpa [unusedLeads, LowLead, or_assoc] using unused

theorem LowLead.leads {a : UInt8} (low : LowLead a) : ¬ isContinuation a = true := by
  rcases low with rfl | rfl <;> decide

private theorem narrowPair_overlong {lead b : UInt8} (pair : Overlong lead b) :
    narrowPair lead [b] = pairByte lead b := by
  have every : ∀ c : UInt8, narrowPair 0xC0 [c] = pairByte 0xC0 c ∧ narrowPair 0xC1 [c] = pairByte 0xC1 c :=
    forall_byte (by decide +kernel)
  rcases pair.1 with rfl | rfl
  · exact (every b).1
  · exact (every b).2

/-- A question mark, or a NUL, is spelled by one overlong pair only. -/
theorem pairByte_overlong {lead b : UInt8} (pair : Overlong lead b) :
    (pairByte lead b = questionMark ↔ [lead, b] = [0xC0, 0xBF]) ∧
      (pairByte lead b = 0 ↔ [lead, b] = [0xC0, 0x80]) := by
  have every : ∀ c : UInt8, isContinuation c = true →
      (pairByte lead c = questionMark ↔ [lead, c] = [0xC0, 0xBF]) ∧ (pairByte lead c = 0 ↔ [lead, c] = [0xC0, 0x80]) := by
    rcases pair.1 with rfl | rfl
    · exact forall_byte (by decide +kernel)
    · exact forall_byte (by decide +kernel)
  exact every b pair.2

private theorem overlongByte_other {a : UInt8} (notLow : ¬ LowLead a) (rest : Bytes) :
    overlongByte (a :: rest) = none := by
  cases rest with
  | nil => rfl
  | cons b rest => exact if_neg fun pair => notLow pair.1

private theorem overlongByte_eq_some {rest : Bytes} {c : UInt8} :
    overlongByte rest = some c ↔ ∃ lead b later, rest = lead :: b :: later ∧ Overlong lead b ∧ c = pairByte lead b := by
  constructor
  · intro spelled
    match rest, spelled with
    | lead :: b :: later, spelled =>
      rw [overlongByte] at spelled
      split at spelled
      · rename_i pair
        exact ⟨lead, b, later, rfl, pair, (Option.some.inj spelled).symm⟩
      · cases spelled
  · rintro ⟨lead, b, later, rfl, pair, rfl⟩
    exact if_pos pair

/-! ## Narrowing and reading -/

private theorem readings_next {a : UInt8} {rest : Bytes} {d : Decoded} (found : decode (a :: rest) = some d) :
    readings (a :: rest) =
      (overlongByte (a :: rest)).getD (narrowCodepoint d.codepoint) :: readings ((a :: rest).drop d.length) := by
  rw [readings, walk_next found, List.map_cons, List.map_map, readings]
  simp only [Function.comp_def, List.drop_drop, List.drop_zero]

private theorem readings_end {rest : Bytes} (ended : decode rest = none) : readings rest = [] := by
  rw [readings, walk_end ended, List.map_nil]

/-- A lead byte that is not used is read by itself. -/
theorem decode_unused {a : UInt8} (unused : a ∈ unusedLeads) (rest : Bytes) :
    decode (a :: rest) = some ⟨replacement, 1⟩ := by
  have stray : a ≠ 0 ∧ 0x80 ≤ a.toNat ∧ trailCount a = none := by
    rcases low_or_high unused with (rfl | rfl) | rfl | rfl | rfl <;> decide
  exact decode_of_reads stray.1 (.stray stray.2.1 stray.2.2)

/-- Stray continuation bytes are read as question marks. -/
theorem kept_readings_strays {trails : Bytes} (all : ∀ b ∈ trails, isContinuation b = true) (rest : Bytes) :
    kept (readings (trails ++ rest)) = kept (readings rest) := by
  induction trails with
  | nil => rfl
  | cons b trails ih =>
    obtain ⟨continues, others⟩ := List.forall_mem_cons.1 all
    have notLow : ¬ LowLead b := fun low => low.leads continues
    rw [List.cons_append, readings_next (decode_stray continues _), overlongByte_other notLow]
    exact ih others

/-- After a lead byte of two that is too low, narrowing takes up one continuation byte and writes the character
that the pair spells. -/
theorem narrowed_low {a : UInt8} (low : LowLead a) (rest : Bytes) :
    narrowed (a :: rest) = (overlongByte (a :: rest)).getD questionMark ::
      narrowed (rest.drop (continuations 1 rest).length) := by
  have lead : a ≠ 0 ∧ ¬ a < 0x80 ∧ leadsTwo a = true := by rcases low with rfl | rfl <;> decide
  rw [narrowed, if_neg lead.1, if_neg lead.2.1, if_pos lead.2.2]
  cases rest with
  | nil => rfl
  | cons b rest =>
    by_cases continues : isContinuation b = true
    · have pair : Overlong a b := ⟨low, continues⟩
      rw [overlongByte, if_pos pair, Option.getD_some, ← narrowPair_overlong pair]
      simp [continuations, continues]
    · have alone : ¬ Overlong a b := fun pair => continues pair.2
      rw [overlongByte, if_neg alone]
      simp [continuations, continues, narrowPair]

/-- After any lead byte that is not used, narrowing takes up continuation bytes; what it writes is a question mark
but for an overlong pair. -/
theorem narrowed_unused {a : UInt8} (unused : a ∈ unusedLeads) (rest : Bytes) :
    ∃ announced, narrowed (a :: rest) =
      (overlongByte (a :: rest)).getD questionMark :: narrowed (rest.drop (continuations announced rest).length) := by
  rcases low_or_high unused with low | high
  · exact ⟨1, narrowed_low low rest⟩
  · have lead : a ≠ 0 ∧ ¬ a < 0x80 ∧ ¬ leadsTwo a = true ∧ ¬ leadsThree a = true ∧ leadsFour a = true := by
      rcases high with rfl | rfl | rfl <;> decide
    have notLow : ¬ LowLead a := by rcases high with rfl | rfl | rfl <;> decide
    obtain ⟨nonzero, notAscii, notTwo, notThree, four⟩ := lead
    refine ⟨3, ?_⟩
    rw [narrowed, if_neg nonzero, if_neg notAscii, if_neg notTwo, if_neg notThree, if_pos four,
      overlongByte_other notLow]
    rfl

/-- Continuation bytes are nothing to narrow when they have been taken up, and question marks to read when not. -/
theorem kept_readings_taken (announced : Nat) (rest : Bytes) :
    kept (readings rest) = kept (readings (rest.drop (continuations announced rest).length)) := by
  obtain ⟨next, all⟩ := continuations_spec announced rest
  have whole : rest = continuations announced rest ++ rest.drop (continuations announced rest).length := by
    conv_lhs => rw [← List.take_append_drop (continuations announced rest).length rest, ← next]
  conv_lhs => rw [whole]
  exact kept_readings_strays all _

/-- What narrowing writes is what it reads at each step, but for the question marks. -/
theorem kept_narrowed (utf8 : Bytes) : kept (narrowed utf8) = kept (readings utf8) := by
  induction size : utf8.length using Nat.strong_induction_on generalizing utf8 with
  | _ n ih =>
    subst size
    cases found : decode utf8 with
    | none => rw [narrowed_end found, readings_end found]
    | some d =>
      cases utf8 with
      | nil => cases found
      | cons a rest =>
        have later : ∀ rest', rest'.length < (a :: rest).length → kept (narrowed rest') = kept (readings rest') :=
          fun rest' less => ih _ less rest' rfl
        by_cases unused : a ∈ unusedLeads
        · -- Decoding reads the lead byte alone and then each continuation byte that narrowing takes up with it.
          obtain ⟨announced, narrow⟩ := narrowed_unused unused rest
          rw [readings_next (decode_unused unused rest), narrow]
          apply kept_cons
          rw [later _ (by simp), List.drop_one, List.tail_cons]
          exact (kept_readings_taken announced rest).symm
        · have notLow : ¬ LowLead a := fun low => unused low.unused
          have size := decode_length found
          rw [narrowed_decode found unused, readings_next found, overlongByte_other notLow]
          apply kept_cons
          exact later _ (by simp only [List.length_cons, List.length_drop]; omega)

/-! ## Characters -/

/-- Two ways to write items as bytes of which the second writes a question mark wherever they differ. -/
theorem kept_map_eq_iff {α : Type} {items : List α} {f g : α → UInt8}
    (each : ∀ x ∈ items, f x = g x ∨ g x = questionMark) :
    (kept (items.map g)).length ≤ (kept (items.map f)).length ∧
      (kept (items.map f) = kept (items.map g) ↔ ∀ x ∈ items, f x = g x) := by
  induction items with
  | nil => simp
  | cons x items ih =>
    obtain ⟨here, others⟩ := List.forall_mem_cons.1 each
    obtain ⟨fewer, same⟩ := ih others
    rw [List.map_cons, List.map_cons, List.forall_mem_cons]
    by_cases equal : f x = g x
    · rw [equal, and_iff_right rfl, ← same]
      by_cases mark : g x = questionMark
      · rw [mark, kept_cons_mark, kept_cons_mark]
        exact ⟨fewer, Iff.rfl⟩
      · rw [kept_cons_visible mark, kept_cons_visible mark]
        exact ⟨Nat.succ_le_succ fewer, List.cons_inj_right _⟩
    · have mark : g x = questionMark := here.resolve_left equal
      rw [mark] at equal ⊢
      rw [kept_cons_mark, kept_cons_visible equal]
      refine ⟨Nat.le_succ_of_le fewer, ?_, fun both => absurd both.1 equal⟩
      -- The first way keeps one byte more than the second.
      intro whole
      have size := congrArg List.length whole
      rw [List.length_cons] at size
      omega

/-- The characters of code points, as narrowing writes them, are the code points that Latin-1 has. -/
theorem kept_narrowCodepoint (codepoints : List Nat) :
    (kept (codepoints.map narrowCodepoint)).map UInt8.toNat = codepoints.filter (fun c => c ≤ 0xFF ∧ c ≠ 0x3F) := by
  induction codepoints with
  | nil => rfl
  | cons c codepoints ih =>
    rw [List.map_cons]
    by_cases latin : c ≤ 0xFF
    · rw [narrowCodepoint, if_pos latin]
      by_cases mark : c = 0x3F
      · subst mark
        rw [List.filter_cons_of_neg (by simp)]
        exact ih
      · have byte : (UInt8.ofNat c).toNat = c := UInt8.toNat_ofNat_of_lt' (Nat.lt_succ_of_le latin)
        have visible : UInt8.ofNat c ≠ questionMark := fun same => mark (by rw [← byte, same]; rfl)
        rw [kept_cons_visible visible, List.map_cons, byte, ih, List.filter_cons_of_pos (by simp [latin, mark])]
    · rw [narrowCodepoint_past (Nat.lt_of_not_le latin), kept_cons_mark, ih,
        List.filter_cons_of_neg (by simp; omega)]

private theorem narrowCodepoint_visible {c : Nat} (nonzero : c ≠ 0) : narrowCodepoint c ≠ 0 := by
  rw [narrowCodepoint]
  split
  · rename_i latin
    intro nul
    have byte : (UInt8.ofNat c).toNat = c := UInt8.toNat_ofNat_of_lt' (Nat.lt_succ_of_le latin)
    rw [nul] at byte
    exact nonzero byte.symm
  · decide

/-- An overlong pair of the text stands where a step begins. -/
theorem overlong_iff {utf8 : Bytes} {c : UInt8} :
    (∃ step ∈ walk utf8 0, overlongByte (utf8.drop step.offset) = some c) ↔
      ∃ lead b, Overlong lead b ∧ [lead, b] <:+: textOf utf8 ∧ c = pairByte lead b := by
  constructor
  · rintro ⟨step, taken, spelled⟩
    obtain ⟨lead, b, later, left, pair, same⟩ := overlongByte_eq_some.1 spelled
    have within := step_within taken
    rw [List.drop_zero, Nat.zero_add] at within
    have text := @textOf_drop utf8 step.offset (by omega)
    have visible : lead ≠ 0 := by
      rintro rfl
      exact absurd pair.1 (by decide)
    rw [left, textOf_cons visible, textOf_cons (continuation_ne_zero pair.2)] at text
    refine ⟨lead, b, pair, ⟨utf8.take step.offset, textOf later, ?_⟩, same⟩
    rw [text, List.append_assoc]
    rfl
  · rintro ⟨lead, b, pair, ⟨front, back, whole⟩, rfl⟩
    have start : front.length < textLength utf8 := by
      rw [textLength, ← whole]
      simp
    have left : utf8.drop front.length = lead :: b :: (back ++ utf8.drop (textLength utf8)) := by
      conv_lhs => rw [← List.take_append_drop (textLength utf8) utf8, ← textOf_eq_take, ← whole]
      simp
    have leads : ¬ ContinuesAt utf8 front.length := by
      rw [continuesAt_head left]
      exact pair.1.leads
    obtain ⟨step, taken, place⟩ := step_of_lead start leads 0
    rw [Nat.zero_add] at place
    refine ⟨step, taken, ?_⟩
    rw [place, left, overlongByte, if_pos pair]

private theorem decode_overlong {rest : Bytes} {c : UInt8} (spelled : overlongByte rest = some c) :
    decode rest = some ⟨replacement, 1⟩ := by
  obtain ⟨lead, b, later, rfl, pair, -⟩ := overlongByte_eq_some.1 spelled
  exact decode_unused pair.1.unused _

/-- Where an overlong pair is, the walk reads a question mark. -/
theorem overlong_step {utf8 : Bytes} {step : Step} (taken : step ∈ walk utf8 0) {c : UInt8}
    (spelled : overlongByte (utf8.drop step.offset) = some c) : narrowCodepoint step.codepoint = questionMark := by
  have found := decode_of_mem_walk taken
  rw [decode_overlong spelled] at found
  rw [← (Decoded.mk.inj (Option.some.inj found)).1]
  rfl

/-- What narrowing reads are the characters of the walk exactly when every overlong pair spells a question mark. -/
theorem kept_readings_iff (utf8 : Bytes) :
    kept (readings utf8) = kept ((codepointsOf utf8).map narrowCodepoint) ↔
      ∀ step ∈ walk utf8 0, ∀ c, overlongByte (utf8.drop step.offset) = some c → c = questionMark := by
  rw [readings, codepointsOf, List.map_map]
  rw [(kept_map_eq_iff (g := narrowCodepoint ∘ Step.codepoint) ?_).2]
  · apply forall₂_congr
    intro step taken
    cases spelled : overlongByte (utf8.drop step.offset) with
    | none => simp
    | some c => simp [overlong_step taken spelled]
  · intro step taken
    cases spelled : overlongByte (utf8.drop step.offset) with
    | none => exact .inl rfl
    | some c => exact .inr (overlong_step taken spelled)

private theorem zero_mem_readings {utf8 : Bytes} :
    0 ∈ readings utf8 ↔ ∃ step ∈ walk utf8 0, overlongByte (utf8.drop step.offset) = some 0 := by
  rw [readings, List.mem_map]
  apply exists_congr
  intro step
  apply and_congr_right
  intro taken
  cases spelled : overlongByte (utf8.drop step.offset) with
  | none =>
    have nonzero := (scalar_of_decode (decode_of_mem_walk taken)).2
    simp [narrowCodepoint_visible nonzero]
  | some c => simp

/-- A malformed text is narrowed to its characters and question marks, but for overlong pairs. Without the question
marks, what narrowing writes is what it reads at the steps of the walk. These are the code points of the walk up
to U+00FF, question marks apart, exactly when every overlong pair in the text is the one that spells a question
mark; and a NUL is written exactly when the pair that spells it is in the text. -/
theorem narrow_characters_iff (utf8 : Bytes) :
    kept (narrow utf8) = kept (readings utf8) ∧
    ((kept (narrow utf8)).map UInt8.toNat = (codepointsOf utf8).filter (fun c => c ≤ 0xFF ∧ c ≠ 0x3F) ↔
      ∀ lead b, Overlong lead b → [lead, b] <:+: textOf utf8 → [lead, b] = [0xC0, 0xBF]) ∧
    (0 ∈ narrow utf8 ↔ [0xC0, 0x80] <:+: textOf utf8) := by
  have read : kept (narrow utf8) = kept (readings utf8) := by rw [narrow, sized_eq, kept_narrowed]
  refine ⟨read, ?_, ?_⟩
  · rw [← kept_narrowCodepoint, map_toNat_inj, read, kept_readings_iff]
    constructor
    · intro marks lead b pair inside
      obtain ⟨step, taken, spelled⟩ := overlong_iff.2 ⟨lead, b, pair, inside, rfl⟩
      exact (pairByte_overlong pair).1.1 (marks step taken _ spelled)
    · intro marks step taken c spelled
      obtain ⟨lead, b, pair, inside, rfl⟩ := overlong_iff.1 ⟨step, taken, spelled⟩
      exact (pairByte_overlong pair).1.2 (marks lead b pair inside)
  · have visible : (0 : UInt8) ≠ questionMark := by decide
    rw [← mem_kept visible, read, mem_kept visible, zero_mem_readings, overlong_iff]
    constructor
    · rintro ⟨lead, b, pair, inside, nul⟩
      rwa [← (pairByte_overlong pair).2.1 nul.symm]
    · intro inside
      have pair : Overlong 0xC0 0x80 := by decide
      exact ⟨0xC0, 0x80, pair, inside, ((pairByte_overlong pair).2.2 rfl).symm⟩

/-- The theorem at a text with an overlong question mark, a sequence cut short and a lead byte that is too high,
and a pair that spells a letter after its NUL. -/
theorem narrow_characters_iff_malformed :
    let utf8 : Bytes := [0x41, 0xC0, 0xBF, 0xE2, 0x82, 0xF5, 0x80, 0xC3, 0xA9, 0, 0xC1, 0x81]
    (kept (narrow utf8)).map UInt8.toNat = [0x41, 0xE9] ∧ 0 ∉ narrow utf8 := by
  intro utf8
  have text : textOf utf8 = [0x41, 0xC0, 0xBF, 0xE2, 0x82, 0xF5, 0x80, 0xC3, 0xA9] := by decide
  have read : codepointsOf utf8 = [0x41, 0xFFFD, 0xFFFD, 0xFFFD, 0xFFFD, 0xFFFD, 0xE9] := by cbv
  obtain ⟨-, characters, nul⟩ := narrow_characters_iff utf8
  constructor
  · rw [characters.2, read]
    · decide
    · intro lead b pair inside
      rw [text] at inside
      rcases pair.1 with rfl | rfl
      · obtain rfl : b = 0xBF := by simpa [List.infix_cons_iff] using inside
        rfl
      · simp [List.infix_cons_iff] at inside
  · rw [nul, text]
    decide

/-- Overlong pairs are narrowed to a letter and to a NUL, where the walk reads no character. -/
theorem overlong_pairs_become_characters :
    narrow [0xC1, 0x81] = [0x41] ∧ narrow [0xC0, 0x80] = [0] ∧
    codepointsOf [0xC1, 0x81] = [0xFFFD, 0xFFFD] ∧ codepointsOf [0xC0, 0x80] = [0xFFFD, 0xFFFD] ∧
    (kept (narrow [0xC1, 0x81])).map UInt8.toNat ≠
      (codepointsOf [0xC1, 0x81]).filter (fun c => c ≤ 0xFF ∧ c ≠ 0x3F) := by
  have letter : narrow [0xC1, 0x81] = [0x41] := by cbv
  have nul : narrow [0xC0, 0x80] = [0] := by cbv
  have read : codepointsOf [0xC1, 0x81] = [0xFFFD, 0xFFFD] := by cbv
  have read' : codepointsOf [0xC0, 0x80] = [0xFFFD, 0xFFFD] := by cbv
  refine ⟨letter, nul, read, read', ?_⟩
  rw [letter, read]
  decide

end BoundedText
