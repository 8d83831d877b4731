import BoundedText.Proofs.Walking

/-!
# Tiling

The steps of a walk lie side by side from where it begins to the end of the text, whatever the bytes
(`walk_tiles_text`). Counting and measuring decode the text by themselves and come to the same steps
(`codepointCount_eq`, `prefix_contiguous`), a byte that continues no sequence begins a step (`step_of_lead`),
and a text that is cut after one of its steps is walked as it was before (`stepsFrom_take`).
-/

namespace BoundedText
open Utf8

/-- Steps that follow one another without a gap, from one offset to another. -/
inductive Contiguous : Nat → List Step → Nat → Prop
  | nil (offset : Nat) : Contiguous offset [] offset
  | cons (step : Step) {steps : List Step} {stop : Nat} (later : Contiguous (step.offset + step.length) steps stop) :
      Contiguous step.offset (step :: steps) stop

/-- Where the last of some steps ends; an offset when there are none. -/
def endOf (steps : List Step) (offset : Nat) : Nat := (steps.getLast?.map (fun step => step.offset + step.length)).getD offset

/-- How many of so many items a limit allows. -/
def Limit.within : Limit → Nat → Nat
  | .atMost count, all => min count all
  | .unlimited, all => all

private theorem Contiguous.stop_eq {start stop : Nat} {steps : List Step} (tiled : Contiguous start steps stop) :
    stop = endOf steps start := by
  induction tiled with
  | nil offset => rfl
  | @cons step steps stop later ih =>
    rw [ih]
    cases steps with
    | nil => rfl
    | cons next steps =>
      rw [endOf, endOf, List.getLast?_cons_cons, List.getLast?_eq_some_getLast (List.cons_ne_nil next steps)]
      rfl

/-! ## One sequence -/

theorem textLength_decode {rest : Bytes} {d : Decoded} (found : decode rest = some d) :
    textLength rest = d.length + textLength (rest.drop d.length) := by
  have whole := congrArg List.length (textOf_decode found)
  rwa [List.length_append, List.length_take, Nat.min_eq_left (decode_length found).2] at whole

theorem decode_length_le_four {rest : Bytes} {d : Decoded} (found : decode rest = some d) : d.length ≤ 4 := by
  cases rest with
  | nil => cases found
  | cons lead rest =>
    -- No lead byte announces more than three bytes, and no more are taken than it announces.
    have short {announced : Nat} {trails : Bytes} (leads : trailCount lead = some announced)
        (taken : continuations announced rest = trails) : trails.length + 1 ≤ 4 := by
      have few : trails.length ≤ announced := by
        rw [← taken]
        exact (List.takeWhile_sublist _).length_le.trans (List.length_take_le ..)
      rcases trailCount_eq_some leads with ⟨rfl, -⟩ | ⟨rfl, -⟩ | ⟨rfl, -⟩ <;> omega
    obtain ⟨-, reads⟩ := reads_of_decode found
    cases reads with
    | ascii _ => exact Nat.le_add_left 1 3
    | stray _ _ => exact Nat.le_add_left 1 3
    | complete announced trails leads taken _ => exact short leads taken
    | malformed announced trails leads taken _ => exact short leads taken

/-! ## Loops over a text -/

theorem stepsFrom_contiguous (rest : Bytes) (offset : Nat) :
    Contiguous offset (stepsFrom rest offset) (offset + textLength rest) := by
  fun_induction stepsFrom rest offset with
  | case1 rest offset ended =>
    rw [textLength, decode_eq_none.1 ended]
    exact .nil offset
  | case2 rest offset d found ih =>
    rw [textLength_decode found, ← Nat.add_assoc]
    exact .cons ⟨d.codepoint, offset, d.length⟩ ih

theorem codepointCount_eq (rest : Bytes) (offset : Nat) : codepointCount rest = (stepsFrom rest offset).length := by
  fun_induction codepointCount rest generalizing offset with
  | case1 rest ended =>
    rw [stepsFrom_end ended]
    rfl
  | case2 rest d found ih => rw [stepsFrom_next found, List.length_cons, ih (offset + d.length), Nat.add_comm]

/-- A text has no more code points than bytes. -/
theorem codepointCount_le (rest : Bytes) : codepointCount rest ≤ textLength rest := by
  fun_induction codepointCount rest with
  | case1 rest ended => exact Nat.zero_le _
  | case2 rest d found ih =>
    have size := textLength_decode found
    have positive := (decode_length found).1
    omega

/-- Code points that are measured lie within the text. -/
theorem prefixLength_le (rest : Bytes) (limit : Limit) : codepointPrefixLength rest limit ≤ textLength rest := by
  fun_induction codepointPrefixLength rest limit with
  | case1 rest limit spent => exact Nat.zero_le _
  | case2 rest limit later more ended => exact Nat.zero_le _
  | case3 rest limit later more d found ih =>
    rw [textLength_decode found]
    exact Nat.add_le_add_left ih _

private theorem Limit.take_none {α : Type} {limit : Limit} (spent : limit.next? = none) (items : List α) :
    limit.take items = [] := by
  match limit with
  | .atMost 0 => rfl

private theorem Limit.take_some {α : Type} {limit later : Limit} (more : limit.next? = some later) (item : α)
    (items : List α) :
    limit.take (item :: items) = item :: later.take items := by
  match limit with
  | .atMost (count + 1) => cases more; rfl
  | .unlimited => cases more; rfl

theorem Limit.take_nil {α : Type} (limit : Limit) : limit.take ([] : List α) = [] := by
  cases limit with
  | atMost count => exact List.take_nil
  | unlimited => rfl

theorem Limit.take_eq {α : Type} (limit : Limit) (items : List α) : limit.take items = items.take (limit.within items.length) := by
  cases limit with
  | atMost count => rw [Limit.take, Limit.within, List.take_eq_take_min]
  | unlimited => rw [Limit.take, Limit.within, List.take_length]

/-- The first steps of a text lie side by side, up to where measuring them comes. -/
theorem prefix_contiguous (rest : Bytes) (offset : Nat) (limit : Limit) :
    Contiguous offset (limit.take (stepsFrom rest offset)) (offset + codepointPrefixLength rest limit) := by
  fun_induction stepsFrom rest offset generalizing limit with
  | case1 rest offset ended =>
    rw [Limit.take_nil, prefixLength_end ended]
    exact .nil offset
  | case2 rest offset d found ih =>
    cases more : limit.next? with
    | none =>
      rw [Limit.take_none more, prefixLength_none rest more]
      exact .nil offset
    | some later =>
      rw [Limit.take_some more, prefixLength_some found more, ← Nat.add_assoc]
      exact .cons ⟨d.codepoint, offset, d.length⟩ (ih later)

/-! ## Where sequences begin -/

/-- A continuation byte that no lead byte announces is read by itself. -/
theorem decode_stray {a : UInt8} (continues : isContinuation a = true) (rest : Bytes) :
    decode (a :: rest) = some ⟨replacement, 1⟩ := by
  obtain ⟨high, low⟩ := (isContinuation_iff a).1 continues
  have leads : trailCount a = none := by
    by_contra some
    obtain ⟨announced, leads⟩ := Option.ne_none_iff_exists'.1 some
    have range := trailCount_eq_some leads
    omega
  exact decode_of_reads (continuation_ne_zero continues) (.stray high leads)

/-- The byte at an offset continues a sequence. -/
def ContinuesAt (bytes : Bytes) (offset : Nat) : Prop := bytes[offset]?.any isContinuation = true

theorem continuesAt_drop (bytes : Bytes) (count offset : Nat) :
    ContinuesAt (bytes.drop count) offset ↔ ContinuesAt bytes (count + offset) := by
  rw [ContinuesAt, ContinuesAt, List.getElem?_drop]

theorem continuesAt_iff {bytes : Bytes} {offset : Nat} :
    ContinuesAt bytes offset ↔ ∃ b, bytes[offset]? = some b ∧ isContinuation b = true := by
  rw [ContinuesAt, Option.any_eq_true]

theorem continuesAt_head {bytes later : Bytes} {offset : Nat} {a : UInt8} (left : bytes.drop offset = a :: later) :
    ContinuesAt bytes offset ↔ isContinuation a = true := by
  have first : (bytes.drop offset)[0]? = some a := by rw [left, List.getElem?_cons_zero]
  rw [List.getElem?_drop, Nat.add_zero] at first
  rw [ContinuesAt, first, Option.any_some]

/-- Every byte of a sequence but the first continues it. -/
theorem decode_continues {rest : Bytes} {d : Decoded} (found : decode rest = some d) {i : Nat} (later : 0 < i)
    (inside : i < d.length) : ContinuesAt rest i := by
  cases rest with
  | nil => cases found
  | cons a rest =>
    obtain ⟨-, trails, size, taken, all⟩ := decode_shape found
    obtain ⟨j, rfl⟩ : ∃ j, i = j + 1 := ⟨i - 1, by omega⟩
    have within : j < trails.length := by omega
    refine continuesAt_iff.2 ⟨trails[j], ?_, all _ (List.getElem_mem within)⟩
    have here : (rest.take trails.length)[j]? = some trails[j] := by rw [taken, List.getElem?_eq_getElem within]
    rwa [List.getElem?_take_of_lt within] at here

/-- A byte of the text that does not continue a sequence begins one. -/
theorem step_of_lead {rest : Bytes} {i : Nat} (inside : i < textLength rest) (leads : ¬ ContinuesAt rest i)
    (offset : Nat) : ∃ step ∈ stepsFrom rest offset, step.offset = offset + i := by
  fun_induction stepsFrom rest offset generalizing i with
  | case1 rest offset ended =>
    rw [textLength, decode_eq_none.1 ended] at inside
    cases inside
  | case2 rest offset d found ih =>
    by_cases within : i < d.length
    · have first : i = 0 := by
        by_contra later
        exact leads (decode_continues found (Nat.pos_of_ne_zero later) within)
      subst first
      exact ⟨_, List.mem_cons_self, rfl⟩
    · obtain ⟨j, rfl⟩ : ∃ j, i = d.length + j := ⟨i - d.length, by omega⟩
      rw [textLength_decode found] at inside
      rw [← continuesAt_drop] at leads
      obtain ⟨step, taken, place⟩ := ih (by omega) leads
      exact ⟨step, List.mem_cons_of_mem _ taken, by rw [place, Nat.add_assoc]⟩

/-- No step reaches into a later one. -/
theorem steps_apart {rest : Bytes} {offset : Nat} {first second : Step} (one : first ∈ stepsFrom rest offset)
    (other : second ∈ stepsFrom rest offset) (before : first.offset < second.offset) :
    first.offset + first.length ≤ second.offset := by
  fun_induction stepsFrom rest offset with
  | case1 rest offset ended => cases one
  | case2 rest offset d found ih =>
    rcases List.mem_cons.1 other with rfl | laterOther
    · rcases List.mem_cons.1 one with rfl | laterOne
      · exact absurd before (Nat.lt_irrefl _)
      · have after := (decode_of_mem_stepsFrom laterOne).1
        exact absurd before (by dsimp only; omega)
    · rcases List.mem_cons.1 one with rfl | laterOne
      · exact (decode_of_mem_stepsFrom laterOther).1
      · exact ih laterOne laterOther

/-- A step lies within the text. -/
theorem step_within {rest : Bytes} {offset : Nat} {step : Step} (taken : step ∈ stepsFrom rest offset) :
    step.offset + step.length ≤ offset + textLength rest := by
  fun_induction stepsFrom rest offset with
  | case1 rest offset ended => cases taken
  | case2 rest offset d found ih =>
    have size := textLength_decode found
    rcases List.mem_cons.1 taken with rfl | later
    · dsimp only
      omega
    · have within := ih later
      omega

/-! ## Cutting a text after a step -/

/-- What is left of a text, cut after its first code points, is walked as far as they go. -/
theorem stepsFrom_take (rest : Bytes) (offset : Nat) (limit : Limit) :
    stepsFrom (rest.take (codepointPrefixLength rest limit)) offset = limit.take (stepsFrom rest offset) := by
  have empty (offset : Nat) : stepsFrom [] offset = [] := stepsFrom_end rfl offset
  fun_induction stepsFrom rest offset generalizing limit with
  | case1 rest offset ended => rw [Limit.take_nil, prefixLength_end ended, List.take_zero, empty]
  | case2 rest offset d found ih =>
    cases more : limit.next? with
    | none => rw [Limit.take_none more, prefixLength_none rest more, List.take_zero, empty]
    | some later =>
      -- Decoding looks no further than the sequence it reads, so the cut does not show in it.
      have size := prefixLength_some found more
      have cut : decode (rest.take (codepointPrefixLength rest limit)) = some d :=
        decode_take found (by rw [size]; exact Nat.le_add_right ..)
      have left : (rest.take (codepointPrefixLength rest limit)).drop d.length =
          (rest.drop d.length).take (codepointPrefixLength (rest.drop d.length) later) := by
        rw [List.drop_take, size, Nat.add_sub_cancel_left]
      rw [stepsFrom_next cut, left, ih later, Limit.take_some more]

/-- What is left of a text after its first code points is walked as it was before. -/
theorem stepsFrom_drop (rest : Bytes) (offset count : Nat) :
    stepsFrom (rest.drop (codepointPrefixLength rest (.atMost count)))
        (offset + codepointPrefixLength rest (.atMost count)) =
      (stepsFrom rest offset).drop count := by
  induction count generalizing rest offset with
  | zero => rw [prefixLength_zero, List.drop_zero, Nat.add_zero, List.drop_zero]
  | succ count ih =>
    cases found : decode rest with
    | none => rw [prefixLength_end found, List.drop_zero, Nat.add_zero, stepsFrom_end found, List.drop_nil]
    | some d =>
      rw [prefixLength_next found, ← List.drop_drop, ← Nat.add_assoc, ih, stepsFrom_next found, List.drop_succ_cons]

/-! ## The text of a walk -/

/-- A walk tiles the text. Its steps lie side by side from where it begins to the first NUL from there
on, each the one to four bytes that decoding takes up for a code point that a text may hold. The steps
of the whole text are as many as its code points, a number of code points takes up the bytes up to the
end of the last of so many steps, and cutting the text there leaves just those steps. -/
theorem walk_tiles_text (bytes : Bytes) (start : Nat) (inside : start ≤ bytes.length) :
    Contiguous start (walk bytes start) (textEnd bytes start) ∧
    (∀ step ∈ walk bytes start, decode (bytes.drop step.offset) = some ⟨step.codepoint, step.length⟩ ∧
      1 ≤ step.length ∧ step.length ≤ 4 ∧ IsScalar step.codepoint ∧ step.codepoint ≠ 0) ∧
    codepointCount bytes = (walk bytes 0).length ∧
    ∀ limit : Limit,
      let first := (walk bytes 0).take (limit.within (codepointCount bytes))
      codepointPrefixLength bytes limit = endOf first 0 ∧ walk (takeCodepoints bytes limit) 0 = first := by
  refine ⟨?_, ?_, codepointCount_eq bytes 0, ?_⟩
  · rw [textEnd, Nat.min_eq_left inside]
    exact stepsFrom_contiguous (bytes.drop start) start
  · intro step taken
    have found := decode_of_mem_walk taken
    exact ⟨found, (decode_length found).1, decode_length_le_four found, scalar_of_decode found⟩
  · intro limit first
    have steps : limit.take (walk bytes 0) = first := by
      rw [Limit.take_eq, ← show codepointCount bytes = (walk bytes 0).length from codepointCount_eq bytes 0]
    rw [← steps]
    refine ⟨?_, stepsFrom_take bytes 0 limit⟩
    exact (Nat.zero_add _).symm.trans (prefix_contiguous bytes 0 limit).stop_eq

/-- The theorem from the middle of a text that begins with a sequence cut short. -/
theorem walk_tiles_text_malformed :
    let bytes : Bytes := [0xE2, 0x82, 0x41, 0xF0, 0x9F, 0x98, 0x80, 0, 0x42]
    2 ≤ bytes.length ∧ Contiguous 2 [⟨0x41, 2, 1⟩, ⟨0x1F600, 3, 4⟩] 7 ∧
    (⟨0x1F600, 3, 4⟩ ∈ walk bytes 2 ∧ 1 ≤ 4 ∧ IsScalar 0x1F600) ∧
    codepointCount bytes = 3 ∧
    codepointPrefixLength bytes (.atMost 2) = endOf [⟨0xFFFD, 0, 2⟩, ⟨0x41, 2, 1⟩] 0 ∧
    walk (takeCodepoints bytes (.atMost 2)) 0 = [⟨0xFFFD, 0, 2⟩, ⟨0x41, 2, 1⟩] := by
  intro bytes
  have inside : 2 ≤ bytes.length := by decide
  have steps : walk bytes 2 = [⟨0x41, 2, 1⟩, ⟨0x1F600, 3, 4⟩] := by cbv
  have whole : walk bytes 0 = [⟨0xFFFD, 0, 2⟩, ⟨0x41, 2, 1⟩, ⟨0x1F600, 3, 4⟩] := by cbv
  obtain ⟨tiled, each, count, cut⟩ := walk_tiles_text bytes 2 inside
  rw [whole] at count
  obtain ⟨size, copy⟩ := cut (.atMost 2)
  rw [whole, count] at size copy
  rw [steps] at tiled
  have last : (⟨0x1F600, 3, 4⟩ : Step) ∈ walk bytes 2 := by rw [steps]; decide
  obtain ⟨-, positive, -, scalar, -⟩ := each _ last
  exact ⟨inside, tiled, ⟨last, positive, scalar⟩, count, size, copy⟩

end BoundedText
