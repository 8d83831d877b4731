import BoundedText.Context
import BoundedText.Proofs.Accumulation
import BoundedText.Proofs.Appending
import BoundedText.Proofs.AsciiSeparators

/-!
# Removing a word

Removing a word from a list hands the tokens of the list to a sink, without the first that is the word
(`removeFirst_tokens`), and leaves the array as splitting all of it does. A sink that takes what it is
handed (`Takes`) has in the end the tokens with one separator between two of them (`Takes.feed`). A cursor
and a builder both do, so that what is left of the list is cut off by the one and dropped by the other
(`removeWord_erases`).
-/

namespace BoundedText
open TokenCursor Utf8

/-! ## What is handed on -/

private theorem sameText_iff {token word : Bytes} : sameText token word = true ↔ token = textOf word := by
  have all : ∀ (token word : Bytes), token.length ≤ word.length →
      ((token.zip word).all (fun pair => pair.1 == pair.2) = true ↔ token = word.take token.length) := by
    intro token word
    induction token generalizing word with
    | nil => simp
    | cons a token ih =>
      cases word with
      | nil => simp
      | cons b word =>
        intro short
        simp only [List.length_cons, Nat.add_le_add_iff_right] at short
        simp [ih word short]
  simp only [sameText, Bool.and_eq_true, beq_iff_eq]
  constructor
  · rintro ⟨size, same⟩
    have within := textLength_le word
    rw [all token word (by omega), size, ← textOf_eq_take] at same
    exact same
  · rintro rfl
    have within := textLength_le word
    refine ⟨rfl, ?_⟩
    rw [all _ _ within]
    exact textOf_eq_take word

namespace ListSink
variable {σ : Type} (sink : ListSink σ)

/-- Takes a token after a separator. -/
def next (state : σ) (token : Bytes) : σ := sink.token (sink.separator state) (some token)

/-- Takes tokens with a separator between two of them; when there are none it is told so. -/
def feed (state : σ) : List Bytes → σ
  | [] => sink.token state none
  | first :: rest => rest.foldl sink.next (sink.token state (some first))

end ListSink

private theorem split_none {unit : TextUnit} {separator : Int} {cursor : TokenCursor}
    (used : (cursor.split unit separator).1 = none) : cursor.split unit separator = (none, cursor) := by
  obtain ⟨bytes, pos⟩ := cursor
  cases pos with
  | none => rfl
  | some start =>
    simp only [split] at used
    split at used <;> cases used

section loops
variable {σ : Type} (unit : TextUnit) (separator : Int) (sink : ListSink σ)

private theorem handAll_tokens (cursor : TokenCursor) (state : σ) :
    (handAll unit separator sink cursor state).1 = (cursor.splitAll unit separator).1.foldl sink.next state ∧
      (handAll unit separator sink cursor state).2.bytes = (cursor.splitAll unit separator).2 := by
  fun_induction handAll unit separator sink cursor state with
  | case1 cursor state used =>
    rw [splitAll_none used]
    exact ⟨rfl, rfl⟩
  | case2 cursor state token found ih =>
    rw [splitAll_next (split_some found), List.foldl_cons]
    exact ih

/-- The tokens handed on before a word is found, and those after it, are all but the word. -/
theorem handUpTo_tokens (word : Bytes) (cursor : TokenCursor) (state : σ) :
    let upTo := handUpTo unit separator sink word cursor state
    (handAll unit separator sink upTo.2 upTo.1).1 =
        ((cursor.splitAll unit separator).1.erase (textOf word)).foldl sink.next state ∧
      (handAll unit separator sink upTo.2 upTo.1).2.bytes = (cursor.splitAll unit separator).2 := by
  fun_induction handUpTo unit separator sink word cursor state with
  | case1 cursor state used =>
    have rest := handAll_tokens unit separator sink cursor state
    rw [splitAll_none used] at rest ⊢
    exact rest
  | case2 cursor state token found same =>
    have rest := handAll_tokens unit separator sink (cursor.split unit separator).2 state
    rw [splitAll_next (split_some found), sameText_iff.1 same, List.erase_cons_head]
    exact rest
  | case3 cursor state token found other ih =>
    have kept : ¬ (token == textOf word) = true := by simpa [sameText_iff] using other
    rw [splitAll_next (split_some found), List.erase_cons_tail kept, List.foldl_cons]
    exact ih

/-- A sink is fed the tokens of a list without the first that is a word, and the list is split whole. -/
theorem removeFirst_tokens (word : Bytes) (cursor : TokenCursor) (state : σ) :
    (removeFirst unit separator sink word cursor state).1 =
        sink.feed state ((cursor.splitAll unit separator).1.erase (textOf word)) ∧
      (removeFirst unit separator sink word cursor state).2.bytes = (cursor.splitAll unit separator).2 := by
  cases found : (cursor.split unit separator).1 with
  | none =>
    have rest := handUpTo_tokens unit separator sink word cursor (sink.token state none)
    rw [splitAll_none found] at rest ⊢
    simp only [removeFirst, split_none found]
    exact rest
  | some token =>
    obtain ⟨next, split⟩ : ∃ next, cursor.split unit separator = (some token, next) := ⟨_, split_some found⟩
    rw [splitAll_next split]
    by_cases same : sameText token word = true
    · -- The token after the word comes first, so it is taken without a separator.
      rw [sameText_iff.1 same, List.erase_cons_head]
      simp only [removeFirst, split, Option.any_some, same, if_true]
      cases second : (next.split unit separator).1 with
      | none =>
        have rest := handAll_tokens unit separator sink next (sink.token state none)
        rw [splitAll_none second] at rest ⊢
        rw [split_none second]
        exact rest
      | some other =>
        have rest := handAll_tokens unit separator sink (next.split unit separator).2 (sink.token state (some other))
        rw [splitAll_next (split_some second)]
        exact rest
    · have kept : ¬ (token == textOf word) = true := by simpa [sameText_iff] using same
      have rest := handUpTo_tokens unit separator sink word next (sink.token state (some token))
      rw [List.erase_cons_tail kept]
      simp only [removeFirst, split, Option.any_some, same]
      exact rest

end loops

/-! ## Tokens without a NUL -/

section tokens
variable {unit : TextUnit} {separator : Int}

private theorem visible_of_split (keeps : Keeps unit) {cursor : TokenCursor} {token : Bytes}
    (found : (cursor.split unit separator).1 = some token) : ∀ b ∈ token, b ≠ 0 := by
  obtain ⟨bytes, pos⟩ := cursor
  cases pos with
  | none => cases found
  | some start =>
    cases scanned : separatorAt unit separator (bytes.drop start) with
    | none =>
      rw [split_last scanned] at found
      cases found
      exact fun b member => ne_zero_of_mem_text member
    | some place =>
      obtain ⟨-, inside, -⟩ := separatorAt_found keeps scanned
      rw [split_cut scanned] at found
      cases found
      exact ne_zero_of_mem_front (by omega)

/-- There is no NUL in a token, since a list is a text. -/
theorem visible_of_mem_splitAll (keeps : Keeps unit) (cursor : TokenCursor) :
    ∀ token ∈ (cursor.splitAll unit separator).1, ∀ b ∈ token, b ≠ 0 := by
  induction cursor using splitAll.induct unit separator with
  | case1 cursor used => simp [splitAll_none used]
  | case2 cursor token found _ _ _ ih =>
    rw [splitAll_next (split_some found), List.forall_mem_cons]
    exact ⟨visible_of_split keeps found, ih⟩

end tokens

/-! ## Sinks that take what they are handed -/

/-- A sink that takes every token and separator it is handed, where `Has asked state` says that a state is what
a sink is in that was handed bytes. -/
structure Takes {σ : Type} (sink : ListSink σ) (mark : Bytes) (Has : Bytes → σ → Prop) : Prop where
  nothing : ∀ asked state, Has asked state → Has asked (sink.token state none)
  token : ∀ asked state token, (∀ b ∈ token, b ≠ 0) → Has asked state →
    Has (asked ++ token) (sink.token state (some token))
  separator : ∀ asked state, Has asked state → Has (asked ++ mark) (sink.separator state)

section takes
variable {σ : Type} {sink : ListSink σ} {mark : Bytes} {Has : Bytes → σ → Prop}

private theorem intercalate_append (front first : Bytes) (rest : List Bytes) :
    mark.intercalate ((front ++ first) :: rest) = front ++ mark.intercalate (first :: rest) := by
  cases rest with
  | nil => rw [List.intercalate_singleton, List.intercalate_singleton]
  | cons second rest => simp only [List.intercalate_cons_cons, List.append_assoc]

theorem Takes.rest (takes : Takes sink mark Has) {asked : Bytes} {state : σ} (first : Bytes) {tokens : List Bytes}
    (visible : ∀ token ∈ tokens, ∀ b ∈ token, b ≠ 0) (has : Has (asked ++ first) state) :
    Has (asked ++ mark.intercalate (first :: tokens)) (tokens.foldl sink.next state) := by
  induction tokens generalizing first state with
  | nil => rwa [List.intercalate_singleton]
  | cons token tokens ih =>
    obtain ⟨here, others⟩ := List.forall_mem_cons.1 visible
    have taken : Has (asked ++ (first ++ mark ++ token)) (sink.next state token) := by
      rw [← List.append_assoc, ← List.append_assoc]
      exact takes.token _ _ token here (takes.separator _ _ has)
    have tail := ih _ others taken
    rwa [intercalate_append, ← List.intercalate_cons_cons] at tail

/-- In the end a sink was handed the tokens, with one separator between two of them. -/
theorem Takes.feed (takes : Takes sink mark Has) {asked : Bytes} {state : σ} {tokens : List Bytes}
    (visible : ∀ token ∈ tokens, ∀ b ∈ token, b ≠ 0) (has : Has asked state) :
    Has (asked ++ mark.intercalate tokens) (sink.feed state tokens) := by
  cases tokens with
  | nil =>
    rw [List.intercalate_nil, List.append_nil]
    exact takes.nothing asked state has
  | cons first tokens =>
    obtain ⟨here, others⟩ := List.forall_mem_cons.1 visible
    exact takes.rest first others (takes.token asked state first here has)

end takes

/-- A cursor has what there is room for. -/
theorem Cursor.takes (start : Cursor) (separator : Int) :
    Takes (Cursor.listSink separator) [byteOf separator] fun asked cursor => cursor = (start.append asked).2 where
  nothing asked cursor has := has
  token asked cursor token visible has := by
    have counts : cursor.appendText (some (.bytes token)) = cursor.append (textOf token) :=
      appendText_counts (some (.bytes token)) cursor
    simp only [Cursor.listSink, Option.map_some, counts]
    rw [textOf_self visible, has, append_append]
  separator asked cursor has := by
    have counts : cursor.appendByte separator = cursor.append [byteOf separator] := appendByte_counts separator cursor
    simp only [Cursor.listSink, counts]
    rw [has, append_append]

/-- What a builder that was handed bytes holds, and what it told: nothing while they are within the limit, and
later that they were too much. -/
def Builder.Has (limit : Nat) (asked : Bytes) : Builder × List Diagnostic → Prop
  | (builder, told) => (∃ peak, Builder.Holds limit asked peak builder) ∧
      (asked.length < limit → told = []) ∧ (limit ≤ asked.length → ∃ length, told = [Builder.overflow length limit])

theorem Builder.Has.append {limit : Nat} {asked : Bytes} {builder : Builder} {told : List Diagnostic}
    (has : Builder.Has limit asked (builder, told)) (piece : Bytes) :
    Builder.Has limit (asked ++ piece) ((builder.append piece).1, told ++ (builder.append piece).2.toList) := by
  obtain ⟨⟨peak, holds⟩, silent, once⟩ := has
  obtain ⟨next, more⟩ := holds.append piece
  have grows : asked.length ≤ (asked ++ piece).length := by rw [List.length_append]; omega
  refine ⟨⟨_, next⟩, ?_, ?_⟩
  · intro within
    rw [silent (by omega), more, if_neg (by omega)]
    rfl
  · intro past
    by_cases before : asked.length < limit
    · rw [silent before, more, if_pos ⟨before, past⟩]
      exact ⟨_, rfl⟩
    · obtain ⟨length, same⟩ := once (by omega)
      rw [same, more, if_neg (by omega)]
      exact ⟨length, rfl⟩

/-- What was handed on comes out of the builder, or is dropped. -/
theorem Builder.Has.finish {limit : Nat} {asked : Bytes} {builder : Builder} {told : List Diagnostic}
    (has : Builder.Has limit asked (builder, told)) :
    (asked.length ≤ limit - 1 → builder.finish.1 = asked ∧ told = []) ∧
      (limit - 1 < asked.length → builder.finish.1 = [] ∧ ∃ length, told = [Builder.overflow length limit]) := by
  obtain ⟨⟨peak, holds⟩, silent, once⟩ := has
  have bounded := holds.bounded
  have seen := holds.observed
  constructor
  · intro within
    rw [if_pos within, Builder.observed, Prod.mk.injEq, Prod.mk.injEq] at seen
    exact ⟨seen.2.2, silent (by omega)⟩
  · intro past
    rw [if_neg (by omega), Builder.observed, Prod.mk.injEq, Prod.mk.injEq] at seen
    exact ⟨seen.2.2, once (by omega)⟩

/-- A builder has what it was handed, or has told once that it was too much. -/
theorem Builder.takes (limit : Nat) (separator : Int) :
    Takes (Builder.listSink separator) (codepointPiece separator) (Builder.Has limit) where
  nothing asked state has := by
    simpa [Builder.listSink, Builder.appendText, Builder.appendAll, Builder.append, givenText, textOf,
      Text.bytesOrEmpty] using has
  token asked state token visible has := by
    have taken := has.append token
    simpa [Builder.listSink, Builder.appendText, Builder.appendAll, givenText, Text.bytesOrEmpty, Text.toBytes,
      textOf_self visible] using taken
  separator asked state has := by
    have taken := has.append (codepointPiece separator)
    simpa [Builder.listSink, Builder.appendCodepoint, Builder.appendAll] using taken

/-! ## Lists without a word -/

/-- There is no NUL in what is left of a list without a word. -/
theorem visible_of_mem_erase {unit : TextUnit} (keeps : Keeps unit) (separator : Int) (list word : Option Text) :
    ∀ token ∈ ((ofText list).splitAll unit separator).1.erase (givenText word), ∀ b ∈ token, b ≠ 0 :=
  fun token member => visible_of_mem_splitAll keeps (ofText list) token (List.mem_of_mem_erase member)

/-- A word is erased from a list that a byte separates, and the result is cut off where a long buffer ends. -/
theorem removeWord_eq (list word : Option Text) (separator : Int) :
    let split := (ofText list).splitAll .byte separator
    removeWord list word separator =
      ⟨([byteOf separator].intercalate (split.1.erase (givenText word))).take (longCapacity - 1), split.2⟩ := by
  have visible := visible_of_mem_erase byte_keeps separator list word
  have first : Cursor.ofCapacity longCapacity = ((Cursor.ofCapacity longCapacity).append []).2 := by
    rw [Cursor.append_nil]
  have taken := (Cursor.takes (Cursor.ofCapacity longCapacity) separator).feed visible first
  rw [List.nil_append] at taken
  have tokens := removeFirst_tokens .byte separator (Cursor.listSink separator) (Text.bytesOrEmpty word) (ofText list)
    (Cursor.ofCapacity longCapacity)
  unfold removeWord
  generalize removeFirst .byte separator (Cursor.listSink separator) (Text.bytesOrEmpty word) (ofText list)
    (Cursor.ofCapacity longCapacity) = removed at tokens
  obtain ⟨cursor, rest⟩ := removed
  obtain ⟨fed, array⟩ : cursor = _ ∧ rest.bytes = _ := tokens
  have held := fed.trans taken
  dsimp only
  rw [held, Cursor.append_ofCapacity, array]

/-- A word is erased from a list that a code point separates, and a builder finished that has the result. -/
theorem removeWordCodepoints_eq (list word : Option Text) (separator : Int) {limit : Nat} (positive : 1 ≤ limit) :
    let split := (ofText list).splitAll .codepoint separator
    ∃ builder told, removeWordCodepoints list word separator (.ofLimit limit) = (⟨builder.finish.1, split.2⟩, told) ∧
      Builder.Has limit ((codepointPiece separator).intercalate (split.1.erase (givenText word))) (builder, told) := by
  have visible := visible_of_mem_erase codepoint_keeps separator list word
  have first : Builder.Has limit [] (Builder.ofLimit limit, []) :=
    ⟨⟨0, Builder.holds_ofLimit positive⟩, fun _ => rfl, fun past => by simp at past; omega⟩
  have taken := (Builder.takes limit separator).feed visible first
  rw [List.nil_append] at taken
  have tokens := removeFirst_tokens .codepoint separator (Builder.listSink separator) (Text.bytesOrEmpty word)
    (ofText list) (Builder.ofLimit limit, [])
  unfold removeWordCodepoints
  generalize removeFirst .codepoint separator (Builder.listSink separator) (Text.bytesOrEmpty word) (ofText list)
    (Builder.ofLimit limit, []) = removed at tokens
  obtain ⟨⟨builder, told⟩, cursor⟩ := removed
  obtain ⟨fed, array⟩ : (builder, told) = _ ∧ cursor.bytes = _ := tokens
  refine ⟨builder, told, by rw [← array], ?_⟩
  rw [fed]
  exact taken

/-- What is left of a list comes out when it is within the limit; else nothing does, and that is told of once. -/
theorem removeWordCodepoints_limited (list word : Option Text) {c : Nat} (inside : c ≤ maxCodepoint) {limit : Nat}
    (positive : 1 ≤ limit) :
    let split := (ofText list).splitAll .codepoint c
    let kept := (encode c).intercalate (split.1.erase (givenText word))
    (kept.length ≤ limit - 1 → removeWordCodepoints list word c (.ofLimit limit) = (⟨kept, split.2⟩, [])) ∧
      (limit - 1 < kept.length → ∃ length,
        removeWordCodepoints list word c (.ofLimit limit) = (⟨[], split.2⟩, [Builder.overflow length limit])) := by
  intro split kept
  obtain ⟨builder, told, removed, has⟩ := removeWordCodepoints_eq list word c positive
  rw [Builder.codepointPiece_known inside] at has
  obtain ⟨whole, dropped⟩ := has.finish
  constructor
  · intro within
    obtain ⟨out, silent⟩ := whole within
    rw [removed, out, silent]
  · intro past
    obtain ⟨out, length, once⟩ := dropped past
    exact ⟨length, by rw [removed, out, once]⟩

/-- Removing a word erases the first token that is equal to it. Of a list that a byte or a code point separates,
what is left is its tokens without the first that is the word up to its first NUL, with one separator between
two of them; the array is left as splitting all of it does. By bytes what is left is cut off where a long buffer
ends. By code points it is dropped when it is past the limit, and that is told of once, to the context if there
is one. -/
theorem removeWord_erases (list word : Option Text) :
    (∀ b : UInt8,
      let split := (ofText list).splitAll .byte b.toNat
      removeWord list word b.toNat =
        ⟨([b].intercalate (split.1.erase (givenText word))).take (longCapacity - 1), split.2⟩) ∧
    ∀ c : Nat, c ≤ maxCodepoint →
      let split := (ofText list).splitAll .codepoint c
      let kept := (encode c).intercalate (split.1.erase (givenText word))
      (∀ limit, 1 ≤ limit →
        (kept.length ≤ limit - 1 → removeWordCodepoints list word c (.ofLimit limit) = (⟨kept, split.2⟩, [])) ∧
        (limit - 1 < kept.length → ∃ length,
          removeWordCodepoints list word c (.ofLimit limit) = (⟨[], split.2⟩, [Builder.overflow length limit]))) ∧
      ∀ context : Context, 1 ≤ context.stringLimit →
        (kept.length ≤ context.stringLimit - 1 → context.removeWord list word c = (⟨kept, split.2⟩, context)) ∧
        (context.stringLimit - 1 < kept.length → ∃ length, context.removeWord list word c =
          (⟨[], split.2⟩, context.report (Builder.overflow length context.stringLimit))) := by
  constructor
  · intro b
    have removed := removeWord_eq list word b.toNat
    rwa [byteOf_toNat] at removed
  · intro c inside split kept
    refine ⟨fun limit positive => removeWordCodepoints_limited list word inside positive, ?_⟩
    intro context positive
    obtain ⟨whole, dropped⟩ := removeWordCodepoints_limited list word inside positive
    constructor
    · intro within
      rw [Context.removeWord, whole within]
      rfl
    · intro past
      obtain ⟨length, removed⟩ := dropped past
      exact ⟨length, by rw [Context.removeWord, removed]; rfl⟩

/-- The theorem at a list that has the word twice, with a limit that what is left of it just fits in and with one
that it does not. -/
theorem removeWord_erases_first :
    let list : Option Text := some (.bytes [0x61, 0x2C, 0x62, 0x2C, 0x61])
    let word : Option Text := some (.bytes [0x61, 0, 0x62])
    let context : Context := ⟨none, 3, .unopened, .unopened, none, 0, []⟩
    removeWord list word (0x2C : UInt8).toNat = ⟨[0x62, 0x2C, 0x61], [0x61, 0, 0x62, 0, 0x61]⟩ ∧
      (0x2C ≤ maxCodepoint ∧ 1 ≤ 4 ∧ removeWordCodepoints list word (0x2C : Nat) (.ofLimit 4) =
        (⟨[0x62, 0x2C, 0x61], [0x61, 0, 0x62, 0, 0x61]⟩, [])) ∧
      (1 ≤ context.stringLimit ∧ ∃ length, context.removeWord list word (0x2C : Nat) =
        (⟨[], [0x61, 0, 0x62, 0, 0x61]⟩, context.report (Builder.overflow length 3))) := by
  intro list word context
  have bytes : (ofText list).splitAll .byte (0x2C : UInt8).toNat =
      ([[0x61], [0x62], [0x61]], [0x61, 0, 0x62, 0, 0x61]) := by
    rw [splitAll_next (show _ = (_, _) by cbv), splitAll_next (show _ = (_, _) by cbv),
      splitAll_next (show _ = (_, _) by cbv), splitAll_used]
  have codepoints : (ofText list).splitAll .codepoint (0x2C : Nat) =
      ([[0x61], [0x62], [0x61]], [0x61, 0, 0x62, 0, 0x61]) := by
    rw [← splitAll_byte (by decide)]
    exact bytes
  obtain ⟨byByte, byCodepoint⟩ := removeWord_erases list word
  obtain ⟨limited, reported⟩ := byCodepoint 0x2C (by decide)
  rw [codepoints] at limited reported
  refine ⟨?_, ⟨by decide, by decide, ?_⟩, by decide, ?_⟩
  · rw [byByte, bytes]
    rfl
  · exact (limited 4 (by decide)).1 (by decide)
  · exact (reported context (by decide)).2 (by decide)

end BoundedText
