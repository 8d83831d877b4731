import BoundedText.Proofs.Walking
import BoundedText.Tokens

/-!
# Splitting

Splitting by a separator cuts a text into tokens and the separators between them, and writes over the
first byte of each run of separators only (`splitAll_lossless`). A scan looks at a text step by step; a
step is a unit or a control span, and is the same when the text is cut off anywhere after it
(`step_take`). So what is true of a token inside the text is true of the token alone.
-/

namespace BoundedText

/-! ## Control spans -/

private theorem spanRest_take {state : SpanState} {rest : Bytes} {n : Nat} (enough : spanRest state rest ≤ n) :
    spanRest state (rest.take n) = spanRest state rest := by
  induction rest generalizing state n with
  | nil => simp
  | cons b rest ih =>
    by_cases stops : state = .outside ∨ b = 0
    · cases n <;> simp [spanRest, stops]
    · simp only [spanRest, stops, if_false] at enough ⊢
      obtain ⟨m, rfl⟩ : ∃ m, n = m + 1 := ⟨n - 1, by omega⟩
      simp only [List.take_succ_cons, spanRest, stops, if_false]
      rw [ih (by omega)]

theorem spanRest_le (state : SpanState) (rest : Bytes) : spanRest state rest ≤ textLength rest := by
  induction rest generalizing state with
  | nil => simp [spanRest]
  | cons b rest ih =>
    by_cases stops : state = .outside ∨ b = 0
    · simp [spanRest, stops]
    · have visible : b ≠ 0 := fun nul => stops (.inr nul)
      have tail := ih (state.next b.toNat)
      simp only [spanRest, stops, if_false, textLength, textOf] at tail ⊢
      simp [visible]
      omega

private theorem spanLength_take {rest : Bytes} {n : Nat} (enough : spanLength rest ≤ n) :
    spanLength (rest.take n) = spanLength rest := by
  cases rest with
  | nil => simp
  | cons b rest =>
    obtain ⟨m, rfl⟩ : ∃ m, n = m + 1 := ⟨n - 1, by simp only [spanLength] at enough; omega⟩
    simp only [spanLength] at enough
    simp only [List.take_succ_cons, spanLength]
    rw [spanRest_take (by omega)]

private theorem spanLength_le {b : UInt8} (visible : b ≠ 0) (rest : Bytes) :
    spanLength (b :: rest) ≤ textLength (b :: rest) := by
  have tail := spanRest_le (SpanState.outside.next b.toNat) rest
  simp only [spanLength, textLength, textOf] at tail ⊢
  simp [visible]
  omega

/-! ## Units -/

/-- A unit that keeps to the text, is the same when the text is cut off after it, and takes each ASCII
character by itself. -/
structure Keeps (unit : TextUnit) : Prop where
  ended : ∀ rest, unit.length rest = 0 ↔ textOf rest = []
  inside : ∀ rest, unit.length rest ≤ textLength rest
  length_take : ∀ rest n, unit.length rest ≤ n → unit.length (rest.take n) = unit.length rest
  value_take : ∀ rest n, 0 < unit.length rest → unit.length rest ≤ n → unit.value (rest.take n) = unit.value rest
  ascii : ∀ b rest, b ≠ 0 → b < 0x80 → unit.length (b :: rest) = 1 ∧ unit.value (b :: rest) = b.toNat
  ascii_of : ∀ rest, 0 < unit.length rest → unit.value rest < 0x80 →
    ∃ b tail, rest = b :: tail ∧ b ≠ 0 ∧ unit.length rest = 1 ∧ unit.value rest = b.toNat

theorem byte_keeps : Keeps .byte where
  ended rest := by
    cases rest with
    | nil => simp [TextUnit.byte, textOf]
    | cons b rest => by_cases nul : b = 0 <;> simp [TextUnit.byte, textOf, nul]
  inside rest := by
    cases rest with
    | nil => simp [TextUnit.byte]
    | cons b rest => by_cases nul : b = 0 <;> simp [TextUnit.byte, textLength, textOf, nul]
  length_take rest n enough := by
    cases rest with
    | nil => simp
    | cons b rest =>
      cases n with
      | zero => simpa [TextUnit.byte] using enough
      | succ n => simp [TextUnit.byte]
  value_take rest n positive enough := by
    cases n with
    | zero => omega
    | succ n => cases rest <;> simp [TextUnit.byte]
  ascii b rest nonzero low := by simp [TextUnit.byte, nonzero]
  ascii_of rest positive low := by
    cases rest with
    | nil => simp [TextUnit.byte] at positive
    | cons b rest =>
      have nonzero : b ≠ 0 := by rintro rfl; simp [TextUnit.byte] at positive
      exact ⟨b, rest, rfl, nonzero, by simp [TextUnit.byte, nonzero], by simp [TextUnit.byte]⟩

theorem codepoint_keeps : Keeps .codepoint where
  ended rest := by
    rw [← Utf8.decode_eq_none]
    simp only [TextUnit.codepoint, headLength]
    cases found : Utf8.decode rest with
    | none => simp
    | some d => simpa using (Utf8.decode_length found).1.ne'
  inside rest := by
    simp only [TextUnit.codepoint, headLength]
    cases found : Utf8.decode rest with
    | none => exact Nat.zero_le _
    | some d => exact le_textLength (Utf8.decode_length found).2 (Utf8.ne_zero_of_mem_take found)
  length_take rest n enough := by
    simp only [TextUnit.codepoint, headLength] at enough ⊢
    cases found : Utf8.decode rest with
    | none =>
      have cut : textOf (rest.take n) = [] := by
        rw [textOf, ← List.take_takeWhile]
        rw [show rest.takeWhile (· != 0) = [] from Utf8.decode_eq_none.1 found, List.take_nil]
      rw [Utf8.decode_eq_none.2 cut]
    | some d =>
      rw [found] at enough
      rw [Utf8.decode_take found enough]
  value_take rest n positive enough := by
    simp only [TextUnit.codepoint, headLength, headCodepoint] at positive enough ⊢
    cases found : Utf8.decode rest with
    | none => rw [found] at positive; cases positive
    | some d =>
      rw [found] at enough
      rw [Utf8.decode_take found enough]
  ascii b rest nonzero low := by
    have found : Utf8.decode (b :: rest) = some ⟨b.toNat, 1⟩ := by simp [Utf8.decode, nonzero, low]
    simp [TextUnit.codepoint, headLength, headCodepoint, found]
  ascii_of rest positive low := by
    simp only [TextUnit.codepoint, headLength, headCodepoint] at positive low ⊢
    cases found : Utf8.decode rest with
    | none => rw [found] at positive; cases positive
    | some d =>
      simp only [found] at low
      -- Only U+FFFD is read from bytes that do not spell it, and it is no ASCII character.
      have known : d.codepoint ≠ Utf8.replacement := by
        intro unknown
        simp [unknown, Utf8.replacement] at low
      obtain ⟨spelled, -, nonzero⟩ := Utf8.spelled_of_decode found known
      generalize front : rest.take d.length = bytes at spelled
      cases spelled with
      | one b short lead =>
        have one : d.length = 1 := by
          have size := congrArg List.length front
          rw [List.length_take, Nat.min_eq_left (Utf8.decode_length found).2] at size
          exact size
        rw [one] at front
        cases rest with
        | nil => simp at front
        | cons a tail =>
          obtain rfl : a = b := by simpa using front
          refine ⟨a, tail, rfl, ?_, one, lead.symm⟩
          rintro rfl
          exact nonzero lead.symm
      | _ => omega

/-! ## Steps of a scan -/

/-- The number of bytes that a scan passes at once: a control span, or a unit. -/
def scanStep (unit : TextUnit) (rest : Bytes) : Nat :=
  if Characters.isSpanStart (unit.value rest) then spanLength rest else unit.length rest

section scan
variable {unit : TextUnit} {separator : Int} {rest : Bytes}

theorem isSpanStart_lt {c : Nat} (opens : Characters.isSpanStart c = true) : c < 0x80 := by
  simp only [Characters.isSpanStart, Characters.tagStart, Characters.escape, Bool.or_eq_true, beq_iff_eq] at opens
  omega

private theorem length_le_scanStep (keeps : Keeps unit) (more : 0 < unit.length rest) :
    unit.length rest ≤ scanStep unit rest := by
  unfold scanStep
  split
  · rename_i opens
    obtain ⟨b, tail, -, -, one, -⟩ := keeps.ascii_of rest more (isSpanStart_lt opens)
    have := spanLength_pos rest
    omega
  · exact Nat.le_refl _

private theorem scanStep_le (keeps : Keeps unit) (more : 0 < unit.length rest) :
    scanStep unit rest ≤ textLength rest := by
  unfold scanStep
  split
  · rename_i opens
    obtain ⟨b, tail, rfl, visible, -, -⟩ := keeps.ascii_of rest more (isSpanStart_lt opens)
    exact spanLength_le visible tail
  · exact keeps.inside rest

/-- A step is the same when the text is cut off anywhere after it. -/
theorem step_take (keeps : Keeps unit) (more : 0 < unit.length rest) {n : Nat} (enough : scanStep unit rest ≤ n) :
    unit.length (rest.take n) = unit.length rest ∧ unit.value (rest.take n) = unit.value rest ∧
      scanStep unit (rest.take n) = scanStep unit rest := by
  have within := length_le_scanStep keeps more
  have length := keeps.length_take rest n (by omega)
  have value := keeps.value_take rest n more (by omega)
  refine ⟨length, value, ?_⟩
  simp only [scanStep, length, value] at enough ⊢
  split
  · rename_i opens
    rw [if_pos opens] at enough
    exact spanLength_take enough
  · rfl

theorem separatorAt_ended (ended : unit.length rest = 0) : separatorAt unit separator rest = none := by
  rw [separatorAt, dif_pos ended]

theorem separatorAt_here (more : 0 < unit.length rest) (here : unit.value rest = separator) :
    separatorAt unit separator rest = some 0 := by
  rw [separatorAt, dif_neg (by omega), if_pos here]

theorem separatorAt_step (more : 0 < unit.length rest) (other : unit.value rest ≠ separator) :
    separatorAt unit separator rest =
      (separatorAt unit separator (rest.drop (scanStep unit rest))).map (scanStep unit rest + ·) := by
  rw [separatorAt, dif_neg (by omega), if_neg other]
  rfl

/-- Induction along a scan: the text has ended, a separator comes first, or a step does. -/
theorem scan_induction (unit : TextUnit) (separator : Int) {motive : Bytes → Prop}
    (ended : ∀ rest, unit.length rest = 0 → motive rest)
    (here : ∀ rest, 0 < unit.length rest → unit.value rest = separator → motive rest)
    (step : ∀ rest, 0 < unit.length rest → unit.value rest ≠ separator →
      motive (rest.drop (scanStep unit rest)) → motive rest) :
    ∀ rest, motive rest := by
  intro rest
  induction rest using separatorAt.induct unit separator with
  | case1 rest none => exact ended rest none
  | case2 rest some same => exact here rest (Nat.pos_of_ne_zero some) same
  | case3 rest some other _ ih => exact step rest (Nat.pos_of_ne_zero some) other ih

/-- What a scan finds: the separator, inside the text, and no other before it. -/
theorem separatorAt_found (keeps : Keeps unit) {place : Nat} (found : separatorAt unit separator rest = some place) :
    unit.value (rest.drop place) = separator ∧ place + unit.length (rest.drop place) ≤ textLength rest ∧
      separatorAt unit separator (rest.take place) = none := by
  induction rest using scan_induction unit separator generalizing place with
  | ended rest none =>
    rw [separatorAt_ended none] at found
    cases found
  | here rest more same =>
    rw [separatorAt_here more same] at found
    cases found
    refine ⟨same, by simpa using keeps.inside rest, ?_⟩
    apply separatorAt_ended
    rw [keeps.ended]
    rfl
  | step rest more other ih =>
    rw [separatorAt_step more other] at found
    obtain ⟨inner, deeper, rfl⟩ := Option.map_eq_some_iff.1 found
    have within := scanStep_le keeps more
    obtain ⟨value, inside, before⟩ := ih deeper
    rw [textLength_drop within] at inside
    rw [List.drop_drop] at value inside
    refine ⟨value, by omega, ?_⟩
    obtain ⟨length, same, cut⟩ := step_take keeps more (Nat.le_add_right (scanStep unit rest) inner)
    rw [separatorAt_step (by rwa [length]) (by rwa [same]), cut, List.drop_take, Nat.add_sub_cancel_left, before]
    rfl

/-- When a scan finds nothing, nor does a scan of the text alone. -/
theorem separatorAt_textOf (keeps : Keeps unit) (missing : separatorAt unit separator rest = none) :
    separatorAt unit separator (textOf rest) = none := by
  induction rest using scan_induction unit separator with
  | ended rest none =>
    rw [(keeps.ended rest).1 none]
    exact separatorAt_ended ((keeps.ended []).2 rfl)
  | here rest more same =>
    rw [separatorAt_here more same] at missing
    cases missing
  | step rest more other ih =>
    rw [separatorAt_step more other, Option.map_eq_none_iff] at missing
    have within := scanStep_le keeps more
    have before := ih missing
    rw [textOf_eq_take, textLength_drop within] at before
    rw [textOf_eq_take]
    obtain ⟨length, same, cut⟩ := step_take keeps more within
    rw [separatorAt_step (by rwa [length]) (by rwa [same]), cut, List.drop_take, before]
    rfl

end scan

/-! ## Separators and their runs -/

/-- A separator of a unit, and the bytes it is written with. U+FFFD is not one, since it is read from
other bytes too. -/
inductive Marks : TextUnit → Int → Bytes → Prop where
  | byte (b : UInt8) (nonzero : b ≠ 0) : Marks .byte b.toNat [b]
  | codepoint (c : Nat) (scalar : Utf8.IsScalar c) (nonzero : c ≠ 0) (known : c ≠ Utf8.replacement) :
    Marks .codepoint c (Utf8.encode c)

/-- So many separators in a row. -/
def runOf (mark : Bytes) (count : Nat) : Bytes := (List.replicate count mark).flatten

section separators
variable {unit : TextUnit} {separator : Int} {mark rest : Bytes}

theorem Marks.keeps (marks : Marks unit separator mark) : Keeps unit := by
  cases marks with
  | byte b nonzero => exact byte_keeps
  | codepoint c scalar nonzero known => exact codepoint_keeps

/-- A unit with the value of the separator is written as the separator is. -/
theorem Marks.take_eq (marks : Marks unit separator mark) (more : 0 < unit.length rest)
    (here : unit.value rest = separator) : rest.take (unit.length rest) = mark := by
  cases marks with
  | byte b nonzero =>
    cases rest with
    | nil => simp [TextUnit.byte] at more
    | cons a tail =>
      have same : a = b := by
        apply UInt8.toNat.inj
        simpa [TextUnit.byte] using here
      subst same
      simp [TextUnit.byte, nonzero]
  | codepoint c scalar nonzero known =>
    simp only [TextUnit.codepoint, headLength, headCodepoint] at more here ⊢
    cases found : Utf8.decode rest with
    | none =>
      rw [found] at more
      cases more
    | some d =>
      rw [found] at here
      have same : d.codepoint = c := by simpa using here
      subst same
      exact (take_eq_encode found known).2

/-- A space is a unit by itself. -/
theorem Keeps.space (keeps : Keeps unit) (space : rest.head? = some 0x20) :
    0 < unit.length rest ∧ unit.value rest = Characters.space := by
  cases rest with
  | nil => cases space
  | cons b tail =>
    obtain rfl : b = 0x20 := by simpa using space
    obtain ⟨one, value⟩ := keeps.ascii 0x20 tail (by decide) (by decide)
    exact ⟨by omega, value⟩

private theorem runOf_succ (mark : Bytes) (count : Nat) : runOf mark (count + 1) = mark ++ runOf mark count := by
  rw [runOf, List.replicate_succ, List.flatten_cons, runOf]

/-- The spaces that belong to a space before them, and what comes after them. -/
theorem spaceRun_eq (marks : Marks unit Characters.space mark) (rest : Bytes) :
    spaceRun unit rest ≤ textLength rest ∧ (rest.drop (spaceRun unit rest)).head? ≠ some 0x20 ∧
      ∃ count, rest.take (spaceRun unit rest) = runOf mark count := by
  have keeps := marks.keeps
  fun_induction spaceRun unit rest with
  | case1 rest ended =>
    refine ⟨Nat.zero_le _, ?_, 0, rfl⟩
    intro space
    exact (keeps.space space).1.ne' ended
  | case2 rest some here ih =>
    have more := Nat.pos_of_ne_zero some
    obtain ⟨inside, after, count, run⟩ := ih
    have within := keeps.inside rest
    rw [textLength_drop within] at inside
    refine ⟨by omega, by rwa [List.drop_drop] at after, count + 1, ?_⟩
    rw [List.take_add, run, runOf_succ]
    congr 1
    apply marks.take_eq more
    exact_mod_cast here
  | case3 rest some other =>
    refine ⟨Nat.zero_le _, ?_, 0, rfl⟩
    intro space
    exact other (keeps.space space).2

/-- The cut that ends a token: the token and the separators after it, up to the next token. -/
theorem nextTokenAt_found (marks : Marks unit separator mark) {place : Nat}
    (found : separatorAt unit separator rest = some place) :
    ∃ next count, nextTokenAt unit separator rest = some next ∧ place < next ∧ next ≤ textLength rest ∧
      rest.take next = rest.take place ++ runOf mark count ∧ 1 ≤ count ∧
      (separator ≠ Characters.space → count = 1) ∧
      (separator = Characters.space → (rest.drop next).head? ≠ some 0x20) := by
  have more := separatorAt_unit found
  obtain ⟨here, inside, -⟩ := separatorAt_found marks.keeps found
  have first := marks.take_eq more here
  simp only [nextTokenAt, found]
  by_cases space : separator = Characters.space
  · subst space
    have past := spaceRun_eq marks (rest.drop (place + unit.length (rest.drop place)))
    rw [textLength_drop inside] at past
    obtain ⟨within, after, count, run⟩ := past
    refine ⟨_, count + 1, rfl, by omega, ?_, ?_, by omega, fun other => absurd rfl other, ?_⟩
    · simp only [separatorRun, if_true]
      omega
    · simp only [separatorRun, if_true]
      rw [Nat.add_assoc, List.take_add, List.take_add, first, List.drop_drop, run, runOf_succ]
    · intro _
      simpa only [separatorRun, if_true, List.drop_drop] using after
  · refine ⟨_, 1, rfl, by omega, ?_, ?_, by omega, fun _ => rfl, fun same => absurd same space⟩
    · simp only [separatorRun, if_neg space]
      omega
    · simp only [separatorRun, if_neg space, Nat.add_zero]
      rw [List.take_add, first, runOf_succ, runOf, List.replicate_zero, List.flatten_nil, List.append_nil]

end separators

/-! ## One split -/

section split
variable {unit : TextUnit} {separator : Int} {bytes : Bytes} {start : Nat}

/-- The last token is all that is left of the text. -/
theorem split_last (missing : separatorAt unit separator (bytes.drop start) = none) :
    TokenCursor.split unit separator ⟨bytes, some start⟩ = (some (textOf (bytes.drop start)), ⟨bytes, none⟩) := by
  simp only [TokenCursor.split, findSeparator, missing, Option.map_none, slice_textEnd]

/-- A token before a separator is cut off by a NUL over the separator's first byte. -/
theorem split_cut {place : Nat} (found : separatorAt unit separator (bytes.drop start) = some place) :
    TokenCursor.split unit separator ⟨bytes, some start⟩ =
      (some ((bytes.drop start).take place),
        ⟨bytes.take (start + place) ++ 0 :: bytes.drop (start + place + 1),
          findNextToken unit separator bytes start⟩) := by
  have more := separatorAt_unit found
  have within := unit.length_le ((bytes.drop start).drop place)
  rw [List.drop_drop] at more within
  rw [List.length_drop] at within
  have size : (bytes.take (start + place)).length = start + place := List.length_take_of_le (by omega)
  have cut : overwrite bytes (start + place) [0] = bytes.take (start + place) ++ 0 :: bytes.drop (start + place + 1) := by
    rw [overwrite_eq bytes _ _ (by simp only [List.length_singleton]; omega), List.append_assoc]
    rfl
  -- The separators after the first are looked for in the array that has the NUL already.
  have same : ∀ n, start + place < n →
      (bytes.take (start + place) ++ 0 :: bytes.drop (start + place + 1)).drop n = bytes.drop n := by
    intro n past
    obtain ⟨k, rfl⟩ : ∃ k, n = start + place + (k + 1) := ⟨n - (start + place) - 1, by omega⟩
    rw [List.drop_append, size, List.drop_eq_nil_of_le (by omega), Nat.add_sub_cancel_left, List.drop_succ_cons,
      List.drop_drop, List.nil_append]
    congr 1
    omega
  simp only [TokenCursor.split, findSeparator, findNextToken, nextTokenAt, found, Option.map_some, cut]
  refine Prod.ext ?_ ?_
  · simp only [slice]
    rw [List.take_append_of_le_length (by omega), List.take_of_length_le (by omega), List.drop_take,
      Nat.add_sub_cancel_left]
  · simp only [skipSeparators, List.drop_drop]
    rw [same _ (by omega)]
    simp only [Nat.add_assoc]

/-- Where a split leaves the cursor is where the next token begins. -/
theorem split_pos (unit : TextUnit) (separator : Int) (cursor : TokenCursor) {start : Nat} (used : cursor.pos = some start) :
    (cursor.split unit separator).2.pos = findNextToken unit separator cursor.bytes start := by
  obtain ⟨bytes, pos⟩ := cursor
  cases used
  cases scanned : separatorAt unit separator (bytes.drop start) with
  | none =>
    rw [split_last scanned]
    simp only [findNextToken, nextTokenAt, scanned, Option.map_none]
  | some place => rw [split_cut scanned]

end split

/-! ## All splits -/

/-- A token that follows a separator, and how often the separator stands before it. -/
structure Piece where
  count : Nat
  token : Bytes

/-- A text put together from its first token and the pieces after it. -/
def joined (mark first : Bytes) (pieces : List Piece) : Bytes :=
  first ++ pieces.flatMap fun piece => runOf mark piece.count ++ piece.token

/-- The same bytes with a NUL over the first byte of each run of separators. -/
def cutUp (mark first : Bytes) (pieces : List Piece) : Bytes :=
  first ++ pieces.flatMap fun piece => (runOf mark piece.count).set 0 0 ++ piece.token

/-- The tokens and separators that a text consists of. -/
structure Parts (unit : TextUnit) (separator : Int) (mark text first : Bytes) (pieces : List Piece) : Prop where
  lossless : text = joined mark first pieces
  separated : ∀ piece ∈ pieces, 1 ≤ piece.count
  single : separator ≠ Characters.space → ∀ piece ∈ pieces, piece.count = 1
  collapsed : separator = Characters.space → ∀ piece ∈ pieces, piece.token.head? ≠ some 0x20
  whole : ∀ token ∈ first :: pieces.map Piece.token, findSeparator unit separator token 0 = none

section all
variable {unit : TextUnit} {separator : Int} {mark : Bytes}

theorem splitAll_used (unit : TextUnit) (separator : Int) (bytes : Bytes) :
    TokenCursor.splitAll unit separator ⟨bytes, none⟩ = ([], bytes) := by
  rw [TokenCursor.splitAll]
  rfl

theorem splitAll_next {cursor next : TokenCursor} {token : Bytes}
    (found : cursor.split unit separator = (some token, next)) :
    cursor.splitAll unit separator =
      (token :: (next.splitAll unit separator).1, (next.splitAll unit separator).2) := by
  rw [TokenCursor.splitAll]
  split
  · rename_i none
    rw [found] at none
    cases none
  · rename_i some same
    rw [found] at same
    cases same
    rw [found]

theorem tokensFrom_last {rest : Bytes} (ends : nextTokenAt unit separator rest = none) :
    tokensFrom unit separator rest = 1 := by
  rw [tokensFrom]
  split
  · rfl
  · rename_i next found
    rw [ends] at found
    cases found

theorem tokensFrom_next {rest : Bytes} {next : Nat} (follows : nextTokenAt unit separator rest = some next) :
    tokensFrom unit separator rest = 1 + tokensFrom unit separator (rest.drop next) := by
  rw [tokensFrom]
  split
  · rename_i none
    rw [follows] at none
    cases none
  · rename_i other found
    rw [follows] at found
    cases found
    rfl

/-- The array after a cut: up to the next token it holds the token and its separators with the NUL, and
from there on what it held before. -/
theorem array_cut {bytes : Bytes} {start place next count : Nat} (inside : start + next ≤ bytes.length)
    (past : place < next)
    (taken : (bytes.drop start).take next = (bytes.drop start).take place ++ runOf mark count) :
    let array := bytes.take (start + place) ++ 0 :: bytes.drop (start + place + 1)
    array.take (start + next) = bytes.take start ++ ((bytes.drop start).take place ++ (runOf mark count).set 0 0) ∧
      array.drop (start + next) = (bytes.drop start).drop next := by
  intro array
  have size := congrArg List.length taken
  rw [List.length_append, List.length_take, List.length_take, List.length_drop] at size
  have parts : array = bytes.take start ++ ((bytes.drop start).take place ++ (runOf mark count).set 0 0) ++
      (bytes.drop start).drop next := by
    cases run : runOf mark count with
    | nil =>
      rw [run, List.length_nil] at size
      omega
    | cons b tail =>
      have rest : bytes.drop (start + place + 1) = tail ++ (bytes.drop start).drop next := by
        rw [Nat.add_assoc, ← List.drop_drop]
        conv_lhs => rw [← List.take_append_drop next (bytes.drop start), taken, run, List.append_assoc]
        rw [List.drop_append, List.length_take, List.length_drop, Nat.min_eq_left (by omega),
          List.drop_eq_nil_of_le (by simp), Nat.add_sub_cancel_left]
        rfl
      simp only [array]
      rw [rest, List.take_add, List.set_cons_zero]
      simp only [List.append_assoc, List.cons_append]
  have front : (bytes.take start ++ ((bytes.drop start).take place ++ (runOf mark count).set 0 0)).length =
      start + next := by
    simp only [List.length_append, List.length_take, List.length_drop, List.length_set]
    omega
  rw [parts]
  exact ⟨List.take_left' front, List.drop_left' front⟩

private theorem findSeparator_zero {token : Bytes} (missing : separatorAt unit separator token = none) :
    findSeparator unit separator token 0 = none := by
  rw [findSeparator, List.drop_zero, missing]
  rfl

/-- A text in which a scan finds no separator is one token. -/
theorem parts_last (keeps : Keeps unit) {rest : Bytes} (missing : separatorAt unit separator rest = none) :
    Parts unit separator mark (textOf rest) (textOf rest) [] where
  lossless := (List.append_nil _).symm
  separated := by simp
  single := by simp
  collapsed := by simp
  whole := by
    intro token member
    obtain rfl : token = textOf rest := by simpa using member
    exact findSeparator_zero (separatorAt_textOf keeps missing)

/-- A token and a run of separators, before the parts of the text that follows them. -/
theorem Parts.cons {text front first : Bytes} {pieces : List Piece} {count : Nat}
    (parts : Parts unit separator mark text first pieces) (missing : separatorAt unit separator front = none)
    (positive : 1 ≤ count) (one : separator ≠ Characters.space → count = 1)
    (past : separator = Characters.space → text.head? ≠ some 0x20) :
    Parts unit separator mark (front ++ (runOf mark count ++ text)) front (⟨count, first⟩ :: pieces) where
  lossless := by simp only [joined, parts.lossless, List.flatMap_cons, List.append_assoc]
  separated := by simpa using ⟨positive, parts.separated⟩
  single other := by simpa using ⟨one other, parts.single other⟩
  collapsed space := by
    have here : first.head? ≠ some 0x20 := by
      intro begins
      apply past space
      rw [parts.lossless, joined, List.head?_append, begins]
      rfl
    simpa using ⟨here, parts.collapsed space⟩
  whole := by
    intro token member
    rw [List.map_cons, List.mem_cons] at member
    rcases member with rfl | later
    · exact findSeparator_zero missing
    · exact parts.whole token later

/-- All splits from an offset on. -/
theorem splitAll_from (marks : Marks unit separator mark) (bytes : Bytes) (start : Nat) :
    ∃ first pieces, Parts unit separator mark (textOf (bytes.drop start)) first pieces ∧
      TokenCursor.splitAll unit separator ⟨bytes, some start⟩ =
        (first :: pieces.map Piece.token,
          bytes.take start ++ cutUp mark first pieces ++ bytes.drop (start + textLength (bytes.drop start))) ∧
      tokensFrom unit separator (bytes.drop start) = pieces.length + 1 := by
  induction left : bytes.length - start using Nat.strong_induction_on generalizing bytes start with
  | _ left ih =>
  cases scanned : separatorAt unit separator (bytes.drop start) with
  | none =>
    refine ⟨textOf (bytes.drop start), [], parts_last marks.keeps scanned, ?_, ?_⟩
    · rw [splitAll_next (split_last scanned), splitAll_used]
      simp only [List.map_nil, cutUp, List.flatMap_nil, List.append_nil]
      rw [textOf_eq_take, ← List.drop_drop, List.append_assoc, List.take_append_drop, List.take_append_drop]
    · have ends : nextTokenAt unit separator (bytes.drop start) = none := by simp only [nextTokenAt, scanned]
      rw [tokensFrom_last ends, List.length_nil]
  | some place =>
    obtain ⟨next, count, follows, past, inside, taken, positive, one, after⟩ := nextTokenAt_found marks scanned
    obtain ⟨-, -, before⟩ := separatorAt_found marks.keeps scanned
    have within := textLength_le (bytes.drop start)
    rw [List.length_drop] at within
    have split := split_cut scanned
    rw [findNextToken, follows, Option.map_some] at split
    obtain ⟨front, rest⟩ := array_cut (by omega) past taken
    generalize bytes.take (start + place) ++ 0 :: bytes.drop (start + place + 1) = array at front rest split
    have shorter := congrArg List.length rest
    simp only [List.length_drop] at shorter
    -- The NUL lies before the next token, so the splits that follow see the array as it was.
    obtain ⟨first, pieces, parts, all, tokens⟩ := ih _ (by omega) array (start + next) rfl
    rw [rest] at parts all tokens
    refine ⟨(bytes.drop start).take place, ⟨count, first⟩ :: pieces, ?_, ?_, ?_⟩
    · rw [textOf_drop inside, taken, List.append_assoc]
      apply parts.cons before positive one
      intro space begins
      rw [textOf, List.head?_takeWhile, Option.filter_eq_some_iff] at begins
      exact after space begins.1
    · have beyond : array.drop (start + next + textLength ((bytes.drop start).drop next)) =
          bytes.drop (start + textLength (bytes.drop start)) := by
        rw [← List.drop_drop, rest, textLength_drop inside, List.drop_drop, List.drop_drop]
        congr 1
        omega
      rw [splitAll_next split, all, front, beyond]
      simp only [List.map_cons, cutUp, List.flatMap_cons, List.append_assoc]
    · rw [tokensFrom_next follows, tokens, List.length_cons]
      omega

/-- Splitting is lossless and destructive only at separators. The tokens of a text, with the separators
between them, are the text; no token holds a separator that a scan would find. There are as many as are
counted, each call leaves the cursor where the next token was found to begin, and the array ends with a
NUL over the first byte of each run of separators and is otherwise what it was. -/
theorem splitAll_lossless (marks : Marks unit separator mark) (text : Text) :
    (∃ first pieces, Parts unit separator mark (textOf text.toBytes) first pieces ∧
      (TokenCursor.ofText (some text)).splitAll unit separator =
        (first :: pieces.map Piece.token, cutUp mark first pieces ++ text.toBytes.drop (textLength text.toBytes)) ∧
      (textOf text.toBytes ≠ [] →
        countTokens unit separator text.toBytes = (first :: pieces.map Piece.token).length)) ∧
    ∀ (cursor : TokenCursor) (start : Nat), cursor.pos = some start →
      (cursor.split unit separator).2.pos = findNextToken unit separator cursor.bytes start := by
  refine ⟨?_, fun cursor start used => split_pos unit separator cursor used⟩
  obtain ⟨first, pieces, parts, all, tokens⟩ := splitAll_from marks text.toBytes 0
  rw [List.drop_zero] at parts all tokens
  refine ⟨first, pieces, parts, ?_, ?_⟩
  · rw [List.take_zero, List.nil_append, Nat.zero_add] at all
    exact all
  · intro filled
    have some : textLength text.toBytes ≠ 0 := fun none => filled (List.eq_nil_of_length_eq_zero none)
    rw [countTokens, if_neg some, tokens, List.length_cons, List.length_map]

end all

/-- The theorem at a run of spaces after a span that hides one, and at a separator of two bytes that
comes first, twice in a row and inside a span without an end. -/
theorem splitAll_lossless_samples :
    (Marks .byte 0x20 [0x20] ∧ ∃ first pieces,
      Parts .byte 0x20 [0x20] [0x61, 0x02, 0x20, 0x03, 0x20, 0x20, 0x62, 0x20] first pieces ∧
      first :: pieces.map Piece.token = [[0x61, 0x02, 0x20, 0x03], [0x62], []] ∧
      cutUp [0x20] first pieces = [0x61, 0x02, 0x20, 0x03, 0, 0x20, 0x62, 0]) ∧
    (Marks .codepoint 0xE9 [0xC3, 0xA9] ∧ ∃ first pieces,
      Parts .codepoint 0xE9 [0xC3, 0xA9] [0xC3, 0xA9, 0xC3, 0xA9, 0x62, 0x1B, 0xC3, 0xA9] first pieces ∧
      first :: pieces.map Piece.token = [[], [], [0x62, 0x1B, 0xC3, 0xA9]] ∧
      cutUp [0xC3, 0xA9] first pieces = [0, 0xA9, 0, 0xA9, 0x62, 0x1B, 0xC3, 0xA9]) := by
  have space : Marks .byte 0x20 [0x20] := .byte 0x20 (by decide)
  have accent : Marks .codepoint 0xE9 [0xC3, 0xA9] := .codepoint 0xE9 (by decide) (by decide) (by decide)
  refine ⟨⟨space, ?_⟩, accent, ?_⟩
  · obtain ⟨⟨first, pieces, parts, all, -⟩, -⟩ :=
      splitAll_lossless space (.bytes [0x61, 0x02, 0x20, 0x03, 0x20, 0x20, 0x62, 0x20, 0, 0x20])
    have run : TokenCursor.splitAll .byte 0x20 ⟨[0x61, 0x02, 0x20, 0x03, 0x20, 0x20, 0x62, 0x20, 0, 0x20], some 0⟩ =
        ([[0x61, 0x02, 0x20, 0x03], [0x62], []], [0x61, 0x02, 0x20, 0x03, 0, 0x20, 0x62, 0, 0, 0x20]) := by
      rw [splitAll_next (show _ = (_, _) by cbv), splitAll_next (show _ = (_, _) by cbv),
        splitAll_next (show _ = (_, _) by cbv), splitAll_used]
    obtain ⟨tokens, array⟩ := Prod.mk.inj (all.symm.trans run)
    refine ⟨first, pieces, parts, tokens, ?_⟩
    have ended : cutUp [0x20] first pieces ++ [0, 0x20] = [0x61, 0x02, 0x20, 0x03, 0, 0x20, 0x62, 0] ++ [0, 0x20] := array
    exact List.append_cancel_right ended
  · obtain ⟨⟨first, pieces, parts, all, -⟩, -⟩ :=
      splitAll_lossless accent (.bytes [0xC3, 0xA9, 0xC3, 0xA9, 0x62, 0x1B, 0xC3, 0xA9])
    have run : TokenCursor.splitAll .codepoint 0xE9 ⟨[0xC3, 0xA9, 0xC3, 0xA9, 0x62, 0x1B, 0xC3, 0xA9], some 0⟩ =
        ([[], [], [0x62, 0x1B, 0xC3, 0xA9]], [0, 0xA9, 0, 0xA9, 0x62, 0x1B, 0xC3, 0xA9]) := by
      rw [splitAll_next (show _ = (_, _) by cbv), splitAll_next (show _ = (_, _) by cbv),
        splitAll_next (show _ = (_, _) by cbv), splitAll_used]
    obtain ⟨tokens, array⟩ := Prod.mk.inj (all.symm.trans run)
    refine ⟨first, pieces, parts, tokens, ?_⟩
    have ended : cutUp [0xC3, 0xA9] first pieces ++ [] = [0, 0xA9, 0, 0xA9, 0x62, 0x1B, 0xC3, 0xA9] ++ [] := array
    exact List.append_cancel_right ended

end BoundedText
