import BoundedText.Margin
import BoundedText.Proofs.QuotedNames

/-!
# Name tiling

Reading a name of a list passes the spaces before it, the quote that opens it, its bytes and the quote that closes
it, as far as they are there (`PassedName`). That is at least one byte as long as there are any, so that reading
name by name comes to the end of the text, and the bytes passed are the text from where reading began; no byte is
lost but spaces and quotes, and what a long buffer does not hold (`names_lose_nothing`).
-/

namespace BoundedText

/-! ## One name -/

/-- What reading a name passes of a text, and what comes after it. -/
structure PassedName (text spaces opening name closing later : Bytes) : Prop where
  parts : text = spaces ++ (opening ++ (name ++ (closing ++ later)))
  blank : ∀ b ∈ spaces, b = 0x20
  begins : ∀ b ∈ (opening ++ (name ++ closing)).head?, b ≠ 0x20
  opens : ∀ b ∈ opening, b = 0x22
  unquoted : ∀ b ∈ name, b ≠ 0x22
  closes : ∀ b ∈ closing, b = 0x22
  moves : text ≠ [] → spaces ++ (opening ++ (name ++ closing)) ≠ []

private theorem unquoted_nameAt {inQuotes : Bool} {rest : Bytes} : ∀ b ∈ nameAt inQuotes rest, b ≠ 0x22 := by
  intro b member
  have passes := List.mem_takeWhile_imp member
  simp only [Bool.and_eq_true, bne_iff_ne] at passes
  exact passes.1

/-- A name without an opening quote ends at a space or a quote. -/
theorem passed_plain {spaces rest : Bytes} (blank : ∀ b ∈ spaces, b = 0x20) (ended : ∀ b ∈ rest.head?, b ≠ 0x20)
    (plain : rest.head? ≠ some 0x22) :
    PassedName (spaces ++ rest) spaces [] (nameAt false rest) [] (rest.drop (nameAt false rest).length) := by
  refine ⟨?_, blank, ?_, by simp, unquoted_nameAt, by simp, ?_⟩
  · rw [List.nil_append, List.nil_append, nameAt, drop_length_takeWhile, List.takeWhile_append_dropWhile]
  · intro b first
    rw [List.nil_append, List.append_nil] at first
    have passes := List.mem_takeWhile_imp (List.mem_of_mem_head? first)
    simp only [Bool.false_or, Bool.and_eq_true, bne_iff_ne] at passes
    exact passes.2
  · intro more
    cases rest with
    | nil => simpa [nameAt] using more
    | cons b rest =>
      have unquoted : b ≠ 0x22 := by simpa using plain
      have some : nameAt false (b :: rest) = b :: nameAt false rest :=
        List.takeWhile_cons_of_pos (by simpa using ⟨unquoted, ended b rfl⟩)
      simp [some]

/-- A name in quotes ends at the next quote, or at the end of the text. -/
theorem passed_quoted {spaces : Bytes} (blank : ∀ b ∈ spaces, b = 0x20) (rest : Bytes) :
    let ended := rest.drop (nameAt true rest).length
    PassedName (spaces ++ 0x22 :: rest) spaces [0x22] (nameAt true rest) (ended.take 1) (ended.drop 1) := by
  intro ended
  have after : ended = rest.dropWhile (fun b => b != 0x22 && (true || b != 0x20)) := drop_length_takeWhile ..
  refine ⟨?_, blank, by simp, by simp, unquoted_nameAt, ?_, by simp⟩
  · rw [List.take_append_drop, after, nameAt, List.takeWhile_append_dropWhile, List.singleton_append]
  · intro b member
    have stops := List.head?_dropWhile_not (fun b => b != 0x22 && (true || b != 0x20)) rest
    rw [← after] at stops
    cases shape : ended with
    | nil => simp [shape] at member
    | cons c later =>
      obtain rfl : b = c := by simpa [shape] using member
      simpa [shape] using stops

/-- Reading a name passes it, and keeps as much of it as a long buffer holds. -/
theorem nextName_passed (list : Bytes) (start : Nat) :
    ∃ spaces opening name closing later, PassedName ((textOf list).drop start) spaces opening name closing later ∧
      nextName list start =
        ⟨name.take (longCapacity - 1), start + (spaces ++ (opening ++ (name ++ closing))).length⟩ := by
  let rest := (textOf list).drop start
  let spaces := rest.takeWhile (· == 0x20)
  have blank : ∀ b ∈ spaces, b = 0x20 := by
    intro b member
    simpa using List.mem_takeWhile_imp member
  have after : rest.drop spaces.length = rest.dropWhile (· == 0x20) := drop_length_takeWhile ..
  have split : spaces ++ rest.drop spaces.length = rest := by rw [after, List.takeWhile_append_dropWhile]
  have kept : ∀ name : Bytes, longText [name] = name.take (longCapacity - 1) := by
    intro name
    rw [longText_eq, List.flatten_singleton]
  by_cases quoted : (rest.drop spaces.length).head? = some 0x22
  · obtain ⟨tail, shape⟩ : ∃ tail, rest.drop spaces.length = 0x22 :: tail := List.head?_eq_some_iff.1 quoted
    have passed := passed_quoted blank tail
    rw [← shape, split] at passed
    refine ⟨_, _, _, _, _, passed, ?_⟩
    have closing : ((tail.drop (nameAt true tail).length).take 1).length =
        if (nameAt true tail).length < tail.length then 1 else 0 := by
      rw [List.length_take, List.length_drop]
      split <;> omega
    simp only [rest, spaces] at shape
    simp only [nextName, rest, spaces, shape, kept, List.head?_cons, beq_self_eq_true, if_true, List.drop_succ_cons,
      List.drop_zero, Bool.true_and, decide_eq_true_eq, List.length_append, List.length_singleton, closing,
      Nat.add_assoc]
  · have ended : ∀ b ∈ (rest.drop spaces.length).head?, b ≠ 0x20 := by
      intro b first
      have stops := List.head?_dropWhile_not (· == 0x20) rest
      rw [← after, Option.mem_def.1 first] at stops
      simpa using stops
    have passed := passed_plain blank ended quoted
    rw [split] at passed
    refine ⟨_, _, _, _, _, passed, ?_⟩
    have opens : ((rest.drop spaces.length).head? == some 0x22) = false := beq_eq_false_iff_ne.2 quoted
    simp only [nextName, rest, spaces] at opens ⊢
    simp only [opens, kept, Bool.false_eq_true, if_false, Bool.false_and, List.drop_zero, List.length_append,
      List.length_nil, Nat.add_zero, Nat.zero_add, Nat.add_assoc]

/-- What is passed is a piece of the text that is not empty before the end. -/
theorem nextName_slice {list : Bytes} {start : Nat} (inside : start ≤ textLength list) :
    ∃ spaces opening name closing later, PassedName ((textOf list).drop start) spaces opening name closing later ∧
      (nextName list start).name = name.take (longCapacity - 1) ∧ (nextName list start).next ≤ textLength list ∧
      slice list start (nextName list start).next = spaces ++ (opening ++ (name ++ closing)) := by
  obtain ⟨spaces, opening, name, closing, later, passed, read⟩ := nextName_passed list start
  have parts : (textOf list).drop start = (spaces ++ (opening ++ (name ++ closing))) ++ later := by
    rw [passed.parts]
    simp only [List.append_assoc]
  have size := congrArg List.length parts
  rw [List.length_drop, List.length_append, show (textOf list).length = textLength list from rfl] at size
  have within : (nextName list start).next ≤ textLength list := by
    rw [read]
    dsimp only
    omega
  refine ⟨spaces, opening, name, closing, later, passed, by rw [read], within, ?_⟩
  have front : list.take (nextName list start).next = (textOf list).take (nextName list start).next := by
    rw [textOf_eq_take, List.take_take, Nat.min_eq_left within]
  rw [slice, front, read, ← List.take_drop, parts, List.take_left]

/-- Reading a name moves on, and not past the end of the text. -/
theorem nextName_advances {list : Bytes} {start : Nat} (inside : start < textLength list) :
    start < (nextName list start).next ∧ (nextName list start).next ≤ textLength list := by
  obtain ⟨spaces, opening, name, closing, later, passed, -, within, piece⟩ := nextName_slice (Nat.le_of_lt inside)
  have more : (textOf list).drop start ≠ [] := mt List.drop_eq_nil_iff.1 (Nat.not_le.2 inside)
  have some := List.length_pos_iff.2 (passed.moves more)
  rw [← piece, length_slice (Nat.le_trans within (textLength_le list))] at some
  exact ⟨by omega, within⟩

/-- A name of a list that begins before the array is read up to an offset of the text. -/
theorem margin_nextName_advances {list : Bytes} {position : Int} (inside : position < textLength list) :
    position < (Margin.nextName list position).next ∧ (Margin.nextName list position).next ≤ textLength list := by
  rw [Margin.nextName]
  split
  · rename_i notBefore
    obtain ⟨moves, within⟩ := @nextName_advances list position.toNat (by omega)
    exact ⟨by omega, within⟩
  · rename_i before
    have short : (nameAt false (textOf list)).length ≤ textLength list := (List.takeWhile_sublist _).length_le
    exact ⟨by dsimp only; omega, short⟩

/-! ## Whole names -/

/-- The name at a place of a list, however long it is: what reading it passes without the spaces before it and without
quotes. -/
def wholeName (list : Bytes) (start : Nat) : Bytes :=
  ((slice list start (nextName list start).next).dropWhile (· == 0x20)).filter (· != 0x22)

/-- A name is read as far as a long buffer holds it. -/
theorem name_nextName {list : Bytes} {start : Nat} (inside : start ≤ textLength list) :
    (nextName list start).name = (wholeName list start).take (longCapacity - 1) := by
  obtain ⟨spaces, opening, name, closing, later, passed, read, -, piece⟩ := nextName_slice inside
  have none : ∀ quotes : Bytes, (∀ b ∈ quotes, b = 0x22) → quotes.filter (· != 0x22) = [] := by
    intro quotes all
    refine List.filter_eq_nil_iff.2 fun b member => ?_
    rw [all b member]
    decide
  have shown : (spaces ++ (opening ++ (name ++ closing))).dropWhile (· == 0x20) = opening ++ (name ++ closing) := by
    rw [List.dropWhile_append_of_pos (by simpa using passed.blank)]
    refine List.dropWhile_eq_self_iff.2 fun more => ?_
    have begins := passed.begins _ (List.head?_eq_getElem? ▸ List.getElem?_eq_getElem more)
    simpa using begins
  have unquoted : name.filter (· != 0x22) = name := List.filter_eq_self.2 (by simpa using passed.unquoted)
  rw [read, wholeName, piece, shown, List.filter_append, List.filter_append, none opening passed.opens,
    none closing passed.closes, unquoted, List.nil_append, List.append_nil]

/-- A whole name has every byte that is passed but spaces and quotes. -/
theorem filter_wholeName (list : Bytes) (start : Nat) :
    (wholeName list start).filter (· != 0x20) =
      (slice list start (nextName list start).next).filter (fun b => b != 0x20 && b != 0x22) := by
  rw [wholeName, List.filter_filter]
  generalize slice list start (nextName list start).next = passed
  have spaces : (passed.takeWhile (· == 0x20)).filter (fun b => b != 0x20 && b != 0x22) = [] := by
    refine List.filter_eq_nil_iff.2 fun b member => ?_
    have space := List.mem_takeWhile_imp member
    rw [beq_iff_eq.1 space]
    decide
  conv_rhs => rw [← List.takeWhile_append_dropWhile (p := (· == 0x20)) (l := passed)]
  rw [List.filter_append, spaces, List.nil_append]

/-! ## All names -/

/-- So many calls read all names of a list from a place on: the last one comes to the end of the text, and none
before it. -/
structure ReadToEnd (list : Bytes) (start count : Nat) (names : List Bytes) : Prop where
  read : readNames list count start = (names, textLength list)
  before : ∀ fewer < count, (readNames list fewer start).2 < textLength list

private theorem readNames_succ (list : Bytes) (count start : Nat) :
    readNames list (count + 1) start =
      ((nextName list start).name :: (readNames list count (nextName list start).next).1,
        (readNames list count (nextName list start).next).2) :=
  rfl

theorem ReadToEnd.here (list : Bytes) : ReadToEnd list (textLength list) 0 [] :=
  ⟨rfl, fun fewer less => absurd less (Nat.not_lt_zero fewer)⟩

/-- One more call before them reads all names from where it begins. -/
theorem ReadToEnd.next {list : Bytes} {start count : Nat} {names : List Bytes} (inside : start < textLength list)
    (later : ReadToEnd list (nextName list start).next count names) :
    ReadToEnd list start (count + 1) ((nextName list start).name :: names) := by
  refine ⟨by rw [readNames_succ, later.read], ?_⟩
  intro fewer less
  cases fewer with
  | zero => exact inside
  | succ fewer =>
    rw [readNames_succ]
    exact later.before fewer (Nat.lt_of_succ_lt_succ less)

/-- Reading name by name comes to the end of the text, in no more calls than there are bytes left. -/
theorem exists_readToEnd {list : Bytes} {start : Nat} (inside : start ≤ textLength list) :
    ∃ count names, ReadToEnd list start count names ∧ count ≤ textLength list - start := by
  induction left : textLength list - start using Nat.strong_induction_on generalizing start with
  | _ left ih =>
    rcases Nat.eq_or_lt_of_le inside with rfl | more
    · exact ⟨0, [], .here list, Nat.zero_le _⟩
    · obtain ⟨moves, within⟩ := nextName_advances more
      obtain ⟨count, names, later, few⟩ := ih _ (by omega) within rfl
      exact ⟨count + 1, _, later.next more, by omega⟩

private theorem length_wholeName_le (list : Bytes) (start : Nat) : (wholeName list start).length ≤ list.length :=
  calc
    (wholeName list start).length
      ≤ ((slice list start (nextName list start).next).dropWhile (· == 0x20)).length := List.length_filter_le ..
    _ ≤ (slice list start (nextName list start).next).length := List.length_dropWhile_le ..
    _ ≤ list.length := by
      rw [slice, List.length_drop]
      exact Nat.le_trans (Nat.sub_le ..) (List.length_take_le' ..)

/-- Names that a long buffer holds have together all bytes of the text from where reading began but spaces and
quotes. -/
theorem ReadToEnd.filter {list : Bytes} {start count : Nat} {names : List Bytes}
    (all : ReadToEnd list start count names)
    (short : ∀ fewer < count, (wholeName list (readNames list fewer start).2).length < longCapacity) :
    names.flatten.filter (· != 0x20) =
      (slice list start (textLength list)).filter (fun b => b != 0x20 && b != 0x22) := by
  induction count generalizing start names with
  | zero =>
    obtain ⟨rfl, rfl⟩ := Prod.mk.inj all.read
    rw [slice_self]
    rfl
  | succ count ih =>
    have inside : start < textLength list := all.before 0 (Nat.zero_lt_succ count)
    obtain ⟨rfl, stop⟩ := Prod.mk.inj ((readNames_succ list count start).symm.trans all.read)
    have later : ReadToEnd list (nextName list start).next count (readNames list count (nextName list start).next).1 :=
      ⟨Prod.ext rfl stop, fun fewer less => all.before (fewer + 1) (Nat.succ_lt_succ less)⟩
    have whole : (nextName list start).name = wholeName list start := by
      rw [name_nextName (Nat.le_of_lt inside)]
      exact List.take_of_length_le (Nat.le_sub_one_of_lt (short 0 (Nat.zero_lt_succ count)))
    obtain ⟨moves, within⟩ := nextName_advances inside
    rw [List.flatten_cons, List.filter_append, whole, filter_wholeName,
      ih later fun fewer less => short (fewer + 1) (Nat.succ_lt_succ less), ← List.filter_append,
      slice_append_slice list (Nat.le_of_lt moves) within]

/-- Reading a list of names ends and loses nothing, whatever bytes the list has. A call before the end of the text
moves on and not past the end, and so does one that begins before the array. Calls from wherever the one before ended
therefore come to the end, after no more of them than there are bytes left. Each reads the name that it passes, cut to
what a long buffer holds; when none of the names is longer than that, they have together and in order exactly the bytes
of the text from where reading began that are neither spaces nor quotes, once the spaces inside names are left out. -/
theorem names_lose_nothing (list : Bytes) :
    (∀ start < textLength list,
      (start < (nextName list start).next ∧ (nextName list start).next ≤ textLength list) ∧
      (nextName list start).name = (wholeName list start).take (longCapacity - 1) ∧
      ∃ count names, ReadToEnd list start count names ∧ count ≤ textLength list - start ∧
        ((∀ fewer < count, (wholeName list (readNames list fewer start).2).length < longCapacity) →
          names.flatten.filter (· != 0x20) =
            (slice list start (textLength list)).filter (fun b => b != 0x20 && b != 0x22))) ∧
    ∀ position : Int, position < 0 →
      position < (Margin.nextName list position).next ∧ (Margin.nextName list position).next ≤ textLength list := by
  constructor
  · intro start inside
    refine ⟨nextName_advances inside, name_nextName (Nat.le_of_lt inside), ?_⟩
    obtain ⟨count, names, all, few⟩ := exists_readToEnd (Nat.le_of_lt inside)
    exact ⟨count, names, all, few, all.filter⟩
  · intro position before
    exact margin_nextName_advances (by omega)

/-- The theorem at a list with a quote inside a word, a name in quotes right behind another, an empty one, a row of
spaces and a quote that nothing closes. -/
theorem names_lose_nothing_quotes :
    let list : Bytes :=
      [0x20, 0x61, 0x22, 0x62, 0x20, 0x63, 0x22, 0x22, 0x22, 0x20, 0x64, 0x20, 0x20, 0x22, 0x65, 0x20, 0x00, 0x66]
    0 < textLength list ∧ readNames list 5 0 = ([[0x61], [0x62, 0x20, 0x63], [], [0x64], [0x65, 0x20]], 16) ∧
      ∃ count names, ReadToEnd list 0 count names ∧
        (∀ fewer < count, (wholeName list (readNames list fewer 0).2).length < longCapacity) ∧
        names.flatten.filter (· != 0x20) = [0x61, 0x62, 0x63, 0x64, 0x65] := by
  intro list
  have inside : 0 < textLength list := by decide
  obtain ⟨-, -, count, names, all, -, law⟩ := (names_lose_nothing list).1 0 inside
  have short : ∀ fewer < count, (wholeName list (readNames list fewer 0).2).length < longCapacity :=
    fun fewer _ => Nat.lt_of_le_of_lt (length_wholeName_le ..) (by decide)
  exact ⟨inside, by decide +kernel, count, names, all, short, (law short).trans (by decide)⟩

end BoundedText
