import BoundedText.Proofs.Accumulation
import BoundedText.Proofs.Walking

/-!
# Wildcards

A pattern is read as places in a row, each of which stands for one code point, for any one, or for any
number of them. What is written for a user's text is read by LIKE as the places that the text was
(`spells_pieces`): no wildcard is lost, and no code point of the text becomes one. So the pattern of a
glob matches what the glob does, and that of a literal text matches that text only
(`patterns_match_input`).
-/

namespace BoundedText.Like
open Utf8

/-! ## Places -/

/-- What stands at a place of a pattern: a code point, any one code point, or any number of them. -/
inductive Place where
  | itself (c : Nat)
  | one
  | sequence
deriving DecidableEq, Repr

/-- Whether places in a row stand for a text. -/
def covers : List Place → List Nat → Bool
  | [], text => text.isEmpty
  | .itself c :: places, text => text.head? == some c && covers places text.tail
  | .one :: places, text => text.head?.isSome && covers places text.tail
  | .sequence :: places, text => (List.range (text.length + 1)).any (fun skipped => covers places (text.drop skipped))

/-- Code points that stand for themselves cover themselves only. -/
theorem covers_itself (codepoints text : List Nat) :
    covers (codepoints.map Place.itself) text = true ↔ text = codepoints := by
  induction codepoints generalizing text with
  | nil => cases text <;> simp [covers]
  | cons c codepoints ih =>
    cases text with
    | nil => simp [covers]
    | cons d text => simp [covers, ih]

/-! ## LIKE patterns -/

/-- What a code point of a LIKE pattern is without an escape character before it. -/
def likePlace (c : Nat) : Place := if c = percent then .sequence else if c = underscore then .one else .itself c

/-- The places of a LIKE pattern. After the escape character a code point stands for itself. -/
def likePlaces (escape : Nat) : List Nat → List Place
  | [] => []
  | [c] => [likePlace c]
  | c :: next :: rest =>
    if c = escape then .itself next :: likePlaces escape rest else likePlace c :: likePlaces escape (next :: rest)

def likeMatches (escape : Nat) (pattern text : List Nat) : Bool := covers (likePlaces escape pattern) text

private theorem likePlaces_escaped (escape c : Nat) (rest : List Nat) :
    likePlaces escape (escape :: c :: rest) = .itself c :: likePlaces escape rest := by
  rw [likePlaces, if_pos rfl]

private theorem likePlaces_bare {escape c : Nat} (other : c ≠ escape) (rest : List Nat) :
    likePlaces escape (c :: rest) = likePlace c :: likePlaces escape rest := by
  cases rest with
  | nil => rfl
  | cons next rest => rw [likePlaces, if_neg other]

/-! ## What a user writes -/

/-- The places of a text that a user writes. After a backslash a code point stands for itself, and a
backslash that ends the text is for nothing. -/
def inputPlaces (ordinary : Nat → Place) : List Nat → List Place
  | [] => []
  | [c] => if c = backslash then [] else [ordinary c]
  | c :: next :: rest =>
    if c = backslash then .itself next :: inputPlaces ordinary rest
    else ordinary c :: inputPlaces ordinary (next :: rest)

/-- What a code point of a glob is without a backslash before it. -/
def globPlace (c : Nat) : Place := if c = star then .sequence else if c = question then .one else .itself c

def globMatches (glob text : List Nat) : Bool := covers (inputPlaces globPlace glob) text

/-- A text with the code point that it escapes in the place of each backslash escape. -/
def unescaped : List Nat → List Nat
  | [] => []
  | [c] => if c = backslash then [] else [c]
  | c :: next :: rest => if c = backslash then next :: unescaped rest else c :: unescaped (next :: rest)

private theorem inputPlaces_itself (text : List Nat) :
    inputPlaces .itself text = (unescaped text).map Place.itself := by
  fun_induction unescaped text with
  | case1 => rfl
  | case2 => simp [inputPlaces]
  | case3 c other => simp [inputPlaces, other]
  | case4 next rest ih => simp [inputPlaces, ih]
  | case5 c next rest other ih => simp [inputPlaces, other, ih]

/-! ## What is written for it -/

/-- Pieces that encode code points which are read, as a LIKE pattern, as places. -/
def Spell (escape : Nat) (pieces : List Bytes) (places : List Place) : Prop :=
  ∃ codepoints, (∀ c ∈ codepoints, IsScalar c ∧ c ≠ 0) ∧ pieces.flatten = encodeAll codepoints ∧
    likePlaces escape codepoints = places

section spell
variable {escape c : Nat} {pieces : List Bytes} {places : List Place}

private theorem Spell.bare (spell : Spell escape pieces places) (valid : IsScalar c ∧ c ≠ 0) (other : c ≠ escape) :
    Spell escape (codepointPiece c :: pieces) (likePlace c :: places) := by
  obtain ⟨codepoints, scalars, encoded, read⟩ := spell
  refine ⟨c :: codepoints, List.forall_mem_cons.2 ⟨valid, scalars⟩, ?_, ?_⟩
  · rw [List.flatten_cons, encoded, Builder.codepointPiece_known valid.1.1, encodeAll, encodeAll, List.flatMap_cons]
  · rw [likePlaces_bare other, read]

theorem Spell.escaped (spell : Spell escape pieces places) (valid : IsScalar c ∧ c ≠ 0)
    (mark : IsScalar escape ∧ escape ≠ 0) : Spell escape (Like.escaped escape c ++ pieces) (.itself c :: places) := by
  obtain ⟨codepoints, scalars, encoded, read⟩ := spell
  refine ⟨escape :: c :: codepoints, List.forall_mem_cons.2 ⟨mark, List.forall_mem_cons.2 ⟨valid, scalars⟩⟩, ?_, ?_⟩
  · simp only [Like.escaped, List.cons_append, List.nil_append, List.flatten_cons, encoded,
      Builder.codepointPiece_known valid.1.1, Builder.codepointPiece_known mark.1.1, encodeAll, List.flatMap_cons]
  · rw [likePlaces_escaped, read]

/-- What a code point of a user's text is, with or without the wildcards of globs. -/
def ordinary (glob : Bool) : Nat → Place := if glob then globPlace else .itself

private theorem ordinary_itself {c : Nat} (notStar : c ≠ star) (notQuestion : c ≠ question) (glob : Bool) :
    ordinary glob c = .itself c := by
  cases glob
  · rfl
  · simp [ordinary, globPlace, notStar, notQuestion]

/-- A code point without a backslash before it. -/
theorem Spell.plain (spell : Spell escape pieces places) (valid : IsScalar c ∧ c ≠ 0)
    (mark : IsScalar escape ∧ escape ≠ 0) (meaningless : escape ∉ [percent, underscore, star, question, backslash])
    (glob : Bool) : Spell escape (Like.plain glob escape c ++ pieces) (ordinary glob c :: places) := by
  simp only [List.mem_cons, List.not_mem_nil, or_false, not_or] at meaningless
  obtain ⟨notPercent, notUnderscore, notStar, notQuestion, -⟩ := meaningless
  by_cases meaning : c = percent ∨ c = underscore ∨ (c : Int) = escape
  · have same : ordinary glob c = .itself c := by
      rcases meaning with rfl | rfl | equal
      · exact ordinary_itself (by decide) (by decide) glob
      · exact ordinary_itself (by decide) (by decide) glob
      · obtain rfl := Int.ofNat_inj.1 equal
        exact ordinary_itself notStar notQuestion glob
    rw [Like.plain, if_pos meaning, same]
    exact spell.escaped valid mark
  · have others : c ≠ percent ∧ c ≠ underscore ∧ c ≠ escape := by
      simpa only [not_or, Int.ofNat_inj] using meaning
    have literal : likePlace c = .itself c := by simp [likePlace, others]
    rw [Like.plain, if_neg meaning]
    -- A wildcard of globs is written as one of LIKE, which must not be read as the escape character.
    by_cases isStar : glob = true ∧ c = star
    · obtain ⟨rfl, rfl⟩ := isStar
      exact spell.bare (by decide) (Ne.symm notPercent)
    · rw [if_neg isStar]
      by_cases isQuestion : glob = true ∧ c = question
      · obtain ⟨rfl, rfl⟩ := isQuestion
        exact spell.bare (by decide) (Ne.symm notUnderscore)
      · have same : ordinary glob c = .itself c := by
          cases glob
          · rfl
          · exact ordinary_itself (fun equal => isStar ⟨rfl, equal⟩) (fun equal => isQuestion ⟨rfl, equal⟩) true
        rw [if_neg isQuestion, same, ← literal]
        exact spell.bare valid others.2.2

/-- The pattern of a text is read as the places of the text. -/
theorem spells_pieces (mark : IsScalar escape ∧ escape ≠ 0)
    (meaningless : escape ∉ [percent, underscore, star, question, backslash]) (glob : Bool) {text : List Nat}
    (scalars : ∀ c ∈ text, IsScalar c ∧ c ≠ 0) :
    Spell escape (Like.pieces glob escape text) (inputPlaces (ordinary glob) text) := by
  have nothing : Spell escape [] [] := ⟨[], by simp, rfl, rfl⟩
  have notBackslash : backslash ≠ escape := by
    rintro rfl
    simp at meaningless
  -- The escape character is no backslash, so that every backslash is taken for one.
  have aside : ∀ c : Nat, (c = backslash ∧ (c : Int) ≠ escape) ↔ c = backslash := by
    intro c
    refine and_iff_left_of_imp ?_
    rintro rfl equal
    exact notBackslash (Int.ofNat_inj.1 equal)
  fun_induction Like.pieces glob escape text with
  | case1 => exact nothing
  | case2 c skipped =>
    rw [inputPlaces, if_pos ((aside c).1 skipped)]
    exact nothing
  | case3 c kept =>
    rw [inputPlaces, if_neg ((aside c).not.1 kept)]
    have one := nothing.plain (scalars c (by simp)) mark meaningless glob
    rwa [List.append_nil] at one
  | case4 c next rest skipped ih =>
    rw [inputPlaces, if_pos ((aside c).1 skipped)]
    have later := ih (fun d member => scalars d (by simp [member]))
    exact later.escaped (scalars next (by simp)) mark
  | case5 c next rest kept ih =>
    rw [inputPlaces, if_neg ((aside c).not.1 kept)]
    have later := ih (fun d member => scalars d (List.mem_cons_of_mem c member))
    exact later.plain (scalars c (by simp)) mark meaningless glob

end spell

/-! ## Patterns -/

/-- A pattern that the limit leaves room for is what its pieces make up. -/
theorem pattern_eq {limit : Nat} {glob : Bool} {text : Text} {escape : Int}
    (fits : (Like.pieces glob escape (codepointsOf text.toBytes)).flatten.length < limit) :
    (Like.pattern glob text escape (.ofLimit limit)).1 =
      (Like.pieces glob escape (codepointsOf text.toBytes)).flatten := by
  have positive : 1 ≤ limit := by omega
  have holds := ((Builder.holds_ofLimit positive).appendAll
    (Like.pieces glob escape (codepointsOf text.toBytes))).1
  obtain ⟨alive, -, content⟩ := holds.within fits
  simp only [Like.pattern, Builder.finish, alive]
  exact content

/-- A pattern is read, as it comes out of a builder, as the places of the text. -/
theorem likePlaces_pattern {limit escape : Nat} {glob : Bool} {text : Text} (mark : IsScalar escape ∧ escape ≠ 0)
    (meaningless : escape ∉ [percent, underscore, star, question, backslash])
    (fits : (Like.pieces glob escape (codepointsOf text.toBytes)).flatten.length < limit) :
    likePlaces escape (codepointsOf (Like.pattern glob text escape (.ofLimit limit)).1) =
      inputPlaces (ordinary glob) (codepointsOf text.toBytes) := by
  obtain ⟨codepoints, scalars, encoded, read⟩ := spells_pieces mark meaningless glob (fun _ => scalar_of_mem_codepointsOf)
  rw [pattern_eq fits, encoded, codepointsOf_encodeAll scalars, read]

/-- Patterns match what the input means. Whatever the text and the escape character, unless that has a
meaning of its own, the pattern of a glob matches exactly what the glob does, and the pattern of a literal
text matches that text, with its escapes taken, and nothing else. -/
theorem patterns_match_input {escape limit : Nat} (valid : IsScalar escape) (nonzero : escape ≠ 0)
    (meaningless : escape ∉ [percent, underscore, star, question, backslash]) (input : Text) (text : List Nat) :
    let codepoints := codepointsOf input.toBytes
    ((Like.pieces true escape codepoints).flatten.length < limit →
      let made := codepointsOf (Like.pattern true input escape (.ofLimit limit)).1
      (likeMatches escape made text = true ↔ globMatches codepoints text = true)) ∧
    ((Like.pieces false escape codepoints).flatten.length < limit →
      let made := codepointsOf (Like.pattern false input escape (.ofLimit limit)).1
      (likeMatches escape made text = true ↔ text = unescaped codepoints)) := by
  intro codepoints
  constructor
  · intro fits made
    rw [likeMatches, show likePlaces escape made = _ from likePlaces_pattern ⟨valid, nonzero⟩ meaningless fits]
    rfl
  · intro fits made
    rw [likeMatches, show likePlaces escape made = _ from likePlaces_pattern ⟨valid, nonzero⟩ meaningless fits]
    rw [show ordinary false = Place.itself from rfl, inputPlaces_itself]
    exact covers_itself _ _

/-- A glob with a wildcard, a LIKE wildcard, an escape, a malformed byte and a backslash at its end. -/
theorem patterns_match_input_mixed :
    let input : Text := .bytes [0x61, 0x2A, 0x5F, 0x24, 0x5C, 0x3F, 0xFF, 0x5C]
    let made := fun glob => codepointsOf (Like.pattern glob input 0x24 (.ofLimit 14)).1
    (IsScalar 0x24 ∧ 0x24 ≠ 0 ∧ 0x24 ∉ [percent, underscore, star, question, backslash] ∧
      ∀ glob, (Like.pieces glob (0x24 : Nat) (codepointsOf input.toBytes)).flatten.length < 14) ∧
    likeMatches 0x24 (made true) [0x61, 0x62, 0x63, 0x5F, 0x24, 0x3F, 0xFFFD] = true ∧
    likeMatches 0x24 (made true) [0x61, 0x62, 0x63, 0x64, 0x24, 0x3F, 0xFFFD] = false ∧
    likeMatches 0x24 (made false) [0x61, 0x2A, 0x5F, 0x24, 0x3F, 0xFFFD] = true := by
  intro input made
  have read : codepointsOf input.toBytes = [0x61, 0x2A, 0x5F, 0x24, 0x5C, 0x3F, 0xFFFD, 0x5C] := by cbv
  have fits : ∀ glob, (Like.pieces glob (0x24 : Nat) (codepointsOf input.toBytes)).flatten.length < 14 := by
    rw [read]
    decide
  have results := @patterns_match_input 0x24 14 (by decide) (by decide) (by decide) input
  refine ⟨⟨by decide, by decide, by decide, fits⟩, ?_, ?_, ?_⟩
  · refine ((results _).1 (fits true)).2 ?_
    rw [read]
    decide
  · refine Bool.eq_false_iff.2 (((results _).1 (fits true)).not.2 ?_)
    rw [read]
    decide
  · refine ((results _).2 (fits false)).2 ?_
    rw [read]
    decide

end BoundedText.Like
