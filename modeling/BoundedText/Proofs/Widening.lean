import BoundedText.Proofs.Sequences
import BoundedText.Telnet

/-!
# Widening

A Latin-1 stream with telnet commands is widened item by item: each item is written as its translation
(`widenTelnet_item`), and a stream that nothing is told of is made of items only
(`items_of_untold`). So widening tells nothing exactly of the streams of the grammar, and a stream in
which every 0xFF is doubled is widened as the plain text that it stands for (`widens_exactly_items`).
-/

namespace BoundedText

/-- The UTF-8 form of a Latin-1 character: itself when it is ASCII, and two bytes otherwise. -/
def latinForm (b : UInt8) : Bytes := if b < 0x80 then [b] else [(0xC0 : UInt8) ||| (b >>> 6), (0x80 : UInt8) ||| (b &&& 0x3F)]

theorem forall_byte {P : UInt8 → Prop} (every : ∀ n : Fin 256, P (UInt8.ofNat n.val)) (b : UInt8) : P b := by
  have here := every ⟨b.toNat, b.toNat_lt⟩
  rwa [UInt8.ofNat_toNat] at here

private theorem encode_latin (b : UInt8) : Utf8.encode b.toNat = latinForm b := by
  revert b
  exact forall_byte (by decide +kernel)

theorem widen_eq (latin : Bytes) : widen latin = latin.flatMap latinForm := by
  rw [widen, Utf8.encodeAll, List.flatMap_map]
  simp only [encode_latin]

/-- A count that takes all of an array, and the counting that sizes what is answered, change nothing. -/
theorem latin1ToUtf8_all {latin : Bytes} {count : Option Int} (all : count.getD latin.length = latin.length)
    (telnet : Bool) : latin1ToUtf8 latin count telnet = if telnet then widenTelnet latin else ⟨widen latin, []⟩ := by
  rw [latin1ToUtf8, all, Int.toNat_natCast, List.take_length]
  simp only [sized_eq]

namespace Telnet

/-- What a stream is made of: characters, a character 0xFF that is written twice, and commands. -/
inductive Item where
  | character (b : UInt8) (plain : b ≠ 0xFF)
  | doubled
  | noOperation
  | negotiation (verb option : UInt8) (negotiates : verb ∈ ([0xFB, 0xFC, 0xFD, 0xFE] : List UInt8))
  | subnegotiation (body : Bytes) (inside : 0xF0 ∉ body)

namespace Item

/-- The bytes that an item is written with. -/
def source : Item → Bytes
  | .character b _ => [b]
  | .doubled => [0xFF, 0xFF]
  | .noOperation => [0xFF, 0xF1]
  | .negotiation verb option _ => [0xFF, verb, option]
  | .subnegotiation body _ => [0xFF, 0xFA] ++ body ++ [0xF0]

/-- What an item is widened to: characters to UTF-8, and commands to themselves. -/
def translation : Item → Bytes
  | .character b _ => latinForm b
  | .doubled => [0xC3, 0xBF]
  | command => command.source

end Item

private theorem isNegotiation_iff (b : UInt8) :
    isNegotiation b = true ↔ b ∈ ([0xFB, 0xFC, 0xFD, 0xFE] : List UInt8) := by
  simp [isNegotiation, will, wont, perform, dont, or_assoc]

/-! ## Items are translated -/

section items
variable (rest : Bytes)

private theorem widenTelnet_character {b : UInt8} (plain : b ≠ 0xFF) :
    widenTelnet (b :: rest) = (widenTelnet rest).after (latinForm b) := by
  rw [widenTelnet.eq_def]
  simp only [command, plain, ne_eq, not_false_eq_true, if_true, encode_latin]

private theorem widenTelnet_doubled : widenTelnet (0xFF :: 0xFF :: rest) = (widenTelnet rest).after [0xC3, 0xBF] := by
  rw [widenTelnet.eq_def]
  rfl

private theorem widenTelnet_noOperation :
    widenTelnet (0xFF :: 0xF1 :: rest) = (widenTelnet rest).after [0xFF, 0xF1] := by
  rw [widenTelnet.eq_def]
  rfl

private theorem widenTelnet_negotiation {verb : UInt8} (option : UInt8) (negotiates : isNegotiation verb = true) :
    widenTelnet (0xFF :: verb :: option :: rest) = (widenTelnet rest).after [0xFF, verb, option] := by
  have others : verb ≠ command ∧ verb ≠ noOperation := by
    constructor <;> rintro rfl <;> cases negotiates
  rw [widenTelnet.eq_def]
  simp only [show ¬ (0xFF : UInt8) ≠ command from not_not.2 rfl, others.1, others.2, negotiates, if_true, if_false]

private theorem widenTelnet_subnegotiation {body : Bytes} (inside : 0xF0 ∉ body) :
    widenTelnet (0xFF :: 0xFA :: (body ++ 0xF0 :: rest)) =
      (widenTelnet rest).after (0xFF :: 0xFA :: body ++ [0xF0]) := by
  have before : (body ++ 0xF0 :: rest).takeWhile (· != subnegotiationEnd) = body := by
    rw [List.takeWhile_append_of_pos]
    · simp [subnegotiationEnd]
    · intro b member
      have other : b ≠ 0xF0 := fun same => inside (same ▸ member)
      simpa [subnegotiationEnd] using other
  have left : (body ++ 0xF0 :: rest).drop body.length = 0xF0 :: rest := List.drop_left
  rw [widenTelnet.eq_def]
  dsimp only
  rw [if_neg (by decide), if_neg (by decide), if_neg (by decide), if_neg (by decide), if_pos (by decide)]
  split
  · rename_i ended
    rw [before, left] at ended
    cases ended
  · rename_i stop later ended
    rw [before, left] at ended
    cases ended
    rw [before]

/-- Whatever comes after it, an item is widened to its translation. -/
theorem widenTelnet_item (item : Item) :
    widenTelnet (item.source ++ rest) = (widenTelnet rest).after item.translation := by
  cases item with
  | character b plain => exact widenTelnet_character rest plain
  | doubled => exact widenTelnet_doubled rest
  | noOperation => exact widenTelnet_noOperation rest
  | negotiation verb option negotiates =>
    exact widenTelnet_negotiation rest option ((isNegotiation_iff verb).2 negotiates)
  | subnegotiation body inside =>
    have begins : (Item.subnegotiation body inside).source ++ rest = 0xFF :: 0xFA :: (body ++ 0xF0 :: rest) := by
      simp [Item.source]
    rw [begins, widenTelnet_subnegotiation rest inside]
    rfl

end items

private theorem widenTelnet_items (items : List Item) :
    widenTelnet (items.flatMap Item.source) = ⟨items.flatMap Item.translation, []⟩ := by
  induction items with
  | nil => rw [List.flatMap_nil, widenTelnet.eq_def]; rfl
  | cons item items ih =>
    rw [List.flatMap_cons, widenTelnet_item, ih, List.flatMap_cons]
    rfl

/-! ## Only items are untold -/

/-- What is left after the bytes before a stop begins with it. -/
theorem stop_of_drop {rest later : Bytes} {stop b : UInt8}
    (found : rest.drop (rest.takeWhile (· != stop)).length = b :: later) :
    rest = rest.takeWhile (· != stop) ++ stop :: later := by
  have parts : rest.takeWhile (· != stop) ++ rest.dropWhile (· != stop) = rest := List.takeWhile_append_dropWhile
  have back : rest.dropWhile (· != stop) = b :: later := by
    rw [← found]
    nth_rewrite 3 [← parts]
    rw [List.drop_left]
  have refused := List.head?_dropWhile_not (· != stop) rest
  rw [back] at refused
  obtain rfl : b = stop := by simpa using refused
  rw [← back, parts]

/-- A stream that nothing is told of is made of items. -/
theorem items_of_untold {latin : Bytes} (untold : (widenTelnet latin).diagnostics = []) :
    ∃ items : List Item, latin = items.flatMap Item.source := by
  -- A case that goes on adds its item to those of what comes after; a case that tells something is excluded.
  fun_induction widenTelnet latin with
  | case1 => exact ⟨[], rfl⟩
  | case2 b rest plain ih =>
    obtain ⟨items, rfl⟩ := ih untold
    exact ⟨.character b plain :: items, rfl⟩
  | case3 => cases untold
  | case4 b opens rest ih =>
    obtain rfl := not_not.1 opens
    obtain ⟨items, rfl⟩ := ih untold
    exact ⟨.doubled :: items, rfl⟩
  | case5 b opens rest _ ih =>
    obtain rfl := not_not.1 opens
    obtain ⟨items, rfl⟩ := ih untold
    exact ⟨.noOperation :: items, rfl⟩
  | case6 => cases untold
  | case7 b opens verb _ _ negotiates option rest ih =>
    obtain rfl := not_not.1 opens
    obtain ⟨items, rfl⟩ := ih untold
    exact ⟨.negotiation verb option ((isNegotiation_iff verb).1 negotiates) :: items, rfl⟩
  | case8 => cases untold
  | case9 b opens rest body stop later ended _ _ _ ih =>
    obtain rfl := not_not.1 opens
    obtain ⟨items, rfl⟩ := ih untold
    have whole := stop_of_drop ended
    have inside : 0xF0 ∉ body := by
      intro member
      simpa [subnegotiationEnd] using List.mem_takeWhile_imp member
    refine ⟨.subnegotiation body inside :: items, ?_⟩
    rw [whole]
    simp [Item.source, body, subnegotiationEnd, command, subnegotiation]
  | case10 => cases untold

private theorem untold_iff (latin : Bytes) :
    (widenTelnet latin).diagnostics = [] ↔ ∃ items : List Item, latin = items.flatMap Item.source := by
  constructor
  · exact items_of_untold
  · rintro ⟨items, rfl⟩
    rw [widenTelnet_items]

/-! ## Characters that are written twice -/

def Item.ofByte (b : UInt8) : Item := if plain : b ≠ 0xFF then .character b plain else .doubled

private theorem translation_ofByte (b : UInt8) : (Item.ofByte b).translation = latinForm b := by
  unfold Item.ofByte
  split
  · rfl
  · rename_i opens
    obtain rfl := not_not.1 opens
    rfl

/-- A text as a stream: 0xFF is written twice. -/
def escaped (latin : Bytes) : Bytes := latin.flatMap (fun b => if b = 0xFF then [0xFF, 0xFF] else [b])

private theorem escaped_eq (latin : Bytes) : escaped latin = (latin.map Item.ofByte).flatMap Item.source := by
  rw [escaped, List.flatMap_map]
  congr 1
  funext b
  by_cases opens : b = 0xFF
  · subst opens
    rfl
  · rw [if_neg opens, Item.ofByte, dif_pos opens]
    rfl

end Telnet

open Telnet

/-- Widening tells nothing exactly of the streams that are made of items, and writes each item as its
translation. So a text whose 0xFF are written twice is widened, as a stream, to what it is widened to
without commands. -/
theorem widens_exactly_items (latin : Bytes) :
    let widened := latin1ToUtf8 latin (some latin.length) true
    (widened.diagnostics = [] ↔ ∃ items : List Item, latin = items.flatMap Item.source) ∧
    (∀ items : List Item, latin = items.flatMap Item.source → widened.bytes = items.flatMap Item.translation) ∧
    (latin1ToUtf8 (escaped latin) (some (escaped latin).length) true).bytes =
      (latin1ToUtf8 latin (some latin.length) false).bytes := by
  have whole : ∀ bytes : Bytes, latin1ToUtf8 bytes (some bytes.length) true = widenTelnet bytes :=
    fun bytes => latin1ToUtf8_all rfl true
  have plain : latin1ToUtf8 latin (some latin.length) false = ⟨widen latin, []⟩ := latin1ToUtf8_all rfl false
  intro widened
  rw [show widened = widenTelnet latin from whole latin, whole (escaped latin), plain]
  refine ⟨untold_iff latin, ?_, ?_⟩
  · rintro items rfl
    rw [widenTelnet_items]
  · rw [escaped_eq, widenTelnet_items, List.flatMap_map, widen_eq]
    simp only [translation_ofByte]

/-- A stream with an option 0xFF, and with 0xFF inside a subnegotiation that a character follows. -/
theorem widens_exactly_items_commands :
    let option : Item := .negotiation 0xFD 0xFF (by decide)
    let terminal : Item := .subnegotiation [0x18, 0xFF] (by decide)
    let items : List Item := [.character 0xE9 (by decide), option, .doubled, terminal, .noOperation]
    let latin : Bytes := [0xE9, 0xFF, 0xFD, 0xFF, 0xFF, 0xFF, 0xFF, 0xFA, 0x18, 0xFF, 0xF0, 0xFF, 0xF1]
    latin = items.flatMap Item.source ∧ (latin1ToUtf8 latin (some 13) true).diagnostics = [] ∧
      (latin1ToUtf8 latin (some 13) true).bytes =
        [0xC3, 0xA9, 0xFF, 0xFD, 0xFF, 0xC3, 0xBF, 0xFF, 0xFA, 0x18, 0xFF, 0xF0, 0xFF, 0xF1] := by
  intro option terminal items latin
  have made : latin = items.flatMap Item.source := by decide
  obtain ⟨untold, bytes, -⟩ := widens_exactly_items latin
  refine ⟨made, untold.2 ⟨items, made⟩, ?_⟩
  rw [show (13 : Int) = latin.length from rfl, bytes items made]
  decide

end BoundedText
