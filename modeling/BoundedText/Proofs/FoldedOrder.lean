import BoundedText.Folding
import BoundedText.Proofs.ByteOrder
import BoundedText.Proofs.Strings

/-!
# Order without regard to case

Comparing folded strings is a total preorder on texts, whatever the folding makes of them, and so is comparing
the first code points of them (`folding_orders_totally`). Both compare lists of code points, which determine
the strings that they are read from (`compareUnits_eq_zero`), so that texts are level exactly when they are
folded to the same string.
-/

namespace BoundedText

/-! ## Preorders -/

/-- A comparison that orders all values, some of them level: each is level with itself, two are in opposite
orders the two ways round, and the order is transitive. -/
structure TotalPreorder {α : Type} (compare : α → α → Int) : Prop where
  self : ∀ a, compare a a = 0
  swap : ∀ a b, compare a b = -compare b a
  trans : ∀ a b c, compare a b ≤ 0 → compare b c ≤ 0 → compare a c ≤ 0

private theorem totalPreorder_orderSign (α : Type) [LinearOrder α] : TotalPreorder (orderSign (α := α)) where
  self := orderSign_self
  swap := orderSign_swap
  trans a b c := by
    rw [orderSign_nonpos, orderSign_nonpos, orderSign_nonpos]
    exact le_trans

/-- Values that are compared by what they are mapped to are ordered as that is. -/
theorem TotalPreorder.comap {α β : Type} {compare : β → β → Int} (order : TotalPreorder compare) (key : α → β) :
    TotalPreorder (fun a b => compare (key a) (key b)) where
  self a := order.self (key a)
  swap a b := order.swap (key a) (key b)
  trans a b c := order.trans (key a) (key b) (key c)

/-! ## Strings by their code points -/

private theorem compareUnits_eq (a b : Units) :
    compareUnits a b = orderSign (Utf16.codepoints a) (Utf16.codepoints b) :=
  compareLists_eq _ _

theorem compareUnits_eq_zero {a b : Units} : compareUnits a b = 0 ↔ a = b := by
  rw [compareUnits_eq, orderSign_eq_zero, Utf16.codepoints_inj]

private theorem totalPreorder_compareUnits : TotalPreorder compareUnits := by
  have order := (totalPreorder_orderSign (List Nat)).comap Utf16.codepoints
  rwa [← funext₂ compareUnits_eq] at order

/-- A string has no more first code points than it has code points. -/
theorem firstCodepoints_all {units : Units} {n : Int} (enough : (Utf16.codepoints units).length ≤ n) :
    firstCodepoints (.ofInt n) units = units := by
  rw [firstCodepoints, Limit.ofInt, Limit.take, List.take_of_length_le (by omega), Utf16.ofCodepoints_codepoints]

/-! ## Folded texts -/

private theorem compareFolded_eq_zero {letters : Letters} {a b : Text} :
    compareFolded letters a b = 0 ↔ letters.fold a.toUnits = letters.fold b.toUnits :=
  compareUnits_eq_zero

/-- Comparing without regard to case orders texts totally, be it whole texts or so many code points of each,
for any way to put strings into capitals and small letters. Whole texts are level exactly when they are folded
to the same string, and a limit that both keep within makes no difference. -/
theorem folding_orders_totally (letters : Letters) :
    TotalPreorder (compareFolded letters) ∧
    (∀ limit, TotalPreorder (compareFoldedFirst letters limit)) ∧
    (∀ a b, compareFolded letters a b = 0 ↔ letters.fold a.toUnits = letters.fold b.toUnits) ∧
    ∀ (n : Int) (a b : Text), (Utf16.codepoints a.toUnits).length ≤ n → (Utf16.codepoints b.toUnits).length ≤ n →
      compareFoldedFirst letters (.ofInt n) a b = compareFolded letters a b := by
  refine ⟨?_, ?_, fun a b => compareFolded_eq_zero, ?_⟩
  · exact totalPreorder_compareUnits.comap fun text : Text => letters.fold text.toUnits
  · intro limit
    exact totalPreorder_compareUnits.comap fun text : Text => letters.fold (firstCodepoints limit text.toUnits)
  · intro n a b enough enough'
    rw [compareFoldedFirst, firstCodepoints_all enough, firstCodepoints_all enough']
    rfl

/-- Letters by the Unicode tables. -/
def unicodeLetters : Letters := ⟨toCapitals, toSmall⟩

/-- The theorem at a sharp s, which is folded to two letters, between two texts, and at a limit of as many code
points as the longer one has. -/
theorem folding_orders_totally_sharp :
    let sharp : Text := .string [0xDF]
    let double : Text := .string [0x53, 0x73]
    let later : Text := .string [0x73, 0x54]
    (compareFolded unicodeLetters sharp double = 0 ∧
      unicodeLetters.fold sharp.toUnits = unicodeLetters.fold double.toUnits) ∧
    (compareFolded unicodeLetters sharp double ≤ 0 ∧ compareFolded unicodeLetters double later ≤ 0 ∧
      compareFolded unicodeLetters sharp later ≤ 0) ∧
    ((Utf16.codepoints sharp.toUnits).length ≤ (2 : Int) ∧ (Utf16.codepoints double.toUnits).length ≤ (2 : Int) ∧
      compareFoldedFirst unicodeLetters (.ofInt 2) sharp double = 0) := by
  intro sharp double later
  obtain ⟨order, -, level, within⟩ := folding_orders_totally unicodeLetters
  have folded : unicodeLetters.fold sharp.toUnits = unicodeLetters.fold double.toUnits := by decide +kernel
  have same : compareFolded unicodeLetters sharp double = 0 := (level sharp double).2 folded
  have before : compareFolded unicodeLetters double later ≤ 0 := by decide +kernel
  have short : (Utf16.codepoints sharp.toUnits).length ≤ (2 : Int) := by decide
  have short' : (Utf16.codepoints double.toUnits).length ≤ (2 : Int) := by decide
  refine ⟨⟨same, folded⟩, ⟨same.le, before, order.trans _ _ _ same.le before⟩, short, short', ?_⟩
  rw [within 2 sharp double short short', same]

end BoundedText
