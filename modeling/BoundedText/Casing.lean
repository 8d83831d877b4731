import BoundedText.Latin1

/-!
# Letter case of code points

A case mapping gives the code points that stand for a code point in another case: mostly one, and not
always one of the same width. A text can be mapped into new bytes, which are sized first, into an array as
far as whole code points fit, or in place where the width stays the same.
-/

namespace BoundedText

/-- The code points that stand for a code point in another case. -/
abbrev CaseMapping := Nat → List Nat

namespace Casing

/-! ## Into new bytes -/

/-- What each code point of a text is mapped to, the first code point apart from the others. -/
def pieces (first rest : CaseMapping) (bytes : Bytes) : List (List Nat) :=
  (codepointsOf bytes).mapIdx fun index c => if index = 0 then first c else rest c

/-- The number of bytes that mapped code points take. -/
def encodedSize (pieces : List (List Nat)) : Nat := total (pieces.map fun piece => total (piece.map Utf8.width))

/-- A mapped text, written into an array of the size that was counted for it. -/
def map (first rest : CaseMapping) (text : Option Text) : Bytes :=
  let pieces := pieces first rest (Text.bytesOrEmpty text)
  (pieces.foldl (fun (array, offset) piece => Utf8.putAll array offset piece) (List.replicate (encodedSize pieces) 0, 0)).1

/-! ## Into an array -/

/-- An array and the offset up to which it is written. -/
structure Written where
  array : Bytes
  offset : Nat
deriving DecidableEq, Repr

namespace Written

def put (written : Written) (c : Nat) : Written :=
  let (array, offset) := Utf8.put written.array written.offset c
  ⟨array, offset⟩

/-- Writes code points up to the first that does not fit below a limit; answers whether there was none. -/
def putFitting (limit : Nat) (written : Written) : List Nat → Written × Bool
  | [] => (written, true)
  | c :: rest => if limit < written.offset + Utf8.width c then (written, false) else (written.put c).putFitting limit rest

/-- Maps the code points of a text, and writes what they are mapped to as far as it fits below a limit. -/
def putMapped (mapping : CaseMapping) (limit : Nat) (written : Written) (text : Bytes) : Written :=
  match _found : Utf8.decode text with
  | none => written
  | some d =>
    match written.putFitting limit (mapping d.codepoint) with
    | (later, true) => later.putMapped mapping limit (text.drop d.length)
    | (later, false) => later
termination_by text.length
decreasing_by
  have := Utf8.decode_length _found
  simp only [List.length_drop]
  omega

end Written

/-- A mapped text written into an array, as many whole code points as fit with the NUL. -/
def mapInto (mapping : CaseMapping) (text : Option Text) (array : Bytes) : Bytes × Bytes :=
  if array = [] then ([], [])
  else
    let written := Written.putMapped mapping (array.length - 1) ⟨array, 0⟩ (Text.bytesOrEmpty text)
    endText written.array written.offset

/-! ## In place -/

/-- An array whose text is mapped in place, the number of code points that were changed, and of those that
could not be because their mapping has another size. -/
structure InPlace where
  bytes : Bytes
  changed : Nat
  skipped : Nat
deriving DecidableEq, Repr

namespace InPlace

/-- Maps the code point that was read at an offset. -/
def step (mapping : CaseMapping) (state : InPlace) (offset : Nat) (d : Utf8.Decoded) : InPlace :=
  match mapping d.codepoint with
  | [c] =>
    if c = d.codepoint then state
    else if Utf8.width c = d.length then
      { state with bytes := (Utf8.put state.bytes offset c).1, changed := state.changed + 1 }
    else { state with skipped := state.skipped + 1 }
  | _ => { state with skipped := state.skipped + 1 }

theorem length_step (mapping : CaseMapping) (state : InPlace) (offset : Nat) (d : Utf8.Decoded) :
    (state.step mapping offset d).bytes.length = state.bytes.length := by
  unfold step
  split
  · split
    · rfl
    · split
      · exact length_overwrite ..
      · rfl
  · rfl

/-- Maps the text from an offset on. Each sequence is read from the array as the mapping has left it so far. -/
def run (mapping : CaseMapping) (state : InPlace) (offset : Nat) : InPlace :=
  match _found : Utf8.decode (state.bytes.drop offset) with
  | none => state
  | some d => (state.step mapping offset d).run mapping (offset + d.length)
termination_by state.bytes.length - offset
decreasing_by
  have := Utf8.decode_length _found
  rw [List.length_drop] at this
  rw [length_step]
  omega

end InPlace

/-- Maps the text at the head of an array in place. -/
def mapInPlace (mapping : CaseMapping) (bytes : Bytes) : InPlace := InPlace.run mapping ⟨bytes, 0, 0⟩ 0

end Casing

end BoundedText
