import BoundedText.Proofs.CaseMappings
import BoundedText.Proofs.EncodedOccurrences
import BoundedText.Proofs.Strings

/-!
# Prefixes of mapped texts

A mapped text that is written into an array is cut where it no longer fits, and always between code points. Mapping
code points stops before the first that does not fit, which is the longest front of the mapped code points that
does (`isGreatest_fitting`); mapping Latin-1 letters cuts the encoded string and then moves back over the bytes that
continue a sequence, which comes to the last boundary before the cut (`isGreatest_boundary`). Both leave the longest
prefix of what mapping into new bytes gives (`mapped_prefixes`).
-/

namespace BoundedText
open Utf8

/-! ## Boundaries of encoded text -/

section boundaries
variable {codepoints : List Nat}

/-- No sequence goes on between two encodings. -/
theorem leads_between (front : List Nat) {back : List Nat} (scalars : ∀ c ∈ back, IsScalar c ∧ c ≠ 0) :
    ¬ ContinuesAt (encodeAll (front ++ back)) (encodeAll front).length := by
  intro continues
  rw [encodeAll_append, ← Nat.add_zero (encodeAll front).length, ← continuesAt_drop, List.drop_left] at continues
  cases back with
  | nil => cases continues
  | cons c back => exact encode_leads (List.forall_mem_cons.1 scalars).1 (encodeAll back) continues

private theorem textOf_encodeAll (scalars : ∀ c ∈ codepoints, IsScalar c ∧ c ≠ 0) :
    textOf (encodeAll codepoints) = encodeAll codepoints :=
  textOf_self (encodeAll_visible fun c member => ⟨(scalars c member).1.1, (scalars c member).2⟩)

/-- The boundaries of encoded text are the places where no sequence goes on. -/
theorem isBoundary_iff (scalars : ∀ c ∈ codepoints, IsScalar c ∧ c ≠ 0) {place : Nat} :
    IsBoundary (encodeAll codepoints) place ↔
      place ≤ (encodeAll codepoints).length ∧ ¬ ContinuesAt (encodeAll codepoints) place := by
  have text := textOf_encodeAll scalars
  have size : textLength (encodeAll codepoints) = (encodeAll codepoints).length := congrArg List.length text
  constructor
  · intro boundary
    obtain ⟨front, back, rfl, rfl⟩ := boundary.encoded scalars text
    refine ⟨?_, leads_between front fun c member => scalars c (List.mem_append_right _ member)⟩
    rw [encodeAll_append, List.length_append]
    exact Nat.le_add_right ..
  · rintro ⟨inside, leads⟩
    by_cases last : place = (encodeAll codepoints).length
    · exact .inr (last.trans size.symm)
    · obtain ⟨step, taken, place_eq⟩ := step_of_lead (by omega) leads 0
      exact .inl ⟨step, taken, by rw [place_eq, Nat.zero_add]⟩

private theorem isBoundary_front {front back : List Nat} (scalars : ∀ c ∈ front ++ back, IsScalar c ∧ c ≠ 0) :
    IsBoundary (encodeAll (front ++ back)) (encodeAll front).length := by
  refine (isBoundary_iff scalars).2 ⟨?_, leads_between front fun c member => scalars c (List.mem_append_right _ member)⟩
  rw [encodeAll_append, List.length_append]
  exact Nat.le_add_right ..

end boundaries

/-- A front of bytes is the longest that ends at a boundary of the text and has at most so many bytes. -/
def LongestFront (whole : Bytes) (limit : Nat) (front : Bytes) : Prop :=
  ∃ stop, IsGreatest {place | IsBoundary whole place ∧ place ≤ limit} stop ∧ front = whole.take stop

/-! ## Code points that fit -/

/-- The code points at the head of a list that fit into a number of bytes. -/
def fitting : Nat → List Nat → List Nat
  | _, [] => []
  | room, c :: rest => if width c ≤ room then c :: fitting (room - width c) rest else []

section fitting
variable {codepoints : List Nat}

private theorem fitting_prefix (room : Nat) (codepoints : List Nat) : fitting room codepoints <+: codepoints := by
  induction codepoints generalizing room with
  | nil => exact List.nil_prefix
  | cons c rest ih =>
    rw [fitting]
    split
    · exact List.cons_prefix_cons.2 ⟨rfl, ih _⟩
    · exact List.nil_prefix

private theorem fitting_le (inside : ∀ c ∈ codepoints, c ≤ maxCodepoint) (room : Nat) :
    (encodeAll (fitting room codepoints)).length ≤ room := by
  induction codepoints generalizing room with
  | nil => exact Nat.zero_le _
  | cons c rest ih =>
    obtain ⟨first, others⟩ := List.forall_mem_cons.1 inside
    rw [fitting]
    split
    · have later := ih others (room - width c)
      rw [encodeAll_cons, List.length_append, length_encode first]
      omega
    · exact Nat.zero_le _

/-- Any front of the code points that fits is a front of those that are taken. -/
theorem prefix_fitting (inside : ∀ c ∈ codepoints, c ≤ maxCodepoint) {front : List Nat} (begins : front <+: codepoints)
    {room : Nat} (fits : (encodeAll front).length ≤ room) : front <+: fitting room codepoints := by
  induction codepoints generalizing front room with
  | nil => exact begins
  | cons c rest ih =>
    obtain ⟨first, others⟩ := List.forall_mem_cons.1 inside
    cases front with
    | nil => exact List.nil_prefix
    | cons d front =>
      obtain ⟨rfl, later⟩ := List.cons_prefix_cons.1 begins
      rw [encodeAll_cons, List.length_append, length_encode first] at fits
      rw [fitting, if_pos (by omega)]
      exact List.cons_prefix_cons.2 ⟨rfl, ih others later (by omega)⟩

private theorem fitting_append (inside : ∀ c ∈ codepoints, c ≤ maxCodepoint) (more : List Nat) (room : Nat) :
    fitting room (codepoints ++ more) =
      if fitting room codepoints = codepoints then codepoints ++ fitting (room - (encodeAll codepoints).length) more
      else fitting room codepoints := by
  induction codepoints generalizing room with
  | nil => rfl
  | cons c rest ih =>
    obtain ⟨first, others⟩ := List.forall_mem_cons.1 inside
    rw [List.cons_append, fitting, fitting]
    split
    · have left : room - (encodeAll (c :: rest)).length = room - width c - (encodeAll rest).length := by
        rw [encodeAll_cons, List.length_append, length_encode first]
        omega
      rw [ih others, left]
      by_cases all : fitting (room - width c) rest = rest
      · rw [if_pos all, if_pos (by rw [all]), List.cons_append]
      · rw [if_neg all, if_neg fun same => all (List.cons.inj same).2]
    · rfl

private theorem take_fitting (room : Nat) (codepoints : List Nat) :
    (encodeAll codepoints).take (encodeAll (fitting room codepoints)).length = encodeAll (fitting room codepoints) := by
  obtain ⟨rest, whole⟩ := fitting_prefix room codepoints
  have begins : encodeAll (fitting room codepoints) <+: encodeAll codepoints :=
    ⟨encodeAll rest, by rw [← encodeAll_append, whole]⟩
  exact (List.prefix_iff_eq_take.1 begins).symm

/-- The code points that fit end at the last boundary that leaves enough room. -/
theorem isGreatest_fitting (scalars : ∀ c ∈ codepoints, IsScalar c ∧ c ≠ 0) (room : Nat) :
    IsGreatest {place | IsBoundary (encodeAll codepoints) place ∧ place ≤ room}
      (encodeAll (fitting room codepoints)).length := by
  have inside : ∀ c ∈ codepoints, c ≤ maxCodepoint := fun c member => (scalars c member).1.1
  constructor
  · obtain ⟨rest, whole⟩ := fitting_prefix room codepoints
    refine ⟨?_, fitting_le inside room⟩
    have boundary := @isBoundary_front (fitting room codepoints) rest (by rwa [whole])
    rwa [whole] at boundary
  · rintro place ⟨boundary, fits⟩
    obtain ⟨front, back, rfl, rfl⟩ := boundary.encoded scalars (textOf_encodeAll scalars)
    obtain ⟨more, whole⟩ := prefix_fitting inside (List.prefix_append front back) fits
    rw [← whole, encodeAll_append, List.length_append]
    exact Nat.le_add_right ..

end fitting

private theorem longestFront_fitting {codepoints : List Nat} (scalars : ∀ c ∈ codepoints, IsScalar c ∧ c ≠ 0)
    (room : Nat) :
    LongestFront (encodeAll codepoints) room (encodeAll (fitting room codepoints)) :=
  ⟨_, isGreatest_fitting scalars room, (take_fitting room codepoints).symm⟩

/-! ## Moving back to a boundary -/

section back
variable {bytes : Bytes}

private theorem boundary_le (bytes : Bytes) (offset : Nat) : Latin1.boundary bytes offset ≤ offset := by
  induction offset with
  | zero => exact Nat.le_refl 0
  | succ offset ih =>
    rw [Latin1.boundary]
    split
    · exact Nat.le_succ_of_le ih
    · exact Nat.le_refl _

/-- Moving back stops where no sequence goes on, unless one goes on at the very start. -/
theorem boundary_leads (starts : ¬ ContinuesAt bytes 0) (offset : Nat) :
    ¬ ContinuesAt bytes (Latin1.boundary bytes offset) := by
  induction offset with
  | zero => exact starts
  | succ offset ih =>
    rw [Latin1.boundary]
    split
    · exact ih
    · rename_i leads
      exact leads

/-- Every byte that is moved back over continues a sequence. -/
theorem continuesAt_of_boundary_lt {offset place : Nat} (past : Latin1.boundary bytes offset < place)
    (before : place ≤ offset) : ContinuesAt bytes place := by
  induction offset with
  | zero =>
    rw [Latin1.boundary] at past
    omega
  | succ offset ih =>
    rw [Latin1.boundary] at past
    split at past
    · rename_i continues
      by_cases last : place = offset + 1
      · rw [last]
        exact continues
      · exact ih past (by omega)
    · omega

end back

/-- Moving back in encoded text comes to the last boundary that leaves enough room. -/
theorem isGreatest_boundary {codepoints : List Nat} (scalars : ∀ c ∈ codepoints, IsScalar c ∧ c ≠ 0) (limit : Nat) :
    IsGreatest {place | IsBoundary (encodeAll codepoints) place ∧ place ≤ limit}
      (Latin1.boundary (encodeAll codepoints) (min (encodeAll codepoints).length limit)) := by
  have starts : ¬ ContinuesAt (encodeAll codepoints) 0 := leads_between [] scalars
  have within := boundary_le (encodeAll codepoints) (min (encodeAll codepoints).length limit)
  refine ⟨⟨(isBoundary_iff scalars).2 ⟨by omega, boundary_leads starts _⟩, by omega⟩, ?_⟩
  rintro place ⟨boundary, fits⟩
  obtain ⟨inside, leads⟩ := (isBoundary_iff scalars).1 boundary
  by_contra past
  exact leads (continuesAt_of_boundary_lt (Nat.lt_of_not_le past) (by omega))

private theorem longestFront_boundary {codepoints : List Nat} (scalars : ∀ c ∈ codepoints, IsScalar c ∧ c ≠ 0)
    (limit : Nat) :
    let whole := encodeAll codepoints
    LongestFront whole limit (whole.take (Latin1.boundary whole (min whole.length limit))) :=
  ⟨_, isGreatest_boundary scalars limit, rfl⟩

/-! ## Mapping into new bytes -/

namespace Casing

private theorem flatten_pieces (first rest : CaseMapping) (bytes : Bytes) :
    (pieces first rest bytes).flatten =
      ((codepointsOf bytes).take 1).flatMap first ++ ((codepointsOf bytes).drop 1).flatMap rest := by
  rw [pieces]
  cases codepointsOf bytes with
  | nil => rfl
  | cons c more =>
    rw [List.mapIdx_cons, List.flatten_cons, List.take_succ_cons, List.take_zero, List.flatMap_singleton,
      List.drop_succ_cons, List.drop_zero]
    refine congrArg (first c ++ ·) (congrArg List.flatten (List.ext_getElem ?_ ?_))
    · simp
    · intro i _ _
      simp

private theorem total_append (first second : List Nat) : total (first ++ second) = total first + total second := by
  induction first with
  | nil => exact (Nat.zero_add _).symm
  | cons n first ih => rw [List.cons_append, total, total, ih, Nat.add_assoc]

private theorem encodedSize_eq (pieces : List (List Nat)) : encodedSize pieces = total (pieces.flatten.map width) := by
  induction pieces with
  | nil => rfl
  | cons piece pieces ih =>
    rw [List.flatten_cons, List.map_append, total_append, ← ih]
    rfl

private theorem foldl_putAll (pieces : List (List Nat)) (array : Bytes) (offset : Nat) :
    pieces.foldl (fun (array, offset) piece => putAll array offset piece) (array, offset) =
      putAll array offset pieces.flatten := by
  rw [putAll, List.foldl_flatten]
  rfl

/-- Code points fill an array of the size of their encodings. -/
theorem putAll_replicate (codepoints : List Nat) :
    (putAll (List.replicate (encodeAll codepoints).length 0) 0 codepoints).1 = encodeAll codepoints := by
  rw [putAll_eq _ _ _ (by rw [List.length_replicate, Nat.zero_add])]
  rfl

/-- Mapping a text gives the encodings of what its code points are mapped to, and no more bytes than these. -/
theorem map_eq {first rest : CaseMapping} (mapsFirst : MapsScalars first) (mapsRest : MapsScalars rest)
    (text : Option Text) :
    let found := codepointsOf (Text.bytesOrEmpty text)
    map first rest text = encodeAll ((found.take 1).flatMap first ++ (found.drop 1).flatMap rest) := by
  intro found
  have known : ∀ c ∈ found, IsScalar c ∧ c ≠ 0 := fun c => scalar_of_mem_codepointsOf
  have inside : ∀ d ∈ (found.take 1).flatMap first ++ (found.drop 1).flatMap rest, d ≤ maxCodepoint := by
    intro d member
    rcases List.mem_append.1 member with early | late
    · exact (mapsFirst.flatMap (fun c taken => known c (List.mem_of_mem_take taken)) d early).1.1
    · exact (mapsRest.flatMap (fun c left => known c (List.mem_of_mem_drop left)) d late).1.1
  have size := length_encodeAll inside
  rw [map, foldl_putAll, encodedSize_eq, flatten_pieces, ← size]
  exact putAll_replicate _

/-! ## Mapping into an array -/

namespace Written

/-- Bytes written at the offset. -/
def write (written : Written) (bytes : Bytes) : Written :=
  ⟨overwrite written.array written.offset bytes, written.offset + bytes.length⟩

theorem write_nil (written : Written) : written.write [] = written := by simp [write, overwrite]

theorem write_write (written : Written) (first second : Bytes) :
    (written.write first).write second = written.write (first ++ second) := by
  simp [write, overwrite_overwrite, Nat.add_assoc]

private theorem put_eq (written : Written) (c : Nat) : written.put c = written.write (encode c) := rfl

/-- Code points are written as far as they fit below the limit; all of them were written when all fit. -/
theorem putFitting_eq {limit : Nat} {codepoints : List Nat} (inside : ∀ c ∈ codepoints, c ≤ maxCodepoint)
    (written : Written) (before : written.offset ≤ limit) :
    putFitting limit written codepoints =
      (written.write (encodeAll (fitting (limit - written.offset) codepoints)),
        decide (fitting (limit - written.offset) codepoints = codepoints)) := by
  induction codepoints generalizing written with
  | nil => simp [putFitting, fitting, encodeAll, write_nil]
  | cons c rest ih =>
    obtain ⟨first, others⟩ := List.forall_mem_cons.1 inside
    rw [putFitting, fitting]
    by_cases fits : width c ≤ limit - written.offset
    · have after : (written.put c).offset = written.offset + width c := congrArg (written.offset + ·) (length_encode first)
      rw [if_neg (by omega), if_pos fits, ih others (written.put c) (by omega), after, Nat.sub_add_eq, put_eq, write_write,
        encodeAll_cons]
      simp
    · rw [if_pos (by omega), if_neg fits]
      simp [encodeAll, write_nil]

/-- Mapping code point by code point, and stopping within one where need be, writes what fits of all of them. -/
theorem putMapped_eq {mapping : CaseMapping} (maps : MapsScalars mapping) {limit : Nat} (written : Written)
    (before : written.offset ≤ limit) (text : Bytes) :
    putMapped mapping limit written text =
      written.write (encodeAll (fitting (limit - written.offset) ((codepointsOf text).flatMap mapping))) := by
  fun_induction putMapped mapping limit written text with
  | case1 written text ended =>
    rw [codepointsOf_end ended]
    exact (write_nil written).symm
  | case2 written text d found later all ih =>
    -- All of a mapping fits here, so that the mappings after it have the room that it leaves.
    have inside := maps.inside found
    rw [putFitting_eq inside written before] at all
    obtain ⟨rfl, whole⟩ := Prod.mk.inj all
    have whole := of_decide_eq_true whole
    have fits := fitting_le inside (limit - written.offset)
    rw [whole] at ih fits
    rw [whole, ih (by dsimp only [write]; omega), write_write, ← encodeAll_append, codepointsOf_next found, List.flatMap_cons,
      fitting_append inside, if_pos whole]
    dsimp only [write]
    rw [Nat.sub_add_eq]
  | case3 written text d found later cut =>
    -- A mapping that is cut, or left out, is the last.
    have inside := maps.inside found
    rw [putFitting_eq inside written before] at cut
    obtain ⟨rfl, stopped⟩ := Prod.mk.inj cut
    rw [codepointsOf_next found, List.flatMap_cons, fitting_append inside, if_neg (of_decide_eq_false stopped)]

end Written

end Casing

/-! ## Texts placed in an array -/

/-- A result answers a text that stands at the head of the array, with one NUL after it and the rest of the array
as it was. -/
def Placed (text array : Bytes) (result : Bytes × Bytes) : Prop :=
  result = (text, text ++ 0 :: array.drop (text.length + 1))

section placed
variable {text array : Bytes}

private theorem endText_eq (fits : text.length < array.length) (begins : array.take text.length = text) :
    Placed text array (endText array text.length) := by
  have ended : overwrite array text.length [0] = text ++ 0 :: array.drop (text.length + 1) := by
    rw [overwrite_eq _ _ _ fits, begins, List.append_assoc]
    rfl
  rw [Placed, endText, ended, List.take_left]

private theorem placeText_eq (fits : text.length < array.length) : Placed text array (placeText text array) := by
  have inside : 0 + text.length ≤ array.length := by omega
  have begins := take_overwrite array 0 text inside
  have after := drop_overwrite array 0 text inside
  rw [Nat.zero_add] at begins after
  have placed := @endText_eq text (overwrite array 0 text) (by rwa [length_overwrite]) begins
  rwa [Placed, ← List.drop_drop, after, List.drop_drop] at placed

end placed

/-- Mapping into an array places the code points that fit with the NUL. -/
theorem Casing.mapInto_eq {mapping : CaseMapping} (maps : MapsScalars mapping) (text : Option Text) {array : Bytes}
    (nonempty : array ≠ []) :
    Placed (encodeAll (fitting (array.length - 1) ((codepointsOf (Text.bytesOrEmpty text)).flatMap mapping))) array
      (mapInto mapping text array) := by
  have room : 0 < array.length := List.length_pos_iff.2 nonempty
  have inside : ∀ d ∈ (codepointsOf (Text.bytesOrEmpty text)).flatMap mapping, d ≤ maxCodepoint :=
    fun d member => (maps.flatMap (fun c => scalar_of_mem_codepointsOf) d member).1.1
  have fits := Nat.lt_of_le_of_lt (fitting_le inside (array.length - 1)) (Nat.sub_one_lt_of_lt room)
  have placed := placeText_eq fits
  rw [mapInto, if_neg nonempty, Written.putMapped_eq maps _ (Nat.zero_le _)]
  simpa only [placeText, Written.write, Nat.zero_add, Nat.sub_zero] using placed

/-! ## Latin-1 letters of strings -/

namespace Latin1

private theorem toUpper_visible {b : UInt8} (visible : b ≠ 0) : toUpper b ≠ 0 := by
  unfold toUpper
  split
  · rename_i lower
    intro nul
    have space : b = 0x20 := by grind
    rw [space] at lower
    exact absurd lower (by decide)
  · exact visible

private theorem toLower_visible {b : UInt8} (visible : b ≠ 0) : toLower b ≠ 0 := by
  unfold toLower
  split
  · rename_i upper
    intro nul
    have past : b = 0xE0 := by grind
    rw [past] at upper
    exact absurd upper (by decide)
  · exact visible

namespace Mapping

/-- A mapping gives NUL for no other byte. -/
def KeepsVisible (letters : Mapping) : Prop := ∀ b, b ≠ 0 → letters.first b ≠ 0 ∧ letters.rest b ≠ 0

private theorem keepsVisible : ∀ letters ∈ [upper, lower, initial], KeepsVisible letters := by
  simp only [List.forall_mem_cons]
  exact ⟨fun b visible => ⟨toUpper_visible visible, toUpper_visible visible⟩,
    fun b visible => ⟨toLower_visible visible, toLower_visible visible⟩,
    fun b visible => ⟨toUpper_visible visible, toLower_visible visible⟩, List.forall_mem_nil _⟩

private theorem onUnit_visible {letter : UInt8 → UInt8} (keeps : ∀ b, b ≠ 0 → letter b ≠ 0) {u : UInt16}
    (visible : u ≠ 0) :
    onUnit letter u ≠ 0 := by
  unfold onUnit
  split
  · rename_i latin
    have range : u.toNat ≤ 0xFF := UInt16.le_iff_toNat_le.1 latin
    have value : (UInt8.ofNat u.toNat).toNat = u.toNat := UInt8.toNat_ofNat_of_lt' (Nat.lt_succ_of_le range)
    have byte : UInt8.ofNat u.toNat ≠ 0 := fun nul => visible (UInt16.toNat_inj.1 (by rw [← value, nul]; rfl))
    exact fun nul => keeps _ byte (UInt8.toUInt16_inj.1 nul)
  · exact visible

private theorem zero_notMem_mapUnits {letters : Mapping} (keeps : letters.KeepsVisible) (units : Units) :
    0 ∉ letters.mapUnits units := by
  have visible : ∀ u ∈ units.takeWhile (· != 0), u ≠ 0 := fun u member => by simpa using List.mem_takeWhile_imp member
  unfold mapUnits
  split
  · exact List.not_mem_nil
  · rename_i u rest cut
    rw [cut] at visible
    obtain ⟨first, others⟩ := List.forall_mem_cons.1 visible
    intro member
    rcases List.mem_cons.1 member with head | later
    · exact onUnit_visible (fun b some => (keeps b some).1) first head.symm
    · obtain ⟨v, known, mapped⟩ := List.mem_map.1 later
      exact onUnit_visible (fun b some => (keeps b some).2) (others v known) mapped

end Mapping

end Latin1

/-! ## Mapped prefixes -/

/-- A result places as much of a text in an array as fits with the NUL and ends at a boundary. -/
def PlacedFront (whole array : Bytes) (result : Bytes × Bytes) : Prop :=
  ∃ front, LongestFront whole (array.length - 1) front ∧ Placed front array result

section main
variable {mapping : CaseMapping} {text : Option Text} {array : Bytes}

/-- One mapping for all code points gives the encodings of what they are mapped to. -/
theorem Casing.map_same (maps : MapsScalars mapping) (text : Option Text) :
    map mapping mapping text = encodeAll ((codepointsOf (Text.bytesOrEmpty text)).flatMap mapping) := by
  rw [map_eq maps maps, ← List.flatMap_append, List.take_append_drop]

private theorem Casing.mapInto_placedFront (maps : MapsScalars mapping) (nonempty : array ≠ []) :
    PlacedFront (map mapping mapping text) array (mapInto mapping text array) := by
  have scalars : ∀ d ∈ (codepointsOf (Text.bytesOrEmpty text)).flatMap mapping, IsScalar d ∧ d ≠ 0 :=
    maps.flatMap fun c => scalar_of_mem_codepointsOf
  rw [map_same maps]
  exact ⟨_, longestFront_fitting scalars _, mapInto_eq maps text nonempty⟩

/-- Mapping into an array places a mapped text up to where it is cut. -/
theorem Latin1.Mapping.mapInto_eq (letters : Mapping) (nonempty : array ≠ []) :
    let mapped := letters.map text
    let fitting := min mapped.length (array.length - 1)
    let stop :=
      match text with
      | some (.string _) => boundary mapped fitting
      | _ => fitting
    Placed (mapped.take stop) array (letters.mapInto text array) := by
  intro mapped fitting stop
  have room : 0 < array.length := List.length_pos_iff.2 nonempty
  have within : stop ≤ fitting := by
    dsimp only [stop]
    split
    · exact boundary_le _ _
    · exact Nat.le_refl _
  have fits : (mapped.take stop).length < array.length := by
    rw [List.length_take]
    omega
  rw [mapInto, if_neg nonempty]
  exact placeText_eq fits

private theorem Latin1.Mapping.mapInto_placedFront {letters : Mapping} (keeps : letters.KeepsVisible) (units : Units)
    (nonempty : array ≠ []) :
    PlacedFront (letters.map (some (.string units))) array (letters.mapInto (some (.string units)) array) := by
  obtain ⟨codepoints, scalars, whole⟩ := encoded_toUtf8 (zero_notMem_mapUnits keeps units)
  refine ⟨_, ?_, mapInto_eq letters nonempty⟩
  rw [map, whole]
  exact longestFront_boundary scalars _

/-- Mapping into an array gives the longest prefix of what mapping into new bytes gives. Whatever the code points
are mapped to, new bytes hold the encodings of what the code points of the text are mapped to, and nothing else. In
an array stands their longest front of whole code points that fits with the NUL. Latin-1 letters of a string are
placed in the same way, and those of bytes are cut after the last byte that fits. -/
theorem mapped_prefixes {first : CaseMapping} (mapsFirst : MapsScalars first) (maps : MapsScalars mapping)
    (text : Option Text) (nonempty : array ≠ []) :
    let found := codepointsOf (Text.bytesOrEmpty text)
    (Casing.map mapping mapping text = encodeAll (found.flatMap mapping) ∧
      Casing.map first mapping text = encodeAll ((found.take 1).flatMap first ++ (found.drop 1).flatMap mapping)) ∧
    PlacedFront (Casing.map mapping mapping text) array (Casing.mapInto mapping text array) ∧
    ∀ letters ∈ [Latin1.Mapping.upper, .lower, .initial],
      (∀ units, text = some (.string units) → PlacedFront (letters.map text) array (letters.mapInto text array)) ∧
      ((∀ units, text ≠ some (.string units)) →
        Placed ((letters.map text).take (min (letters.map text).length (array.length - 1))) array
          (letters.mapInto text array)) := by
  intro found
  refine ⟨⟨Casing.map_same maps text, Casing.map_eq mapsFirst maps text⟩, Casing.mapInto_placedFront maps nonempty, ?_⟩
  intro letters member
  constructor
  · rintro units rfl
    exact Latin1.Mapping.mapInto_placedFront (Latin1.Mapping.keepsVisible letters member) units nonempty
  · intro other
    have placed := @Latin1.Mapping.mapInto_eq text array letters nonempty
    cases text with
    | none => exact placed
    | some text =>
      cases text with
      | string units => exact absurd rfl (other units)
      | bytes bytes => exact placed

end main

/-- The theorem at a letter whose capitals are two, with room for one of them, and at a string that is cut before the
second byte of a letter. -/
theorem mapped_prefixes_expanding :
    let text : Option Text := some (.bytes [0xC3, 0x9F, 0x61])
    let string : Option Text := some (.string [0x61, 0xE9])
    (MapsScalars capitalOf ∧ MapsScalars smallOf ∧ ([1, 1] : Bytes) ≠ [] ∧ ([1, 1, 1] : Bytes) ≠ []) ∧
    Casing.map capitalOf capitalOf text = encodeAll [0x53, 0x53, 0x41] ∧
    PlacedFront (Casing.map capitalOf capitalOf text) [1, 1] ([0x53], [0x53, 0]) ∧
    PlacedFront (Latin1.Mapping.upper.map string) [1, 1, 1] ([0x41], [0x41, 0, 1]) := by
  intro text string
  have bytes := mapped_prefixes smallOf_maps capitalOf_maps text (show ([1, 1] : Bytes) ≠ [] by decide)
  have units := mapped_prefixes smallOf_maps capitalOf_maps string (show ([1, 1, 1] : Bytes) ≠ [] by decide)
  have short : Casing.mapInto capitalOf text [1, 1] = ([0x53], [0x53, 0]) := by decide +kernel
  have cut : Latin1.Mapping.upper.mapInto string [1, 1, 1] = ([0x41], [0x41, 0, 1]) := by decide
  have found : (codepointsOf (Text.bytesOrEmpty text)).flatMap capitalOf = [0x53, 0x53, 0x41] := by decide +kernel
  refine ⟨⟨capitalOf_maps, smallOf_maps, by decide, by decide⟩, found ▸ bytes.1.1, short ▸ bytes.2.1, ?_⟩
  rw [← cut]
  exact (units.2.2 _ List.mem_cons_self).1 _ rfl

end BoundedText
