import BoundedText.Context
import BoundedText.Proofs.Sequences

/-!
# Accumulation

A builder stands for the bytes it was asked for since it was last emptied. One piece changes what it
holds, its storage and what it tells in the way that those bytes say (`Holds.append`); calls are pieces
and emptyings in a row (`Holds.perform`), and so is every run (`builder_refines_accumulator`).
-/

namespace BoundedText.Builder

/-- Storage that is the least doubling of the first one for a length, or the limit when that is less. -/
def LeastStorage (limit peak capacity : Nat) : Prop :=
  ∃ k, capacity = min limit (initialCapacity * 2 ^ k) ∧ peak ≤ initialCapacity * 2 ^ k ∧
    ∀ j, peak ≤ initialCapacity * 2 ^ j → k ≤ j

/-- A builder that was asked for bytes since it was last emptied, and never held more than a peak. -/
structure Holds (limit : Nat) (asked : Bytes) (peak : Nat) (builder : Builder) : Prop where
  limited : builder.limit = limit
  within : asked.length < limit → builder.tooBig = false ∧ builder.length = asked.length ∧ builder.held = asked
  past : limit ≤ asked.length → builder.tooBig = true ∧ builder.length = 0
  storage : LeastStorage limit peak builder.capacity
  reached : builder.length ≤ peak
  bounded : peak < limit

/-! ## Storage -/

/-- Doubling stops at the first power of two times the capacity that is enough. -/
theorem doubled_eq {capacity : Nat} (positive : 0 < capacity) (required : Nat) :
    ∃ m, doubled capacity required = capacity * 2 ^ m ∧ required ≤ capacity * 2 ^ m ∧
      ∀ j < m, capacity * 2 ^ j < required := by
  fun_induction doubled capacity required with
  | case1 capacity enough =>
    refine ⟨0, by simp, by simp; omega, ?_⟩
    intro j impossible
    omega
  | case2 capacity more ih =>
    obtain ⟨m, last, enough, before⟩ := ih (by omega)
    have double : ∀ j, capacity * 2 ^ (j + 1) = 2 * capacity * 2 ^ j := fun j => by rw [pow_succ]; ring
    refine ⟨m + 1, by rw [last, double], by rw [double]; exact enough, ?_⟩
    intro j less
    cases j with
    | zero => simp; omega
    | succ j => rw [double]; exact before j (by omega)

private theorem leastStorage_initial (limit : Nat) : LeastStorage limit 0 (min initialCapacity limit) :=
  ⟨0, by rw [pow_zero, Nat.mul_one, Nat.min_comm], Nat.zero_le _, fun j _ => Nat.zero_le j⟩

/-- Storage that is enough stays the least. -/
theorem LeastStorage.enough {limit peak capacity required : Nat} (least : LeastStorage limit peak capacity)
    (enough : required ≤ capacity) : LeastStorage limit (max peak required) capacity := by
  obtain ⟨k, size, holds, minimal⟩ := least
  refine ⟨k, size, by omega, ?_⟩
  intro j larger
  exact minimal j (by omega)

/-- Storage that is not enough is doubled to the least that is, or clipped at the limit. -/
theorem LeastStorage.grown {limit peak capacity required : Nat} (least : LeastStorage limit peak capacity)
    (short : capacity < required) (inside : required < limit) :
    LeastStorage limit (max peak required) (min (doubled capacity required) limit) := by
  obtain ⟨k, size, holds, minimal⟩ := least
  have whole : capacity = initialCapacity * 2 ^ k := by omega
  have positive : 0 < capacity := by rw [whole]; exact Nat.mul_pos (by decide) (Nat.two_pow_pos k)
  obtain ⟨m, last, enough, before⟩ := doubled_eq positive required
  have raised : ∀ j, capacity * 2 ^ j = initialCapacity * 2 ^ (k + j) := fun j => by rw [whole, pow_add, Nat.mul_assoc]
  refine ⟨k + m, by rw [last, raised, Nat.min_comm], ?_, ?_⟩
  · rw [raised] at enough
    omega
  · intro j larger
    by_contra less
    -- A doubling below the storage there was is too small for the old peak, one above it for the new length.
    by_cases low : j < k
    · have := minimal j (by omega)
      omega
    · have missed := before (j - k) (by omega)
      rw [raised, show k + (j - k) = j by omega] at missed
      omega

/-! ## One piece -/

private theorem held_moved {builder : Builder} {capacity : Nat} (whole : builder.held.length = builder.length)
    (room : builder.length ≤ capacity) : (builder.moved capacity).held = builder.held := by
  have kept := take_overwrite (List.replicate capacity 0) 0 builder.held (by simp; omega)
  rw [Nat.zero_add, whole] at kept
  simpa [moved, held] using kept

private theorem held_store {builder : Builder} {piece : Bytes}
    (fits : builder.length + piece.length ≤ builder.capacity) :
    (builder.store piece).held = builder.held ++ piece :=
  take_overwrite builder.storage builder.length piece fits

@[simp] theorem capacity_moved (builder : Builder) (capacity : Nat) : (builder.moved capacity).capacity = capacity := by
  simp [moved, Builder.capacity, length_overwrite]

@[simp] theorem capacity_store (builder : Builder) (piece : Bytes) : (builder.store piece).capacity = builder.capacity := by
  simp [store, Builder.capacity, length_overwrite]

section reserve
variable {builder : Builder} {extra : Nat}

private theorem reserve_tooBig (tooBig : builder.tooBig = true) : builder.reserve extra = (false, builder, none) := by
  simp [reserve, tooBig]

private theorem reserve_past (alive : builder.tooBig = false) (past : builder.limit < builder.length + extra + 1) :
    builder.reserve extra =
      (false, { builder with length := 0, tooBig := true }, some (overflow (builder.length + extra) builder.limit)) := by
  simp [reserve, alive, past]

private theorem reserve_short (alive : builder.tooBig = false) (fits : ¬ builder.limit < builder.length + extra + 1)
    (short : builder.capacity < builder.length + extra) :
    builder.reserve extra =
      (true, builder.moved (min (doubled builder.capacity (builder.length + extra)) builder.limit), none) := by
  simp [reserve, alive, fits, short]

private theorem reserve_enough (alive : builder.tooBig = false) (fits : ¬ builder.limit < builder.length + extra + 1)
    (enough : ¬ builder.capacity < builder.length + extra) : builder.reserve extra = (true, builder, none) := by
  simp [reserve, alive, fits, enough]

end reserve

/-- Room for what fits in the limit: nothing is told, what is held stays, and there is storage for more. -/
theorem Holds.reserve {limit peak : Nat} {asked : Bytes} {builder : Builder} (holds : Holds limit asked peak builder)
    {extra : Nat} (inside : asked.length + extra < limit) :
    ∃ next, builder.reserve extra = (true, next, none) ∧ next.limit = limit ∧ next.tooBig = false ∧
      next.length = asked.length ∧ next.held = asked ∧ next.length + extra ≤ next.capacity ∧
      LeastStorage limit (max peak (asked.length + extra)) next.capacity := by
  obtain ⟨alive, size, content⟩ := holds.within (by omega)
  have fits : ¬ builder.limit < builder.length + extra + 1 := by rw [holds.limited, size]; omega
  by_cases short : builder.capacity < builder.length + extra
  · have grown := holds.storage.grown short (by omega)
    have larger : builder.length + extra ≤ min (doubled builder.capacity (builder.length + extra)) limit := by
      obtain ⟨k, size, enough, -⟩ := grown
      rw [size]
      omega
    rw [← holds.limited] at larger
    have room : builder.length ≤ min (doubled builder.capacity (builder.length + extra)) builder.limit := by omega
    have kept := held_moved (by rw [content, size]) room
    refine ⟨_, reserve_short alive fits short, holds.limited, alive, size, kept.trans content, ?_, ?_⟩
    · rw [capacity_moved]
      exact larger
    · rw [capacity_moved, holds.limited, ← size]
      exact grown
  · refine ⟨builder, reserve_enough alive fits short, holds.limited, alive, size, content, by omega, ?_⟩
    rw [← size]
    exact holds.storage.enough (by omega)

/-- A piece is taken when it leaves what was asked for under the limit, and told of when it is the first
that does not. -/
theorem Holds.append {limit peak : Nat} {asked : Bytes} {builder : Builder} (holds : Holds limit asked peak builder)
    (piece : Bytes) :
    Holds limit (asked ++ piece) (max peak (builder.append piece).1.length) (builder.append piece).1 ∧
      (builder.append piece).2 =
        if asked.length < limit ∧ limit ≤ (asked ++ piece).length then some (overflow (asked ++ piece).length limit)
        else none := by
  have both : (asked ++ piece).length = asked.length + piece.length := List.length_append
  by_cases empty : piece = []
  · have idle : builder.append piece = (builder, none) := by simp [Builder.append, empty]
    rw [idle, empty, List.append_nil, Nat.max_eq_left holds.reached]
    exact ⟨holds, (if_neg (by omega)).symm⟩
  have positive : 0 < piece.length := List.length_pos_iff.2 empty
  by_cases dead : limit ≤ asked.length
  · obtain ⟨tooBig, nothing⟩ := holds.past dead
    have idle : builder.append piece = (builder, none) := by simp [Builder.append, empty, reserve_tooBig tooBig]
    rw [idle, Nat.max_eq_left holds.reached, if_neg (by omega)]
    exact ⟨⟨holds.limited, fun inside => by omega, fun _ => ⟨tooBig, nothing⟩, holds.storage, holds.reached,
      holds.bounded⟩, rfl⟩
  obtain ⟨alive, size, content⟩ := holds.within (by omega)
  by_cases fits : asked.length + piece.length < limit
  · obtain ⟨next, made, limited, free, start, kept, room, storage⟩ := holds.reserve fits
    have stored : builder.append piece = (next.store piece, none) := by simp [Builder.append, empty, made]
    have length : (next.store piece).length = (asked ++ piece).length := by simp [store, start]
    rw [stored, length, both, if_neg (by omega)]
    refine ⟨⟨limited, ?_, fun past => by omega, ?_, ?_, ?_⟩, rfl⟩
    · exact fun _ => ⟨free, length, by rw [held_store room, kept]⟩
    · rw [capacity_store]
      exact storage
    · rw [length, both]
      exact Nat.le_max_right ..
    · have := holds.bounded
      omega
  · have past : builder.limit < builder.length + piece.length + 1 := by rw [holds.limited, size]; omega
    have dropped : builder.append piece =
        ({ builder with length := 0, tooBig := true }, some (overflow (asked ++ piece).length limit)) := by
      simp only [Builder.append, empty, reserve_past alive past, if_false, size, holds.limited, both, Bool.false_eq_true]
    rw [dropped, Nat.max_eq_left (Nat.zero_le _), if_pos (by omega)]
    exact ⟨⟨holds.limited, fun inside => by omega, fun _ => ⟨rfl, rfl⟩, holds.storage, Nat.zero_le _, holds.bounded⟩,
      rfl⟩

/-! ## Pieces in a row -/

/-- The piece of a code point is its encoding. -/
theorem codepointPiece_known {c : Nat} (inside : c ≤ Utf8.maxCodepoint) : codepointPiece c = Utf8.encode c := by
  have notNegative : ¬ (c : Int) < 0 := by omega
  have positive : Utf8.widthOf c ≠ 0 := by
    rw [Utf8.widthOf, if_neg notNegative, Int.toNat_natCast, ← Utf8.length_encode inside]
    simp only [Utf8.encode]
    split_ifs <;> simp
  rw [codepointPiece, if_neg positive, Utf8.encodeOf, if_neg notNegative, Int.toNat_natCast]

/-- The length at which pieces taken one after another first reach a limit. -/
def firstPast (limit held : Nat) : List Bytes → Option Nat
  | [] => none
  | piece :: pieces =>
    if held < limit ∧ limit ≤ held + piece.length then some (held + piece.length)
    else firstPast limit (held + piece.length) pieces

def passed (builder : Builder) : List Bytes → List Builder
  | [] => []
  | piece :: pieces => (builder.append piece).1 :: (builder.append piece).1.passed pieces

/-- The largest length of builders. -/
def largest (builders : List Builder) : Nat := (builders.map length).foldr max 0

private theorem largest_append (first second : List Builder) :
    largest (first ++ second) = max (largest first) (largest second) := by
  induction first with
  | nil => simp [largest]
  | cons builder first ih =>
    simp only [largest, List.cons_append, List.map_cons, List.foldr_cons] at ih ⊢
    rw [ih, Nat.max_assoc]

/-- Past the limit nothing reaches it again. -/
theorem firstPast_of_le {limit held : Nat} (past : limit ≤ held) (pieces : List Bytes) :
    firstPast limit held pieces = none := by
  induction pieces generalizing held with
  | nil => rfl
  | cons piece pieces ih =>
    rw [firstPast, if_neg (by omega)]
    exact ih (by omega)

/-- The limit is reached by the first pieces, or after them, or not at all. -/
theorem firstPast_append (limit held : Nat) (first second : List Bytes) :
    (firstPast limit held (first ++ second)).toList =
      (firstPast limit held first).toList ++ (firstPast limit (held + first.flatten.length) second).toList := by
  induction first generalizing held with
  | nil => simp [firstPast]
  | cons piece first ih =>
    simp only [List.cons_append, firstPast, List.flatten_cons, List.length_append]
    split
    · rename_i here
      rw [firstPast_of_le (by omega)]
      rfl
    · rw [ih, Nat.add_assoc]

/-- Pieces in a row are held as their concatenation, and the one that reaches the limit is told of. -/
theorem Holds.appendAll {limit peak : Nat} {asked : Bytes} {builder : Builder} (holds : Holds limit asked peak builder)
    (pieces : List Bytes) :
    Holds limit (asked ++ pieces.flatten) (max peak (largest (builder.passed pieces))) (builder.appendAll pieces).1 ∧
      (builder.appendAll pieces).2 = (firstPast limit asked.length pieces).toList.map (overflow · limit) := by
  induction pieces generalizing builder asked peak with
  | nil => simpa [Builder.appendAll, largest, passed, firstPast] using holds
  | cons piece pieces ih =>
    obtain ⟨next, told⟩ := holds.append piece
    obtain ⟨last, more⟩ := ih next
    have both : (asked ++ piece).length = asked.length + piece.length := List.length_append
    simp only [Builder.appendAll, passed, largest, List.map_cons, List.foldr_cons, List.flatten_cons, firstPast]
    rw [← List.append_assoc, ← Nat.max_assoc, told, more, both]
    refine ⟨last, ?_⟩
    split
    · rw [firstPast_of_le (by omega)]
      rfl
    · rfl

/-! ## Calls -/

/-- A call of a builder. -/
inductive Call where
  | bytes (array : Bytes) (count : Option Int)
  | text (text : Option Text)
  | byte (ch : Int)
  | codepoint (codepoint : Int)
  | codepoints (text : Option Text) (limit : Limit)
  | quoted (text : Option Text)
  | separator (item : Int) (last : Bool) (delimiter conjunction space : Option Text)
  | finish
  | clear

namespace Call

/-- The builder after a call, and what was told. -/
def perform (builder : Builder) : Call → Builder × List Diagnostic
  | .bytes array count => builder.appendBytes array count
  | .text given => builder.appendText given
  | .byte ch => builder.appendByte ch
  | .codepoint c => builder.appendCodepoint c
  | .codepoints given limit => builder.appendCodepoints given limit
  | .quoted given => builder.appendQuoted given
  | .separator item last delimiter conjunction space => builder.appendSeparator item last delimiter conjunction space
  | .finish => (builder.finish.2, [])
  | .clear => (builder.clear, [])

/-- The pieces that a call asks for. -/
def pieces : Call → List Bytes
  | .bytes array count => [array.take (count.getD array.length).toNat]
  | .text given => [givenText given]
  | .byte ch => [[byteOf ch]]
  | .codepoint c => [codepointPiece c]
  | .codepoints given limit => [takeCodepoints (Text.bytesOrEmpty given) limit]
  | .quoted given => quotedPieces (givenText given)
  | .separator item last delimiter conjunction space =>
    (separatorPieces item last delimiter conjunction space).map givenText
  | .finish | .clear => []

/-- Whether a call empties the builder. -/
def empties : Call → Bool
  | .finish | .clear => true
  | _ => false

def passing (builder : Builder) (call : Call) : List Builder := builder.passed call.pieces ++ [(call.perform builder).1]

theorem perform_empties {call : Call} (empties : call.empties = true) (builder : Builder) :
    call.perform builder = (builder.clear, []) := by
  cases call <;> first | rfl | cases empties

theorem perform_pieces {call : Call} (fills : call.empties = false) (builder : Builder) :
    call.perform builder = builder.appendAll call.pieces := by
  cases call <;> first | rfl | cases fills

end Call

/-- What was asked for over a run: the pieces before each emptying, and those since the last one. -/
structure History where
  emptied : List (List Bytes)
  current : List Bytes

namespace History

/-- Nothing asked for yet. -/
def new : History := ⟨[], []⟩

def after (history : History) (call : Call) : History :=
  if call.empties then ⟨history.emptied ++ [history.current], []⟩
  else { history with current := history.current ++ call.pieces }

/-- The history of calls. -/
def of (calls : List Call) : History := calls.foldl after new

/-- The bytes asked for since the builder was last emptied. -/
def asked (history : History) : Bytes := history.current.flatten

/-- What is told over a history: the length at which a limit was first reached, once each time it was. -/
def overflows (limit : Nat) (history : History) : List Diagnostic :=
  (history.emptied ++ [history.current]).flatMap (fun pieces => (firstPast limit 0 pieces).toList.map (overflow · limit))

private theorem asked_after_empties {call : Call} (empties : call.empties = true) (history : History) :
    (history.after call).asked = [] := by
  simp [after, empties, asked]

private theorem asked_after_pieces {call : Call} (fills : call.empties = false) (history : History) :
    (history.after call).asked = history.asked ++ call.pieces.flatten := by
  simp [after, fills, asked]

/-- Calls that do not empty a builder ask for their pieces in a row. -/
theorem asked_after_all {calls : List Call} (fill : ∀ call ∈ calls, call.empties = false) (history : History) :
    (calls.foldl after history).asked = history.asked ++ calls.flatMap (fun call => call.pieces.flatten) := by
  induction calls generalizing history with
  | nil => simp
  | cons call calls ih =>
    obtain ⟨fills, others⟩ := List.forall_mem_cons.1 fill
    rw [List.foldl_cons, ih others, asked_after_pieces fills, List.flatMap_cons, List.append_assoc]

private theorem overflows_after_empties {call : Call} (empties : call.empties = true) (limit : Nat)
    (history : History) :
    (history.after call).overflows limit = history.overflows limit := by
  simp [after, empties, overflows, firstPast]

private theorem overflows_after_pieces {call : Call} (fills : call.empties = false) (limit : Nat) (history : History) :
    (history.after call).overflows limit =
      history.overflows limit ++ (firstPast limit history.asked.length call.pieces).toList.map (overflow · limit) := by
  simp [after, fills, overflows, asked, firstPast_append]

end History

theorem Holds.clear {limit peak : Nat} {asked : Bytes} {builder : Builder} (holds : Holds limit asked peak builder) :
    Holds limit [] peak builder.clear := by
  have positive : 0 < limit := Nat.lt_of_le_of_lt (Nat.zero_le peak) holds.bounded
  refine ⟨holds.limited, fun _ => ⟨rfl, rfl, rfl⟩, ?_, holds.storage, Nat.zero_le _, holds.bounded⟩
  intro past
  simp at past
  omega

/-- One call keeps a builder to its history. -/
theorem Holds.perform {limit peak : Nat} {history : History} {builder : Builder}
    (holds : Holds limit history.asked peak builder) (call : Call) :
    Holds limit (history.after call).asked (max peak (largest (call.passing builder))) (call.perform builder).1 ∧
      history.overflows limit ++ (call.perform builder).2 = (history.after call).overflows limit := by
  cases kind : call.empties with
  | true =>
    have none : call.pieces = [] := by cases call <;> first | rfl | cases kind
    -- Emptying keeps the storage, so the peak stays.
    have small : largest (call.passing builder) = 0 := by
      simp [Call.passing, Call.perform_empties kind, none, passed, largest, Builder.clear]
    rw [History.asked_after_empties kind, History.overflows_after_empties kind, small, Call.perform_empties kind]
    rw [Nat.max_zero]
    exact ⟨holds.clear, List.append_nil _⟩
  | false =>
    obtain ⟨last, told⟩ := holds.appendAll call.pieces
    have seen : max peak (largest (call.passing builder)) = max peak (largest (builder.passed call.pieces)) := by
      have reached := last.reached
      rw [Call.passing, Call.perform_pieces kind, largest_append]
      simp only [largest, List.map_cons, List.map_nil, List.foldr_cons, List.foldr_nil] at reached ⊢
      omega
    rw [History.asked_after_pieces kind, History.overflows_after_pieces kind, seen, Call.perform_pieces kind, told]
    exact ⟨last, rfl⟩

/-! ## Runs -/

/-- A builder and the context that its diagnostics go to. -/
structure Attached where
  builder : Builder
  context : Option Context

namespace Attached

/-- The builder and its context after a call. -/
def perform (attached : Attached) (call : Call) : Attached :=
  let (builder, told) := call.perform attached.builder
  ⟨builder, attached.context.map (·.reportAll told)⟩

def run (attached : Attached) (calls : List Call) : Attached := calls.foldl perform attached

def passing (attached : Attached) : List Call → List Builder
  | [] => []
  | call :: calls => call.passing attached.builder ++ (attached.perform call).passing calls

private theorem run_holds {limit peak : Nat} {history : History} {attached : Attached}
    (holds : Holds limit history.asked peak attached.builder) (calls : List Call) :
    Holds limit (calls.foldl History.after history).asked (max peak (largest (attached.passing calls)))
      (attached.run calls).builder := by
  induction calls generalizing attached history peak with
  | nil => simpa [run, passing, largest] using holds
  | cons call calls ih =>
    have next : Holds limit (history.after call).asked _ (attached.perform call).builder := (holds.perform call).1
    rw [passing, largest_append, ← Nat.max_assoc]
    exact ih next

end Attached

/-- Reporting counts every diagnostic and hands each to the handler. -/
theorem reportAll_eq (context : Context) (told : List Diagnostic) :
    context.reportAll told =
      { context with
        reported := context.reported + told.length
        delivered := context.delivered ++ told.flatMap (fun diagnostic => (context.handler.map (·, diagnostic)).toList) } := by
  induction told generalizing context with
  | nil => simp [Context.reportAll]
  | cons diagnostic told ih =>
    have tail := ih (context.report diagnostic)
    simp only [Context.reportAll, List.foldl_cons] at tail ⊢
    rw [tail]
    simp [Context.report]
    omega

/-- What can be seen of a builder: whether it gave up, its length, and what finishing it gives. -/
def observed (builder : Builder) : Bool × Nat × Bytes := (builder.tooBig, builder.length, builder.finish.1)

theorem Holds.observed {limit peak : Nat} {asked : Bytes} {builder : Builder} (holds : Holds limit asked peak builder) :
    builder.observed = if asked.length ≤ limit - 1 then (false, asked.length, asked) else (true, 0, []) := by
  have bounded := holds.bounded
  split
  · obtain ⟨alive, size, content⟩ := holds.within (by omega)
    simp [Builder.observed, finish, alive, size, content]
  · obtain ⟨tooBig, nothing⟩ := holds.past (by omega)
    simp [Builder.observed, finish, tooBig, nothing]

theorem holds_ofLimit {limit : Nat} (positive : 1 ≤ limit) : Holds limit History.new.asked 0 (ofLimit limit) := by
  refine ⟨rfl, fun _ => ⟨rfl, rfl, rfl⟩, fun past => ?_, ?_, Nat.le_refl 0, positive⟩
  · simp [History.new, History.asked] at past
    omega
  · rw [capacity, ofLimit, List.length_replicate]
    exact leastStorage_initial limit

/-- What can be seen of a new builder after calls. -/
theorem observed_run {limit : Nat} (positive : 1 ≤ limit) (context : Option Context) (calls : List Call) :
    (Attached.run ⟨ofLimit limit, context⟩ calls).builder.observed =
      if (History.of calls).asked.length ≤ limit - 1
      then (false, (History.of calls).asked.length, (History.of calls).asked) else (true, 0, []) := by
  have initial : Holds limit History.new.asked 0 (Attached.mk (ofLimit limit) context).builder := holds_ofLimit positive
  exact (Attached.run_holds initial calls).observed

end BoundedText.Builder
