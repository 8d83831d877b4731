import BoundedText.MarginScan
import BoundedText.Proofs.Sessions

/-!
# Faults of cluster operations

Where the platform refuses the locale of a context that was given no segmenter, an operation on clusters is at fault
as soon as it has a text to look at; nothing else puts one at fault. Whether a context lacks a segmenter in that way is
settled when it is created (`Session.run_lacksSegmenter`), and the operations differ in what text they look at only
(`Session.cluster_faults`).
-/

namespace BoundedText

/-! ## Faults -/

/-- A result that is the fault of a locale when a condition holds, and an answer when it does not. -/
def FaultsWhen {α : Type} (condition : Prop) (result : Except Fault α) : Prop :=
  (condition → result = .error .locale) ∧ (¬ condition → ∃ answer, result = .ok answer)

namespace FaultsWhen
variable {α β : Type} {condition : Prop} {result : Except Fault α}

theorem map (f : α → β) (faults : FaultsWhen condition result) : FaultsWhen condition (result.map f) := by
  refine ⟨fun lacking => by rw [faults.1 lacking]; rfl, fun having => ?_⟩
  obtain ⟨answer, found⟩ := faults.2 having
  exact ⟨f answer, by rw [found]; rfl⟩

/-- What goes on with an answer without a fault of its own. -/
theorem bind {more : α → Except Fault β} (faults : FaultsWhen condition result)
    (goes : ¬ condition → ∀ answer, ∃ later, more answer = .ok later) : FaultsWhen condition (result >>= more) := by
  refine ⟨fun lacking => by rw [faults.1 lacking]; rfl, fun having => ?_⟩
  obtain ⟨answer, found⟩ := faults.2 having
  obtain ⟨later, went⟩ := goes having answer
  exact ⟨later, by rw [found]; exact went⟩

theorem congr {other : Prop} (faults : FaultsWhen condition result) (same : condition ↔ other) :
    FaultsWhen other result := propext same ▸ faults

end FaultsWhen

/-! ## Contexts -/

namespace Context

/-- A context that was given no segmenter, and whose locale the platform refuses. -/
def LacksSegmenter (context : Context) : Prop := context.segmenter = .unopened ∧ context.localeAccepted = false

private theorem openSegmenter_faults (context : Context) : FaultsWhen context.LacksSegmenter context.openSegmenter := by
  rw [openSegmenter]
  constructor
  · rintro ⟨unopened, refused⟩
    simp [unopened, refused]
  · intro having
    split
    · exact ⟨_, rfl⟩
    · exact ⟨_, rfl⟩
    · rename_i unopened
      split
      · exact ⟨_, rfl⟩
      · rename_i refused
        exact absurd ⟨unopened, Bool.not_eq_true _ ▸ refused⟩ having

variable (context : Context)

/-- What is measured with the segmenter is at fault when there is a text and no segmenter for it. -/
theorem measure_faults {α : Type} (text : Bytes) (empty : α) (found : Segmenter → α) :
    FaultsWhen (context.LacksSegmenter ∧ textOf text ≠ []) (context.measure text empty found) := by
  rw [measure, textLength]
  split
  · rename_i ended
    exact ⟨fun lacking => absurd (List.length_eq_zero_iff.1 ended) lacking.2, fun _ => ⟨_, rfl⟩⟩
  · rename_i filled
    have some : textOf text ≠ [] := fun none => filled (by rw [none]; rfl)
    exact (context.openSegmenter_faults.map _).congr (by simp [some])

private theorem clusterPrefixLength_faults (bytes : Bytes) (count : Int) :
    FaultsWhen (context.LacksSegmenter ∧ textOf bytes ≠ [] ∧ 0 < count) (context.clusterPrefixLength bytes count) := by
  rw [clusterPrefixLength]
  split
  · exact ⟨fun lacking => absurd lacking.2.2 (by omega), fun _ => ⟨_, rfl⟩⟩
  · exact (context.measure_faults bytes 0 _).congr (by simp; omega)

end Context

/-! ## Units and separators -/

section granularity
variable (context : Context) (bytes : Bytes)

private theorem Granularity.unitFor_faults :
    FaultsWhen (context.LacksSegmenter ∧ textOf bytes ≠ []) ((Granularity.cluster context).unitFor bytes) :=
  (context.measure_faults ..).map _

private theorem Granularity.count_faults (start : Nat) :
    FaultsWhen (context.LacksSegmenter ∧ textOf (bytes.drop start) ≠ [])
      ((Granularity.cluster context).count bytes start) :=
  (unitFor_faults ..).bind fun _ _ => ⟨_, rfl⟩

private theorem Granularity.findSeparator_faults (separator : Int) (start : Nat) :
    FaultsWhen (context.LacksSegmenter ∧ textOf (bytes.drop start) ≠ [])
      ((Granularity.cluster context).findSeparator separator bytes start) :=
  (unitFor_faults ..).bind fun _ _ => ⟨_, rfl⟩

end granularity

namespace Margin

private theorem rest_ofNat (bytes : Bytes) (start : Nat) : rest bytes start = bytes.drop start := by
  rw [rest, behind_ofNat, Int.toNat_natCast]

/-- There is a text before an array: its margin. -/
theorem textOf_rest_ne_nil {bytes : Bytes} {position : Int} (before : position < 0) :
    textOf (rest bytes position) ≠ [] := by
  obtain ⟨size, wide⟩ := Nat.exists_eq_succ_of_ne_zero (show width position ≠ 0 by rw [width]; omega)
  rw [rest, Int.toNat_of_nonpos (by omega), List.drop_zero, behind, wide, List.replicate_succ]
  simp [textOf]

section cluster
variable (context : Context) (bytes : Bytes) (position : Int)

private theorem clusters_faults :
    FaultsWhen (context.LacksSegmenter ∧ textOf (rest bytes position) ≠ []) (clusters context bytes position) :=
  (context.measure_faults ..).map _

private theorem firstCluster_faults :
    FaultsWhen (context.LacksSegmenter ∧ textOf (rest bytes position) ≠ []) (firstCluster context bytes position) :=
  (context.measure_faults ..).map _

/-- In the margin nothing but the lack of a segmenter puts a scan at fault. -/
theorem sizeAt_faults (before : position < 0) :
    FaultsWhen context.LacksSegmenter (sizeAt (.cluster context) bytes position) :=
  ((firstCluster_faults context bytes position).map _).congr (by simp [textOf_rest_ne_nil before])

private theorem landing_faults (before : position < 0) :
    FaultsWhen context.LacksSegmenter (landing (.cluster context) bytes position) :=
  (sizeAt_faults context bytes position before).bind fun _ _ => ⟨_, rfl⟩

private theorem count_faults :
    FaultsWhen (context.LacksSegmenter ∧ textOf (rest bytes position) ≠ [])
      (count (.cluster context) bytes position) := by
  rw [count]
  split
  · rename_i inside
    obtain ⟨start, rfl⟩ := Int.eq_ofNat_of_zero_le inside
    rw [rest_ofNat]
    exact Granularity.count_faults context bytes start
  · rename_i outside
    have before : position < 0 := Int.not_le.1 outside
    suffices within : FaultsWhen context.LacksSegmenter _ from within.congr (by simp [textOf_rest_ne_nil before])
    refine FaultsWhen.bind ((sizeAt_faults context bytes position before).bind ?_) ?_
    · exact fun _ size => ⟨_, rfl⟩
    · intro having first
      refine ((landing_faults context bytes position before).bind fun _ next => ?_).2 having
      cases next with
      | none => exact ⟨_, rfl⟩
      | some next =>
        have counts := (Granularity.count_faults context bytes next).bind fun _ count => ⟨first + count, rfl⟩
        exact counts.2 fun lacking => having lacking.1

private theorem findSeparator_faults (separator : Int) :
    FaultsWhen (context.LacksSegmenter ∧ textOf (rest bytes position) ≠ [])
      (findSeparator (.cluster context) separator bytes position) := by
  rw [findSeparator]
  split
  · rename_i inside
    obtain ⟨start, rfl⟩ := Int.eq_ofNat_of_zero_le inside
    rw [rest_ofNat]
    exact (Granularity.findSeparator_faults context bytes separator start).map _
  · rename_i outside
    have before : position < 0 := Int.not_le.1 outside
    suffices within : FaultsWhen context.LacksSegmenter _ from within.congr (by simp [textOf_rest_ne_nil before])
    refine (sizeAt_faults context bytes position before).bind ?_
    intro having size
    split
    · exact ⟨_, rfl⟩
    · refine ((landing_faults context bytes position before).bind fun _ next => ?_).2 having
      cases next with
      | none => exact ⟨_, rfl⟩
      | some next =>
        have finds := (Granularity.findSeparator_faults context bytes separator next).map (Option.map Int.ofNat)
        exact finds.2 fun lacking => having lacking.1

end cluster

end Margin

private theorem Builder.appendClusters_faults (builder : Builder) (text : Option Text) (count : Int)
    (context : Context) :
    FaultsWhen (context.LacksSegmenter ∧ textOf (Text.bytesOrEmpty text) ≠ [] ∧ 0 < count)
      (builder.appendClusters text count context) :=
  (((context.clusterPrefixLength_faults (Text.bytesOrEmpty text) count).map _).map _).map _

/-! ## The life of a context -/

/-- Options of a context with no segmenter, and with a locale that the platform refuses. -/
def ContextOptions.LackSegmenter (options : ContextOptions) : Prop :=
  options.segmenter = none ∧ isLocale options.locale = false

private theorem Context.lacksSegmenter_created {options : ContextOptions} {context : Context}
    (created : create options = .ok context) : context.LacksSegmenter ↔ options.LackSegmenter := by
  obtain ⟨stringLimit, rfl⟩ := create_ok created
  refine and_congr_left fun _ => ?_
  cases options.segmenter <;> simp

namespace Session
variable (collators : Collators)

private theorem step_lacksSegmenter (session : Session) (call : Call) :
    (session.step collators call).context.LacksSegmenter ↔ session.context.LacksSegmenter := by
  obtain ⟨source, may, stepped⟩ := step_context collators session call
  rw [stepped, Builder.reportAll_eq]
  rcases may with same | ⟨opened, accepted⟩
  · exact and_congr_left fun _ => by rw [← same]; rfl
  · refine iff_of_false (fun lacking => ?_) (fun lacking => ?_)
    · exact absurd (opened.symm.trans lacking.1) nofun
    · exact absurd (accepted.symm.trans lacking.2) nofun

/-- No call gives a context a segmenter that it lacks, or takes one away. -/
theorem run_lacksSegmenter (session : Session) (calls : List Call) :
    (session.run collators calls).context.LacksSegmenter ↔ session.context.LacksSegmenter := by
  induction calls generalizing session with
  | nil => rfl
  | cons call calls ih => exact (ih _).trans (step_lacksSegmenter collators session call)

/-- When operations on clusters are at fault. At every time of the life of a context, each of them is at fault when
the context was created with no segmenter and with a locale that the platform refuses, and there is a text to look at:
one from the position where it begins, and more than no clusters are wanted of it. Otherwise each has an answer. -/
theorem cluster_faults {options : ContextOptions} {context : Context}
    (created : Context.create options = .ok context) (calls : List Call) (bytes : Bytes)
    (position count separator : Int) (builder : Builder) (text : Option Text) :
    let later := ((⟨context, []⟩ : Session).run collators calls).context
    let ahead := options.LackSegmenter ∧ textOf (Margin.rest bytes position) ≠ []
    let whole := options.LackSegmenter ∧ textOf bytes ≠ []
    FaultsWhen ahead (Margin.clusters later bytes position) ∧
      FaultsWhen ahead (Margin.firstCluster later bytes position) ∧
      FaultsWhen whole (later.clusterCount bytes) ∧
      FaultsWhen (whole ∧ 0 < count) (later.clusterPrefixLength bytes count) ∧
      FaultsWhen whole (later.clusterBreaks bytes) ∧
      FaultsWhen ahead (Margin.count (.cluster later) bytes position) ∧
      FaultsWhen ahead (Margin.findSeparator (.cluster later) separator bytes position) ∧
      FaultsWhen (options.LackSegmenter ∧ textOf (Text.bytesOrEmpty text) ≠ [] ∧ 0 < count)
        (builder.appendClusters text count later) := by
  intro later ahead whole
  have lacking : later.LacksSegmenter ↔ options.LackSegmenter :=
    (run_lacksSegmenter collators _ calls).trans (Context.lacksSegmenter_created created)
  simp only [ahead, whole, ← lacking, and_assoc]
  exact ⟨Margin.clusters_faults later bytes position, Margin.firstCluster_faults later bytes position,
    later.measure_faults .., later.clusterPrefixLength_faults bytes count, later.measure_faults ..,
    Margin.count_faults later bytes position, Margin.findSeparator_faults later bytes position separator,
    builder.appendClusters_faults text count later⟩

/-- A context whose locale is refused, after its collator was found to be missing, at a position before a letter. -/
theorem cluster_faults_refused :
    let options : ContextOptions := ⟨some "!!", none, none, .ofLocale, none⟩
    ∃ context, Context.create options = .ok context ∧
      let later := ((⟨context, []⟩ : Session).run dictionaries [.collator]).context
      Margin.clusters later [0x61] 0 = .error .locale ∧ Margin.firstCluster later [0x61] 0 = .error .locale ∧
        later.clusterCount [0x61] = .error .locale ∧ later.clusterPrefixLength [0x61] 1 = .error .locale ∧
        later.clusterBreaks [0x61] = .error .locale ∧ Margin.count (.cluster later) [0x61] 0 = .error .locale ∧
        Margin.findSeparator (.cluster later) 0x20 [0x61] 0 = .error .locale ∧
        Builder.standard.appendClusters (some (.bytes [0x61])) 1 later = .error .locale := by
  intro options
  refine ⟨_, rfl, ?_⟩
  intro later
  have lacking : options.LackSegmenter := ⟨rfl, by decide +kernel⟩
  have filled : textOf [0x61] ≠ [] := by decide
  obtain ⟨walk, first, number, size, breaks, units, cut, append⟩ :=
    cluster_faults dictionaries (show Context.create options = .ok _ from rfl) [.collator] [0x61] 0 1 0x20
      Builder.standard (some (.bytes [0x61]))
  exact ⟨walk.1 ⟨lacking, filled⟩, first.1 ⟨lacking, filled⟩, number.1 ⟨lacking, filled⟩,
    size.1 ⟨⟨lacking, filled⟩, by decide⟩, breaks.1 ⟨lacking, filled⟩, units.1 ⟨lacking, filled⟩,
    cut.1 ⟨lacking, filled⟩, append.1 ⟨lacking, filled, by decide⟩⟩

/-- A letter is not counted in a context whose locale is refused. -/
theorem letter_not_counted :
    ∃ context, Context.create ⟨some "!!", none, none, .ofLocale, none⟩ = .ok context ∧
      context.clusterCount [0x61] = .error .locale :=
  ⟨_, rfl, (Context.measure_faults _ _ _ _).1 ⟨⟨rfl, by decide +kernel⟩, by decide⟩⟩

end Session

end BoundedText
