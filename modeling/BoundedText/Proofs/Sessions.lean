import BoundedText.Proofs.Accumulation

/-!
# Sessions

A session is a context together with the builders that were created from it. What a call raises and what it does to
the context besides is said once (`Session.step_context`). From that follow the log of a whole run (`Session.run_log`)
and where its collator stands (`Session.run_collator`), and together that diagnostics are neither lost nor repeated
over the life of a context (`Session.diagnostics_kept`).
-/

namespace BoundedText

private theorem exists_of_map_ok {ε α β : Type} {result : Except ε α} {f : α → β} {b : β}
    (made : result.map f = .ok b) :
    ∃ a, result = .ok a ∧ f a = b := by
  cases result with
  | error fault => cases made
  | ok a => exact ⟨a, rfl, Except.ok.inj made⟩

/-! ## Clusters and the context -/

/-- A segmenter that a context has, or that it opens for a locale that can be used. -/
def Context.MayHave (context : Context) (source : SegmenterSource) : Prop :=
  source = context.segmenter ∨ source = .opened ∧ context.localeAccepted = true

/-- A context that is another one, but for its segmenter if that was opened. -/
def Context.SameButSegmenter (context after : Context) : Prop :=
  ∃ source, context.MayHave source ∧ after = { context with segmenter := source }

theorem Context.SameButSegmenter.refl (context : Context) : context.SameButSegmenter context :=
  ⟨context.segmenter, .inl rfl, rfl⟩

private theorem Context.openSegmenter_frame {context after : Context} {segmenter : Segmenter}
    (opened : context.openSegmenter = .ok (segmenter, after)) : context.SameButSegmenter after := by
  rw [Context.openSegmenter] at opened
  split at opened
  · cases opened
    exact .refl context
  · cases opened
    exact .refl context
  · split at opened
    · rename_i accepted
      cases opened
      exact ⟨.opened, .inr ⟨rfl, accepted⟩, rfl⟩
    · cases opened

private theorem Context.measure_frame {α : Type} {context after : Context} {text : Bytes} {empty answer : α}
    {found : Segmenter → α} (measured : context.measure text empty found = .ok (answer, after)) :
    context.SameButSegmenter after := by
  rw [Context.measure] at measured
  split at measured
  · cases measured
    exact .refl context
  · obtain ⟨opened, made, same⟩ := exists_of_map_ok measured
    cases same
    exact openSegmenter_frame made

private theorem Context.takeClusters_frame {context after : Context} {bytes piece : Bytes} {count : Int}
    (taken : context.takeClusters bytes count = .ok (piece, after)) : context.SameButSegmenter after := by
  obtain ⟨found, measured, same⟩ := exists_of_map_ok taken
  cases same
  rw [Context.clusterPrefixLength] at measured
  split at measured
  · cases measured
    exact .refl context
  · exact measure_frame measured

/-! ## Calls of builders -/

/-- A call of a builder that was created from a context. Clusters are found by that context, or by another one. -/
inductive BuilderCall where
  | basic (call : Builder.Call)
  | format (pattern : Units) (arguments : List Format.Argument)
  | clusters (text : Option Text) (count : Int) (other : Option Context)
  | finishText

/-- The builder after a call with what it told, and the context. -/
def BuilderCall.perform (builder : Builder) (context : Context) :
    BuilderCall → Except Fault ((Builder × List Diagnostic) × Context)
  | .basic call => .ok (call.perform builder, context)
  | .format pattern arguments => .ok (builder.appendFormat pattern arguments, context)
  | .clusters text count none => builder.appendClustersIn text count context
  | .clusters text count (some other) => (builder.appendClusters text count other).map (·, context)
  | .finishText => .ok ((builder.finishText.2, []), context)

/-- Diagnostics that tell of nothing but that a limit was passed. -/
def AreOverflows (told : List Diagnostic) : Prop := ∀ diagnostic ∈ told, diagnostic.code = .stringTooBig

private theorem areOverflows_nil : AreOverflows [] := fun diagnostic none => by cases none

private theorem Builder.append_overflows (builder : Builder) (piece : Bytes) :
    ∀ diagnostic ∈ (builder.append piece).2, diagnostic.code = .stringTooBig := by
  intro diagnostic told
  rw [Builder.append, Builder.reserve] at told
  split at told
  · cases told
  · dsimp only at told
    split_ifs at told
    all_goals cases told
    rfl

private theorem Builder.appendAll_overflows (builder : Builder) (pieces : List Bytes) :
    AreOverflows (builder.appendAll pieces).2 := by
  induction pieces generalizing builder with
  | nil => exact areOverflows_nil
  | cons piece pieces ih =>
    intro diagnostic told
    rw [Builder.appendAll, List.mem_append] at told
    rcases told with first | later
    · exact builder.append_overflows piece diagnostic (Option.mem_toList.1 first)
    · exact ih (builder.append piece).1 diagnostic later

private theorem Builder.Call.perform_overflows (call : Builder.Call) (builder : Builder) :
    AreOverflows (call.perform builder).2 := by
  cases kind : call.empties with
  | true =>
    rw [Builder.Call.perform_empties kind]
    exact areOverflows_nil
  | false =>
    rw [Builder.Call.perform_pieces kind]
    exact builder.appendAll_overflows call.pieces

private theorem Builder.appendClustersIn_ok {builder : Builder} {text : Option Text} {count : Int} {context : Context}
    {made : (Builder × List Diagnostic) × Context} (taken : builder.appendClustersIn text count context = .ok made) :
    AreOverflows made.1.2 ∧ context.SameButSegmenter made.2 := by
  obtain ⟨found, measured, rfl⟩ := exists_of_map_ok taken
  exact ⟨builder.appendAll_overflows [found.1], Context.takeClusters_frame measured⟩

/-- A call of a builder tells of nothing but that a limit was passed, and leaves the context as it is but for the
segmenter. -/
theorem BuilderCall.perform_ok {call : BuilderCall} {builder : Builder} {context : Context}
    {made : (Builder × List Diagnostic) × Context} (performed : call.perform builder context = .ok made) :
    AreOverflows made.1.2 ∧ context.SameButSegmenter made.2 := by
  match call with
  | .basic call =>
    obtain rfl := Except.ok.inj performed
    exact ⟨call.perform_overflows builder, .refl context⟩
  | .format pattern arguments =>
    obtain rfl := Except.ok.inj performed
    exact ⟨builder.appendAll_overflows [_], .refl context⟩
  | .clusters text count none => exact Builder.appendClustersIn_ok performed
  | .clusters text count (some other) =>
    obtain ⟨told, appended, rfl⟩ := exists_of_map_ok performed
    obtain ⟨taken, found, rfl⟩ := exists_of_map_ok appended
    exact ⟨(Builder.appendClustersIn_ok found).1, .refl context⟩
  | .finishText =>
    obtain rfl := Except.ok.inj performed
    exact ⟨areOverflows_nil, .refl context⟩

/-! ## Sessions -/

/-- A context and the builders that were created from it, in order. -/
structure Session where
  context : Context
  builders : List Builder

namespace Session

/-- A call of a context, or of one of the builders that were created from it. -/
inductive Call where
  | collator
  | compare (a b : Text)
  | report (diagnostic : Diagnostic)
  | setHandler (handler : Option Handler)
  | create (limit : Option Number)
  | build (place : Nat) (call : BuilderCall)

namespace Call

/-- Whether a call asks for the collator. -/
def requests : Call → Bool
  | .collator | .compare .. => true
  | _ => false

/-- The handler that is installed after a call. -/
def installs (installed : Option Handler) : Call → Option Handler
  | .setHandler handler => handler
  | _ => installed

end Call

section calls
variable (collators : Collators)

/-- A session after a call. One at fault changes nothing, nor does one of a builder that is not there. -/
def step (session : Session) : Call → Session
  | .collator => { session with context := (session.context.collatorFrom collators).2 }
  | .compare a b => { session with context := (session.context.compareFrom collators a b).2 }
  | .report diagnostic => { session with context := session.context.report diagnostic }
  | .setHandler handler => { session with context := session.context.setHandler handler }
  | .create limit =>
    match Builder.create limit (some session.context) with
    | .error _ => session
    | .ok builder => { session with builders := session.builders ++ [builder] }
  | .build place call =>
    match session.builders[place]?.map (call.perform · session.context) with
    | some (.ok (made, context)) => ⟨(context.receive made).2, session.builders.set place made.1⟩
    | _ => session

def run (session : Session) (calls : List Call) : Session := calls.foldl (step collators) session

/-- What asking a context for its collator raises: that there is none, when the platform was not asked before and
refuses the locale. -/
def refusal (context : Context) : List Diagnostic :=
  match context.collator, collators context.locale with
  | .unopened, .error reason => [collatorUnavailable reason]
  | _, _ => []

/-- The diagnostics that a call raises. -/
def raised (session : Session) : Call → List Diagnostic
  | .collator | .compare .. => refusal collators session.context
  | .report diagnostic => [diagnostic]
  | .setHandler _ | .create _ => []
  | .build place call =>
    match session.builders[place]?.map (call.perform · session.context) with
    | some (.ok (made, _)) => made.2
    | _ => []

/-- The diagnostics that calls raise, each with the handler that is installed when it is raised. -/
def trace (session : Session) (installed : Option Handler) : List Call → List (Option Handler × Diagnostic)
  | [] => []
  | call :: calls =>
    (session.raised collators call).map (installed, ·) ++
      (session.step collators call).trace (call.installs installed) calls

end calls

section laws
variable (collators : Collators)

/-! ## One call -/

/-- The collator of a context after it was asked for, given what the platform makes of the locale. -/
def asked (made : Except String Collator) : CollatorSource → CollatorSource
  | .unopened =>
    match made with
    | .ok collator => .opened collator
    | .error _ => .unavailable
  | source => source

/-- A context with what a call does to it, its diagnostics apart. -/
def quiet (context : Context) (call : Call) (source : SegmenterSource) : Context :=
  { context with
    segmenter := source
    handler := call.installs context.handler
    collator := if call.requests then asked (collators context.locale) context.collator else context.collator }

private theorem collatorFrom_context (context : Context) :
    (context.collatorFrom collators).2 =
      ({ context with collator := asked (collators context.locale) context.collator } : Context).reportAll
        (refusal collators context) := by
  obtain ⟨locale, stringLimit, segmenter, source, handler, reported, delivered⟩ := context
  cases source with
  | unopened => cases made : collators locale <;> simp [Context.collatorFrom, refusal, asked, made, Context.reportAll]
  | _ => rfl

private theorem compareFrom_context (context : Context) (a b : Text) :
    (context.compareFrom collators a b).2 = (context.collatorFrom collators).2 := by
  rw [Context.compareFrom]
  dsimp only
  split <;> rfl

/-- What one call does: it opens segmenter and collator or changes the handler, and reports what it raises. -/
theorem step_context (session : Session) (call : Call) :
    ∃ source, session.context.MayHave source ∧ (session.step collators call).context =
      (quiet collators session.context call source).reportAll (session.raised collators call) := by
  cases call with
  | collator => exact ⟨session.context.segmenter, .inl rfl, collatorFrom_context collators session.context⟩
  | compare a b =>
    refine ⟨session.context.segmenter, .inl rfl, ?_⟩
    exact (compareFrom_context collators session.context a b).trans (collatorFrom_context collators session.context)
  | report diagnostic => exact ⟨session.context.segmenter, .inl rfl, rfl⟩
  | setHandler handler => exact ⟨session.context.segmenter, .inl rfl, rfl⟩
  | create limit =>
    refine ⟨session.context.segmenter, .inl rfl, ?_⟩
    rw [step]
    split <;> rfl
  | build place call =>
    rw [step, raised]
    split
    · rename_i made after found
      obtain ⟨builder, -, performed⟩ := Option.map_eq_some_iff.1 found
      obtain ⟨source, may, same⟩ := (BuilderCall.perform_ok performed).2
      exact ⟨source, may, by rw [show after = _ from same]; rfl⟩
    · exact ⟨session.context.segmenter, .inl rfl, rfl⟩

/-! ## The log -/

/-- What of the diagnostics is handed out: those for which a handler is installed. -/
def handedOut (entry : Option Handler × Diagnostic) : Option (Handler × Diagnostic) := entry.1.map (·, entry.2)

/-- What one call does to the log of a context. -/
theorem step_log (session : Session) (call : Call) :
    let after := (session.step collators call).context
    let entries := (session.raised collators call).map (session.context.handler, ·)
    after.handler = call.installs session.context.handler ∧
      after.reported = session.context.reported + entries.length ∧
      after.delivered = session.context.delivered ++ entries.filterMap handedOut := by
  obtain ⟨source, -, stepped⟩ := step_context collators session call
  dsimp only
  rw [stepped, Builder.reportAll_eq, List.length_map]
  refine ⟨rfl, rfl, ?_⟩
  cases call with
  | setHandler handler => rfl
  | _ =>
    simp only [quiet, Call.installs, List.filterMap_eq_flatMap_toList, List.flatMap_map]
    rfl

/-- A run counts every diagnostic that is raised, and hands each to the handler that is installed then. -/
theorem run_log (session : Session) (calls : List Call) :
    let after := (session.run collators calls).context
    let entries := session.trace collators session.context.handler calls
    after.reported = session.context.reported + entries.length ∧
      after.delivered = session.context.delivered ++ entries.filterMap handedOut := by
  induction calls generalizing session with
  | nil => simp [run, trace]
  | cons call calls ih =>
    obtain ⟨installed, counted, handed⟩ := step_log collators session call
    obtain ⟨more, others⟩ := ih (session.step collators call)
    dsimp only at counted handed more others ⊢
    rw [installed] at more others
    rw [run, List.foldl_cons, ← run, trace, List.length_append, List.filterMap_append, more, others, counted, handed]
    exact ⟨Nat.add_assoc .., List.append_assoc ..⟩

/-- What a handler is handed is what was raised while it was installed. -/
theorem filter_handedOut (entries : List (Option Handler × Diagnostic)) (handler : Handler) :
    ((entries.filterMap handedOut).filter (·.1 = handler)).map Prod.snd =
      (entries.filter (·.1 = some handler)).map Prod.snd := by
  induction entries with
  | nil => rfl
  | cons entry entries ih =>
    obtain ⟨installed, diagnostic⟩ := entry
    cases installed with
    | none => simpa [handedOut, List.filterMap_cons] using ih
    | some other => by_cases same : other = handler <;> simp [handedOut, same, ih]

/-! ## The collator -/

/-- The collator that a source holds. -/
def held : CollatorSource → Option Collator
  | .given collator | .opened collator => some collator
  | .unopened | .unavailable => none

private theorem asked_asked (made : Except String Collator) (source : CollatorSource) :
    asked made (asked made source) = asked made source := by
  cases source with
  | unopened => cases made <;> rfl
  | _ => rfl

/-- Once a context was asked for its collator, asking it raises nothing. -/
theorem refusal_asked {context after : Context} (locale : after.locale = context.locale)
    (collator : after.collator = asked (collators context.locale) context.collator) : refusal collators after = [] := by
  rw [refusal, collator, locale]
  cases context.collator with
  | unopened => cases collators context.locale <;> rfl
  | _ => rfl

private theorem refusal_congr {context after : Context} (locale : after.locale = context.locale)
    (collator : after.collator = context.collator) : refusal collators after = refusal collators context := by
  rw [refusal, refusal, locale, collator]

private theorem collatorFrom_held (context : Context) :
    (context.collatorFrom collators).1 = held (asked (collators context.locale) context.collator) := by
  obtain ⟨locale, stringLimit, segmenter, source, handler, reported, delivered⟩ := context
  cases source with
  | unopened => cases made : collators locale <;> simp [Context.collatorFrom, asked, held, made]
  | _ => rfl

theorem run_collator (session : Session) (calls : List Call) :
    (session.run collators calls).context.locale = session.context.locale ∧
      (session.run collators calls).context.collator =
        if calls.any Call.requests then asked (collators session.context.locale) session.context.collator
        else session.context.collator := by
  induction calls generalizing session with
  | nil => exact ⟨rfl, rfl⟩
  | cons call calls ih =>
    obtain ⟨source, -, stepped⟩ := step_context collators session call
    rw [Builder.reportAll_eq] at stepped
    obtain ⟨locale, collator⟩ := ih (session.step collators call)
    rw [run, List.foldl_cons, ← run, locale, collator, stepped, List.any_cons]
    refine ⟨rfl, ?_⟩
    cases requests : call.requests <;> simp [quiet, requests, asked_asked]

/-- What a request raises after a run: nothing if the collator was asked for before. -/
theorem refusal_run (session : Session) (calls : List Call) :
    refusal collators (session.run collators calls).context =
      if calls.any Call.requests then [] else refusal collators session.context := by
  obtain ⟨locale, collator⟩ := run_collator collators session calls
  split at collator
  · rename_i requested
    rw [if_pos requested, refusal_asked collators locale collator]
  · rename_i unrequested
    rw [if_neg unrequested, refusal_congr collators locale collator]

/-- A context gives the same collator however long it is used. -/
theorem collatorFrom_run (session : Session) (calls : List Call) :
    ((session.run collators calls).context.collatorFrom collators).1 = (session.context.collatorFrom collators).1 := by
  obtain ⟨locale, collator⟩ := run_collator collators session calls
  rw [collatorFrom_held, collatorFrom_held, locale, collator]
  split
  · rw [asked_asked]
  · rfl

/-- A context gives no collator when asking it raises something, and then compares bytes. -/
theorem none_of_refusal {context : Context} (refused : refusal collators context ≠ []) :
    (context.collatorFrom collators).1 = none := by
  rw [collatorFrom_held]
  rw [refusal] at refused
  split at refused
  · rename_i reason source made
    rw [source, made]
    rfl
  · exact absurd rfl refused

private theorem compareFrom_none {context : Context} (none : (context.collatorFrom collators).1 = none) (a b : Text) :
    (context.compareFrom collators a b).1 = compareBytes a b := by
  rw [Context.compareFrom]
  simp only [none]

/-- A call that is no request tells of overflows, or reports what it was given. -/
theorem raised_other {session : Session} {call : Call} (other : call.requests = false) :
    AreOverflows (session.raised collators call) ∨
      ∃ diagnostic, call = .report diagnostic ∧ session.raised collators call = [diagnostic] := by
  cases call with
  | collator => cases other
  | compare a b => cases other
  | report diagnostic => exact .inr ⟨diagnostic, rfl, rfl⟩
  | setHandler handler => exact .inl areOverflows_nil
  | create limit => exact .inl areOverflows_nil
  | build place call =>
    left
    rw [raised]
    split
    · rename_i found
      obtain ⟨builder, -, performed⟩ := Option.map_eq_some_iff.1 found
      exact (BuilderCall.perform_ok performed).1
    · exact areOverflows_nil

end laws

end Session

/-- What the first request for the collator of a context raises: that there is none, when the collator is to be that
of the locale and the platform refuses the locale. -/
def ContextOptions.refusal (collators : Collators) (options : ContextOptions) : List Diagnostic :=
  match options.collator, collators options.locale with
  | .ofLocale, .error reason => [collatorUnavailable reason]
  | _, _ => []

/-- What a context is created with. -/
theorem Context.create_ok {options : ContextOptions} {context : Context} (created : create options = .ok context) :
    ∃ stringLimit, context =
      { locale := options.locale
        stringLimit
        segmenter := options.segmenter.elim .unopened .given
        collator :=
          match options.collator with
          | .ofLocale => .unopened
          | .given collator => .given collator
          | .nothing => .unavailable
        handler := options.handler
        reported := 0
        delivered := [] } := by
  obtain ⟨locale, stringLimit, segmenter, collator, handler⟩ := options
  rw [Context.create] at created
  split at created
  · cases created
    cases segmenter <;> exact ⟨_, rfl⟩
  · split at created
    · cases created
      cases segmenter <;> exact ⟨_, rfl⟩
    · cases created

private theorem ContextOptions.refusal_created {options : ContextOptions} {context : Context}
    (created : Context.create options = .ok context) (collators : Collators) :
    Session.refusal collators context = options.refusal collators := by
  obtain ⟨stringLimit, rfl⟩ := Context.create_ok created
  rw [Session.refusal, ContextOptions.refusal]
  cases options.collator with
  | ofLocale => cases collators options.locale <;> rfl
  | _ => rfl

namespace Session

/-- Diagnostics are neither lost nor repeated over the life of a context, whatever calls are made of it and of the
builders created from it. Each handler is handed what was raised while it was installed, in order; what is counted is
all that was raised; that there is no collator is raised by the first request, if the platform refuses the locale, and
by no other call unless it reports just that, and bytes are compared then; and a collator that was given once is given
from then on. -/
theorem diagnostics_kept (collators : Collators) {options : ContextOptions} {context : Context}
    (created : Context.create options = .ok context) (calls : List Call) :
    let start : Session := ⟨context, []⟩
    let after := (start.run collators calls).context
    let entries := start.trace collators options.handler calls
    (∀ handler, (after.delivered.filter (·.1 = handler)).map Prod.snd =
        (entries.filter (·.1 = some handler)).map Prod.snd) ∧
      after.state.diagnosticCount = entries.length ∧
      (∀ before call later, calls = before ++ call :: later →
        let raised := (start.run collators before).raised collators call
        (call.requests = true → raised = if before.any Call.requests then [] else options.refusal collators) ∧
          (call.requests = false →
            AreOverflows raised ∨ ∃ diagnostic, call = .report diagnostic ∧ raised = [diagnostic])) ∧
      (options.refusal collators ≠ [] →
        (after.collatorFrom collators).1 = none ∧ ∀ a b, (after.compareFrom collators a b).1 = compareBytes a b) ∧
      ∀ collator, (after.collatorFrom collators).1 = some collator →
        options.refusal collators = [] ∧
          ∀ more, ((start.run collators (calls ++ more)).context.collatorFrom collators).1 = some collator := by
  intro start after entries
  have unasked : refusal collators context = options.refusal collators := options.refusal_created created collators
  obtain ⟨counted, handed⟩ := run_log collators start calls
  have fresh : context.handler = options.handler ∧ context.reported = 0 ∧ context.delivered = [] := by
    obtain ⟨stringLimit, rfl⟩ := Context.create_ok created
    exact ⟨rfl, rfl, rfl⟩
  rw [fresh.1, fresh.2.1, Nat.zero_add] at counted
  rw [fresh.1, fresh.2.2, List.nil_append] at handed
  refine ⟨?handlers, counted, ?calls, ?refused, ?kept⟩
  case handlers =>
    intro handler
    rw [show after.delivered = _ from handed]
    exact filter_handedOut entries handler
  case calls =>
    intro before call later _
    refine ⟨fun requests => ?_, raised_other collators⟩
    have raises : (start.run collators before).raised collators call =
        refusal collators (start.run collators before).context := by
      cases call <;> first | rfl | cases requests
    rw [raises, refusal_run, unasked]
  case refused =>
    intro refused
    have none : (after.collatorFrom collators).1 = none := by
      rw [collatorFrom_run, none_of_refusal]
      exact fun nothing => refused (unasked ▸ nothing)
    exact ⟨none, compareFrom_none collators none⟩
  case kept =>
    intro collator given
    rw [collatorFrom_run] at given
    refine ⟨?_, fun more => (collatorFrom_run ..).trans given⟩
    by_contra refused
    have none := none_of_refusal collators (unasked ▸ refused)
    exact absurd (given.symm.trans none) (Option.some_ne_none collator)

/-- The handler is changed between two overflows, and again after the collator was asked for. -/
theorem diagnostics_kept_swapped :
    let options : ContextOptions := ⟨some "!!", some (.double (.finite false 1 0)), none, .ofLocale, some "first"⟩
    ∃ context, Context.create options = .ok context ∧
      let calls := [.create none, .create none, .build 0 (.basic (.byte 0x61)), .setHandler (some "second"),
        .build 1 (.basic (.byte 0x61)), .collator, .setHandler none, .compare (.bytes [0x61]) (.bytes [0x62]),
        .build 0 (.basic .finish), .build 0 (.basic (.byte 0x61))]
      let after := ((⟨context, []⟩ : Session).run dictionaries calls).context
      let passed := Builder.overflow 1 1
      (after.delivered.filter (·.1 = "first")).map Prod.snd = [passed] ∧
        (after.delivered.filter (·.1 = "second")).map Prod.snd = [passed, collatorUnavailable Fault.locale.message] ∧
        after.state.diagnosticCount = 4 ∧ (after.collatorFrom dictionaries).1 = none := by
  intro options
  refine ⟨_, rfl, ?_⟩
  intro calls after passed
  obtain ⟨handlers, counted, -, refused, -⟩ :=
    diagnostics_kept dictionaries (show Context.create options = .ok _ from rfl) calls
  refine ⟨(handlers "first").trans ?_, (handlers "second").trans ?_, counted.trans ?_, (refused ?_).1⟩
  all_goals decide +kernel

end Session

end BoundedText
