import BoundedText.Builder
import BoundedText.Clusters
import BoundedText.ClusterRules
import BoundedText.Collation
import BoundedText.Like
import BoundedText.Locale
import BoundedText.WordLists

/-!
# Contexts

A context holds what operations on text share: the segmenter that finds clusters, the collator that
orders texts, the limit of builders, and the handler that diagnostics go to. Segmenter and collator
are opened for the locale when they are first asked for. Where a locale has no collator that is told
once, and bytes are compared from then on; where it has no segmenter the operation is at fault.
-/

namespace BoundedText

/-- A handler of diagnostics, known by the mark it puts before each line. -/
abbrev Handler := String

/-- Where the segmenter of a context comes from: from the caller, or from the locale, opened or not yet. -/
inductive SegmenterSource where
  | given (segmenter : Segmenter)
  | unopened
  | opened

/-- Where the collator of a context comes from: from the caller, or from the locale, unless there is none. -/
inductive CollatorSource where
  | given (collator : Collator)
  | unopened
  | opened (collator : Collator)
  | unavailable

/-- What the platform makes of a locale, of its own one when none is named: a collator, or why there is none. -/
abbrev Collators := Option String → Except String Collator

/-- The collator that a caller wants: that of the locale, one of their own, or none, so that bytes are
compared. -/
inductive CollatorChoice where
  | ofLocale
  | given (collator : Collator)
  | nothing

/-- What a caller says of a context. -/
structure ContextOptions where
  locale : Option String
  stringLimit : Option Number
  segmenter : Option Segmenter
  collator : CollatorChoice
  handler : Option Handler

/-- The things that operations on text share, and the diagnostics so far: how many were reported, and
those that a handler was there for. -/
structure Context where
  locale : Option String
  stringLimit : Nat
  segmenter : SegmenterSource
  collator : CollatorSource
  handler : Option Handler
  reported : Nat
  delivered : List (Handler × Diagnostic)

/-- What can be seen of a context. -/
structure ContextState where
  segmenterCreated : Bool
  collatorCreated : Bool
  collatorUnavailable : Bool
  diagnosticCount : Nat
deriving DecidableEq, Repr

def deliveredLine (delivery : Handler × Diagnostic) : String := delivery.1 ++ delivery.2.line

def collatorUnavailable (reason : String) : Diagnostic :=
  ⟨.collatorUnavailable, "Unable to open collator: " ++ reason⟩

/-- Whether a locale can be used; the one of the platform can when none is named. -/
def isLocale (locale : Option String) : Bool := locale.all Locale.isName

/-- The collators of a platform that orders texts as a dictionary does in every locale. -/
def dictionaries : Collators := fun locale => if isLocale locale then .ok dictionary else .error Fault.locale.message

namespace Context

/-- A context as a caller wants it. The locale is not looked at yet. -/
def create (options : ContextOptions) : Except Fault Context := do
  let stringLimit ←
    match options.stringLimit with
    | none => .ok longCapacity
    | some limit =>
      match limit.asSize with
      | some size => .ok size
      | none => .error Fault.stringLimit
  let segmenter :=
    match options.segmenter with
    | some segmenter => SegmenterSource.given segmenter
    | none => .unopened
  let collator :=
    match options.collator with
    | .ofLocale => CollatorSource.unopened
    | .given collator => .given collator
    | .nothing => .unavailable
  return ⟨options.locale, stringLimit, segmenter, collator, options.handler, 0, []⟩

def localeAccepted (context : Context) : Bool := isLocale context.locale

/-- Counts a diagnostic and hands it to the handler, if there is one. -/
def report (context : Context) (diagnostic : Diagnostic) : Context :=
  { context with
    reported := context.reported + 1
    delivered := context.delivered ++ (context.handler.map (·, diagnostic)).toList }

def reportAll (context : Context) (diagnostics : List Diagnostic) : Context := diagnostics.foldl report context

/-- Reports what was told while something was made. -/
def receive {α : Type} (context : Context) (made : α × List Diagnostic) : α × Context :=
  (made.1, context.reportAll made.2)

def setHandler (context : Context) (handler : Option Handler) : Context := { context with handler }

/-- The segmenter, opened when it is asked for the first time. -/
def openSegmenter (context : Context) : Except Fault (Segmenter × Context) :=
  match context.segmenter with
  | .given segmenter => .ok (segmenter, context)
  | .opened => .ok (graphemes, context)
  | .unopened =>
    if context.localeAccepted then .ok (graphemes, { context with segmenter := .opened }) else .error .locale

/-- The collator, opened for the locale when it is asked for the first time. Where the platform has none for the
locale that is reported, and there is none from then on. -/
def collatorFrom (collators : Collators) (context : Context) : Option Collator × Context :=
  match context.collator with
  | .given collator => (some collator, context)
  | .opened collator => (some collator, context)
  | .unavailable => (none, context)
  | .unopened =>
    match collators context.locale with
    | .ok collator => (some collator, { context with collator := .opened collator })
    | .error reason => (none, { context with collator := .unavailable }.report (collatorUnavailable reason))

def openCollator (context : Context) : Option Collator × Context := context.collatorFrom dictionaries

/-- The order of two texts by the collator, or by their bytes where there is none. -/
def compareFrom (collators : Collators) (context : Context) (a b : Text) : Int × Context :=
  let (collator, context) := context.collatorFrom collators
  match collator with
  | some collator => (compareCollated collator a b, context)
  | none => (compareBytes a b, context)

def compare (context : Context) (a b : Text) : Int × Context := context.compareFrom dictionaries a b

def state (context : Context) : ContextState where
  segmenterCreated := context.segmenter matches .opened
  collatorCreated := context.collator matches .opened _
  collatorUnavailable := context.collator matches .unavailable
  diagnosticCount := context.reported

/-- Measures the clusters of a text. The segmenter is not asked for when the text is empty. -/
def measure {α : Type} (context : Context) (text : Bytes) (empty : α) (found : Segmenter → α) :
    Except Fault (α × Context) :=
  if textLength text = 0 then .ok (empty, context)
  else context.openSegmenter.map (fun (segmenter, context) => (found segmenter, context))

def clusters (context : Context) (bytes : Bytes) (start : Nat) : Except Fault (List Cluster × Context) :=
  context.measure (bytes.drop start) [] (fun segmenter => BoundedText.clusters segmenter bytes start)

def firstCluster (context : Context) (bytes : Bytes) (offset : Nat) : Except Fault (Nat × Context) :=
  context.measure (bytes.drop offset) 0 (fun segmenter => BoundedText.firstCluster segmenter (bytes.drop offset))

def clusterCount (context : Context) (bytes : Bytes) : Except Fault (Nat × Context) :=
  context.measure bytes 0 (fun segmenter => BoundedText.clusterCount segmenter bytes)

def clusterBreaks (context : Context) (bytes : Bytes) : Except Fault (List Nat × Context) :=
  context.measure bytes [] (fun segmenter => BoundedText.clusterBreaks segmenter bytes)

/-- The number of bytes of the first clusters of a text. Where none is wanted no segmenter is. -/
def clusterPrefixLength (context : Context) (bytes : Bytes) (count : Int) : Except Fault (Nat × Context) :=
  if count ≤ 0 then .ok (0, context)
  else context.measure bytes 0 (fun segmenter => BoundedText.clusterPrefixLength segmenter bytes count.toNat)

def takeClusters (context : Context) (bytes : Bytes) (count : Int) : Except Fault (Bytes × Context) :=
  (context.clusterPrefixLength bytes count).map (fun (length, context) => (bytes.take length, context))

def visitClusters {σ : Type} (context : Context) (bytes : Bytes) (visitor : ClusterVisitor σ) (state : σ) :
    Except Fault ((σ × Bool) × Context) :=
  context.measure bytes (state, true) (fun segmenter => BoundedText.visitClusters segmenter bytes visitor state)

end Context

/-- Takes the first clusters of a text; also the context, whose segmenter may have been opened. -/
def Builder.appendClustersIn (builder : Builder) (text : Option Text) (count : Int) (context : Context) :
    Except Fault ((Builder × List Diagnostic) × Context) :=
  (context.takeClusters (Text.bytesOrEmpty text) count).map
    (fun (piece, context) => (builder.appendAll [piece], context))

def Builder.appendClusters (builder : Builder) (text : Option Text) (count : Int) (context : Context) :
    Except Fault (Builder × List Diagnostic) :=
  (builder.appendClustersIn text count context).map Prod.fst

/-- A builder whose limit is the one given, or that of the context, or that of a long buffer. -/
def Builder.create (limit : Option Number) (context : Option Context) : Except Fault Builder :=
  match limit with
  | some limit =>
    match limit.asSize with
    | some size => .ok (.ofLimit size)
    | none => .error .builderLimit
  | none => .ok (.ofLimit ((context.map Context.stringLimit).getD longCapacity))

namespace Context

/-- The LIKE pattern of a text, within the limit of the context. -/
def pattern (context : Context) (glob : Bool) (text : Text) (escape : Int) : Bytes × Context :=
  context.receive (Like.pattern glob text escape (.ofLimit context.stringLimit))

def removeWord (context : Context) (list word : Option Text) (separator : Int) : Removed × Context :=
  context.receive (removeWordCodepoints list word separator (.ofLimit context.stringLimit))

end Context

end BoundedText
