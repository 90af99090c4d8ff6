import TraceCollector.TraceStore

/-!
# Summaries

A query asks for the finished traces whose windows lie strictly between two instants. Each is
answered by a summary; the length of its window is given in whole seconds.
-/

namespace TraceCollector

structure SummaryQuery where
  start : Instant
  stop : Instant
  filter? : Option String
  /-- Sampling makes no difference to the answer. -/
  sampling : Bool

/-- What is told of one trace. Nothing is gathered for the fields that follow the flags. -/
structure TraceSummary where
  id : String
  duration : Int
  hasError : Bool
  hasFault : Bool
  hasThrottle : Bool
  annotations : Dictionary Json.Value
  http : Dictionary Json.Value
  serviceIds : List Json.Value
  users : Dictionary Json.Value
  isPartial : Bool
  responseTime : Int

structure SummaryResult where
  /-- The time of the answer, in seconds since the epoch. -/
  approximateTime : Int
  tracesProcessed : Int
  summaries : List TraceSummary

namespace SummaryQuery

/-- A filter other than the empty one cannot be served. -/
def hasFilter (q : SummaryQuery) : Bool := q.filter?.any (· != "")

/-- The window lies strictly inside the bounds of the query. -/
def Admits (q : SummaryQuery) (w : Window) : Prop := q.start < w.start ∧ w.stop < q.stop

instance (q : SummaryQuery) (w : Window) : Decidable (q.Admits w) := by
  unfold Admits; infer_instance

/-- What is said of a query with a filter. -/
def unsupportedMessage : String := "filter expressions are not implemented"

end SummaryQuery

/-! ## Answering -/

namespace TraceSummary

/-- The summary of a trace with the given window. -/
def ofTrace (id : String) (t : Trace) (w : Window) : TraceSummary where
  id
  duration := Instant.wholeSecondsBetween w.start w.stop
  hasError := t.anyHasExtension "error"
  hasFault := t.anyHasExtension "fault"
  hasThrottle := t.anyHasExtension "throttle"
  annotations := ∅
  http := ∅
  serviceIds := []
  users := ∅
  isPartial := false
  responseTime := 1

end TraceSummary

namespace TraceStore

/-- The summary of a trace, if it is finished and the query admits its window. -/
def summary? (q : SummaryQuery) (id : String) (t : Trace) : Option TraceSummary :=
  match t.window? with
  | some w => if q.Admits w then some (.ofTrace id t w) else none
  | none => none

/-- The summaries that answer a query, in the order of the trace ids. -/
def summaries (store : TraceStore) (q : SummaryQuery) : List TraceSummary :=
  store.traces.entries.filterMap fun e => summary? q e.1 e.2

/-- The answer to a query at the time `now`, unless it has a filter. -/
def summarize? (store : TraceStore) (q : SummaryQuery) (now : Int) : Option SummaryResult :=
  if q.hasFilter then none
  else
    let summaries := store.summaries q
    some ⟨now, summaries.length, summaries⟩

end TraceStore

/-! ## JSON form -/

namespace TraceSummary

def codec : Json.Codec TraceSummary where
  shape := .record "TraceSummary"
    [⟨"Id", .scalar .text, true⟩, ⟨"Duration", .scalar .signed, true⟩,
     ⟨"HasError", .scalar .flag, true⟩, ⟨"HasFault", .scalar .flag, true⟩,
     ⟨"HasThrottle", .scalar .flag, true⟩, ⟨"Annotations", .dictionary, true⟩,
     ⟨"Http", .dictionary, true⟩, ⟨"ServiceIds", .list .any, true⟩,
     ⟨"Users", .dictionary, true⟩, ⟨"IsPartial", .scalar .flag, true⟩,
     ⟨"ResponseTime", .scalar .signed, true⟩]
  decode v := do
    let fields ← v.asRecord "TraceSummary"
    return {
      id := ← Json.requiredField fields "Id" Json.Value.asText
      duration := ← Json.requiredField fields "Duration" Json.Value.asSigned
      hasError := ← Json.requiredField fields "HasError" Json.Value.asFlag
      hasFault := ← Json.requiredField fields "HasFault" Json.Value.asFlag
      hasThrottle := ← Json.requiredField fields "HasThrottle" Json.Value.asFlag
      annotations := ← Json.requiredField fields "Annotations" Json.Value.asDictionary
      http := ← Json.requiredField fields "Http" Json.Value.asDictionary
      serviceIds := ← Json.requiredField fields "ServiceIds" Json.Value.asList
      users := ← Json.requiredField fields "Users" Json.Value.asDictionary
      isPartial := ← Json.requiredField fields "IsPartial" Json.Value.asFlag
      responseTime := ← Json.requiredField fields "ResponseTime" Json.Value.asSigned }
  encode s := .ofMembers
    [("Id", .string s.id), ("Duration", .integer s.duration), ("HasError", .bool s.hasError),
     ("HasFault", .bool s.hasFault), ("HasThrottle", .bool s.hasThrottle),
     ("Annotations", .object s.annotations), ("Http", .object s.http),
     ("ServiceIds", .array s.serviceIds), ("Users", .object s.users),
     ("IsPartial", .bool s.isPartial), ("ResponseTime", .integer s.responseTime)]

end TraceSummary

namespace SummaryResult

def codec : Json.Codec SummaryResult where
  shape := .record "SummaryResult"
    [⟨"ApproximateTime", .scalar .signed, true⟩, ⟨"TracesProcessedCount", .scalar .size, true⟩,
     ⟨"TraceSummaries", (Json.Codec.list TraceSummary.codec).shape, true⟩]
  decode v := do
    let fields ← v.asRecord "SummaryResult"
    return {
      approximateTime := ← Json.requiredField fields "ApproximateTime" Json.Value.asSigned
      tracesProcessed := ← Json.requiredField fields "TracesProcessedCount" Json.Value.asSize
      summaries := ← Json.requiredField fields "TraceSummaries"
        (Json.Codec.list TraceSummary.codec).decode }
  encode r := .ofMembers
    [("ApproximateTime", .integer r.approximateTime),
     ("TracesProcessedCount", .integer r.tracesProcessed),
     ("TraceSummaries", (Json.Codec.list TraceSummary.codec).encode r.summaries)]

end SummaryResult

end TraceCollector
