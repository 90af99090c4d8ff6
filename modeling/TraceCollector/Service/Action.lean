import TraceCollector.Service.Parameters
import TraceCollector.Service.State

/-!
# Actions and questions

What can be asked of a region. A question only looks at it. An action gives the body of the answer
and the region after it, or a failure.
-/

namespace TraceCollector.Service

/-- A thing to do with a region and the parameters of a request. A failure comes without a region,
since no action changes the region before the last of its checks has passed: documents are taken in
once they are known to be a list, whatever becomes of each of them, and a payload is added once it
is decoded. -/
abbrev Action := Region → Parameters → Except Failure (Json.Value × Region)

/-- A thing to find out about a region. -/
abbrev Question := Region → Parameters → Except Failure Json.Value

/-! ## Documents -/

/-- The texts among the entries of a batch. -/
def documentsOf (entries : List Json.Value) : List String :=
  entries.filterMap fun
    | .string document => some document
    | _ => none

/-- A record for each entry of a batch that is no text. -/
def strangersOf (entries : List Json.Value) : List RejectionRecord :=
  entries.filterMap fun
    | .string _ => none
    | _ => some (.ofRejection .notText)

/-- Takes in a batch of documents and answers with the records of those that were turned down. -/
def putSegments : Action := fun region parameters => do
  match ← parameters.require "TraceSegmentDocuments" with
  | .array entries =>
    let (traces, records) := region.traces.ingest (documentsOf entries)
    let unprocessed := (Json.Codec.list RejectionRecord.codec).encode
      (strangersOf entries ++ records)
    return (.ofMembers [("UnprocessedTraceSegments", unprocessed)], { region with traces })
  | _ => throw .notAList

/-! ## Summaries -/

/-- The query that the parameters describe. -/
def summaryQuery (parameters : Parameters) : Except Failure SummaryQuery := do
  let start ← parameters.require "StartTime"
  let stop ← parameters.require "EndTime"
  let start ← timeOf start
  let stop ← timeOf stop
  return ⟨start, stop, parameters.text? "FilterExpression", parameters.flag "Sampling"⟩

/-- Answers a query at the time `now`. -/
def getSummaries (now : Int) : Question := fun region parameters => do
  match region.traces.summarize? (← summaryQuery parameters) now with
  | some result => return SummaryResult.codec.encode result
  | none => throw .filtered

/-! ## Telemetry -/

/-- Adds a payload to the log. -/
def putTelemetry : Action := fun region parameters =>
  match TelemetryPayload.ofParameters parameters.members with
  | .ok payload => .ok (.object ∅, { region with telemetry := region.telemetry.append payload })
  | .error e => .error (.ofTelemetryError e)

end TraceCollector.Service
