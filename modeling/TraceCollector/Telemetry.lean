import TraceCollector.Json.Codec

/-!
# Telemetry

The senders of documents also report on themselves. A payload is kept as it was received, apart
from keys without a meaning, and the log of payloads only grows.
-/

namespace TraceCollector

structure TelemetryPayload where
  instanceId? : Option String
  hostname? : Option String
  resource? : Option String
  records : List Json.Value

/-- Why a payload is not taken. -/
inductive TelemetryError where
  | missingRecords
  /-- A parameter is not of its form. -/
  | mismatch (what : Json.Mismatch)
  /-- A text that is no payload. -/
  | unreadable (fault : Json.Fault)
  /-- The log cannot be written. -/
  | locked

namespace TelemetryError

def message : TelemetryError → String
  | missingRecords => "Parameter TelemetryRecords is missing"
  | mismatch what => "Invalid telemetry payload: " ++ what.message
  | unreadable fault => "Invalid telemetry payload: " ++ fault.message
  | locked => "Lock error"

end TelemetryError

namespace TelemetryPayload

def codec : Json.Codec TelemetryPayload where
  shape := .record "TelemetryRecords"
    [⟨"EC2InstanceId", .optional .text, false⟩, ⟨"Hostname", .optional .text, false⟩,
     ⟨"ResourceARN", .optional .text, false⟩, ⟨"TelemetryRecords", .list .any, true⟩]
  decode v := do
    let fields ← v.asRecord "TelemetryRecords"
    let instanceId? ← Json.fieldOr none fields "EC2InstanceId" Json.Value.asOptionalText
    let hostname? ← Json.fieldOr none fields "Hostname" Json.Value.asOptionalText
    let resource? ← Json.fieldOr none fields "ResourceARN" Json.Value.asOptionalText
    let records ← Json.requiredField fields "TelemetryRecords" Json.Value.asList
    return ⟨instanceId?, hostname?, resource?, records⟩
  encode p := .ofMembers
    [("EC2InstanceId", .ofText? p.instanceId?), ("Hostname", .ofText? p.hostname?),
     ("ResourceARN", .ofText? p.resource?), ("TelemetryRecords", .array p.records)]

/-- The payload in the parameters of a request. -/
def ofParameters (parameters : Dictionary Json.Value) : Except TelemetryError TelemetryPayload :=
  if parameters.contains "TelemetryRecords" then
    match codec.decode (.object parameters) with
    | .ok payload => .ok payload
    | .error what => .error (.mismatch what)
  else .error .missingRecords

/-- The payload that a text holds. -/
def ofText (text : List UInt8) : Except TelemetryError TelemetryPayload :=
  match codec.read text with
  | .ok payload => .ok payload
  | .error fault => .error (.unreadable fault)

end TelemetryPayload

/-- The payloads received, the first in front. -/
structure TelemetryLog where
  entries : List TelemetryPayload

namespace TelemetryLog

def empty : TelemetryLog := ⟨[]⟩

def append (log : TelemetryLog) (payload : TelemetryPayload) : TelemetryLog :=
  ⟨log.entries ++ [payload]⟩

def size (log : TelemetryLog) : Nat := log.entries.length

@[simp] theorem size_append (log : TelemetryLog) (payload : TelemetryPayload) :
    (log.append payload).size = log.size + 1 := by
  simp [append, size]

end TelemetryLog

end TraceCollector
