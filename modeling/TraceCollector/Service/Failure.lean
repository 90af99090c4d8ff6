import TraceCollector.Summary
import TraceCollector.Telemetry

/-!
# Failures of requests

A failure has a kind, which settles the code and the status of the response, and a text.
-/

namespace TraceCollector.Service

inductive Failure.Kind where
  | missingParameter
  | invalidParameter
  | invalidRegion
  /-- The action is known, but not all that was asked of it. -/
  | unsupported
  /-- The action itself cannot be performed. -/
  | notImplemented
  | internal
deriving DecidableEq

structure Failure where
  kind : Failure.Kind
  message : String
deriving DecidableEq

namespace Failure

namespace Kind

def code : Kind → String
  | missingParameter => "MissingParameter"
  | invalidParameter => "InvalidParameterValue"
  | invalidRegion => "InvalidRegion"
  | unsupported | notImplemented => "NotImplemented"
  | internal => "InternalFailure"

def status : Kind → Nat
  | missingParameter | invalidParameter | invalidRegion => 400
  | unsupported | internal => 500
  | notImplemented => 501

end Kind

def code (f : Failure) : String := f.kind.code

def status (f : Failure) : Nat := f.kind.status

/-- A parameter is absent. -/
def missing (parameter : String) : Failure :=
  ⟨.missingParameter, "Parameter " ++ parameter ++ " is missing"⟩

/-- A parameter that is wanted as a time is none. -/
def notATime : Failure := ⟨.invalidParameter, "start_time and end_time are not integers"⟩

def notAList : Failure :=
  ⟨.invalidParameter, "TraceSegmentDocuments must be a list of strings"⟩

def unknownRegion (name : String) : Failure := ⟨.invalidRegion, "Unknown region: " ++ name⟩

/-- An action that there is a path for, but nothing else. -/
def unavailable (action : String) : Failure :=
  ⟨.notImplemented, "The " ++ action ++ " action has not been implemented"⟩

/-- A query with a filter. -/
def filtered : Failure := ⟨.unsupported, SummaryQuery.unsupportedMessage⟩

def ofTelemetryError (e : TelemetryError) : Failure :=
  let kind : Kind :=
    match e with
    | .missingRecords => .missingParameter
    | .mismatch _ | .unreadable _ => .invalidParameter
    | .locked => .internal
  ⟨kind, e.message⟩

end Failure

end TraceCollector.Service
