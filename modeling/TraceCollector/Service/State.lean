import TraceCollector.Configuration
import TraceCollector.Ingest
import TraceCollector.Service.Credential
import TraceCollector.Telemetry

/-!
# The state of the service

Each region has traces and telemetry of its own. A request goes to the region that it is signed
for, or else to the default region. Requests are answered one after the other, so none finds a
region half changed or a log that it cannot write to, and nothing is recorded of them but what is
in the state.
-/

namespace TraceCollector.Service

structure Region where
  name : String
  traces : TraceStore
  telemetry : TelemetryLog

namespace Region

def empty (rule : CompletionRule) (name : String) : Region := ⟨name, .empty rule, .empty⟩

end Region

structure State where
  regions : Dictionary Region
  defaultRegion : String

namespace State

/-- Empty regions of the given names. -/
def ofRegions (rule : CompletionRule) (names : List String) (defaultRegion : String) : State :=
  ⟨.ofList (names.map fun name => (name, .empty rule name)), defaultRegion⟩

def ofConfiguration (c : Configuration) : State :=
  ofRegions c.completion c.regions c.defaultRegion

/-- The name of the region that a request goes to. -/
def regionName (s : State) (r : Request) : String := r.region?.getD s.defaultRegion

/-- The region that a request goes to. -/
def region (s : State) (r : Request) : Except Failure Region :=
  match s.regions.get? (s.regionName r) with
  | some region => .ok region
  | none => .error (.unknownRegion (s.regionName r))

/-- The state with a new region under a name. -/
def setRegion (s : State) (name : String) (region : Region) : State :=
  { s with regions := s.regions.insert name region }

end State

end TraceCollector.Service
