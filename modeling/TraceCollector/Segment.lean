import TraceCollector.Json.Value
import TraceCollector.Timestamp

/-!
# Segments

A segment is one reported unit of work in a trace. Besides the fields that have a meaning here it
keeps everything else that was reported with it.
-/

namespace TraceCollector

structure Segment where
  id : String
  traceId : String
  name : String
  start : Timestamp
  /-- Absent while the work goes on. -/
  stop? : Option Timestamp
  /-- What was reported as the mark of work in progress. -/
  inProgress? : Option Json.Value
  extensions : Dictionary Json.Value

namespace Segment

def startDate (s : Segment) : Instant := s.start.instant

def endDate? (s : Segment) : Option Instant := s.stop?.map (·.instant)

/-- The work has ended. -/
def isClosed (s : Segment) : Bool := s.stop?.isSome

def hasExtension (s : Segment) (key : String) : Bool := s.extensions.contains key

/-- The segment with one more field kept. -/
def withExtension (s : Segment) (key : String) (value : Json.Value) : Segment :=
  { s with extensions := s.extensions.insert key value }

theorem isSome_endDate? (s : Segment) : s.endDate?.isSome = s.isClosed := by
  simp [endDate?, isClosed]

end Segment

end TraceCollector
