import TraceCollector.Json.Codec
import TraceCollector.Segment

/-!
# Completion

A completion rule decides from a trace's segments, in the order of their starts, whether the work
that they report has come to its end.
-/

namespace TraceCollector

inductive CompletionRule where
  /-- The segment that starts last is closed. -/
  | lastSegment
  /-- Every segment is closed. -/
  | allSegments
deriving DecidableEq, Inhabited

namespace CompletionRule

def holds : CompletionRule → List Segment → Bool
  | lastSegment, segments => segments.getLast?.any (·.isClosed)
  | allSegments, segments => segments.all (·.isClosed)

def name : CompletionRule → String
  | lastSegment => "last_segment"
  | allSegments => "all_segments"

def all : List CompletionRule := [lastSegment, allSegments]

def ofName? (name : String) : Option CompletionRule := all.find? (·.name == name)

def codec : Json.Codec CompletionRule := .choice all name

end CompletionRule

end TraceCollector
