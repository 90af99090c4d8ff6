import TraceCollector.Completion

/-!
# Traces

A trace gathers the segments that were reported under one id, in the order of their starts; among
equal starts the one reported last comes first. When a new segment makes the completion rule hold,
the trace is finished, and its window is taken from the segments there are. A trace that has been
finished stays so, and keeps its window until the rule holds again.
-/

namespace TraceCollector

/-- From one instant to another. -/
structure Window where
  start : Instant
  stop : Instant
deriving DecidableEq

/-- The window from the start of the first segment to the latest of all ends. -/
def Window.spanning? (segments : List Segment) : Option Window := do
  let first ← segments.head?
  let stop ← (segments.filterMap (·.endDate?)).max?
  return ⟨first.startDate, stop⟩

structure Trace where
  segments : List Segment
  finished : Bool
  window? : Option Window

namespace Trace

def empty : Trace := ⟨[], false, none⟩

/-- Segments with one put in front of the first that does not start before it. -/
def insertByStart (s : Segment) : List Segment → List Segment
  | [] => [s]
  | t :: rest =>
    if t.startDate < s.startDate then t :: insertByStart s rest else s :: t :: rest

/-- The trace with one more segment. -/
def insert (rule : CompletionRule) (t : Trace) (s : Segment) : Trace :=
  let segments := insertByStart s t.segments
  if rule.holds segments then ⟨segments, true, Window.spanning? segments⟩ else { t with segments }

/-- Some segment was reported with a further field of this key. -/
def anyHasExtension (t : Trace) (key : String) : Bool := t.segments.any (·.hasExtension key)

end Trace

end TraceCollector
