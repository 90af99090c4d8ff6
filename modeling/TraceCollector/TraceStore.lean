import TraceCollector.Trace

/-!
# Stores of traces

A store keeps the traces under their ids and applies one completion rule to all of them. A segment
touches no trace but its own (`get?_put`).
-/

namespace TraceCollector

structure TraceStore where
  rule : CompletionRule
  traces : Dictionary Trace

namespace TraceStore

def empty (rule : CompletionRule) : TraceStore := ⟨rule, ∅⟩

/-- The store with one more segment, in a new trace if there is none of its id. -/
def put (store : TraceStore) (s : Segment) : TraceStore :=
  let trace := (store.traces.get? s.traceId).getD .empty
  { store with traces := store.traces.insert s.traceId (trace.insert store.rule s) }

def get? (store : TraceStore) (id : String) : Option Trace := store.traces.get? id

/-- The number of traces. -/
def size (store : TraceStore) : Nat := store.traces.size

/-- What is said of an id without a trace. -/
def notFoundMessage (id : String) : String := "Trace not found: " ++ id

@[simp] theorem rule_put (store : TraceStore) (s : Segment) : (store.put s).rule = store.rule := rfl

theorem get?_put (store : TraceStore) (s : Segment) (id : String) :
    (store.put s).get? id =
      if id = s.traceId then some (((store.get? id).getD .empty).insert store.rule s)
      else store.get? id := by
  unfold put get?
  rw [Dictionary.get?_insert]
  split
  · next h => rw [h]
  · rfl

end TraceStore

end TraceCollector
