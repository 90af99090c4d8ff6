import TraceCollector.Ingest.RejectionRecord
import TraceCollector.Segment.Document
import TraceCollector.TraceStore

/-!
# Taking in batches of documents

The documents of a batch are looked at in their order. A sound one is stored, any other leaves a
rejection record, and neither stops the batch.
-/

namespace TraceCollector.TraceStore

/-- The store after a batch of documents, and the records of those that were turned down. -/
def ingest (store : TraceStore) : List String → TraceStore × List RejectionRecord
  | [] => (store, [])
  | document :: rest =>
    match Segment.ofDocument document with
    | .ok s => ingest (store.put s) rest
    | .error r =>
      let (store, records) := ingest store rest
      (store, .ofRejection r :: records)

end TraceCollector.TraceStore
