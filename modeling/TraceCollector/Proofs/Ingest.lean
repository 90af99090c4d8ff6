import TraceCollector.Ingest
import TraceCollector.Proofs.Arrivals

/-!
# Batches of documents

What a batch of documents does to a store, and what is told of it.

1. The sound documents of a batch are stored and the others are recorded, each in the order of the
   batch (`ingest_eq`). So a batch may be taken in at once or in parts (`ingest_append`).
2. Nothing that was stored is lost or stored twice (`perm_allSegments_put`): a store holds what it
   held before and what was put into it.
-/

namespace TraceCollector

/-! ## Documents -/

/-- The segment that a document reports, if the document is sound. -/
def soundSegment? (document : String) : Option Segment :=
  match Segment.ofDocument document with
  | .ok s => some s
  | .error _ => none

/-- The record for a document that is turned down: the id, the code and the message of its
rejection. -/
def refusal? (document : String) : Option RejectionRecord :=
  match Segment.ofDocument document with
  | .ok _ => none
  | .error r => some ⟨r.id?, r.code, r.message⟩

theorem soundSegment?_eq_some_iff {document : String} {s : Segment} :
    soundSegment? document = some s ↔ Segment.ofDocument document = .ok s := by
  unfold soundSegment?
  split <;> simp_all

namespace TraceStore

/-! ## Batches -/

/-- The store with some segments put into it one after the other. -/
def putAll (store : TraceStore) (segments : List Segment) : TraceStore := segments.foldl put store

theorem putAll_append (store : TraceStore) (segments others : List Segment) :
    store.putAll (segments ++ others) = (store.putAll segments).putAll others :=
  List.foldl_append

/-- Every document of a batch is stored or recorded, and neither stops the batch. -/
theorem ingest_eq (store : TraceStore) (documents : List String) :
    store.ingest documents =
      (store.putAll (documents.filterMap soundSegment?), documents.filterMap refusal?) := by
  induction documents generalizing store with
  | nil => rfl
  | cons document rest ih =>
    rw [ingest]
    cases hdocument : Segment.ofDocument document with
    | ok s =>
      have hsound : soundSegment? document = some s := soundSegment?_eq_some_iff.mpr hdocument
      have hrefusal : refusal? document = none := by
        unfold refusal?
        rw [hdocument]
      rw [List.filterMap_cons_some hsound, List.filterMap_cons_none hrefusal]
      exact ih (store.put s)
    | error r =>
      have hsound : soundSegment? document = none := by
        unfold soundSegment?
        rw [hdocument]
      have hrefusal : refusal? document = some (.ofRejection r) := by
        unfold refusal?
        rw [hdocument]
        rfl
      rw [List.filterMap_cons_none hsound, List.filterMap_cons_some hrefusal]
      dsimp only
      rw [ih store]

theorem ingest_append (store : TraceStore) (documents others : List String) :
    (store.ingest (documents ++ others)).1 = ((store.ingest documents).1.ingest others).1 := by
  rw [ingest_eq, ingest_eq, ingest_eq, List.filterMap_append, putAll_append]

/-! ## All segments of a store -/

/-- The segments of all traces. -/
def allSegments (store : TraceStore) : List Segment :=
  store.traces.entries.flatMap fun e => e.2.segments

theorem perm_allSegments {store : TraceStore} (h : store.traces.Ordered) (id : String) :
    store.allSegments.Perm (((store.get? id).map (·.segments)).getD [] ++
      (store.traces.erase id).entries.flatMap fun e => e.2.segments) := by
  have hperm := (Dictionary.perm_entries h id).flatMap_right fun e => e.2.segments
  rw [List.flatMap_append] at hperm
  unfold get?
  cases hget : store.traces.get? id with
  | none =>
    rw [hget] at hperm
    exact hperm
  | some t =>
    rw [hget, Option.map_some, Option.toList_some, List.flatMap_singleton] at hperm
    exact hperm

/-- A segment that is put into a store comes in addition to all that are there. -/
theorem perm_allSegments_put {store : TraceStore} (h : store.traces.Ordered) (s : Segment) :
    (store.put s).allSegments.Perm (s :: store.allSegments) := by
  have hordered : (store.put s).traces.Ordered := Dictionary.ordered_insert h _ _
  have herase : (store.put s).traces.erase s.traceId = store.traces.erase s.traceId :=
    Dictionary.erase_insert _ _ _
  have hbefore := perm_allSegments h s.traceId
  have hafter := perm_allSegments hordered s.traceId
  rw [herase, get?_put, if_pos rfl, Option.map_some, Option.getD_some,
    Trace.segments_insert] at hafter
  refine hafter.trans (((perm_insertByStart s _).append_right _).trans ?_)
  refine (List.Perm.cons s ?_)
  cases hget : store.get? s.traceId with
  | none =>
    rw [hget] at hbefore
    exact hbefore.symm
  | some t =>
    rw [hget] at hbefore
    exact hbefore.symm

theorem perm_allSegments_putAll {store : TraceStore} (h : store.traces.Ordered)
    (segments : List Segment) :
    (store.putAll segments).allSegments.Perm (segments ++ store.allSegments) := by
  induction segments generalizing store with
  | nil => exact List.Perm.refl _
  | cons s rest ih =>
    have hordered : (store.put s).traces.Ordered := Dictionary.ordered_insert h _ _
    refine (ih hordered).trans ?_
    exact ((perm_allSegments_put h s).append_left rest).trans List.perm_middle

end TraceStore

end TraceCollector
