import TraceCollector.Proofs.Service.Runs

/-!
# Batches over the wire

Every entry of a batch that is posted is accounted for exactly once.

1. An entry reports a segment, or it is turned down and leaves a record (`entry_cases`); so the two
   lists that a batch falls into have as many items as it has entries (`length_entries`).
2. An entry that is turned down adds its own record to the answer, and nothing else changes
   (`exists_split_unprocessed`).
3. The service answers with these records and stores these segments (`batch_accounted`).
-/

namespace TraceCollector.Service

/-! ## Entries -/

/-- The segment that an entry reports, if it is a sound document. -/
def segmentOf? : Json.Value → Option Segment
  | .string document => soundSegment? document
  | _ => none

/-- The record for an entry that is a document and is turned down. -/
def refusalOf? : Json.Value → Option RejectionRecord
  | .string document => refusal? document
  | _ => none

/-- Whether an entry is a document, sound or not. -/
def isDocument : Json.Value → Bool
  | .string _ => true
  | _ => false

/-- The record for an entry that is no document: it names no segment. -/
def strangerRecord : RejectionRecord where
  id? := none
  code := .jsonFormatError
  message := "Bad JSON data: segment document must be a string"

/-- The record for an entry that is turned down. -/
def recordOf? (entry : Json.Value) : Option RejectionRecord :=
  if isDocument entry then refusalOf? entry else some strangerRecord

/-- The segments that a batch reports, in the order of its entries. -/
def segmentsOf (entries : List Json.Value) : List Segment := entries.filterMap segmentOf?

/-- The records of a batch: one for each entry that is no document, and then those of the documents
that are turned down, in the order of the entries. -/
def unprocessedOf (entries : List Json.Value) : List RejectionRecord :=
  List.replicate (entries.countP fun e => !isDocument e) strangerRecord ++
    entries.filterMap refusalOf?

/-- An entry is a sound document, a document that is turned down, or no document. -/
theorem entry_cases (entry : Json.Value) :
    (isDocument entry = true ∧ (∃ s, segmentOf? entry = some s) ∧ refusalOf? entry = none) ∨
    (isDocument entry = true ∧ segmentOf? entry = none ∧
      ∃ record, refusalOf? entry = some record) ∨
    (isDocument entry = false ∧ segmentOf? entry = none ∧ refusalOf? entry = none) := by
  cases entry with
  | string document =>
    unfold segmentOf? refusalOf? soundSegment? refusal?
    dsimp only
    cases Segment.ofDocument document with
    | ok s => exact Or.inl ⟨rfl, ⟨s, rfl⟩, rfl⟩
    | error r => exact Or.inr (Or.inl ⟨rfl, rfl, _, rfl⟩)
  | _ => exact Or.inr (Or.inr ⟨rfl, rfl, rfl⟩)

/-! ## Batches -/

theorem segmentsOf_append (entries others : List Json.Value) :
    segmentsOf (entries ++ others) = segmentsOf entries ++ segmentsOf others :=
  List.filterMap_append

theorem strangersOf_eq (entries : List Json.Value) :
    strangersOf entries =
      List.replicate (entries.countP fun e => !isDocument e) strangerRecord := by
  induction entries with
  | nil => rfl
  | cons entry rest ih =>
    rw [List.countP_cons]
    cases entry with
    | string document => exact ih
    | _ => exact congrArg (strangerRecord :: ·) ih

theorem filterMap_documentsOf (entries : List Json.Value) :
    (documentsOf entries).filterMap soundSegment? = segmentsOf entries ∧
      (documentsOf entries).filterMap refusal? = entries.filterMap refusalOf? := by
  unfold documentsOf segmentsOf
  rw [List.filterMap_filterMap, List.filterMap_filterMap]
  constructor <;>
  · congr 1
    funext entry
    cases entry <;> rfl

/-- A batch falls into segments and records. -/
theorem length_entries (entries : List Json.Value) :
    entries.length = (unprocessedOf entries).length + (segmentsOf entries).length := by
  unfold unprocessedOf segmentsOf
  rw [List.length_append, List.length_replicate]
  induction entries with
  | nil => rfl
  | cons entry rest ih =>
    rw [List.length_cons, List.countP_cons]
    rcases entry_cases entry with
      ⟨hdocument, ⟨s, hs⟩, hnone⟩ | ⟨hdocument, hnone, record, hrecord⟩ |
        ⟨hstranger, hnone, hnone'⟩
    · rw [hdocument, List.filterMap_cons_some hs, List.filterMap_cons_none hnone,
        List.length_cons]
      simp only [Bool.not_true, Bool.false_eq_true, if_false]
      omega
    · rw [hdocument, List.filterMap_cons_none hnone, List.filterMap_cons_some hrecord,
        List.length_cons]
      simp only [Bool.not_true, Bool.false_eq_true, if_false]
      omega
    · rw [hstranger, List.filterMap_cons_none hnone, List.filterMap_cons_none hnone']
      simp only [Bool.not_false, if_true]
      omega

/-- An entry that is turned down adds its own record to those of the batch, and no segment. -/
theorem exists_split_unprocessed {entry : Json.Value} (h : segmentOf? entry = none)
    (before after : List Json.Value) :
    segmentsOf (before ++ entry :: after) = segmentsOf (before ++ after) ∧
    ∃ left record right, recordOf? entry = some record ∧
      unprocessedOf (before ++ entry :: after) = left ++ record :: right ∧
      unprocessedOf (before ++ after) = left ++ right := by
  refine ⟨?_, ?_⟩
  · rw [segmentsOf_append, segmentsOf_append]
    exact congrArg (segmentsOf before ++ ·) (List.filterMap_cons_none h)
  unfold unprocessedOf recordOf?
  rw [List.countP_append, List.countP_append, List.countP_cons, List.filterMap_append,
    List.filterMap_append]
  rcases entry_cases entry with
    ⟨-, ⟨s, hs⟩, -⟩ | ⟨hdocument, -, record, hrecord⟩ | ⟨hstranger, -, hnone⟩
  · rw [h] at hs
    cases hs
  · rw [hdocument, List.filterMap_cons_some hrecord]
    exact ⟨_, record, _, hrecord, (List.append_assoc _ _ _).symm, (List.append_assoc _ _ _).symm⟩
  · rw [hstranger, List.filterMap_cons_none hnone]
    exact ⟨[], strangerRecord, _, rfl, rfl, rfl⟩

/-! ## The answer -/

namespace State

/-- The answer to a batch, and the region that it goes to afterwards. -/
theorem handle_of_postsBatch {s : State} {r : Request} {entries : List Json.Value}
    {region : Region} (hbatch : r.PostsBatch entries) (hregion : s.region r = .ok region)
    (now : Int) :
    (s.handle r now).1.status = 200 ∧
      (s.handle r now).1.body = (unprocessedBody (unprocessedOf entries)).text ∧
      (s.handle r now).2 = s.setRegion (s.regionName r)
        { region with traces := region.traces.putAll (segmentsOf entries) } := by
  have hanswer := answer_of_postsBatch hbatch hregion now
  rw [strangersOf_eq, (filterMap_documentsOf entries).1, (filterMap_documentsOf entries).2]
    at hanswer
  rw [status_handle, snd_handle]
  refine ⟨by rw [hanswer]; rfl, ?_, by rw [hanswer]⟩
  show (s.answer r now).1.body = _
  rw [hanswer]
  rfl

/-- A batch that is posted to a region is answered with success. The segments of its sound documents
are put into the traces of the region, in the order of the entries and in addition to all that is
there; every other entry is answered with its record, the entries that are no documents first. So
each entry counts once, and without an entry that is turned down there is one record less and no
other difference. -/
theorem batch_accounted {s : State} (hs : s.Reachable) {r : Request} {entries : List Json.Value}
    {region : Region} (hbatch : r.PostsBatch entries) (hregion : s.region r = .ok region)
    (now : Int) :
    (s.handle r now).1.status = 200 ∧
    (s.handle r now).1.body = (unprocessedBody (unprocessedOf entries)).text ∧
    ChangesAt (s.regionName r) region
      { region with traces := (segmentsOf entries).foldl TraceStore.put region.traces }
      s (s.handle r now).2 ∧
    ((segmentsOf entries).foldl TraceStore.put region.traces).allSegments.Perm
      (segmentsOf entries ++ region.traces.allSegments) ∧
    entries.length = (unprocessedOf entries).length + (segmentsOf entries).length ∧
    ∀ before entry after, entries = before ++ entry :: after → segmentOf? entry = none →
      ∃ left record right, recordOf? entry = some record ∧
        unprocessedOf entries = left ++ record :: right ∧
        ∀ r' now', r'.PostsBatch (before ++ after) → s.regionName r' = s.regionName r →
          (s.handle r' now').1.status = 200 ∧
          (s.handle r' now').1.body = (unprocessedBody (left ++ right)).text ∧
          (s.handle r' now').2 = (s.handle r now).2 := by
  obtain ⟨hstatus, hbody, hstate⟩ := handle_of_postsBatch hbatch hregion now
  have hget := get?_of_region hregion
  refine ⟨hstatus, hbody, ?_, ?_, length_entries entries, ?_⟩
  · rw [hstate]
    exact changesAt_setRegion _ hget
  · obtain ⟨rule, arrivals, htraces⟩ := hs.exists_arrivals hget
    refine TraceStore.perm_allSegments_putAll ?_ _
    rw [htraces]
    exact TraceStore.ordered_ofArrivals rule arrivals
  · rintro before entry after rfl hentry
    obtain ⟨hsegments, left, record, right, hrecord, hwith, hwithout⟩ :=
      exists_split_unprocessed hentry before after
    refine ⟨left, record, right, hrecord, hwith, fun r' now' hbatch' hname => ?_⟩
    have hregion' : s.region r' = .ok region := by
      rw [← hname] at hget
      exact region_of_get? hget
    obtain ⟨hstatus', hbody', hstate'⟩ := handle_of_postsBatch hbatch' hregion' now'
    refine ⟨hstatus', ?_, ?_⟩
    · rw [hbody', hwithout]
    · rw [hstate', hstate, hname, hsegments]

/-- A batch of a number, a text that breaks off and a sound document. -/
def mixedBatch : Request :=
  signedRequest "eu-west-1" "/TraceSegments" <|
    "\x7b\"TraceSegmentDocuments\":[7,\"\x7boops\",\"\x7b\\\"id\\\":\\\"a\\\"," ++
      "\\\"name\\\":\\\"api\\\",\\\"trace_id\\\":\\\"1-0-t\\\",\\\"start_time\\\":10," ++
      "\\\"end_time\\\":50\x7d\"]\x7d"

/-- The number leaves the first record, the broken text the other, and one segment is stored. -/
theorem batch_accounted_mixedBatch :
    let s := State.ofConfiguration .standard
    s.Reachable ∧ mixedBatch.PostsBatch mixedBatch.batch ∧ mixedBatch.batch.length = 3 ∧
      (s.handle mixedBatch 0).1.status = 200 ∧
      (s.handle mixedBatch 0).1.body =
        (unprocessedBody (unprocessedOf mixedBatch.batch)).text ∧
      unprocessedOf mixedBatch.batch = [strangerRecord,
        ⟨none, .jsonFormatError, "Bad JSON data: key must be a string at line 1 column 2"⟩] ∧
      (segmentsOf mixedBatch.batch).map (·.traceId) = ["1-0-t"] ∧
      3 = (unprocessedOf mixedBatch.batch).length + (segmentsOf mixedBatch.batch).length := by
  intro s
  have hreachable : s.Reachable := ⟨_, _, _, [], rfl⟩
  have hthree : mixedBatch.batch.length = 3 := by decide +kernel
  have hbatch : mixedBatch.PostsBatch mixedBatch.batch := by
    refine Request.postsBatch_of_batch_ne_nil fun hnil => ?_
    rw [hnil] at hthree
    exact absurd hthree (by decide)
  have hregion : s.region mixedBatch = .ok (.empty .lastSegment "eu-west-1") := by
    have hname : s.regionName mixedBatch = "eu-west-1" := by decide +kernel
    refine region_of_get? ?_
    rw [hname]
    exact (get?_ofRegions _ _ _ _).trans (if_pos (by decide))
  obtain ⟨hstatus, hbody, -, -, hlength, -⟩ := batch_accounted hreachable hbatch hregion 0
  rw [hthree] at hlength
  exact ⟨hreachable, hbatch, hthree, hstatus, hbody, by decide +kernel, by decide +kernel, hlength⟩

end State

end TraceCollector.Service
