import TraceCollector.Proofs.DocumentRules
import TraceCollector.Proofs.Service.Batches
import TraceCollector.Proofs.WireForms

/-!
# What a client reads

The forms that are sent are read back as what was sent, and so is the list of records in the answer
to a batch (`exists_read_unprocessedBody`). A record for a document that was turned down has the id
that the document gives itself (`id?_of_refusal?`).
-/

namespace TraceCollector.Service

open Json

/-! ## Ids -/

/-- The id that a document gives itself: the text under the key "id" of its object. -/
def documentId? (document : String) : Option String :=
  match Json.read (utf8 document) with
  | .ok (.object fields) =>
    match fields.get? "id" with
    | some (.string id) => some id
    | _ => none
  | _ => none

theorem id?_of_refusal? {document : String} {record : RejectionRecord}
    (h : refusal? document = some record) : record.id? = documentId? document := by
  unfold refusal? at h
  split at h
  · cases h
  · next r hr =>
    cases h
    unfold documentId?
    unfold Segment.ofDocument at hr
    split at hr
    · next hread => cases hr; rw [hread]; rfl
    · next fields hread =>
      have htold := ((Segment.ofFields_decides fields).error_iff.mp hr).told.2
      rw [hread]
      dsimp only
      ext id
      rw [htold id]
      show fields.get? "id" = _ ↔ _
      split
      · next hid => rw [hid]; simp
      · next hnot => exact iff_of_false (fun hid => hnot id hid) (by simp)
    · next v hnot hread =>
      cases hr
      rw [hread]
      cases v with
      | object fields => exact absurd rfl (hnot fields)
      | _ => rfl

/-- The documents of a batch that are turned down. -/
def refusedOf (entries : List Value) : List String :=
  (documentsOf entries).filter fun document => (soundSegment? document).isNone

/-- The ids of the records are those of the documents that were turned down, in their order. -/
theorem map_id?_refusals (entries : List Value) :
    ((documentsOf entries).filterMap refusal?).map (·.id?) =
      (refusedOf entries).map documentId? := by
  unfold refusedOf
  induction documentsOf entries with
  | nil => rfl
  | cons document rest ih =>
    cases hdocument : Segment.ofDocument document with
    | ok s =>
      have hsound : soundSegment? document = some s := soundSegment?_eq_some_iff.mpr hdocument
      have hrefusal : refusal? document = none := by
        unfold refusal?
        rw [hdocument]
      rw [List.filterMap_cons_none hrefusal, ih, List.filter_cons, hsound]
      rfl
    | error r =>
      have hsound : soundSegment? document = none := by
        unfold soundSegment?
        rw [hdocument]
      have hrefusal : refusal? document = some ⟨r.id?, r.code, r.message⟩ := by
        unfold refusal?
        rw [hdocument]
      rw [List.filterMap_cons_some hrefusal, List.map_cons, ih, List.filter_cons, hsound,
        id?_of_refusal? hrefusal]
      rfl

/-! ## Answers -/

theorem carries_records {d : Nat} (records : List RejectionRecord) :
    (Codec.list RejectionRecord.codec).Carries (d + 2) records :=
  Codec.carries_list fun record _ => record.carries_codec

/-- The records in the answer to a batch are read as they were written. -/
theorem exists_read_unprocessedBody (records : List RejectionRecord) :
    ∃ fields v, Json.read (utf8 (unprocessedBody records).text) = .ok (.object fields) ∧
      fields.get? "UnprocessedTraceSegments" = some v ∧
      (Codec.list RejectionRecord.codec).decode v = .ok records ∧
      (Codec.list RejectionRecord.codec).read (utf8 v.text) = .ok records := by
  have hrecords := carries_records (d := 124) records
  have hwritable : Writable depthLimit (unprocessedBody records) := by
    refine .object (Dictionary.ordered_ofList _) fun e he => ?_
    rw [List.mem_singleton.mp he]
    exact hrecords.writable
  exact ⟨_, (Codec.list RejectionRecord.codec).encode records, read_text hwritable (.any _),
    (Dictionary.get?_insert _ _ _ _).trans (if_pos rfl), hrecords.decode_encode,
    (carries_records records).read_write⟩

namespace State

/-- A configuration, a rejection record and a result that a store gives are read back from the
compact text that is written for them, whatever their texts hold. So is the list of records in the
answer to a batch; its documents that were turned down are named there by their own ids. -/
theorem forms_read_back :
    (∀ c : Configuration,
      Configuration.codec.read (utf8 (Configuration.codec.write c)) = .ok c) ∧
    (∀ record : RejectionRecord,
      RejectionRecord.codec.read (utf8 (RejectionRecord.codec.write record)) = .ok record) ∧
    (∀ result : SummaryResult, result.Bare →
      SummaryResult.codec.read (utf8 (SummaryResult.codec.write result)) = .ok result) ∧
    (∀ rule arrivals q now result,
      (TraceStore.ofArrivals rule arrivals).summarize? q now = some result → IsSigned64 now →
      result.summaries.length < 18446744073709551616 →
      SummaryResult.codec.read (utf8 (SummaryResult.codec.write result)) = .ok result) ∧
    ∀ (s : State) (r : Request) (entries : List Value) (region : Region) (now : Int),
      r.PostsBatch entries → s.region r = .ok region →
      ∃ fields v records, Json.read (utf8 (s.handle r now).1.body) = .ok (.object fields) ∧
        fields.get? "UnprocessedTraceSegments" = some v ∧
        records = (region.traces.ingest (documentsOf entries)).2 ∧
        (Codec.list RejectionRecord.codec).decode v = .ok (strangersOf entries ++ records) ∧
        (Codec.list RejectionRecord.codec).read (utf8 v.text) =
          .ok (strangersOf entries ++ records) ∧
        (∀ record ∈ strangersOf entries, record.id? = none) ∧
        records.map (·.id?) = (refusedOf entries).map documentId? := by
  refine ⟨fun c => c.carries_codec.read_write, fun record => record.carries_codec.read_write,
    fun result h => (SummaryResult.carries_codec h).read_write,
    fun rule arrivals q now result h hnow hcount =>
      (SummaryResult.carries_codec (TraceStore.bare_of_summarize? h hnow hcount)).read_write, ?_⟩
  intro s r entries region now hbatch hregion
  obtain ⟨-, hbody, -⟩ := handle_of_postsBatch hbatch hregion now
  obtain ⟨fields, v, hfields, hget, hdecode, hread⟩ :=
    exists_read_unprocessedBody (unprocessedOf entries)
  have hrecords : unprocessedOf entries =
      strangersOf entries ++ (region.traces.ingest (documentsOf entries)).2 := by
    rw [unprocessedOf, ← strangersOf_eq, ← (filterMap_documentsOf entries).2,
      TraceStore.ingest_eq]
  rw [hrecords] at hdecode hread
  refine ⟨fields, v, _, hbody ▸ hfields, hget, rfl, hdecode, hread, fun record hrecord => ?_, ?_⟩
  · rw [strangersOf_eq] at hrecord
    rw [List.eq_of_mem_replicate hrecord]
    rfl
  · rw [TraceStore.ingest_eq]
    exact map_id?_refusals entries

/-- A batch of a number and of a document whose only field is an id with a control character. -/
def namelessBatch : Request :=
  signedRequest "eu-west-1" "/TraceSegments"
    "\x7b\"TraceSegmentDocuments\":[7,\"\x7b\\\"id\\\":\\\"a\\\\u0001é\\\"\x7d\"]\x7d"

/-- The id is read back with its control character, and a result of one summary as it was. -/
theorem forms_read_back_nameless :
    let s := State.ofConfiguration .standard
    let entries : List Value := [.integer 7, .string "\x7b\"id\":\"a\\u0001é\"\x7d"]
    let result : SummaryResult := ⟨1, 1,
      (TraceStore.ofArrivals .lastSegment TraceStore.flaggedArrivals).summaries
        ⟨.ofParts 0 0, .ofParts 100 0, none, false⟩⟩
    namelessBatch.PostsBatch entries ∧
      s.region namelessBatch = .ok (.empty .lastSegment "eu-west-1") ∧
      result.summaries.length = 1 ∧
      SummaryResult.codec.read (utf8 (SummaryResult.codec.write result)) = .ok result ∧
      ∃ fields v records,
        Json.read (utf8 (s.handle namelessBatch 0).1.body) = .ok (.object fields) ∧
        fields.get? "UnprocessedTraceSegments" = some v ∧
        (Codec.list RejectionRecord.codec).decode v = .ok (strangerRecord :: records) ∧
        records.map (·.id?) = [some "a\x01é"] := by
  intro s entries result
  have hbatch : namelessBatch.PostsBatch entries :=
    ⟨rfl, by decide +kernel, by with_unfolding_all rfl⟩
  have hregion : s.region namelessBatch = .ok (.empty .lastSegment "eu-west-1") := by
    have hname : s.regionName namelessBatch = "eu-west-1" := by decide +kernel
    refine region_of_get? ?_
    rw [hname]
    exact (get?_ofRegions _ _ _ _).trans (if_pos (by decide))
  have hcount : result.summaries.length = 1 := by decide +kernel
  obtain ⟨-, -, -, hresult, hanswer⟩ := forms_read_back
  have hsummarize : (TraceStore.ofArrivals .lastSegment TraceStore.flaggedArrivals).summarize?
      ⟨.ofParts 0 0, .ofParts 100 0, none, false⟩ 1 = some result := by
    rw [TraceStore.summarize?_of_not_hasFilter _ rfl]
    show some (⟨1, (result.summaries.length : Int), result.summaries⟩ : SummaryResult) = _
    rw [hcount]
    rfl
  have hread := hresult _ _ _ 1 result hsummarize (by decide) (by rw [hcount]; decide)
  obtain ⟨fields, v, records, hfields, hget, -, hdecode, -, -, hids⟩ :=
    hanswer s namelessBatch entries _ 0 hbatch hregion
  refine ⟨hbatch, hregion, hcount, hread, fields, v, records, hfields, hget, hdecode, ?_⟩
  rw [hids]
  decide +kernel

end State

end TraceCollector.Service
