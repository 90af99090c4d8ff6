import TraceCollector.Proofs.Ingest
import TraceCollector.Proofs.Service.Isolation

/-!
# Runs of the service

What the regions hold after a run of requests.

1. A batch that is posted to a region is taken in there (`State.answer_of_postsBatch`), and no other
   request touches the traces of a region (`State.traces_handle`).
2. So a run leaves in a region what the documents posted to it make up, in the order of their
   arrival (`State.traces_after`).
3. In every state that the service gets into, the traces of a region are those of some arrivals
   (`State.Reachable.exists_arrivals`).
-/

namespace TraceCollector.Service

/-! ## Batches -/

namespace Request

/-- The request posts a batch of entries. -/
structure PostsBatch (r : Request) (entries : List Json.Value) : Prop where
  method : r.method = "POST"
  path : r.path = "/TraceSegments"
  entries : (Parameters.ofBody r.body).get? "TraceSegmentDocuments" = some (.array entries)

/-- The entries that a request posts, none if it posts no batch. -/
def batch (r : Request) : List Json.Value :=
  if r.method = "POST" ∧ r.path = "/TraceSegments" then
    match (Parameters.ofBody r.body).get? "TraceSegmentDocuments" with
    | some (.array entries) => entries
    | _ => []
  else []

theorem PostsBatch.batch_eq {r : Request} {entries : List Json.Value} (h : r.PostsBatch entries) :
    r.batch = entries := by
  unfold batch
  rw [if_pos ⟨h.method, h.path⟩, h.entries]

/-- A request that posts no batch is another one, or it lacks the list of entries. -/
theorem batch_eq_nil_of_not_postsBatch {r : Request} (h : ∀ entries, ¬ r.PostsBatch entries) :
    r.batch = [] := by
  unfold batch
  by_cases hpost : r.method = "POST" ∧ r.path = "/TraceSegments"
  · rw [if_pos hpost]
    split
    · next entries hentries => exact absurd ⟨hpost.1, hpost.2, hentries⟩ (h entries)
    · rfl
  · exact if_neg hpost

theorem postsBatch_of_batch_ne_nil {r : Request} (h : r.batch ≠ []) : r.PostsBatch r.batch := by
  by_contra hnot
  refine h (batch_eq_nil_of_not_postsBatch fun entries hentries => hnot ?_)
  rw [hentries.batch_eq]
  exact hentries

end Request

/-- The answer to a batch: the records of the entries that were turned down. -/
def unprocessedBody (records : List RejectionRecord) : Json.Value :=
  .ofMembers [("UnprocessedTraceSegments", (Json.Codec.list RejectionRecord.codec).encode records)]

theorem putSegments_of_entries {parameters : Parameters} {entries : List Json.Value}
    (h : parameters.get? "TraceSegmentDocuments" = some (.array entries)) (region : Region) :
    putSegments region parameters =
      .ok (unprocessedBody
          (strangersOf entries ++ (documentsOf entries).filterMap refusal?),
        { region with
          traces := region.traces.putAll ((documentsOf entries).filterMap soundSegment?) }) := by
  unfold putSegments Parameters.require
  rw [h]
  dsimp only [bind, Except.bind]
  rw [TraceStore.ingest_eq]
  rfl

namespace State

theorem perform_of_ok {s : State} {r : Request} {action : Action} {region region' : Region}
    {v : Json.Value} (hregion : s.region r = .ok region)
    (h : action region (.ofBody r.body) = .ok (v, region')) :
    s.perform r action = (.json 200 v, s.setRegion (s.regionName r) region') := by
  unfold perform
  rw [hregion]
  dsimp only
  rw [h]

theorem region_of_get? {s : State} {r : Request} {region : Region}
    (h : s.regions.get? (s.regionName r) = some region) : s.region r = .ok region := by
  unfold State.region
  rw [h]

theorem answer_of_postsBatch {s : State} {r : Request} {entries : List Json.Value}
    {region : Region} (hbatch : r.PostsBatch entries) (hregion : s.region r = .ok region)
    (now : Int) :
    s.answer r now =
      (.json 200 (unprocessedBody
          (strangersOf entries ++ (documentsOf entries).filterMap refusal?)),
        s.setRegion (s.regionName r) { region with
          traces := region.traces.putAll ((documentsOf entries).filterMap soundSegment?) }) := by
  rw [answer_segments s now hbatch.method hbatch.path]
  exact perform_of_ok hregion (putSegments_of_entries hbatch.entries region)

/-! ## The traces of a region -/

theorem goesTo_iff {s : State} {name : String} {r : Request} :
    s.goesTo name r = true ↔ s.regionName r = name := decide_eq_true_iff

/-- A request that posts no batch leaves the state as it was, or changes a region apart from its
traces. -/
theorem answer_of_not_postsBatch (s : State) {r : Request}
    (hnot : ∀ entries, ¬ r.PostsBatch entries) (now : Int) :
    (s.answer r now).2 = s ∨ ∃ region region',
      ChangesAt (s.regionName r) region region' s (s.answer r now).2 ∧
        region'.traces = region.traces := by
  by_cases hpost :
    r.method = "POST" ∧ (r.path = "/TraceSegments" ∨ r.path = "/TelemetryRecords")
  · obtain ⟨hmethod, hpath | hpath⟩ := hpost
    · rw [answer_segments s now hmethod hpath]
      rcases perform_cases s r putSegments with ⟨-, hsame⟩ | ⟨-, _, _, _, hput, -⟩
      · exact Or.inl hsame
      · obtain ⟨entries, hentries, -⟩ := putSegments_eq_ok hput
        exact absurd ⟨hmethod, hpath, hentries⟩ (hnot entries)
    · rw [answer_telemetry s now hmethod hpath]
      rcases perform_cases s r putTelemetry with ⟨-, hsame⟩ | ⟨-, _, _, _, hput, hchanges⟩
      · exact Or.inl hsame
      · obtain ⟨payload, -, rfl⟩ := putTelemetry_eq_ok hput
        exact Or.inr ⟨_, _, hchanges, rfl⟩
  · exact Or.inl (snd_answer s now hpost)

theorem traces_of_not_postsBatch {name : String} {s : State} {region : Region} {r : Request}
    (h : s.regions.get? name = some region) (hnot : ∀ entries, ¬ r.PostsBatch entries)
    (now : Int) :
    ∃ region', (s.handle r now).2.regions.get? name = some region' ∧
      region'.traces = region.traces := by
  rw [snd_handle]
  rcases answer_of_not_postsBatch s hnot now with hsame | ⟨_, region', hchanges, htraces⟩
  · rw [hsame]
    exact ⟨region, h, rfl⟩
  by_cases hname : name = s.regionName r
  · subst hname
    have hbefore := hchanges.before
    rw [h] at hbefore
    cases hbefore
    exact ⟨region', hchanges.after, htraces⟩
  · exact ⟨region, (hchanges.others name hname).trans h, rfl⟩

/-- A request adds the documents of its batch to the region that it goes to. -/
theorem traces_handle {name : String} {s : State} {region : Region}
    (h : s.regions.get? name = some region) (r : Request) (now : Int) :
    ∃ region', (s.handle r now).2.regions.get? name = some region' ∧
      region'.traces = if s.goesTo name r then
        region.traces.putAll ((documentsOf r.batch).filterMap soundSegment?)
        else region.traces := by
  by_cases hbatch : ∃ entries, r.PostsBatch entries
  · obtain ⟨entries, hentries⟩ := hbatch
    by_cases hname : s.regionName r = name
    · subst hname
      rw [snd_handle, answer_of_postsBatch hentries (region_of_get? h) now, hentries.batch_eq,
        if_pos (goesTo_iff.mpr rfl)]
      exact ⟨_, (changesAt_setRegion _ h).after, rfl⟩
    · have hsame := sameAt_handle now fun _ : r.isRegional = true => hname
      rw [hsame.region, if_neg (mt goesTo_iff.mp hname)]
      exact ⟨region, h, rfl⟩
  · rw [not_exists] at hbatch
    obtain ⟨region', hregion', htraces⟩ := traces_of_not_postsBatch h hbatch now
    refine ⟨region', hregion', ?_⟩
    rw [htraces, Request.batch_eq_nil_of_not_postsBatch hbatch]
    exact (ite_self _).symm

/-- The documents that a run posts to a region, in the order of their arrival. -/
def documentsFor (s : State) (name : String) (run : List (Request × Int)) : List String :=
  (run.filter fun e => s.goesTo name e.1).flatMap fun e => documentsOf e.1.batch

theorem documentsFor_handle (s : State) (r : Request) (now : Int) (name : String)
    (run : List (Request × Int)) :
    (s.handle r now).2.documentsFor name run = s.documentsFor name run := by
  unfold documentsFor goesTo
  simp only [regionName_handle]

/-- After a run a region holds what it held before and the documents posted to it. -/
theorem traces_after {name : String} {s : State} {region : Region}
    (h : s.regions.get? name = some region) (run : List (Request × Int)) :
    ∃ region', (s.after run).regions.get? name = some region' ∧
      region'.traces =
        region.traces.putAll ((s.documentsFor name run).filterMap soundSegment?) := by
  induction run generalizing s region with
  | nil => exact ⟨region, h, rfl⟩
  | cons e rest ih =>
    obtain ⟨r, now⟩ := e
    obtain ⟨next, hnext, htraces⟩ := traces_handle h r now
    obtain ⟨last, hlast, hrest⟩ := ih hnext
    refine ⟨last, hlast, ?_⟩
    rw [hrest, htraces, documentsFor_handle]
    unfold documentsFor
    rw [List.filter_cons]
    split
    · rw [List.flatMap_cons, List.filterMap_append, TraceStore.putAll_append]
    · rfl

/-! ## From the start -/

/-- A request adds no region. -/
theorem get?_handle_of_none {name : String} {s : State} (h : s.regions.get? name = none)
    (r : Request) (now : Int) : (s.handle r now).2.regions.get? name = none := by
  rw [snd_handle]
  rcases answer_changes s r now with hsame | ⟨_, _, hchanges⟩
  · rwa [hsame]
  · by_cases hname : name = s.regionName r
    · have hbefore := hchanges.before
      rw [← hname, h] at hbefore
      cases hbefore
    · rwa [hchanges.others name hname]

theorem get?_after_of_none {name : String} {s : State} (h : s.regions.get? name = none)
    (run : List (Request × Int)) : (s.after run).regions.get? name = none := by
  induction run generalizing s with
  | nil => exact h
  | cons e rest ih =>
    rw [after_cons]
    exact ih (get?_handle_of_none h e.1 e.2)

theorem regionName_after (s : State) (run : List (Request × Int)) (r : Request) :
    (s.after run).regionName r = s.regionName r := by
  induction run generalizing s with
  | nil => rfl
  | cons e rest ih => rw [after_cons, ih, regionName_handle]

/-- From the start on, a region holds the traces of the documents posted to it. -/
theorem traces_of_run {rule : CompletionRule} {names : List String} {defaultRegion name : String}
    (hname : name ∈ names) (run : List (Request × Int)) :
    ∃ region, ((ofRegions rule names defaultRegion).after run).regions.get? name = some region ∧
      region.traces = TraceStore.ofArrivals rule
        (((ofRegions rule names defaultRegion).documentsFor name run).filterMap
          soundSegment?) := by
  have hstart := get?_ofRegions rule names defaultRegion name
  rw [if_pos hname] at hstart
  exact traces_after hstart run

/-- The service gets into the state: it starts with empty regions and handles requests. -/
def Reachable (s : State) : Prop :=
  ∃ rule names defaultRegion run, s = (ofRegions rule names defaultRegion).after run

theorem Reachable.exists_arrivals {s : State} (hs : s.Reachable) {name : String} {region : Region}
    (h : s.regions.get? name = some region) :
    ∃ rule arrivals, region.traces = TraceStore.ofArrivals rule arrivals := by
  obtain ⟨rule, names, defaultRegion, run, rfl⟩ := hs
  by_cases hname : name ∈ names
  · obtain ⟨found, hfound, htraces⟩ := traces_of_run hname run
    rw [h] at hfound
    cases hfound
    exact ⟨rule, _, htraces⟩
  · have hstart := get?_ofRegions rule names defaultRegion name
    rw [if_neg hname] at hstart
    rw [get?_after_of_none hstart] at h
    cases h

end State

end TraceCollector.Service
