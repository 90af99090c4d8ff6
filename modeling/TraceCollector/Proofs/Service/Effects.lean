import TraceCollector.Service.Route

/-!
# Effects of requests

What a request does to the state of the service.

1. A request follows a route or is refused (`State.answer_follows`), and leaves the state as it
   was unless it posts one of two actions (`State.snd_answer`).
2. An action that fails changes nothing; one that succeeds changes the region that the request goes
   to (`State.perform_cases`), and there its own part (`putSegments_eq_ok`, `putTelemetry_eq_ok`).
3. The status tells the two apart, so it tells whether the state can have changed
   (`State.handle_effect`).
-/

namespace TraceCollector.Service

/-! ## Paths -/

namespace Route

theorem ofPath?_eq_some_iff {path : String} {route : Route} :
    ofPath? path = some route ↔ ∃ e ∈ table, "/" ++ e.1 = path ∧ e.2 = route := by
  constructor
  · intro h
    obtain ⟨e, hfind, hroute⟩ := Option.map_eq_some_iff.mp h
    have hpath := List.find?_some hfind
    exact ⟨e, List.mem_of_find?_eq_some hfind, of_decide_eq_true hpath, hroute⟩
  · rintro ⟨e, he, rfl, rfl⟩
    have hnames : ∀ e ∈ table, ofPath? ("/" ++ e.1) = some e.2 := by decide +kernel
    exact hnames e he

theorem ofPath?_eq_segments_iff {path : String} :
    ofPath? path = some segments ↔ path = "/TraceSegments" := by
  rw [ofPath?_eq_some_iff]
  simp [table, eq_comm]

theorem ofPath?_eq_summaries_iff {path : String} :
    ofPath? path = some summaries ↔ path = "/TraceSummaries" := by
  rw [ofPath?_eq_some_iff]
  simp [table, eq_comm]

theorem ofPath?_eq_telemetry_iff {path : String} :
    ofPath? path = some telemetry ↔ path = "/TelemetryRecords" := by
  rw [ofPath?_eq_some_iff]
  simp [table, eq_comm]

end Route

/-! ## Actions -/

/-- Taking in documents changes the traces of the region only. -/
theorem putSegments_eq_ok {region region' : Region} {parameters : Parameters} {v : Json.Value}
    (h : putSegments region parameters = .ok (v, region')) :
    ∃ entries, parameters.get? "TraceSegmentDocuments" = some (.array entries) ∧
      region' = { region with traces := (region.traces.ingest (documentsOf entries)).1 } := by
  unfold putSegments Parameters.require at h
  cases hget : parameters.get? "TraceSegmentDocuments" with
  | none =>
    rw [hget] at h
    cases h
  | some value =>
    rw [hget] at h
    cases value with
    | array entries =>
      cases h
      exact ⟨entries, rfl, rfl⟩
    | _ => cases h

/-- Adding a payload changes the telemetry of the region only. -/
theorem putTelemetry_eq_ok {region region' : Region} {parameters : Parameters} {v : Json.Value}
    (h : putTelemetry region parameters = .ok (v, region')) :
    ∃ payload, TelemetryPayload.ofParameters parameters.members = .ok payload ∧
      region' = { region with telemetry := region.telemetry.append payload } := by
  unfold putTelemetry at h
  cases hpayload : TelemetryPayload.ofParameters parameters.members with
  | error e =>
    rw [hpayload] at h
    cases h
  | ok payload =>
    rw [hpayload] at h
    cases h
    exact ⟨payload, rfl, rfl⟩

theorem Failure.status_ne_ok (f : Failure) : f.status ≠ 200 := by
  obtain ⟨kind, message⟩ := f
  cases kind <;> exact of_decide_eq_true rfl

/-! ## Requests -/

namespace State

/-- Between two states the region of one name changes, and nothing else does. -/
structure ChangesAt (name : String) (region region' : Region) (s s' : State) : Prop where
  before : s.regions.get? name = some region
  after : s'.regions.get? name = some region'
  others : ∀ other, other ≠ name → s'.regions.get? other = s.regions.get? other
  defaultRegion : s'.defaultRegion = s.defaultRegion

theorem changesAt_setRegion {s : State} {name : String} {region : Region} (region' : Region)
    (h : s.regions.get? name = some region) :
    ChangesAt name region region' s (s.setRegion name region') where
  before := h
  after := by
    show (s.regions.insert name region').get? name = _
    rw [Dictionary.get?_insert, if_pos rfl]
  others := by
    intro other hother
    show (s.regions.insert name region').get? other = _
    rw [Dictionary.get?_insert, if_neg hother]
  defaultRegion := rfl

theorem get?_of_region {s : State} {r : Request} {region : Region} (h : s.region r = .ok region) :
    s.regions.get? (s.regionName r) = some region := by
  unfold State.region at h
  cases hget : s.regions.get? (s.regionName r) with
  | none =>
    rw [hget] at h
    cases h
  | some found =>
    rw [hget] at h
    cases h
    rfl

/-- An action fails and leaves the state as it was, or it succeeds and changes the region of the
request. -/
theorem perform_cases (s : State) (r : Request) (action : Action) :
    ((s.perform r action).1.status ≠ 200 ∧ (s.perform r action).2 = s) ∨
    ((s.perform r action).1.status = 200 ∧ ∃ region v region',
      action region (.ofBody r.body) = .ok (v, region') ∧
        ChangesAt (s.regionName r) region region' s (s.perform r action).2) := by
  unfold perform
  cases hregion : s.region r with
  | error f => exact Or.inl ⟨f.status_ne_ok, rfl⟩
  | ok region =>
    dsimp only
    cases haction : action region (.ofBody r.body) with
    | error f => exact Or.inl ⟨f.status_ne_ok, rfl⟩
    | ok result =>
      obtain ⟨v, region'⟩ := result
      exact Or.inr ⟨rfl, region, v, region', haction,
        changesAt_setRegion region' (get?_of_region hregion)⟩

/-- A method that a path answers to is followed there. -/
theorem answer_of_mem_methods (s : State) {r : Request} (now : Int) {route : Route}
    (hroute : Route.ofPath? r.path = some route) (hmethod : r.method ∈ route.methods) :
    s.answer r now = s.follow r now route := by
  have hoptions : r.method ≠ "OPTIONS" := by
    intro h
    rw [h] at hmethod
    cases route <;> exact absurd hmethod (by decide)
  unfold answer
  rw [if_neg hoptions, hroute]
  exact if_pos hmethod

/-- A request follows a route, or it is refused alike in all states. -/
theorem answer_follows (r : Request) :
    (∃ route, Route.ofPath? r.path = some route ∧ r.method ∈ route.methods ∧
      ∀ (s : State) (now : Int), s.answer r now = s.follow r now route) ∨
    ∃ response, ∀ (s : State) (now : Int), s.answer r now = (response, s) := by
  by_cases hfollowed : ∃ route, Route.ofPath? r.path = some route ∧ r.method ∈ route.methods
  · obtain ⟨route, hroute, hmethod⟩ := hfollowed
    exact Or.inl ⟨route, hroute, hmethod, fun s now => answer_of_mem_methods s now hroute hmethod⟩
  · right
    unfold answer
    by_cases hoptions : r.method = "OPTIONS"
    · exact ⟨preflight (Route.ofPath? r.path), fun s now => if_pos hoptions⟩
    · simp only [if_neg hoptions]
      cases hroute : Route.ofPath? r.path with
      | none => exact ⟨.bare 404, fun s now => rfl⟩
      | some route =>
        have hmethod : r.method ∉ route.methods := fun hmethod =>
          hfollowed ⟨route, hroute, hmethod⟩
        exact ⟨_, fun s now => if_neg hmethod⟩

/-- A request that does not post an action leaves the state as it was. -/
theorem snd_answer (s : State) {r : Request} (now : Int)
    (h : ¬ (r.method = "POST" ∧ (r.path = "/TraceSegments" ∨ r.path = "/TelemetryRecords"))) :
    (s.answer r now).2 = s := by
  rcases answer_follows r with ⟨route, hroute, hmethod, hfollow⟩ | ⟨response, hresponse⟩
  · rw [hfollow]
    cases route with
    | segments =>
      have hpath := Route.ofPath?_eq_segments_iff.mp hroute
      exact absurd ⟨List.mem_singleton.mp hmethod, Or.inl hpath⟩ h
    | telemetry =>
      have hpath := Route.ofPath?_eq_telemetry_iff.mp hroute
      exact absurd ⟨List.mem_singleton.mp hmethod, Or.inr hpath⟩ h
    | _ => rfl
  · rw [hresponse]

theorem answer_segments (s : State) {r : Request} (now : Int) (hpost : r.method = "POST")
    (hpath : r.path = "/TraceSegments") : s.answer r now = s.perform r putSegments :=
  answer_of_mem_methods s now (Route.ofPath?_eq_segments_iff.mpr hpath)
    (List.mem_singleton.mpr hpost)

theorem answer_telemetry (s : State) {r : Request} (now : Int) (hpost : r.method = "POST")
    (hpath : r.path = "/TelemetryRecords") : s.answer r now = s.perform r putTelemetry :=
  answer_of_mem_methods s now (Route.ofPath?_eq_telemetry_iff.mpr hpath)
    (List.mem_singleton.mpr hpost)

theorem answer_summaries (s : State) {r : Request} (now : Int) (hpost : r.method = "POST")
    (hpath : r.path = "/TraceSummaries") : s.answer r now = (s.ask r (getSummaries now), s) :=
  answer_of_mem_methods s now (Route.ofPath?_eq_summaries_iff.mpr hpath)
    (List.mem_singleton.mpr hpost)

/-- A request performs an action, or leaves the state as it was. -/
theorem answer_cases (s : State) (r : Request) (now : Int) :
    (∃ action, s.answer r now = s.perform r action) ∨ (s.answer r now).2 = s := by
  by_cases h : r.method = "POST" ∧ (r.path = "/TraceSegments" ∨ r.path = "/TelemetryRecords")
  · obtain ⟨hpost, hpath | hpath⟩ := h
    · exact Or.inl ⟨putSegments, answer_segments s now hpost hpath⟩
    · exact Or.inl ⟨putTelemetry, answer_telemetry s now hpost hpath⟩
  · exact Or.inr (snd_answer s now h)

/-- A request leaves the state as it was, or changes the region that it goes to. -/
theorem answer_changes (s : State) (r : Request) (now : Int) :
    (s.answer r now).2 = s ∨
      ∃ region region', ChangesAt (s.regionName r) region region' s (s.answer r now).2 := by
  rcases answer_cases s r now with ⟨action, haction⟩ | hsame
  · rw [haction]
    rcases perform_cases s r action with ⟨-, hsame⟩ | ⟨-, region, -, region', -, hchanges⟩
    · exact Or.inl hsame
    · exact Or.inr ⟨region, region', hchanges⟩
  · exact Or.inl hsame

@[simp] theorem status_handle (s : State) (r : Request) (now : Int) :
    (s.handle r now).1.status = (s.answer r now).1.status := rfl

@[simp] theorem snd_handle (s : State) (r : Request) (now : Int) :
    (s.handle r now).2 = (s.answer r now).2 := rfl

/-- The effect of a request, in any state. One that fails has none, and neither has one that posts
no action. Documents that are taken in change the traces of the region that the request goes to,
and a payload that is taken in is one more entry of its telemetry; nothing else changes. -/
theorem handle_effect (s : State) (r : Request) (now : Int) :
    ((s.handle r now).1.status ≠ 200 → (s.handle r now).2 = s) ∧
    (¬ (r.method = "POST" ∧ (r.path = "/TraceSegments" ∨ r.path = "/TelemetryRecords")) →
      (s.handle r now).2 = s) ∧
    (r.method = "POST" → r.path = "/TraceSegments" → (s.handle r now).1.status = 200 →
      ∃ region entries,
        (Parameters.ofBody r.body).get? "TraceSegmentDocuments" = some (.array entries) ∧
        ChangesAt (s.regionName r) region
          { region with traces := (region.traces.ingest (documentsOf entries)).1 }
          s (s.handle r now).2) ∧
    (r.method = "POST" → r.path = "/TelemetryRecords" → (s.handle r now).1.status = 200 →
      ∃ region payload,
        TelemetryPayload.ofParameters (Parameters.ofBody r.body).members = .ok payload ∧
        ChangesAt (s.regionName r) region
          { region with telemetry := ⟨region.telemetry.entries ++ [payload]⟩ }
          s (s.handle r now).2) := by
  rw [status_handle, snd_handle]
  refine ⟨?_, snd_answer s now, ?_, ?_⟩
  · intro hstatus
    rcases answer_cases s r now with ⟨action, haction⟩ | hsame
    · rw [haction] at hstatus ⊢
      rcases perform_cases s r action with ⟨-, hsame⟩ | ⟨hok, -⟩
      · exact hsame
      · exact absurd hok hstatus
    · exact hsame
  · intro hpost hpath hstatus
    rw [answer_segments s now hpost hpath] at hstatus ⊢
    rcases perform_cases s r putSegments with ⟨hfailed, -⟩ | ⟨-, region, v, _, hput, hchanges⟩
    · exact absurd hstatus hfailed
    · obtain ⟨entries, hentries, rfl⟩ := putSegments_eq_ok hput
      exact ⟨region, entries, hentries, hchanges⟩
  · intro hpost hpath hstatus
    rw [answer_telemetry s now hpost hpath] at hstatus ⊢
    rcases perform_cases s r putTelemetry with ⟨hfailed, -⟩ | ⟨-, region, v, _, hput, hchanges⟩
    · exact absurd hstatus hfailed
    · obtain ⟨payload, hpayload, rfl⟩ := putTelemetry_eq_ok hput
      exact ⟨region, payload, hpayload, hchanges⟩

end State

end TraceCollector.Service
