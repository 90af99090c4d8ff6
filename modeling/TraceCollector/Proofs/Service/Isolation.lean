import Mathlib.Data.List.Forall2
import Mathlib.Data.List.Induction
import TraceCollector.Proofs.Service.Effects
import TraceCollector.Proofs.Service.SummaryQueries

/-!
# Isolation of regions

Two runs that bring a region the same requests cannot be told apart there, whatever else they hold.

1. A request that is not answered from a region is answered alike in all states (`exists_answer`).
   One that is reads and writes the region of its name only (`State.handle_congr`).
2. So the requests of other regions can be dropped from a run (`State.exchanges_filter`).
3. The times of a run show in summaries only, as the time of the answer
   (`State.exchanges_of_times`).
-/

namespace TraceCollector.Service

/-- Whether a request is answered from the region that it goes to. -/
def Request.isRegional (r : Request) : Bool :=
  r.method = "POST" ∧
    (r.path = "/TraceSegments" ∨ r.path = "/TraceSummaries" ∨ r.path = "/TelemetryRecords")

/-- The responses are equal, but for the time of the answer where they report summaries. -/
structure Response.AgreesWith (a b : Response) : Prop where
  status : a.status = b.status
  headers : a.headers = b.headers
  body : a.body = b.body ∨ ∃ (result : SummaryResult) (t t' : Int),
    a.body = (SummaryResult.codec.encode { result with approximateTime := t }).text ∧
    b.body = (SummaryResult.codec.encode { result with approximateTime := t' }).text

theorem Response.AgreesWith.refl (a : Response) : a.AgreesWith a := ⟨rfl, rfl, Or.inl rfl⟩

theorem Response.AgreesWith.withHeaders {a b : Response} (h : a.AgreesWith b)
    (headers : List (String × String)) :
    (a.withHeaders headers).AgreesWith (b.withHeaders headers) where
  status := h.status
  headers := congrArg (· ++ headers) h.headers
  body := h.body

namespace State

/-- The requests of a run, each with the response it is given. -/
def exchanges (s : State) : List (Request × Int) → List (Request × Response)
  | [] => []
  | (r, now) :: rest => (r, (s.handle r now).1) :: (s.handle r now).2.exchanges rest

/-- Whether a request goes to the region of a name. -/
def goesTo (s : State) (name : String) (r : Request) : Bool := s.regionName r = name

/-- Whether a request goes to the region of a name and is answered from there. -/
def isAnsweredFrom (s : State) (name : String) (r : Request) : Bool :=
  r.isRegional && s.goesTo name r

/-- The states have the same region under a name, and the same default. -/
structure SameAt (name : String) (s t : State) : Prop where
  region : s.regions.get? name = t.regions.get? name
  defaultRegion : s.defaultRegion = t.defaultRegion

namespace SameAt

variable {name : String} {s t u : State}

theorem refl (name : String) (s : State) : SameAt name s s := ⟨rfl, rfl⟩

theorem symm (h : SameAt name s t) : SameAt name t s := ⟨h.region.symm, h.defaultRegion.symm⟩

theorem trans (hst : SameAt name s t) (htu : SameAt name t u) : SameAt name s u :=
  ⟨hst.region.trans htu.region, hst.defaultRegion.trans htu.defaultRegion⟩

theorem regionName_eq (h : SameAt name s t) (r : Request) : s.regionName r = t.regionName r := by
  unfold regionName
  rw [h.defaultRegion]

end SameAt

/-! ## One request -/

/-- A request that is not answered from a region is answered alike in all states. -/
theorem exists_answer {r : Request} (h : ¬ r.isRegional = true) :
    ∃ response, ∀ (s : State) (now : Int), s.answer r now = (response, s) := by
  rcases answer_follows r with ⟨route, hroute, hmethod, hfollow⟩ | hrefused
  · simp only [hfollow]
    cases route with
    | segments =>
      have hpath := Route.ofPath?_eq_segments_iff.mp hroute
      exact absurd (decide_eq_true ⟨List.mem_singleton.mp hmethod, Or.inl hpath⟩) h
    | summaries =>
      have hpath := Route.ofPath?_eq_summaries_iff.mp hroute
      exact absurd (decide_eq_true ⟨List.mem_singleton.mp hmethod, Or.inr (Or.inl hpath)⟩) h
    | telemetry =>
      have hpath := Route.ofPath?_eq_telemetry_iff.mp hroute
      exact absurd (decide_eq_true ⟨List.mem_singleton.mp hmethod, Or.inr (Or.inr hpath)⟩) h
    | _ => exact ⟨_, fun s now => rfl⟩
  · exact hrefused

theorem defaultRegion_handle (s : State) (r : Request) (now : Int) :
    (s.handle r now).2.defaultRegion = s.defaultRegion := by
  rw [snd_handle]
  rcases answer_changes s r now with hsame | ⟨_, _, hchanges⟩
  · rw [hsame]
  · exact hchanges.defaultRegion

theorem regionName_handle (s : State) (r : Request) (now : Int) (r' : Request) :
    (s.handle r now).2.regionName r' = s.regionName r' := by
  unfold regionName
  rw [defaultRegion_handle]

/-- No request takes a region away. -/
theorem exists_region_handle {name : String} {s : State} (r : Request) (now : Int)
    (h : ∃ region, s.regions.get? name = some region) :
    ∃ region, (s.handle r now).2.regions.get? name = some region := by
  rw [snd_handle]
  rcases answer_changes s r now with hsame | ⟨_, region', hchanges⟩
  · rwa [hsame]
  · by_cases hname : name = s.regionName r
    · exact ⟨region', hname ▸ hchanges.after⟩
    · rwa [hchanges.others name hname]

/-- A request leaves the regions alone that it does not go to. -/
theorem sameAt_handle {name : String} {s : State} {r : Request} (now : Int)
    (h : r.isRegional = true → s.regionName r ≠ name) : SameAt name (s.handle r now).2 s := by
  refine ⟨?_, defaultRegion_handle s r now⟩
  rw [snd_handle]
  by_cases hregional : r.isRegional = true
  · rcases answer_changes s r now with hsame | ⟨_, _, hchanges⟩
    · rw [hsame]
    · exact hchanges.others name (h hregional).symm
  · obtain ⟨response, hresponse⟩ := exists_answer hregional
    rw [hresponse]

section Congruence

variable {name : String} {s t : State} {r : Request}

theorem region_congr (h : SameAt name s t) (hr : s.regionName r = name) :
    s.region r = t.region r := by
  unfold State.region
  rw [← h.regionName_eq, hr, h.region]

theorem perform_congr (h : SameAt name s t) (hr : s.regionName r = name) (action : Action) :
    (s.perform r action).1 = (t.perform r action).1 ∧
      SameAt name (s.perform r action).2 (t.perform r action).2 := by
  unfold perform
  rw [← region_congr h hr, ← h.regionName_eq, hr]
  cases hregion : s.region r with
  | error f => exact ⟨rfl, h⟩
  | ok region =>
    dsimp only
    cases haction : action region (.ofBody r.body) with
    | error f => exact ⟨rfl, h⟩
    | ok result =>
      refine ⟨rfl, ?_, h.defaultRegion⟩
      show (s.regions.insert name result.2).get? name = (t.regions.insert name result.2).get? name
      rw [Dictionary.get?_insert, Dictionary.get?_insert, if_pos rfl, if_pos rfl]

theorem follow_congr (h : SameAt name s t) (hr : s.regionName r = name) (now : Int)
    (route : Route) :
    (s.follow r now route).1 = (t.follow r now route).1 ∧
      SameAt name (s.follow r now route).2 (t.follow r now route).2 := by
  cases route with
  | segments => exact perform_congr h hr putSegments
  | telemetry => exact perform_congr h hr putTelemetry
  | summaries =>
    refine ⟨?_, h⟩
    show s.ask r (getSummaries now) = t.ask r (getSummaries now)
    unfold ask
    rw [region_congr h hr]
  | _ => exact ⟨rfl, h⟩

/-- States that have the same region under a name cannot be told apart by its requests. -/
theorem handle_congr (h : SameAt name s t) (hr : r.isRegional = true → s.regionName r = name)
    (now : Int) :
    (s.handle r now).1 = (t.handle r now).1 ∧
      SameAt name (s.handle r now).2 (t.handle r now).2 := by
  have hanswer : (s.answer r now).1 = (t.answer r now).1 ∧
      SameAt name (s.answer r now).2 (t.answer r now).2 := by
    by_cases hregional : r.isRegional = true
    · rcases answer_follows r with ⟨route, -, -, hfollow⟩ | ⟨response, hresponse⟩
      · rw [hfollow, hfollow]
        exact follow_congr h (hr hregional) now route
      · rw [hresponse, hresponse]
        exact ⟨rfl, h⟩
    · obtain ⟨response, hresponse⟩ := exists_answer hregional
      rw [hresponse, hresponse]
      exact ⟨rfl, h⟩
  exact ⟨congrArg (·.withHeaders Response.sharedHeaders) hanswer.1, hanswer.2⟩

end Congruence

/-! ## The time of a request -/

/-- A query fails at all times alike, or it has one result but for the time. -/
theorem getSummaries_cases (region : Region) (parameters : Parameters) :
    (∃ f, ∀ now, getSummaries now region parameters = .error f) ∨
    ∃ result : SummaryResult, ∀ now, getSummaries now region parameters =
      .ok (SummaryResult.codec.encode { result with approximateTime := now }) := by
  cases hquery : summaryQuery parameters with
  | error f => exact Or.inl ⟨f, fun now => getSummaries_of_error hquery now region⟩
  | ok q =>
    cases hfilter : q.hasFilter with
    | true => exact Or.inl ⟨.filtered, fun now => getSummaries_of_filter hquery hfilter now region⟩
    | false =>
      exact Or.inr ⟨⟨0, (region.traces.summaries q).length, region.traces.summaries q⟩,
        fun now => getSummaries_of_query hquery hfilter now region⟩

theorem ask_agrees (s : State) (r : Request) (now now' : Int) :
    (s.ask r (getSummaries now)).AgreesWith (s.ask r (getSummaries now')) := by
  unfold ask
  cases hregion : s.region r with
  | error f => exact Response.AgreesWith.refl _
  | ok region =>
    dsimp only
    rcases getSummaries_cases region (.ofBody r.body) with ⟨f, hf⟩ | ⟨result, hresult⟩
    · rw [hf, hf]
      exact Response.AgreesWith.refl _
    · rw [hresult, hresult]
      exact ⟨rfl, rfl, Or.inr ⟨result, now, now', rfl, rfl⟩⟩

/-- The time makes no difference to the state, and to the response only as the time of the
answer. -/
theorem handle_agrees (s : State) (r : Request) (now now' : Int) :
    (s.handle r now).1.AgreesWith (s.handle r now').1 ∧
      (s.handle r now).2 = (s.handle r now').2 := by
  have hanswer : (s.answer r now).1.AgreesWith (s.answer r now').1 ∧
      (s.answer r now).2 = (s.answer r now').2 := by
    rcases answer_follows r with ⟨route, -, -, hfollow⟩ | ⟨response, hresponse⟩
    · rw [hfollow, hfollow]
      cases route with
      | summaries => exact ⟨ask_agrees s r now now', rfl⟩
      | _ => exact ⟨Response.AgreesWith.refl _, rfl⟩
    · rw [hresponse, hresponse]
      exact ⟨Response.AgreesWith.refl _, rfl⟩
  exact ⟨hanswer.1.withHeaders _, hanswer.2⟩

/-! ## Runs -/

theorem after_cons (s : State) (r : Request) (now : Int) (rest : List (Request × Int)) :
    s.after ((r, now) :: rest) = (s.handle r now).2.after rest := rfl

/-- Requests that are not for a region can be dropped from a run: its own requests get the same
responses, and it is the same region afterwards. -/
theorem exchanges_filter {name : String} {s t : State} {kept : Request → Bool}
    (h : SameAt name s t)
    (hkept : ∀ r, r.isRegional = true → (kept r = true ↔ s.regionName r = name))
    (run : List (Request × Int)) :
    (s.exchanges run).filter (fun e => kept e.1) = t.exchanges (run.filter fun e => kept e.1) ∧
      SameAt name (s.after run) (t.after (run.filter fun e => kept e.1)) := by
  -- the two runs go through different states, which stay the same at `name`
  induction run generalizing s t with
  | nil => exact ⟨rfl, h⟩
  | cons e rest ih =>
    obtain ⟨r, now⟩ := e
    have hkept' : ∀ r', r'.isRegional = true →
        (kept r' = true ↔ (s.handle r now).2.regionName r' = name) := by
      intro r' hregional
      rw [regionName_handle]
      exact hkept r' hregional
    rw [after_cons, exchanges]
    by_cases hr : kept r = true
    · obtain ⟨hresponse, hsame⟩ := handle_congr h (fun hregional => (hkept r hregional).mp hr) now
      obtain ⟨hrest, hafter⟩ := ih hsame hkept'
      rw [List.filter_cons, List.filter_cons, if_pos hr, if_pos hr, after_cons, exchanges,
        hresponse, hrest]
      exact ⟨rfl, hafter⟩
    · have hother : r.isRegional = true → s.regionName r ≠ name :=
        fun hregional hname => hr ((hkept r hregional).mpr hname)
      rw [List.filter_cons, List.filter_cons, if_neg hr, if_neg hr]
      exact ih ((sameAt_handle now hother).trans h) hkept'

/-- Exchanges of the same request with responses that agree. -/
def ExchangesAgree (a b : Request × Response) : Prop := a.1 = b.1 ∧ a.2.AgreesWith b.2

/-- The times of a run make no difference but to the times of answers. -/
theorem exchanges_of_times (s : State) {run run' : List (Request × Int)}
    (h : run.map Prod.fst = run'.map Prod.fst) :
    List.Forall₂ ExchangesAgree (s.exchanges run) (s.exchanges run') ∧
      s.after run = s.after run' := by
  induction run generalizing s run' with
  | nil =>
    rw [List.map_eq_nil_iff.mp h.symm]
    exact ⟨List.Forall₂.nil, rfl⟩
  | cons e rest ih =>
    obtain ⟨r, now⟩ := e
    cases run' with
    | nil => cases h
    | cons e' rest' =>
      obtain ⟨r', now'⟩ := e'
      obtain ⟨rfl, hrest⟩ := List.cons.inj h
      obtain ⟨hresponse, hstate⟩ := handle_agrees s r now now'
      obtain ⟨hexchanges, hafter⟩ := ih (s.handle r now).2 hrest
      rw [after_cons, after_cons, exchanges, exchanges, ← hstate]
      exact ⟨List.Forall₂.cons ⟨rfl, hresponse⟩ hexchanges, hafter⟩

theorem exists_region_after {name : String} {s : State} (run : List (Request × Int))
    (h : ∃ region, s.regions.get? name = some region) :
    ∃ region, (s.after run).regions.get? name = some region := by
  induction run generalizing s with
  | nil => exact h
  | cons e rest ih =>
    rw [after_cons]
    exact ih (exists_region_handle e.1 e.2 h)

/-! ## From the start -/

/-- At the start there is an empty region for each name. -/
theorem get?_ofRegions (rule : CompletionRule) (names : List String) (defaultRegion name : String) :
    (ofRegions rule names defaultRegion).regions.get? name =
      if name ∈ names then some (.empty rule name) else none := by
  show (Dictionary.ofList _).get? name = _
  unfold Dictionary.ofList
  rw [List.foldl_map]
  induction names using List.reverseRecOn with
  | nil => rfl
  | append_singleton names last ih =>
    rw [List.foldl_append]
    show (Dictionary.insert _ last _).get? name = _
    rw [Dictionary.get?_insert, ih]
    by_cases hlast : name = last
    · rw [if_pos hlast, if_pos (by simp [hlast]), hlast]
    · rw [if_neg hlast]
      simp [hlast]

/-- To a region two runs are alike: the responses to its requests agree, and it is the same region
after either of them. -/
def Alike (s : State) (name : String) (kept : Request → Bool) (run run' : List (Request × Int)) :
    Prop :=
  List.Forall₂ ExchangesAgree ((s.exchanges run).filter fun e => kept e.1)
    ((s.exchanges run').filter fun e => kept e.1) ∧
  ∃ region, (s.after run).regions.get? name = some region ∧
    (s.after run').regions.get? name = some region

theorem alike_of_same_requests {s : State} {name : String}
    (hregion : ∃ region, s.regions.get? name = some region) {kept : Request → Bool}
    (hkept : ∀ r, r.isRegional = true → (kept r = true ↔ s.regionName r = name))
    {run run' : List (Request × Int)}
    (h : (run.map Prod.fst).filter kept = (run'.map Prod.fst).filter kept) :
    s.Alike name kept run run' := by
  obtain ⟨hexchanges, hafter⟩ := exchanges_filter (SameAt.refl name s) hkept run
  obtain ⟨hexchanges', hafter'⟩ := exchanges_filter (SameAt.refl name s) hkept run'
  rw [List.filter_map, List.filter_map] at h
  obtain ⟨hagree, hstate⟩ := exchanges_of_times s h
  obtain ⟨region, hsome⟩ := exists_region_after run hregion
  refine ⟨?_, region, hsome, ?_⟩
  · rw [hexchanges, hexchanges']
    exact hagree
  · rw [hafter'.region, ← hsome, hafter.region]
    exact congrArg (·.regions.get? name) hstate.symm

end State

/-- What other regions are sent makes no difference to a region of a configuration. If two runs
bring it the same requests, these get the same responses, and its traces and telemetry are the same
afterwards. It is enough that the runs agree in the requests that are answered from it. -/
theorem regions_isolated (c : Configuration) {name : String} (hname : name ∈ c.regions)
    (run run' : List (Request × Int)) :
    let s := State.ofConfiguration c
    ((run.map Prod.fst).filter (s.goesTo name) = (run'.map Prod.fst).filter (s.goesTo name) →
      s.Alike name (s.goesTo name) run run') ∧
    ((run.map Prod.fst).filter (s.isAnsweredFrom name) =
        (run'.map Prod.fst).filter (s.isAnsweredFrom name) →
      s.Alike name (s.isAnsweredFrom name) run run') := by
  intro s
  have hregion : ∃ region, s.regions.get? name = some region := by
    refine ⟨.empty c.completion name, ?_⟩
    show (State.ofRegions _ _ _).regions.get? name = _
    rw [State.get?_ofRegions, if_pos hname]
  refine ⟨State.alike_of_same_requests hregion fun r _ => decide_eq_true_iff,
    State.alike_of_same_requests hregion fun r hregional => ?_⟩
  rw [State.isAnsweredFrom, hregional, Bool.true_and]
  exact decide_eq_true_iff

/-- A request that is posted to a path and signed for a region. -/
def signedRequest (region path body : String) : Request where
  method := "POST"
  target := path
  headers := [("authorization", ("Credential=key/day/" ++ region ++ "/").toUTF8.toList)]
  body := body.toUTF8.toList

/-- A payload without records for a region, and a query there. -/
def quietRun (region : String) (time : Int) : List (Request × Int) :=
  [(signedRequest region "/TelemetryRecords" "\x7b\"TelemetryRecords\":[]\x7d", time),
    (signedRequest region "/TraceSummaries" "\x7b\"StartTime\":0,\"EndTime\":9\x7d", time)]

/-- A region does not see such a run in another. -/
theorem regions_isolated_of_quietRun :
    let s := State.ofConfiguration .standard
    "eu-west-1" ∈ Configuration.standard.regions ∧
      s.Alike "eu-west-1" (s.goesTo "eu-west-1") (quietRun "eu-west-1" 1)
        (quietRun "us-east-1" 2 ++ quietRun "eu-west-1" 3) ∧
      ((s.after (quietRun "eu-west-1" 1)).regions.get? "eu-west-1").map
        (fun region => region.telemetry.size) = some 1 := by
  intro s
  have hmem : "eu-west-1" ∈ Configuration.standard.regions := by decide
  have hother : ((quietRun "us-east-1" 2).map Prod.fst).filter (s.goesTo "eu-west-1") = [] :=
    List.filter_eq_nil_iff.mpr (by decide +kernel)
  have hsame : ((quietRun "eu-west-1" 1).map Prod.fst).filter (s.goesTo "eu-west-1") =
      ((quietRun "us-east-1" 2 ++ quietRun "eu-west-1" 3).map Prod.fst).filter
        (s.goesTo "eu-west-1") := by
    rw [List.map_append, List.filter_append, hother, List.nil_append]
    rfl
  exact ⟨hmem, (regions_isolated .standard hmem _ _).1 hsame, by decide +kernel⟩

end TraceCollector.Service
