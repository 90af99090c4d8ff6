import TraceCollector.Proofs.Service.Runs

/-!
# The regions of a configuration

A configuration is served in the regions that it lists, and in no others.

1. At the start there is one empty region for each name that is listed, however often and in what
   order (`State.serves_ofConfiguration`).
2. An action keeps the name and the completion rule of the region that it changes
   (`State.answer_keeps`), so every state after a run serves the same regions (`Serves.after`).
3. In such a state a request is turned down only if it is signed for a region that is not listed
   (`Serves.region_eq_ok`, `Serves.region_eq_error`). That the default region is listed is what the
   validation of the configuration is needed for (`State.regions_served`).
-/

namespace TraceCollector

theorem Configuration.mem_regions_of_validate {c : Configuration} (h : c.validate = .ok ()) :
    c.defaultRegion ∈ c.regions := by
  unfold validate at h
  split_ifs at h with _ hmem
  exact hmem

theorem TraceStore.rule_putAll (store : TraceStore) (segments : List Segment) :
    (store.putAll segments).rule = store.rule := by
  induction segments generalizing store with
  | nil => rfl
  | cons s rest ih => exact (ih (store.put s)).trans (rule_put store s)

namespace Service

namespace State

/-! ## Regions that are kept -/

/-- A request leaves the state as it was, or it puts another region of the same name and completion
rule in the place of the one that it goes to. -/
theorem answer_keeps (s : State) (r : Request) (now : Int) :
    (s.answer r now).2 = s ∨ ∃ region region', s.regions.get? (s.regionName r) = some region ∧
      region'.name = region.name ∧ region'.traces.rule = region.traces.rule ∧
      (s.answer r now).2 = s.setRegion (s.regionName r) region' := by
  by_cases hpost :
    r.method = "POST" ∧ (r.path = "/TraceSegments" ∨ r.path = "/TelemetryRecords")
  · have hperform : ∃ action, s.answer r now = s.perform r action ∧
        ∀ {region v region'}, action region (.ofBody r.body) = .ok (v, region') →
          region'.name = region.name ∧ region'.traces.rule = region.traces.rule := by
      obtain ⟨hmethod, hpath | hpath⟩ := hpost
      · refine ⟨putSegments, answer_segments s now hmethod hpath, fun hput => ?_⟩
        obtain ⟨entries, -, rfl⟩ := putSegments_eq_ok hput
        rw [TraceStore.ingest_eq]
        exact ⟨rfl, TraceStore.rule_putAll _ _⟩
      · refine ⟨putTelemetry, answer_telemetry s now hmethod hpath, fun hput => ?_⟩
        obtain ⟨payload, -, rfl⟩ := putTelemetry_eq_ok hput
        exact ⟨rfl, rfl⟩
    obtain ⟨action, hanswer, hkeeps⟩ := hperform
    rw [hanswer]
    unfold perform
    cases hregion : s.region r with
    | error f => exact Or.inl rfl
    | ok region =>
      dsimp only
      cases haction : action region (.ofBody r.body) with
      | error f => exact Or.inl rfl
      | ok result =>
        obtain ⟨hname, hrule⟩ := hkeeps haction
        exact Or.inr ⟨region, result.2, get?_of_region hregion, hname, hrule, rfl⟩
  · exact Or.inl (snd_answer s now hpost)

/-! ## Serving a configuration -/

/-- The state has a region for each name that a configuration lists, of that name and with the
completion rule of the configuration, and no other. -/
structure Serves (s : State) (c : Configuration) : Prop where
  ordered : s.regions.Ordered
  listed : ∀ name, (∃ region, s.regions.get? name = some region) ↔ name ∈ c.regions
  alike : ∀ name region, s.regions.get? name = some region →
    region.name = name ∧ region.traces.rule = c.completion
  defaultRegion : s.defaultRegion = c.defaultRegion

theorem get?_ofConfiguration (c : Configuration) (name : String) :
    (ofConfiguration c).regions.get? name =
      if name ∈ c.regions then some (.empty c.completion name) else none :=
  get?_ofRegions c.completion c.regions c.defaultRegion name

theorem serves_ofConfiguration (c : Configuration) : (ofConfiguration c).Serves c where
  ordered := Dictionary.ordered_ofList _
  listed name := by
    rw [get?_ofConfiguration]
    by_cases hname : name ∈ c.regions
    · rw [if_pos hname]
      exact iff_of_true ⟨_, rfl⟩ hname
    · rw [if_neg hname]
      exact iff_of_false (fun ⟨_, hnone⟩ => Option.some_ne_none _ hnone.symm) hname
  alike name region hget := by
    rw [get?_ofConfiguration] at hget
    split_ifs at hget
    cases hget
    exact ⟨rfl, rfl⟩
  defaultRegion := rfl

namespace Serves

variable {s : State} {c : Configuration}

theorem setRegion (h : s.Serves c) {name : String} {region region' : Region}
    (hget : s.regions.get? name = some region) (hname : region'.name = region.name)
    (hrule : region'.traces.rule = region.traces.rule) : (s.setRegion name region').Serves c := by
  have hset : ∀ other, (s.setRegion name region').regions.get? other =
      if other = name then some region' else s.regions.get? other := fun other =>
    Dictionary.get?_insert s.regions name other region'
  refine ⟨Dictionary.ordered_insert h.ordered _ _, fun other => ?_, fun other found hfound => ?_,
    h.defaultRegion⟩
  · rw [hset, ← h.listed]
    split_ifs with hother
    · exact iff_of_true ⟨_, rfl⟩ ⟨region, hother ▸ hget⟩
    · exact Iff.rfl
  · rw [hset] at hfound
    split_ifs at hfound with hother
    · cases hfound
      rw [hname, hrule, hother]
      exact h.alike name region hget
    · exact h.alike other found hfound

theorem handle (h : s.Serves c) (r : Request) (now : Int) : (s.handle r now).2.Serves c := by
  rw [snd_handle]
  rcases answer_keeps s r now with hsame | ⟨region, region', hget, hname, hrule, hset⟩
  · rwa [hsame]
  · rw [hset]
    exact h.setRegion hget hname hrule

theorem after (h : s.Serves c) (run : List (Request × Int)) : (s.after run).Serves c := by
  induction run generalizing s with
  | nil => exact h
  | cons e rest ih =>
    rw [after_cons]
    exact ih (h.handle e.1 e.2)

theorem mem_keys (h : s.Serves c) (name : String) : name ∈ s.regions.keys ↔ name ∈ c.regions := by
  rw [Dictionary.mem_keys_iff, Option.isSome_iff_exists]
  exact h.listed name

/-- A request goes to the region that it is signed for, or else to the default region. -/
theorem region_eq_ok (h : s.Serves c) {r : Request}
    (hname : r.region?.getD c.defaultRegion ∈ c.regions) :
    ∃ region, s.region r = .ok region ∧ region.name = r.region?.getD c.defaultRegion ∧
      region.traces.rule = c.completion ∧ s.regions.get? region.name = some region := by
  have hregionName : s.regionName r = r.region?.getD c.defaultRegion :=
    congrArg r.region?.getD h.defaultRegion
  obtain ⟨region, hget⟩ := (h.listed _).mpr hname
  obtain ⟨hown, hrule⟩ := h.alike _ region hget
  refine ⟨region, region_of_get? ?_, hown, hrule, ?_⟩
  · rw [hregionName, hget]
  · rw [hown, hget]

theorem region_eq_error (h : s.Serves c) {r : Request} {name : String}
    (hregion : r.region? = some name) (hname : name ∉ c.regions) :
    s.region r = .error (.unknownRegion name) := by
  have hregionName : s.regionName r = name := by
    unfold regionName
    rw [hregion]
    rfl
  unfold State.region
  rw [hregionName]
  cases hget : s.regions.get? name with
  | none => rfl
  | some region => exact absurd ((h.listed name).mp ⟨region, hget⟩) hname

end Serves

/-- Requests that go to other regions leave a region as it was. -/
theorem get?_after_of_others {s : State} {name : String} {run : List (Request × Int)}
    (h : ∀ e ∈ run, s.regionName e.1 ≠ name) :
    (s.after run).regions.get? name = s.regions.get? name := by
  induction run generalizing s with
  | nil => rfl
  | cons e rest ih =>
    obtain ⟨hfirst, hrest⟩ := List.forall_mem_cons.mp h
    rw [after_cons, ih fun e' he' => ?_]
    · exact (sameAt_handle e.2 fun _ => hfirst).region
    · rw [regionName_handle]
      exact hrest e' he'

/-- A valid configuration is served in the regions that it lists: each of them once and in order,
empty at the start, with the completion rule of the configuration and out of reach of the requests
to the others. At the start and after any run of requests, a request that is signed for a region of
the list goes there, one that is signed for no region goes to the default region, and only one that
is signed for another region is turned down. -/
theorem regions_served {c : Configuration} (h : c.validate = .ok ()) :
    let s := ofConfiguration c
    s.regions.keys.Pairwise (· < ·) ∧
    (∀ name, name ∈ s.regions.keys ↔ name ∈ c.regions) ∧
    (∀ name ∈ c.regions,
      s.regions.get? name = some ⟨name, ⟨c.completion, ∅⟩, ⟨[]⟩⟩ ∧
      ∀ run : List (Request × Int), (∀ e ∈ run, s.regionName e.1 ≠ name) →
        (s.after run).regions.get? name = s.regions.get? name) ∧
    (∀ r : Request,
      (∀ name, r.region? = some name → name ∈ c.regions →
        s.region r = .ok ⟨name, ⟨c.completion, ∅⟩, ⟨[]⟩⟩) ∧
      (r.region? = none → s.region r = .ok ⟨c.defaultRegion, ⟨c.completion, ∅⟩, ⟨[]⟩⟩) ∧
      (∀ name, r.region? = some name → name ∉ c.regions →
        s.region r = .error ⟨.invalidRegion, "Unknown region: " ++ name⟩)) ∧
    ∀ run : List (Request × Int),
      (s.after run).regions.keys = s.regions.keys ∧
      ∀ r : Request,
        (r.region?.getD c.defaultRegion ∈ c.regions →
          ∃ region, (s.after run).region r = .ok region ∧
            region.name = r.region?.getD c.defaultRegion ∧
            region.traces.rule = c.completion ∧
            (s.after run).regions.get? region.name = some region) ∧
        (r.region? = none → ∃ region, (s.after run).region r = .ok region) ∧
        (∀ name, r.region? = some name → name ∉ c.regions →
          (s.after run).region r = .error ⟨.invalidRegion, "Unknown region: " ++ name⟩) := by
  intro s
  have hserves : s.Serves c := serves_ofConfiguration c
  have hdefault := Configuration.mem_regions_of_validate h
  have hempty : ∀ name ∈ c.regions, s.regions.get? name = some (.empty c.completion name) := by
    intro name hname
    rw [get?_ofConfiguration, if_pos hname]
  refine ⟨Dictionary.pairwise_keys hserves.ordered, hserves.mem_keys, fun name hname =>
    ⟨hempty name hname, fun run hrun => get?_after_of_others hrun⟩, fun r => ⟨?_, ?_, ?_⟩,
    fun run => ⟨?_, fun r => ⟨?_, ?_, ?_⟩⟩⟩
  · intro name hregion hname
    refine region_of_get? ?_
    unfold regionName
    rw [hregion]
    exact hempty name hname
  · intro hregion
    refine region_of_get? ?_
    unfold regionName
    rw [hregion]
    exact hempty c.defaultRegion hdefault
  · exact fun name hregion hname => hserves.region_eq_error hregion hname
  · refine Dictionary.keys_eq_of_ordered (hserves.after run).ordered hserves.ordered fun name => ?_
    rw [(hserves.after run).mem_keys, hserves.mem_keys]
  · exact (hserves.after run).region_eq_ok
  · intro hregion
    obtain ⟨region, hok, -⟩ := (hserves.after run).region_eq_ok (r := r) (by rwa [hregion])
    exact ⟨region, hok⟩
  · exact fun name hregion hname => (hserves.after run).region_eq_error hregion hname

/-- Three regions, listed out of order and one of them twice. -/
def scatteredConfiguration : Configuration where
  bindAddress := "0.0.0.0:8000"
  defaultRegion := "eu-west-1"
  regions := ["us-east-1", "eu-west-1", "us-east-1", "ap-south-1"]
  completion := .allSegments

/-- They are served in order, and a region that is not listed is not served after a run either. -/
theorem regions_served_scattered :
    let s := ofConfiguration scatteredConfiguration
    scatteredConfiguration.validate = .ok () ∧
      s.regions.keys = ["ap-south-1", "eu-west-1", "us-east-1"] ∧
      s.region (signedRequest "us-east-1" "/TraceSummaries" "") =
        .ok ⟨"us-east-1", ⟨.allSegments, ∅⟩, ⟨[]⟩⟩ ∧
      s.region ⟨"POST", "/TraceSummaries", [], []⟩ = .ok ⟨"eu-west-1", ⟨.allSegments, ∅⟩, ⟨[]⟩⟩ ∧
      (s.after (quietRun "us-east-1" 0)).region (signedRequest "sa-east-1" "/TraceSummaries" "") =
        .error ⟨.invalidRegion, "Unknown region: sa-east-1"⟩ := by
  intro s
  have hvalid : scatteredConfiguration.validate = .ok () := rfl
  have hregion : ∀ name ∈ ["us-east-1", "sa-east-1"],
      (signedRequest name "/TraceSummaries" "").region? = some name := by decide +kernel
  obtain ⟨-, -, -, hstart, hrun⟩ := regions_served hvalid
  refine ⟨hvalid, by decide +kernel, ?_, ?_, ?_⟩
  · exact (hstart _).1 "us-east-1" (hregion _ (by decide)) (by decide)
  · exact (hstart _).2.1 rfl
  · exact ((hrun _).2 _).2.2 "sa-east-1" (hregion _ (by decide)) (by decide)

end State

end Service

end TraceCollector
