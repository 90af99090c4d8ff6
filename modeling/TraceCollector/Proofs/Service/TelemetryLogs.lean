import TraceCollector.Proofs.Service.NullParameters
import TraceCollector.Proofs.Service.Runs
import TraceCollector.Proofs.TelemetryPayloads

/-!
# Telemetry logs

The log of a region is the list of the payloads that were posted to it.

1. A request posts the payload that its parameters hold (`Request.payload?_eq_some_iff`). It is
   answered with success, or with the failure that tells missing records from wrong parameters
   (`State.handle_of_payload`, `State.handle_of_no_payload`).
2. A request appends its payload to the log of the region that it goes to, and changes no log
   otherwise (`State.entries_handle`); so a run leaves its payloads there, in their order
   (`State.entries_after`).
-/

namespace TraceCollector.Service

namespace Request

/-- The request posts telemetry. -/
structure PostsTelemetry (r : Request) : Prop where
  method : r.method = "POST"
  path : r.path = "/TelemetryRecords"

instance (r : Request) : Decidable r.PostsTelemetry :=
  decidable_of_iff (r.method = "POST" ∧ r.path = "/TelemetryRecords")
    ⟨fun h => ⟨h.1, h.2⟩, fun h => ⟨h.method, h.path⟩⟩

/-- The parameters of a request. -/
def parameters (r : Request) : Dictionary Json.Value := (Parameters.ofBody r.body).members

/-- The payload that a request posts, if it posts one. -/
def payload? (r : Request) : Option TelemetryPayload :=
  if r.PostsTelemetry then (TelemetryPayload.ofParameters r.parameters).toOption else none

theorem payload?_eq_some_iff {r : Request} {p : TelemetryPayload} :
    r.payload? = some p ↔ r.PostsTelemetry ∧ p.HeldBy r.parameters := by
  unfold payload?
  rw [← TelemetryPayload.ofParameters_eq_ok_iff]
  split_ifs with hposts
  · cases TelemetryPayload.ofParameters r.parameters <;> simp [Except.toOption, hposts]
  · simp [hposts]

end Request

/-- The response reports a failure of the code, which is a fault of the request. -/
structure Response.Refuses (response : Response) (code : String) : Prop where
  status : response.status = 400
  body : ∃ f : Failure, response.body = (ofFailure f).body ∧ f.code = code

/-- A response has one code. -/
theorem Response.Refuses.unique {response : Response} {code code' : String}
    (h : response.Refuses code) (h' : response.Refuses code') : code = code' := by
  obtain ⟨f, hf, rfl⟩ := h.body
  obtain ⟨f', hf', rfl⟩ := h'.body
  exact code_eq_of_body_eq (hf.symm.trans hf')

namespace State

variable {s : State} {r : Request} {region : Region}

/-! ## One request -/

/-- A payload is answered with an empty object, and appended to the log. -/
theorem handle_of_payload {p : TelemetryPayload} (h : r.payload? = some p)
    (hregion : s.region r = .ok region) (now : Int) :
    (s.handle r now).1.status = 200 ∧ (s.handle r now).1.body = "\x7b\x7d" ∧
      (s.handle r now).2 =
        s.setRegion (s.regionName r) { region with telemetry := region.telemetry.append p } := by
  obtain ⟨hposts, hheld⟩ := Request.payload?_eq_some_iff.mp h
  have haction : putTelemetry region (.ofBody r.body) =
      .ok (.object ∅, { region with telemetry := region.telemetry.append p }) := by
    unfold putTelemetry
    have hok := TelemetryPayload.ofParameters_eq_ok_iff.mpr hheld
    unfold Request.parameters at hok
    rw [hok]
  have hanswer : s.answer r now = _ :=
    (answer_telemetry s now hposts.method hposts.path).trans (perform_of_ok hregion haction)
  rw [status_handle, snd_handle]
  refine ⟨by rw [hanswer]; rfl, ?_, by rw [hanswer]⟩
  show (s.answer r now).1.body = _
  rw [hanswer]
  show Json.Value.text (.object ∅) = _
  decide

/-- Telemetry without a payload is refused for missing records or for wrong parameters. -/
theorem handle_of_no_payload (hposts : r.PostsTelemetry) (h : r.payload? = none)
    (hregion : s.region r = .ok region) (now : Int) :
    (s.handle r now).2 = s ∧
      ((r.parameters.get? "TelemetryRecords" = none ∧
          (s.handle r now).1.Refuses "MissingParameter") ∨
        (r.parameters.get? "TelemetryRecords" ≠ none ∧
          (s.handle r now).1.Refuses "InvalidParameterValue")) := by
  rcases TelemetryPayload.ofParameters_cases r.parameters with
    ⟨p, hheld, -⟩ | ⟨hnone, herror⟩ | ⟨hsome, what, herror⟩
  · rw [Request.payload?_eq_some_iff.mpr ⟨hposts, hheld⟩] at h
    cases h
  · rw [s.handle_of_putTelemetry_error now hposts.method hposts.path hregion herror]
    exact ⟨rfl, Or.inl ⟨hnone, rfl, _, rfl, rfl⟩⟩
  · rw [s.handle_of_putTelemetry_error now hposts.method hposts.path hregion herror]
    exact ⟨rfl, Or.inr ⟨hsome, rfl, _, rfl, rfl⟩⟩

/-- What telemetry is answered with, in a region that there is. -/
theorem response_of_telemetry (hposts : r.PostsTelemetry) (hregion : s.region r = .ok region)
    (now : Int) :
    ((s.handle r now).1.status = 200 ↔ ∃ p, r.payload? = some p) ∧
    ((s.handle r now).1.Refuses "MissingParameter" ↔
      r.parameters.get? "TelemetryRecords" = none) ∧
    ((s.handle r now).1.Refuses "InvalidParameterValue" ↔
      r.parameters.get? "TelemetryRecords" ≠ none ∧ r.payload? = none) := by
  cases hpayload : r.payload? with
  | some p =>
    obtain ⟨hstatus, -, -⟩ := handle_of_payload hpayload hregion now
    have hrecords := (Request.payload?_eq_some_iff.mp hpayload).2.records
    have hnot : ∀ code, ¬ (s.handle r now).1.Refuses code := fun code hrefuses => by
      rw [hrefuses.status] at hstatus
      cases hstatus
    rw [hrecords]
    exact ⟨iff_of_true hstatus ⟨p, rfl⟩, iff_of_false (hnot _) (Option.some_ne_none _),
      iff_of_false (hnot _) fun h => Option.some_ne_none p h.2⟩
  | none =>
    have hdiffer : "MissingParameter" ≠ "InvalidParameterValue" := by decide
    rcases (handle_of_no_payload hposts hpayload hregion now).2 with
      ⟨hrecords, hrefuses⟩ | ⟨hrecords, hrefuses⟩
    · refine ⟨iff_of_false ?_ (by simp), iff_of_true hrefuses hrecords, iff_of_false ?_ ?_⟩
      · rw [hrefuses.status]
        decide
      · exact fun hother => hdiffer (hrefuses.unique hother)
      · exact fun h => h.1 hrecords
    · refine ⟨iff_of_false ?_ (by simp), iff_of_false ?_ hrecords,
        iff_of_true hrefuses ⟨hrecords, rfl⟩⟩
      · rw [hrefuses.status]
        decide
      · exact fun hother => hdiffer (hother.unique hrefuses)

/-- A request that posts no payload changes no log. -/
theorem telemetry_of_no_payload {name : String} (h : s.regions.get? name = some region)
    (hnone : r.payload? = none) (now : Int) :
    ∃ region', (s.handle r now).2.regions.get? name = some region' ∧
      region'.telemetry = region.telemetry := by
  rw [snd_handle]
  by_cases hpost :
    r.method = "POST" ∧ (r.path = "/TraceSegments" ∨ r.path = "/TelemetryRecords")
  · obtain ⟨hmethod, hpath | hpath⟩ := hpost
    · rw [answer_segments s now hmethod hpath]
      rcases perform_cases s r putSegments with ⟨-, hsame⟩ | ⟨-, _, _, region', hput, hchanges⟩
      · rw [hsame]
        exact ⟨region, h, rfl⟩
      · obtain ⟨entries, -, rfl⟩ := putSegments_eq_ok hput
        by_cases hname : name = s.regionName r
        · have hbefore := hchanges.before
          have hafter := hchanges.after
          rw [← hname] at hbefore hafter
          rw [h] at hbefore
          cases hbefore
          exact ⟨_, hafter, rfl⟩
        · exact ⟨region, (hchanges.others name hname).trans h, rfl⟩
    · rw [answer_telemetry s now hmethod hpath]
      rcases perform_cases s r putTelemetry with ⟨-, hsame⟩ | ⟨-, _, _, region', hput, -⟩
      · rw [hsame]
        exact ⟨region, h, rfl⟩
      · obtain ⟨p, hp, -⟩ := putTelemetry_eq_ok hput
        have hpayload := Request.payload?_eq_some_iff.mpr
          ⟨⟨hmethod, hpath⟩, TelemetryPayload.ofParameters_eq_ok_iff.mp hp⟩
        rw [hnone] at hpayload
        cases hpayload
  · rw [snd_answer s now hpost]
    exact ⟨region, h, rfl⟩

/-- A request appends its payload to the log of the region that it goes to. -/
theorem entries_handle {name : String} (h : s.regions.get? name = some region) (r : Request)
    (now : Int) :
    ∃ region', (s.handle r now).2.regions.get? name = some region' ∧
      region'.telemetry.entries = region.telemetry.entries ++
        if s.goesTo name r then r.payload?.toList else [] := by
  cases hpayload : r.payload? with
  | none =>
    obtain ⟨region', hregion', hsame⟩ := telemetry_of_no_payload h hpayload now
    refine ⟨region', hregion', ?_⟩
    rw [hsame, Option.toList_none, ite_self, List.append_nil]
  | some p =>
    by_cases hname : s.regionName r = name
    · subst hname
      rw [(handle_of_payload hpayload (region_of_get? h) now).2.2, if_pos (goesTo_iff.mpr rfl)]
      exact ⟨_, (changesAt_setRegion _ h).after, rfl⟩
    · rw [(sameAt_handle now fun _ => hname).region, if_neg (mt goesTo_iff.mp hname)]
      exact ⟨region, h, (List.append_nil _).symm⟩

/-! ## Runs -/

/-- The payloads that a run posts to a region, in their order. -/
def payloadsFor (s : State) (name : String) (run : List (Request × Int)) : List TelemetryPayload :=
  (run.filter fun e => s.goesTo name e.1).filterMap fun e => e.1.payload?

theorem payloadsFor_cons (s : State) (name : String) (e : Request × Int)
    (rest : List (Request × Int)) :
    s.payloadsFor name (e :: rest) =
      (if s.goesTo name e.1 then e.1.payload?.toList else []) ++ s.payloadsFor name rest := by
  unfold payloadsFor
  rw [List.filter_cons]
  split_ifs
  · cases hpayload : e.1.payload? with
    | none => exact List.filterMap_cons_none hpayload
    | some p => exact List.filterMap_cons_some hpayload
  · rfl

theorem payloadsFor_handle (s : State) (r : Request) (now : Int) (name : String)
    (run : List (Request × Int)) :
    (s.handle r now).2.payloadsFor name run = s.payloadsFor name run := by
  unfold payloadsFor goesTo
  simp only [regionName_handle]

theorem payloadsFor_append (s : State) (name : String) (before later : List (Request × Int)) :
    s.payloadsFor name (before ++ later) =
      s.payloadsFor name before ++ s.payloadsFor name later := by
  unfold payloadsFor
  rw [List.filter_append, List.filterMap_append]

/-- After a run the log of a region is what it was before and the payloads posted to it. -/
theorem entries_after {name : String} (h : s.regions.get? name = some region)
    (run : List (Request × Int)) :
    ∃ region', (s.after run).regions.get? name = some region' ∧
      region'.telemetry.entries = region.telemetry.entries ++ s.payloadsFor name run := by
  induction run generalizing s region with
  | nil => exact ⟨region, h, (List.append_nil _).symm⟩
  | cons e rest ih =>
    obtain ⟨next, hnext, hentries⟩ := entries_handle h e.1 e.2
    obtain ⟨last, hlast, hrest⟩ := ih hnext
    refine ⟨last, hlast, ?_⟩
    rw [hrest, hentries, payloadsFor_handle, payloadsFor_cons, List.append_assoc]

/-- From the start on, the log of a region is the list of the payloads that were posted to it, in
their order; so what is in it stays as it is when more requests come. A request posts a payload if
its parameters hold it: the records are a list, and each of the texts is one, null or absent; other
keys do not count. It is refused for a missing parameter if and only if there are no records, and
for a wrong one in every other case. Every payload of the log is read again from its own form. -/
theorem telemetry_log_exact {rule : CompletionRule} {names : List String}
    {defaultRegion name : String} (hname : name ∈ names) (run : List (Request × Int)) :
    let s := ofRegions rule names defaultRegion
    ∃ region, (s.after run).regions.get? name = some region ∧
      region.telemetry.entries =
        (run.filter fun e => s.regionName e.1 = name).filterMap (fun e => e.1.payload?) ∧
      region.telemetry.size = region.telemetry.entries.length ∧
      (∀ later, ∃ region', (s.after (run ++ later)).regions.get? name = some region' ∧
        region.telemetry.entries <+: region'.telemetry.entries) ∧
      (∀ p ∈ region.telemetry.entries, ∃ members,
        TelemetryPayload.codec.encode p = .object members ∧
          TelemetryPayload.ofParameters members = .ok p) ∧
      ∀ r : Request,
        (∀ p, r.payload? = some p ↔ r.PostsTelemetry ∧ p.HeldBy r.parameters) ∧
        ((∃ p : TelemetryPayload, p.HeldBy r.parameters) ↔
          (∃ items, r.parameters.get? "TelemetryRecords" = some (.array items)) ∧
          ∀ key ∈ ["EC2InstanceId", "Hostname", "ResourceARN"], ∀ v,
            r.parameters.get? key = some v → v = .null ∨ ∃ text, v = .string text) ∧
        (s.regionName r = name → r.PostsTelemetry → ∀ now,
          (((s.after run).handle r now).1.status = 200 ↔ ∃ p, r.payload? = some p) ∧
          (((s.after run).handle r now).1.Refuses "MissingParameter" ↔
            r.parameters.get? "TelemetryRecords" = none) ∧
          (((s.after run).handle r now).1.Refuses "InvalidParameterValue" ↔
            r.parameters.get? "TelemetryRecords" ≠ none ∧ r.payload? = none)) := by
  intro s
  have hstart : s.regions.get? name = some (.empty rule name) := by
    rw [get?_ofRegions, if_pos hname]
  obtain ⟨region, hregion, hentries⟩ := entries_after hstart run
  refine ⟨region, hregion, hentries, rfl, fun later => ?_, fun p _ => ?_, fun r => ⟨fun p =>
    Request.payload?_eq_some_iff, TelemetryPayload.exists_heldBy_iff, fun hgoes hposts now => ?_⟩⟩
  · obtain ⟨region', hregion', hentries'⟩ := entries_after hstart (run ++ later)
    refine ⟨region', hregion', ?_⟩
    rw [hentries, hentries', payloadsFor_append, ← List.append_assoc]
    exact List.prefix_append _ _
  · obtain ⟨members, hmembers, hheld⟩ := TelemetryPayload.exists_heldBy_encode p
    exact ⟨members, hmembers, TelemetryPayload.ofParameters_eq_ok_iff.mpr hheld⟩
  · have hget : (s.after run).regions.get? ((s.after run).regionName r) = some region := by
      rw [regionName_after, hgoes]
      exact hregion
    exact response_of_telemetry hposts (region_of_get? hget) now

/-- Payloads for two regions, and parameters that are none. -/
def mixedTelemetry : List (Request × Int) :=
  [("eu-west-1", "\x7b\"Hostname\":null,\"ResourceARN\":\"arn\",\"TelemetryRecords\":[1]\x7d"),
    ("eu-west-1", "\x7b\"Hostname\":7,\"TelemetryRecords\":[]\x7d"),
    ("us-east-1", "\x7b\"TelemetryRecords\":[]\x7d"),
    ("eu-west-1", "\x7b\"TelemetryRecords\":[[null]],\"Count\":1\x7d")].map
    fun e => (signedRequest e.1 "/TelemetryRecords" e.2, 0)

/-- Two of them are logged in one region, and what lacks the records is refused there. -/
theorem telemetry_log_exact_mixed :
    let names := ["eu-west-1", "us-east-1"]
    let s := ofRegions .lastSegment names "us-east-1"
    let r := signedRequest "eu-west-1" "/TelemetryRecords" "\x7b\"Hostname\":7\x7d"
    "eu-west-1" ∈ names ∧ ∃ region,
      (s.after mixedTelemetry).regions.get? "eu-west-1" = some region ∧
      region.telemetry.entries.map (fun p => (p.resource?, p.records.length)) =
        [(some "arn", 1), (none, 1)] ∧
      ((s.after mixedTelemetry).handle r 0).1.Refuses "MissingParameter" := by
  intro names s r
  have hname : "eu-west-1" ∈ names := by decide
  obtain ⟨region, hregion, hentries, -, -, -, hrequests⟩ :=
    @telemetry_log_exact .lastSegment names "us-east-1" _ hname mixedTelemetry
  refine ⟨hname, region, hregion, ?_, ?_⟩
  · rw [hentries]
    decide +kernel
  · obtain ⟨-, -, hresponse⟩ := hrequests r
    have hgoes : s.regionName r = "eu-west-1" := by decide +kernel
    obtain ⟨-, hmissing, -⟩ := hresponse hgoes ⟨rfl, by decide +kernel⟩ 0
    have hnone : (r.parameters.get? "TelemetryRecords").isNone = true := by decide +kernel
    exact hmissing.mpr (Option.isNone_iff_eq_none.mp hnone)

end State

end TraceCollector.Service
