import TraceCollector.Proofs.ReadObjects
import TraceCollector.Proofs.Service.Isolation

/-!
# Null parameters

A parameter of the value null counts as absent, but for the records of a payload.

1. Parameters without those of the value null have the same values (`Parameters.get?_withoutNulls`).
   Documents and queries are read from these values alone (`putSegments_congr`,
   `getSummaries_of_same`).
2. A payload is decoded from the members themselves. Null is admitted where a text may be absent,
   but null for the records is told apart from their absence (`ofParameters_of_null`,
   `ofParameters_withoutNulls_of_null`).
3. The body of a failure tells its code (`Response.code_eq_of_body_eq`), so a request that has null
   for the records is the only one that is answered differently without its nulls
   (`State.nulls_absent_iff`).
-/

namespace TraceCollector

/-! ## Members -/

/-- The members of an object other than null. -/
def Json.withoutNulls (members : Dictionary Json.Value) : Dictionary Json.Value :=
  members.filterMap fun _ v => if v.isNull then none else some v

section Members

variable {members : Dictionary Json.Value}

theorem Json.get?_withoutNulls (h : members.Ordered) (key : String) :
    (Json.withoutNulls members).get? key = (members.get? key).filter fun v => !v.isNull := by
  unfold Json.withoutNulls
  rw [Dictionary.get?_filterMap h]
  cases members.get? key with
  | none => rfl
  | some v => cases v <;> rfl

/-- A text that may be absent is absent as null. -/
theorem Json.fieldOr_withoutNulls (h : members.Ordered) (name : String) :
    Json.fieldOr none (Json.withoutNulls members) name Json.Value.asOptionalText =
      Json.fieldOr none members name Json.Value.asOptionalText := by
  unfold Json.fieldOr
  rw [Json.get?_withoutNulls h]
  cases members.get? name with
  | none => rfl
  | some v => cases v <;> rfl

/-! ## Payloads -/

namespace TelemetryPayload

/-- A payload whose records are not null is read alike without its nulls. -/
theorem ofParameters_withoutNulls (h : members.Ordered)
    (hrecords : members.get? "TelemetryRecords" ≠ some .null) :
    ofParameters (Json.withoutNulls members) = ofParameters members := by
  have hsame : (Json.withoutNulls members).get? "TelemetryRecords" =
      members.get? "TelemetryRecords" := by
    rw [Json.get?_withoutNulls h]
    cases hget : members.get? "TelemetryRecords" with
    | none => rfl
    | some v =>
      cases v with
      | null => exact absurd hget hrecords
      | _ => rfl
  have hdecode : codec.decode (.object (Json.withoutNulls members)) =
      codec.decode (.object members) := by
    simp only [codec, Json.Value.asRecord, Json.requiredField, bind, Except.bind,
      Json.fieldOr_withoutNulls h, hsame]
  unfold ofParameters Dictionary.contains
  rw [hsame, hdecode]

/-- Null for the records is no list of records. -/
theorem ofParameters_of_null (hrecords : members.get? "TelemetryRecords" = some .null) :
    ∃ what, ofParameters members = .error (.mismatch what) := by
  have hdecode : ∃ what, codec.decode (.object members) = .error what := by
    simp only [codec, Json.Value.asRecord, Json.requiredField, bind, Except.bind, hrecords]
    cases Json.fieldOr none members "EC2InstanceId" Json.Value.asOptionalText with
    | error what => exact ⟨what, rfl⟩
    | ok instanceId? =>
      cases Json.fieldOr none members "Hostname" Json.Value.asOptionalText with
      | error what => exact ⟨what, rfl⟩
      | ok hostname? =>
        cases Json.fieldOr none members "ResourceARN" Json.Value.asOptionalText with
        | error what => exact ⟨what, rfl⟩
        | ok resource? => exact ⟨_, rfl⟩
  obtain ⟨what, hwhat⟩ := hdecode
  refine ⟨what, ?_⟩
  unfold ofParameters Dictionary.contains
  rw [hrecords, Option.isSome_some, if_pos rfl, hwhat]

/-- Without its nulls the payload has no records. -/
theorem ofParameters_withoutNulls_of_null (h : members.Ordered)
    (hrecords : members.get? "TelemetryRecords" = some .null) :
    ofParameters (Json.withoutNulls members) = .error .missingRecords := by
  unfold ofParameters Dictionary.contains
  rw [Json.get?_withoutNulls h, hrecords]
  rfl

end TelemetryPayload

end Members

namespace Service

/-! ## Parameters with the same values -/

theorem Parameters.get?_withoutNulls {members : Dictionary Json.Value} (h : members.Ordered)
    (name : String) :
    (Parameters.mk (Json.withoutNulls members)).get? name = (Parameters.mk members).get? name := by
  unfold Parameters.get?
  rw [Json.get?_withoutNulls h, Option.filter_filter]
  simp only [Bool.and_self]

theorem putSegments_congr {p q : Parameters} (h : ∀ name, p.get? name = q.get? name)
    (region : Region) : putSegments region p = putSegments region q := by
  unfold putSegments Parameters.require
  rw [h]

/-! ## Bodies of failures -/

/-- The codes differ in their first letters. -/
theorem Failure.code_eq_of_take {f g : Failure}
    (h : (Json.stringChars f.code).take 12 = (Json.stringChars g.code).take 12) :
    f.code = g.code := by
  unfold code at h ⊢
  revert h
  cases f.kind <;> cases g.kind <;> decide

theorem Failure.le_length_code (f : Failure) : 12 ≤ (Json.stringChars f.code).length := by
  unfold code
  cases f.kind <;> decide

theorem Failure.code_missingRecords_ne (what : Json.Mismatch) :
    (ofTelemetryError .missingRecords).code ≠ (ofTelemetryError (.mismatch what)).code := by
  show "MissingParameter" ≠ "InvalidParameterValue"
  decide

namespace Response

open Json

/-- The text of an object begins with the member of the least key. -/
theorem exists_toList_text {key : String} (v : Value) {members : List (String × Value)}
    (h : ∀ e ∈ members, key < e.1) :
    ∃ tail, (Value.ofMembers ((key, v) :: members)).text.toList =
      '\x7b' :: (stringChars key ++ ':' :: (v.chars ++ tail)) := by
  obtain ⟨rest, hrest⟩ := Dictionary.exists_ofList_cons v h
  unfold Value.ofMembers Value.text
  rw [hrest, String.toList_ofList, Value.chars]
  cases rest with
  | nil => exact ⟨['\x7d'], by simp [membersChars]⟩
  | cons e rest => exact ⟨',' :: membersChars (e :: rest) ++ ['\x7d'], by simp [membersChars]⟩

theorem exists_toList_body (f : Failure) :
    ∃ tail, (ofFailure f).body.toList =
      '\x7b' :: (stringChars "__type" ++ ':' :: (stringChars f.code ++ tail)) := by
  refine exists_toList_text (.string f.code) (List.forall_mem_singleton.mpr ?_)
  show "__type" < "message"
  decide

theorem exists_toList_summaries (result : SummaryResult) :
    ∃ v tail, (SummaryResult.codec.encode result).text.toList =
      '\x7b' :: (stringChars "ApproximateTime" ++ ':' :: (Value.chars v ++ tail)) := by
  refine ⟨_, exists_toList_text (.integer result.approximateTime) ?_⟩
  refine List.forall_mem_cons.mpr ⟨?_, List.forall_mem_singleton.mpr ?_⟩
  · show "ApproximateTime" < "TracesProcessedCount"
    decide
  · show "ApproximateTime" < "TraceSummaries"
    decide

/-- The body of a failure tells its code. -/
theorem code_eq_of_body_eq {f g : Failure} (h : (ofFailure f).body = (ofFailure g).body) :
    f.code = g.code := by
  obtain ⟨tail, htail⟩ := exists_toList_body f
  obtain ⟨tail', htail'⟩ := exists_toList_body g
  rw [h, htail'] at htail
  have hcodes := (List.cons.inj (List.append_cancel_left (List.cons.inj htail).2)).2
  have htake := congrArg (List.take 12) hcodes
  rw [List.take_append_of_le_length f.le_length_code,
    List.take_append_of_le_length g.le_length_code] at htake
  exact (Failure.code_eq_of_take htake).symm

/-- A failure is not taken for summaries. -/
theorem body_ofFailure_ne (f : Failure) (result : SummaryResult) :
    (ofFailure f).body ≠ (SummaryResult.codec.encode result).text := by
  intro h
  obtain ⟨tail, htail⟩ := exists_toList_body f
  obtain ⟨v, tail', htail'⟩ := exists_toList_summaries result
  rw [h, htail'] at htail
  -- the first keys differ in their first letter
  have hletter : some 'A' = some '_' := congrArg (fun cs => cs[2]?) htail
  exact absurd hletter (by decide)

/-- Failures of different codes do not agree. -/
theorem not_agreesWith_of_code {f g : Failure} (h : f.code ≠ g.code)
    {headers : List (String × String)} :
    ¬ ((ofFailure f).withHeaders headers).AgreesWith ((ofFailure g).withHeaders headers) := by
  intro hagree
  rcases hagree.body with hbody | ⟨result, t, _, hsummaries, -⟩
  · exact h (code_eq_of_body_eq hbody)
  · exact body_ofFailure_ne f _ hsummaries

end Response

/-! ## Requests -/

/-- The requests are the same up to the length of the body. That of the second is an object, and
that of the first what is left of it without the members of the value null. -/
structure Request.DropsNulls (r' r : Request) (members : Dictionary Json.Value) : Prop where
  method : r'.method = r.method
  target : r'.target = r.target
  headers : ∀ name, name ≠ "content-length" → r'.header? name = r.header? name
  before : Json.read r.body = .ok (.object members)
  after : Json.read r'.body = .ok (.object (Json.withoutNulls members))

namespace Request.DropsNulls

variable {r r' : Request} {members : Dictionary Json.Value}

theorem ofBody_before (h : r'.DropsNulls r members) : Parameters.ofBody r.body = ⟨members⟩ := by
  unfold Parameters.ofBody
  rw [h.before]

theorem ofBody_after (h : r'.DropsNulls r members) :
    Parameters.ofBody r'.body = ⟨Json.withoutNulls members⟩ := by
  unfold Parameters.ofBody
  rw [h.after]

theorem get?_ofBody (h : r'.DropsNulls r members) (name : String) :
    (Parameters.ofBody r'.body).get? name = (Parameters.ofBody r.body).get? name := by
  rw [h.ofBody_after, h.ofBody_before]
  exact Parameters.get?_withoutNulls (Json.ordered_of_read h.before) name

theorem path_eq (h : r'.DropsNulls r members) : r'.path = r.path := by
  unfold Request.path
  rw [h.target]

theorem regionName_eq (h : r'.DropsNulls r members) (s : State) :
    s.regionName r' = s.regionName r := by
  unfold State.regionName Request.region?
  rw [h.headers "authorization" (by decide)]

theorem region_eq (h : r'.DropsNulls r members) (s : State) : s.region r' = s.region r := by
  unfold State.region
  rw [h.regionName_eq]

end Request.DropsNulls

namespace State

variable {r r' : Request} {members : Dictionary Json.Value} (s : State)

/-- The request posts null for the records of a payload, to a region that there is. -/
structure PostsNullRecords (r : Request) (members : Dictionary Json.Value) : Prop where
  method : r.method = "POST"
  path : r.path = "/TelemetryRecords"
  region : ∃ region, s.region r = .ok region
  records : members.get? "TelemetryRecords" = some .null

theorem perform_of_dropsNulls (h : r'.DropsNulls r members) {action : Action}
    (haction : ∀ region, s.region r = .ok region →
      action region (.ofBody r'.body) = action region (.ofBody r.body)) :
    s.perform r' action = s.perform r action := by
  unfold perform
  rw [h.region_eq, h.regionName_eq]
  cases hregion : s.region r with
  | error f => rfl
  | ok region =>
    dsimp only
    rw [haction region hregion]

theorem follow_of_dropsNulls (h : r'.DropsNulls r members) (now : Int) (route : Route)
    (hrecords : route = .telemetry → ∀ region, s.region r = .ok region →
      members.get? "TelemetryRecords" ≠ some .null) :
    s.follow r' now route = s.follow r now route := by
  cases route with
  | segments =>
    exact s.perform_of_dropsNulls h fun region _ => putSegments_congr h.get?_ofBody region
  | telemetry =>
    refine s.perform_of_dropsNulls h fun region hregion => ?_
    unfold putTelemetry
    rw [h.ofBody_after, h.ofBody_before, TelemetryPayload.ofParameters_withoutNulls
      (Json.ordered_of_read h.before) (hrecords rfl region hregion)]
  | summaries =>
    show (s.ask r' (getSummaries now), s) = (s.ask r (getSummaries now), s)
    unfold ask
    simp only [h.region_eq, getSummaries_of_same rfl fun name _ => h.get?_ofBody name]
  | unavailable =>
    unfold follow
    rw [h.path_eq]
  | health =>
    unfold follow
    rw [h.method]

/-- Any other request is answered alike without its nulls. -/
theorem handle_of_dropsNulls (h : r'.DropsNulls r members) (now : Int)
    (hrecords : ¬ s.PostsNullRecords r members) : s.handle r' now = s.handle r now := by
  have hanswer : s.answer r' now = s.answer r now := by
    unfold answer
    rw [h.path_eq, h.method]
    dsimp only
    split_ifs
    · rfl
    · cases hroute : Route.ofPath? r.path with
      | none => rfl
      | some route =>
        dsimp only
        split_ifs with hmethod
        · refine s.follow_of_dropsNulls h now route fun htelemetry region hregion hnull => ?_
          subst htelemetry
          exact hrecords ⟨List.mem_singleton.mp hmethod, Route.ofPath?_eq_telemetry_iff.mp hroute,
            ⟨region, hregion⟩, hnull⟩
        · rfl
  unfold handle
  rw [hanswer]

theorem handle_of_putTelemetry_error (now : Int) (hpost : r.method = "POST")
    (hpath : r.path = "/TelemetryRecords") {region : Region} (hregion : s.region r = .ok region)
    {e : TelemetryError}
    (h : TelemetryPayload.ofParameters (Parameters.ofBody r.body).members = .error e) :
    s.handle r now =
      ((Response.ofFailure (.ofTelemetryError e)).withHeaders Response.sharedHeaders, s) := by
  unfold handle
  rw [answer_telemetry s now hpost hpath]
  unfold perform putTelemetry
  rw [hregion]
  simp only [h]

/-- Null for the records is a wrong parameter, and without it the parameter is missing. -/
theorem handle_of_postsNullRecords (h : r'.DropsNulls r members) (now now' : Int)
    (hnull : s.PostsNullRecords r members) :
    ∃ what, s.handle r now =
        ((Response.ofFailure (.ofTelemetryError (.mismatch what))).withHeaders
          Response.sharedHeaders, s) ∧
      s.handle r' now' =
        ((Response.ofFailure (.ofTelemetryError .missingRecords)).withHeaders
          Response.sharedHeaders, s) := by
  obtain ⟨region, hregion⟩ := hnull.region
  obtain ⟨what, hwhat⟩ := TelemetryPayload.ofParameters_of_null hnull.records
  refine ⟨what, ?_, ?_⟩
  · refine s.handle_of_putTelemetry_error now hnull.method hnull.path hregion ?_
    rw [h.ofBody_before]
    exact hwhat
  · refine s.handle_of_putTelemetry_error now' (h.method.trans hnull.method)
      (h.path_eq.trans hnull.path) ((h.region_eq s).trans hregion) ?_
    rw [h.ofBody_after]
    exact TelemetryPayload.ofParameters_withoutNulls_of_null (Json.ordered_of_read h.before)
      hnull.records

/-- Members of the value null in the body of a request make no difference to the state. They make
one to the response only where null is posted for the records of a payload: that is answered as a
wrong parameter, and as a missing one without it. -/
theorem nulls_absent_iff (h : r'.DropsNulls r members) (now now' : Int) :
    (s.handle r' now').2 = (s.handle r now).2 ∧
    ((s.handle r' now').1.AgreesWith (s.handle r now).1 ↔ ¬ s.PostsNullRecords r members) := by
  by_cases hnull : s.PostsNullRecords r members
  · obtain ⟨what, hbefore, hafter⟩ := s.handle_of_postsNullRecords h now now' hnull
    rw [hbefore, hafter]
    refine ⟨rfl, iff_of_false (fun hagree => ?_) (not_not_intro hnull)⟩
    exact Response.not_agreesWith_of_code (Failure.code_missingRecords_ne what) hagree
  · rw [← s.handle_of_dropsNulls h now hnull]
    obtain ⟨hresponse, hstate⟩ := s.handle_agrees r' now' now
    exact ⟨hstate, iff_of_true hresponse hnull⟩

/-- Null for the name of the host is dropped from a payload. -/
theorem nulls_absent_iff_nullHostname :
    let s := State.ofConfiguration .standard
    let members := Dictionary.ofList [("Hostname", .null), ("TelemetryRecords", .array [])]
    let r := signedRequest "eu-west-1" "/TelemetryRecords"
      "\x7b\"Hostname\":null,\"TelemetryRecords\":[]\x7d"
    let r' := signedRequest "eu-west-1" "/TelemetryRecords" "\x7b\"TelemetryRecords\":[]\x7d"
    r'.DropsNulls r members ∧ (s.handle r' 1).2 = (s.handle r 0).2 ∧
      (s.handle r' 1).1.AgreesWith (s.handle r 0).1 ∧
      ((s.handle r 0).2.regions.get? "eu-west-1").map (·.telemetry.size) = some 1 := by
  intro s members r r'
  have hdrops : r'.DropsNulls r members :=
    ⟨rfl, rfl, fun _ _ => rfl, by with_unfolding_all rfl, by with_unfolding_all rfl⟩
  obtain ⟨hstate, hresponse⟩ := s.nulls_absent_iff hdrops 0 1
  refine ⟨hdrops, hstate, hresponse.mpr fun hnull => ?_, by decide +kernel⟩
  cases hnull.records

/-- Null for the records is a wrong parameter, though no parameter at all is a missing one. -/
theorem nulls_not_absent_nullRecords :
    let s := State.ofConfiguration .standard
    let members := Dictionary.ofList [("TelemetryRecords", .null)]
    let r := signedRequest "eu-west-1" "/TelemetryRecords" "\x7b\"TelemetryRecords\":null\x7d"
    let r' := signedRequest "eu-west-1" "/TelemetryRecords" "\x7b\x7d"
    r'.DropsNulls r members ∧
      (s.handle r 0).1.body = "\x7b\"__type\":\"InvalidParameterValue\",\"message\":" ++
        "\"Invalid telemetry payload: invalid type: null, expected a sequence\"\x7d" ∧
      (s.handle r' 0).1.body = "\x7b\"__type\":\"MissingParameter\",\"message\":" ++
        "\"Parameter TelemetryRecords is missing\"\x7d" ∧
      ¬ (s.handle r' 0).1.AgreesWith (s.handle r 0).1 := by
  intro s members r r'
  have hdrops : r'.DropsNulls r members :=
    ⟨rfl, rfl, fun _ _ => rfl, by with_unfolding_all rfl, by with_unfolding_all rfl⟩
  have hregion : s.region r = .ok (.empty .lastSegment "eu-west-1") := by with_unfolding_all rfl
  obtain ⟨what, hbefore, hafter⟩ := s.handle_of_postsNullRecords hdrops 0 0
    ⟨rfl, by decide +kernel, ⟨_, hregion⟩, rfl⟩
  refine ⟨hdrops, by decide +kernel, by decide +kernel, ?_⟩
  rw [hbefore, hafter]
  exact Response.not_agreesWith_of_code (Failure.code_missingRecords_ne what)

end State

end Service

end TraceCollector
