import TraceCollector.Proofs.DictionaryOrder
import TraceCollector.Telemetry

/-!
# Payloads and parameters

Which parameters are a payload, and which payload they are.

1. A text that may be left out is absent or null without one (`Json.TextUnder`), and this is how its
   field is read (`Json.fieldOr_eq_ok_iff`).
2. Parameters hold a payload in four fields, and nothing else counts (`HeldBy`). A payload is read
   if and only if it is held (`ofParameters_eq_ok_iff`), and one is held if and only if the records
   are a list and each of the texts is one, null or absent (`exists_heldBy_iff`).
3. What is turned down lacks the records or has a field of another form (`ofParameters_cases`).
4. The form of a payload as an object holds that payload (`exists_heldBy_encode`).
-/

namespace TraceCollector

namespace Json

variable {members : Dictionary Value} {name : String}

/-- The members have the text under the name; without a text they have nothing there, or null. -/
def TextUnder (members : Dictionary Value) (name : String) : Option String → Prop
  | some text => members.get? name = some (.string text)
  | none => members.get? name = none ∨ members.get? name = some .null

theorem fieldOr_eq_ok_iff {text? : Option String} :
    fieldOr none members name Value.asOptionalText = .ok text? ↔
      TextUnder members name text? := by
  unfold fieldOr
  cases hget : members.get? name with
  | none => cases text? <;> simp [TextUnder, hget]
  | some v =>
    cases v with
    | null => cases text? <;> simp [TextUnder, hget, Value.asOptionalText]
    | string text =>
      cases text? <;> simp [TextUnder, hget, Value.asOptionalText, Value.asText, Except.map]
    | _ => cases text? <;> simp [TextUnder, hget, Value.asOptionalText, Value.asText, Except.map]

theorem requiredField_list_eq_ok_iff {items : List Value} :
    requiredField members name Value.asList = .ok items ↔
      members.get? name = some (.array items) := by
  unfold requiredField
  cases hget : members.get? name with
  | none => simp
  | some v => cases v <;> simp [Value.asList]

/-- There is a text under the name, or null, or nothing. -/
theorem exists_textUnder_iff :
    (∃ text?, TextUnder members name text?) ↔
      ∀ v, members.get? name = some v → v = .null ∨ ∃ text, v = .string text := by
  constructor
  · rintro ⟨_ | text, h⟩ v hv
    · rcases h with hnone | hnull
      · rw [hnone] at hv
        cases hv
      · exact Or.inl (Option.some.inj (hv.symm.trans hnull))
    · exact Or.inr ⟨text, Option.some.inj (hv.symm.trans h)⟩
  · intro h
    cases hget : members.get? name with
    | none => exact ⟨none, Or.inl hget⟩
    | some v =>
      rcases h v hget with rfl | ⟨text, rfl⟩
      · exact ⟨none, Or.inr hget⟩
      · exact ⟨some text, hget⟩

end Json

namespace TelemetryPayload

/-- The parameters hold the payload. Other keys do not count. -/
structure HeldBy (p : TelemetryPayload) (members : Dictionary Json.Value) : Prop where
  instanceId : Json.TextUnder members "EC2InstanceId" p.instanceId?
  hostname : Json.TextUnder members "Hostname" p.hostname?
  resource : Json.TextUnder members "ResourceARN" p.resource?
  records : members.get? "TelemetryRecords" = some (.array p.records)

variable {members : Dictionary Json.Value}

theorem decode_eq_ok_iff {p : TelemetryPayload} :
    codec.decode (.object members) = .ok p ↔ p.HeldBy members := by
  have hsteps : codec.decode (.object members) = .ok p ↔
      Json.fieldOr none members "EC2InstanceId" Json.Value.asOptionalText = .ok p.instanceId? ∧
      Json.fieldOr none members "Hostname" Json.Value.asOptionalText = .ok p.hostname? ∧
      Json.fieldOr none members "ResourceARN" Json.Value.asOptionalText = .ok p.resource? ∧
      Json.requiredField members "TelemetryRecords" Json.Value.asList = .ok p.records := by
    obtain ⟨instanceId?, hostname?, resource?, records⟩ := p
    simp only [codec, Json.Value.asRecord, bind, Except.bind, pure, Except.pure]
    cases Json.fieldOr none members "EC2InstanceId" Json.Value.asOptionalText with
    | error what => simp
    | ok instanceId? =>
      cases Json.fieldOr none members "Hostname" Json.Value.asOptionalText with
      | error what => simp
      | ok hostname? =>
        cases Json.fieldOr none members "ResourceARN" Json.Value.asOptionalText with
        | error what => simp
        | ok resource? =>
          cases Json.requiredField members "TelemetryRecords" Json.Value.asList with
          | error what => simp
          | ok records => simp
  rw [hsteps, Json.fieldOr_eq_ok_iff, Json.fieldOr_eq_ok_iff, Json.fieldOr_eq_ok_iff,
    Json.requiredField_list_eq_ok_iff]
  exact ⟨fun ⟨hid, hhost, hresource, hrecords⟩ => ⟨hid, hhost, hresource, hrecords⟩,
    fun h => ⟨h.instanceId, h.hostname, h.resource, h.records⟩⟩

/-- A payload is read if and only if the parameters hold it. -/
theorem ofParameters_eq_ok_iff {p : TelemetryPayload} :
    ofParameters members = .ok p ↔ p.HeldBy members := by
  unfold ofParameters Dictionary.contains
  cases hget : members.get? "TelemetryRecords" with
  | none =>
    refine iff_of_false (by simp) fun h => ?_
    rw [h.records] at hget
    cases hget
  | some v =>
    rw [Option.isSome_some, if_pos rfl, ← decode_eq_ok_iff]
    cases codec.decode (.object members) <;> simp

/-- Parameters hold a payload if and only if the records are a list and each of the texts is a
text, null or absent. -/
theorem exists_heldBy_iff :
    (∃ p : TelemetryPayload, p.HeldBy members) ↔
      (∃ items, members.get? "TelemetryRecords" = some (.array items)) ∧
      ∀ name ∈ ["EC2InstanceId", "Hostname", "ResourceARN"], ∀ v, members.get? name = some v →
        v = .null ∨ ∃ text, v = .string text := by
  rw [List.forall_mem_cons, List.forall_mem_cons, List.forall_mem_singleton,
    ← Json.exists_textUnder_iff, ← Json.exists_textUnder_iff, ← Json.exists_textUnder_iff]
  constructor
  · rintro ⟨p, h⟩
    exact ⟨⟨_, h.records⟩, ⟨_, h.instanceId⟩, ⟨_, h.hostname⟩, _, h.resource⟩
  · rintro ⟨⟨items, hrecords⟩, ⟨instanceId?, hid⟩, ⟨hostname?, hhost⟩, resource?, hresource⟩
    exact ⟨⟨instanceId?, hostname?, resource?, items⟩, hid, hhost, hresource, hrecords⟩

/-- Parameters hold a payload, lack the records, or have a field of another form. -/
theorem ofParameters_cases (members : Dictionary Json.Value) :
    (∃ p : TelemetryPayload, p.HeldBy members ∧ ofParameters members = .ok p) ∨
    (members.get? "TelemetryRecords" = none ∧
      ofParameters members = .error .missingRecords) ∨
    (members.get? "TelemetryRecords" ≠ none ∧
      ∃ what, ofParameters members = .error (.mismatch what)) := by
  cases hresult : ofParameters members with
  | ok p => exact Or.inl ⟨p, ofParameters_eq_ok_iff.mp hresult, rfl⟩
  | error e =>
    right
    unfold ofParameters Dictionary.contains at hresult
    cases hget : members.get? "TelemetryRecords" with
    | none =>
      rw [hget] at hresult
      cases hresult
      exact Or.inl ⟨rfl, rfl⟩
    | some v =>
      rw [hget, Option.isSome_some, if_pos rfl] at hresult
      cases hdecode : codec.decode (.object members) with
      | ok p =>
        rw [hdecode] at hresult
        cases hresult
      | error what =>
        rw [hdecode] at hresult
        cases hresult
        exact Or.inr ⟨Option.some_ne_none v, what, rfl⟩

/-! ## The form of a payload -/

theorem textUnder_of_ofText? {name : String} {text? : Option String}
    (h : members.get? name = some (.ofText? text?)) : Json.TextUnder members name text? := by
  cases text? with
  | none => exact Or.inr h
  | some text => exact h

/-- The form of a payload is an object that holds the payload. -/
theorem exists_heldBy_encode (p : TelemetryPayload) :
    ∃ members, codec.encode p = .object members ∧ p.HeldBy members := by
  have hkeys : ["EC2InstanceId", "Hostname", "ResourceARN", "TelemetryRecords"].Nodup := by decide
  refine ⟨_, rfl, textUnder_of_ofText? ?_, textUnder_of_ofText? ?_, textUnder_of_ofText? ?_, ?_⟩
  all_goals
    refine (Dictionary.get?_ofList_eq_some_iff ?_).mpr ?_
    · exact hkeys
    · simp

end TelemetryPayload

end TraceCollector
