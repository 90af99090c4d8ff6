import TraceCollector.Proofs.DocumentContent
import TraceCollector.Proofs.ReadObjects

/-!
# Restoring documents

Nothing of an accepted document is lost, nothing is added, and what has no meaning is kept as it is.

1. The further fields of a segment are those of the document without the six keys that have a
   meaning (`get?_extensionsOf`).
2. `Segment.object` puts what a segment holds for these keys back to its further fields;
   `Field.kept` says what a segment keeps of the value of a field. Of the times this is the number
   as binary64, and null as an end is the same as none.
3. So the object of the segment that a document reports is that of the document, with every value as
   it is kept (`Reports.object_eq`).
-/

namespace TraceCollector.Segment

/-! ## Further fields -/

/-- The keys that have a meaning. -/
def namedKeys : List String := ["id", "name", "trace_id", "start_time", "end_time", "in_progress"]

theorem namedKeys_eq : namedKeys = Field.all.map (·.key) := rfl

theorem Field.mem_all (field : Field) : field ∈ Field.all := by cases field <;> decide

theorem Field.key_injective {a b : Field} (h : a.key = b.key) : a = b := by
  revert h
  cases a <;> cases b <;> decide

theorem Field.key_mem (field : Field) : field.key ∈ namedKeys := by cases field <;> decide

theorem exists_field_of_mem {key : String} (h : key ∈ namedKeys) :
    ∃ field : Field, field.key = key := by
  obtain ⟨field, -, hkey⟩ := List.mem_map.mp (namedKeys_eq ▸ h)
  exact ⟨field, hkey⟩

theorem get?_extensionsOf (fields : Dictionary Json.Value) (key : String) :
    (extensionsOf fields).get? key = if key ∈ namedKeys then none else fields.get? key :=
  Dictionary.get?_foldl_erase _ _ _

/-! ## The object of a segment -/

/-- What a segment holds for a field. -/
def held? (s : Segment) : Field → Option Json.Value
  | .id => some (.string s.id)
  | .name => some (.string s.name)
  | .traceId => some (.string s.traceId)
  | .startTime => some (.number (.float s.start.seconds))
  | .endTime => s.stop?.map fun t => .number (.float t.seconds)
  | .inProgress => s.inProgress?

/-- The object with what a segment holds for a field put back. -/
def restore (s : Segment) (fields : Dictionary Json.Value) (field : Field) :
    Dictionary Json.Value :=
  match s.held? field with
  | some v => fields.insert field.key v
  | none => fields

/-- The object of a segment: what it holds for the fields put back to its further fields. -/
def object (s : Segment) : Dictionary Json.Value := Field.all.foldl s.restore s.extensions

section Restore

variable (s : Segment) (order : List Field) (fields : Dictionary Json.Value)

theorem get?_restore (field : Field) (key : String) :
    (s.restore fields field).get? key =
      if key = field.key then (s.held? field).or (fields.get? key) else fields.get? key := by
  unfold restore
  cases s.held? field with
  | none => simp
  | some v =>
    simp only [Dictionary.get?_insert]
    rfl

theorem get?_foldl_restore (field : Field) :
    (order.foldl s.restore fields).get? field.key =
      if field ∈ order then (s.held? field).or (fields.get? field.key)
      else fields.get? field.key := by
  induction order generalizing fields with
  | nil => rfl
  | cons first rest ih =>
    rw [List.foldl_cons, ih, get?_restore]
    by_cases hfirst : field = first
    · subst hfirst
      rw [if_pos rfl, if_pos List.mem_cons_self]
      cases s.held? field <;> simp
    · have hkey : field.key ≠ first.key := fun h => hfirst (Field.key_injective h)
      simp [hfirst, hkey]

theorem get?_foldl_restore_of_not_mem {key : String} (h : key ∉ namedKeys) :
    (order.foldl s.restore fields).get? key = fields.get? key := by
  induction order generalizing fields with
  | nil => rfl
  | cons first rest ih =>
    have hkey : key ≠ first.key := fun heq => h (heq ▸ first.key_mem)
    rw [List.foldl_cons, ih, get?_restore, if_neg hkey]

theorem ordered_foldl_restore (h : fields.Ordered) : (order.foldl s.restore fields).Ordered := by
  induction order generalizing fields with
  | nil => exact h
  | cons first rest ih =>
    refine ih _ ?_
    unfold restore
    split
    · exact Dictionary.ordered_insert h _ _
    · exact h

end Restore

/-- What a segment keeps of the value of a field: of times the number as binary64, without an end
nothing, and any other value as it is. -/
def Field.kept : Field → Json.Value → Option Json.Value
  | .startTime, .number n | .endTime, .number n => some (.number (.float n.toBinary64))
  | .endTime, .null => none
  | _, v => some v

/-- What a segment keeps of the value under a key. -/
def kept (key : String) (v : Json.Value) : Option Json.Value :=
  match Field.all.find? (·.key = key) with
  | some field => field.kept v
  | none => some v

theorem kept_key (field : Field) (v : Json.Value) : kept field.key v = field.kept v := by
  cases field <;> rfl

theorem kept_of_not_mem {key : String} (h : key ∉ namedKeys) (v : Json.Value) :
    kept key v = some v := by
  have hnone : Field.all.find? (·.key = key) = none := by
    rw [List.find?_eq_none]
    intro field _ hkey
    exact h (of_decide_eq_true hkey ▸ field.key_mem)
  unfold kept
  rw [hnone]

/-! ## Documents -/

namespace Reports

variable {fields : Dictionary Json.Value} {s : Segment}

/-- For every field a segment holds what is kept of the document's value. -/
theorem held?_eq (h : s.Reports fields) (field : Field) :
    s.held? field = (field? fields field).bind field.kept := by
  cases field with
  | id => rw [h.id]; rfl
  | name => rw [h.name]; rfl
  | traceId => rw [h.traceId]; rfl
  | startTime =>
    obtain ⟨p, hp, hseconds⟩ := h.start
    rw [hp]
    exact congrArg (fun x => some (Json.Value.number (.float x))) hseconds
  | endTime =>
    rcases h.stop with ⟨hstop, habsent | hnull⟩ | ⟨p, t, hp, hstop, hseconds⟩
    · rw [habsent]
      exact congrArg (Option.map _) hstop
    · rw [hnull]
      exact congrArg (Option.map _) hstop
    · rw [hp]
      exact (congrArg (Option.map _) hstop).trans
        (congrArg (fun x => some (Json.Value.number (.float x))) hseconds)
  | inProgress =>
    rw [← h.inProgress]
    show s.inProgress? = s.inProgress?.bind some
    cases s.inProgress? <;> rfl

theorem stop?_eq_none_iff (h : s.Reports fields) :
    s.stop? = none ↔ fields.get? "end_time" = none ∨ fields.get? "end_time" = some .null := by
  rcases h.stop with ⟨hstop, habsent⟩ | ⟨p, t, hp, hstop, -⟩
  · exact iff_of_true hstop habsent
  · refine iff_of_false (by rw [hstop]; exact Option.some_ne_none t) ?_
    change ¬ (field? fields .endTime = none ∨ field? fields .endTime = some .null)
    rw [hp]
    simp

theorem seconds_of_stop? (h : s.Reports fields) {t : Timestamp} (ht : s.stop? = some t) :
    ∃ n : Json.Number, fields.get? "end_time" = some (.number n) ∧ t.seconds = n.toBinary64 := by
  rcases h.stop with ⟨hstop, -⟩ | ⟨p, t', hp, hstop, hseconds⟩
  · rw [hstop] at ht
    cases ht
  · rw [hstop] at ht
    cases ht
    exact ⟨p, hp, hseconds⟩

/-- The further fields are those of the document that have no meaning. -/
theorem get?_extensions_eq_some_iff (h : s.Reports fields) (key : String) (v : Json.Value) :
    s.extensions.get? key = some v ↔ key ∉ namedKeys ∧ fields.get? key = some v := by
  rw [h.extensions, get?_extensionsOf]
  by_cases hkey : key ∈ namedKeys
  · rw [if_pos hkey]
    exact iff_of_false (by simp) fun hboth => hboth.1 hkey
  · rw [if_neg hkey]
    exact (and_iff_right hkey).symm

/-- The object of a segment is that of its document, with every value as it is kept. -/
theorem object_eq (h : s.Reports fields) (hordered : fields.Ordered) :
    s.object = fields.filterMap kept := by
  have hextensions : s.extensions.Ordered := by
    rw [h.extensions]
    exact Dictionary.ordered_foldl_erase _ hordered
  refine Dictionary.ext_of_ordered (ordered_foldl_restore _ _ _ hextensions)
    (Dictionary.ordered_filterMap hordered kept) fun key => ?_
  rw [Dictionary.get?_filterMap hordered]
  unfold object
  by_cases hkey : key ∈ namedKeys
  · obtain ⟨field, rfl⟩ := exists_field_of_mem hkey
    rw [get?_foldl_restore, if_pos field.mem_all, h.extensions, get?_extensionsOf, if_pos hkey,
      Option.or_none, h.held?_eq]
    exact Option.bind_congr fun v _ => (kept_key field v).symm
  · rw [get?_foldl_restore_of_not_mem _ _ _ hkey, h.extensions, get?_extensionsOf, if_neg hkey]
    cases fields.get? key with
    | none => rfl
    | some v => exact (kept_of_not_mem hkey v).symm

end Reports

/-- What the segment of an accepted document holds. The texts are those of the document, the times
its numbers as binary64, and the dates what these denote; there is no end exactly if the document
has none or null. The mark of work in progress is the value of the document, if it has one. The
further fields are all others, each with its value. So the segment holds what the document did. -/
theorem ofDocument_restored {text : String} {s : Segment} (h : ofDocument text = .ok s) :
    ∃ fields, Json.read (Json.utf8 text) = .ok (.object fields) ∧
      fields.get? "id" = some (.string s.id) ∧
      fields.get? "name" = some (.string s.name) ∧
      fields.get? "trace_id" = some (.string s.traceId) ∧
      (∃ n : Json.Number, fields.get? "start_time" = some (.number n) ∧
        s.start.seconds = n.toBinary64) ∧
      (s.stop? = none ↔
        fields.get? "end_time" = none ∨ fields.get? "end_time" = some .null) ∧
      (∀ t, s.stop? = some t → ∃ n : Json.Number, fields.get? "end_time" = some (.number n) ∧
        t.seconds = n.toBinary64) ∧
      s.inProgress? = fields.get? "in_progress" ∧
      (∀ key v, s.extensions.get? key = some v ↔ key ∉ namedKeys ∧ fields.get? key = some v) ∧
      Instant.ofEpochSeconds? s.start.seconds = some s.startDate ∧
      (s.endDate?.isSome ↔ s.stop?.isSome) ∧
      (∀ t, s.stop? = some t → Instant.ofEpochSeconds? t.seconds = s.endDate?) ∧
      s.object = fields.filterMap kept := by
  obtain ⟨fields, hread, hreports⟩ := ofDocument_eq_ok h
  refine ⟨fields, hread, hreports.id, hreports.name, hreports.traceId, hreports.start,
    hreports.stop?_eq_none_iff, fun t ht => hreports.seconds_of_stop? ht, hreports.inProgress,
    hreports.get?_extensions_eq_some_iff, s.start.instant_eq, ?_, ?_,
    hreports.object_eq (Json.ordered_of_read hread)⟩
  · rw [s.isSome_endDate?]
    exact Iff.rfl
  · intro t ht
    unfold endDate?
    rw [ht]
    exact t.instant_eq

/-- The mark of work in progress stands beside an end, and a flag holds null. -/
def markedDocument : String :=
  "\x7b\"id\":\"a\",\"name\":\"api\",\"trace_id\":\"1-0-t\",\"start_time\":10,\"end_time\":50," ++
    "\"in_progress\":null,\"error\":null,\"Id\":[]\x7d"

/-- Both are kept, and the flag is no mark. -/
theorem ofDocument_restored_markedDocument :
    ∃ s, ofDocument markedDocument = .ok s ∧ s.inProgress? = some .null ∧
      s.stop?.isSome = true ∧ s.extensions.get? "error" = some .null ∧
      s.extensions.get? "Id" = some (.array []) ∧ s.extensions.get? "in_progress" = none ∧
      s.object.get? "start_time" = some (.number (.float (.ofInt 10))) := by
  have hread : Json.read (Json.utf8 markedDocument) = .ok (.object (.ofList
      [("id", .string "a"), ("name", .string "api"), ("trace_id", .string "1-0-t"),
        ("start_time", .integer 10), ("end_time", .integer 50), ("in_progress", .null),
        ("error", .null), ("Id", .array [])])) := by
    with_unfolding_all rfl
  have hsound : (ofDocument markedDocument).toOption.isSome = true := by decide +kernel
  obtain ⟨s, hs⟩ : ∃ s, ofDocument markedDocument = .ok s := by
    cases hdocument : ofDocument markedDocument with
    | ok s => exact ⟨s, rfl⟩
    | error r =>
      rw [hdocument] at hsound
      cases hsound
  obtain ⟨fields, hfields, -, -, -, -, hstop, -, hmark, hfurther, -, -, -, hobject⟩ :=
    ofDocument_restored hs
  rw [hread] at hfields
  cases hfields
  refine ⟨s, hs, hmark, ?_, (hfurther _ _).mpr ⟨by decide, rfl⟩,
    (hfurther _ _).mpr ⟨by decide, rfl⟩, ?_, ?_⟩
  · rw [Option.isSome_iff_ne_none, ne_eq, hstop]
    rintro (h | h) <;> cases h
  · rw [Option.eq_none_iff_forall_ne_some]
    intro v hv
    exact ((hfurther _ _).mp hv).1 (by decide)
  · rw [hobject]
    rfl

end TraceCollector.Segment
