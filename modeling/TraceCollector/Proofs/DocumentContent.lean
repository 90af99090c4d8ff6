import TraceCollector.Proofs.DocumentRules

/-!
# The content of segment documents

What the segment of an accepted document holds: each part of it is what the document has in the
field of that part (`Segment.Reports`), since every step of the reading hands on what it has read.
-/

namespace TraceCollector.Segment

/-- The segment holds what the fields of a document say. -/
structure Reports (fields : Dictionary Json.Value) (s : Segment) : Prop where
  id : field? fields .id = some (.string s.id)
  name : field? fields .name = some (.string s.name)
  traceId : field? fields .traceId = some (.string s.traceId)
  start : ∃ p, field? fields .startTime = some (.number p) ∧ s.start.seconds = p.toBinary64
  stop : (s.stop? = none ∧
      (field? fields .endTime = none ∨ field? fields .endTime = some .null)) ∨
    ∃ p t, field? fields .endTime = some (.number p) ∧ s.stop? = some t ∧
      t.seconds = p.toBinary64
  inProgress : s.inProgress? = field? fields .inProgress
  extensions : s.extensions = extensionsOf fields

section Steps

variable {fields : Dictionary Json.Value} {id : String} {field : Field}

theorem bind_eq_ok {α β : Type} {x : Except Rejection α} {f : α → Except Rejection β} {b : β}
    (h : x >>= f = .ok b) : ∃ a, x = .ok a ∧ f a = .ok b := by
  cases x with
  | error r => cases h
  | ok a => exact ⟨a, rfl, h⟩

theorem textField_eq_ok {text : String} (h : textField fields id field = .ok text) :
    field? fields field = some (.string text) := by
  unfold textField at h
  split at h <;> simp_all

theorem secondsField_eq_ok {secs : Binary64} (h : secondsField fields id field = .ok secs) :
    ∃ p, field? fields field = some (.number p) ∧ secs = p.toBinary64 := by
  unfold secondsField at h
  split at h <;> simp_all

theorem optionalSecondsField_eq_ok {secs? : Option Binary64}
    (h : optionalSecondsField fields id field = .ok secs?) :
    (secs? = none ∧ (field? fields field = none ∨ field? fields field = some .null)) ∨
      ∃ p, field? fields field = some (.number p) ∧ secs? = some p.toBinary64 := by
  unfold optionalSecondsField at h
  split at h <;> simp_all

theorem ofParts_eq_ok {traceId name : String} {start : Binary64} {stop? : Option Binary64}
    {s : Segment} (h : ofParts id traceId name start stop? = .ok s) :
    s.id = id ∧ s.traceId = traceId ∧ s.name = name ∧ s.start.seconds = start ∧
      s.stop?.map (·.seconds) = stop? := by
  unfold ofParts at h
  split at h
  · cases h
  · next t ht =>
    have hstart := Timestamp.seconds_of_ofSeconds? ht
    split at h
    · cases h
      exact ⟨rfl, rfl, rfl, hstart, rfl⟩
    · split at h
      · cases h
      · next u hu =>
        cases h
        exact ⟨rfl, rfl, rfl, hstart, congrArg some (Timestamp.seconds_of_ofSeconds? hu)⟩

end Steps

theorem ofNamedFields_eq_ok {fields : Dictionary Json.Value} {id : String} {s : Segment}
    (hid : field? fields .id = some (.string id)) (h : ofNamedFields id fields = .ok s) :
    s.Reports fields := by
  unfold ofNamedFields at h
  split at h
  · cases h
  split at h
  · cases h
  obtain ⟨name, hname, h⟩ := bind_eq_ok h
  obtain ⟨traceId, htraceId, h⟩ := bind_eq_ok h
  obtain ⟨start, hstart, h⟩ := bind_eq_ok h
  obtain ⟨stop?, hstop, h⟩ := bind_eq_ok h
  obtain ⟨parts, hparts, h⟩ := bind_eq_ok h
  cases h
  obtain ⟨rfl, rfl, rfl, rfl, hstops⟩ := ofParts_eq_ok hparts
  refine ⟨hid, textField_eq_ok hname, textField_eq_ok htraceId, secondsField_eq_ok hstart, ?_,
    rfl, rfl⟩
  rcases optionalSecondsField_eq_ok hstop with ⟨rfl, hnone⟩ | ⟨p, hp, rfl⟩
  · exact Or.inl ⟨Option.map_eq_none_iff.mp hstops, hnone⟩
  · obtain ⟨t, ht, hseconds⟩ := Option.map_eq_some_iff.mp hstops
    exact Or.inr ⟨p, t, hp, ht, hseconds⟩

theorem ofFields_eq_ok {fields : Dictionary Json.Value} {s : Segment}
    (h : ofFields fields = .ok s) : s.Reports fields := by
  unfold ofFields at h
  split at h
  · next id hid => exact ofNamedFields_eq_ok hid h
  · cases h
  · cases h

/-- An accepted document is an object, and its segment holds what the fields say. -/
theorem ofDocument_eq_ok {text : String} {s : Segment} (h : ofDocument text = .ok s) :
    ∃ fields, Json.read (Json.utf8 text) = .ok (.object fields) ∧ s.Reports fields := by
  unfold ofDocument at h
  split at h
  · cases h
  · next fields hread => exact ⟨fields, hread, ofFields_eq_ok h⟩
  · cases h

end TraceCollector.Segment
