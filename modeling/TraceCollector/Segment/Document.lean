import TraceCollector.Json.Shape
import TraceCollector.Segment
import TraceCollector.Segment.Rejection

/-!
# Segment documents

A document is the JSON text of an object. The rules are looked at one after the other, and the
first that is broken decides the rejection: whether fields are present comes before what they
hold, and what they hold before whether the times lie in the calendar.
-/

namespace TraceCollector.Segment

/-- A segment from its parts, if its times lie in the calendar. -/
def ofParts (id traceId name : String) (start : Binary64) (stop? : Option Binary64) :
    Except Rejection Segment :=
  match Timestamp.ofSeconds? start with
  | none => .error (.outOfRange .startTime start id)
  | some start =>
    match stop? with
    | none => .ok ⟨id, traceId, name, start, none, none, ∅⟩
    | some stop =>
      match Timestamp.ofSeconds? stop with
      | none => .error (.outOfRange .endTime stop id)
      | some stop => .ok ⟨id, traceId, name, start, some stop, none, ∅⟩

/-! ## Fields -/

/-- What a document holds for a field. -/
def field? (fields : Dictionary Json.Value) (field : Field) : Option Json.Value :=
  fields.get? field.key

/-- The first of some fields that a document lacks. -/
def firstMissing? (fields : Dictionary Json.Value) (required : List Field) : Option Field :=
  required.find? fun field => (field? fields field).isNone

/-- What is wrong with the way a document says how far the work has got. The text "false" is no
mark of work in progress; any other value is one. -/
def endDefect? (fields : Dictionary Json.Value) (id : String) : Option Rejection :=
  match field? fields .endTime, field? fields .inProgress with
  | some _, _ => none
  | none, none => some (.neverEnding id)
  | none, some (.string "false") => some (.missing .endTime (some id))
  | none, some _ => none

/-- A field that holds a text. -/
def textField (fields : Dictionary Json.Value) (id : String) (field : Field) :
    Except Rejection String :=
  match field? fields field with
  | some (.string s) => .ok s
  | some _ => .error (.invalid field (some id))
  | none => .error (.missing field (some id))

/-- A field that holds a number of seconds. -/
def secondsField (fields : Dictionary Json.Value) (id : String) (field : Field) :
    Except Rejection Binary64 :=
  match field? fields field with
  | some (.number n) => .ok n.toBinary64
  | some _ => .error (.invalid field (some id))
  | none => .error (.missing field (some id))

/-- A field that holds a number of seconds, or null, or is absent. -/
def optionalSecondsField (fields : Dictionary Json.Value) (id : String) (field : Field) :
    Except Rejection (Option Binary64) :=
  match field? fields field with
  | none | some .null => .ok none
  | some (.number n) => .ok (some n.toBinary64)
  | some _ => .error (.invalid field (some id))

/-- The fields that have no meaning here. -/
def extensionsOf (fields : Dictionary Json.Value) : Dictionary Json.Value :=
  (Field.all.map (·.key)).foldl .erase fields

/-! ## Documents -/

/-- The segment of a document whose id is known. -/
def ofNamedFields (id : String) (fields : Dictionary Json.Value) : Except Rejection Segment :=
  match firstMissing? fields [.name, .traceId, .startTime] with
  | some field => .error (.missing field (some id))
  | none =>
    match endDefect? fields id with
    | some rejection => .error rejection
    | none => do
      let name ← textField fields id .name
      let traceId ← textField fields id .traceId
      let start ← secondsField fields id .startTime
      let stop? ← optionalSecondsField fields id .endTime
      let segment ← ofParts id traceId name start stop?
      return { segment with
        inProgress? := field? fields .inProgress
        extensions := extensionsOf fields }

/-- The segment of an object. -/
def ofFields (fields : Dictionary Json.Value) : Except Rejection Segment :=
  match field? fields .id with
  | some (.string id) => ofNamedFields id fields
  | some _ => .error (.invalid .id none)
  | none => .error (.missing .id none)

/-- The segment that a document reports. -/
def ofDocument (text : String) : Except Rejection Segment :=
  match Json.read (Json.utf8 text) with
  | .error fault => .error (.unreadable fault)
  | .ok (.object fields) => ofFields fields
  | .ok _ => .error .notObject

end TraceCollector.Segment
