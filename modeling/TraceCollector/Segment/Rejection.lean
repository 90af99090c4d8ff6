import TraceCollector.Binary64.Layout
import TraceCollector.Json.Fault

/-!
# Rejections

Why a reported segment is turned down. A rejection names the segment as soon as its id has been
read.
-/

namespace TraceCollector.Segment

/-- The fields of a segment document that have a meaning. -/
inductive Field where
  | id
  | name
  | traceId
  | startTime
  | endTime
  | inProgress
deriving DecidableEq

namespace Field

/-- The key that a field has in a document. -/
def key : Field → String
  | id => "id"
  | name => "name"
  | traceId => "trace_id"
  | startTime => "start_time"
  | endTime => "end_time"
  | inProgress => "in_progress"

def all : List Field := [id, name, traceId, startTime, endTime, inProgress]

end Field

inductive Rejection where
  | unreadable (fault : Json.Fault)
  | notObject
  /-- An entry of a batch that is no text at all. -/
  | notText
  | missing (field : Field) (id? : Option String)
  /-- Neither an end nor a mark of work in progress. -/
  | neverEnding (id : String)
  /-- A value that is not of the field's type. -/
  | invalid (field : Field) (id? : Option String)
  /-- A time outside the calendar. -/
  | outOfRange (field : Field) (value : Binary64) (id : String)

/-- What a rejection comes down to. -/
inductive Rejection.Code where
  | missingParam
  | jsonFormatError
  | internalFailure
deriving DecidableEq

namespace Rejection

def code : Rejection → Code
  | unreadable _ | notObject | notText | invalid _ _ => .jsonFormatError
  | missing _ _ | neverEnding _ => .missingParam
  | outOfRange _ _ _ => .internalFailure

/-- The segment's id, if it was read. -/
def id? : Rejection → Option String
  | unreadable _ | notObject | notText => none
  | missing _ id? | invalid _ id? => id?
  | neverEnding id | outOfRange _ _ id => some id

def message : Rejection → String
  | unreadable fault => "Bad JSON data: " ++ fault.message
  | notObject => "Bad JSON data: segment document must be a JSON object"
  | notText => "Bad JSON data: segment document must be a string"
  | missing field _ => "Missing " ++ field.key
  | neverEnding _ => "Missing end_time or in_progress"
  | invalid field _ => "Invalid value for " ++ field.key
  | outOfRange field value _ =>
    field.key ++ " is out of range: " ++ String.ofList (value.text .plain)

namespace Code

def name : Code → String
  | missingParam => "MissingParam"
  | jsonFormatError => "JSONFormatError"
  | internalFailure => "InternalFailure"

def all : List Code := [missingParam, jsonFormatError, internalFailure]

def ofName? (name : String) : Option Code := all.find? (·.name == name)

end Code

end Rejection

end TraceCollector.Segment
