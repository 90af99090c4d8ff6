import TraceCollector.Json.Write
import TraceCollector.Service.Failure
import TraceCollector.Text.Blank

/-!
# Parameters of requests

The parameters are the members of the object in the body of a request; a body that holds no object
has none. A parameter of the value null counts as absent.
-/

namespace TraceCollector.Service

structure Parameters where
  members : Dictionary Json.Value

namespace Parameters

def ofBody (body : List UInt8) : Parameters :=
  match Json.read body with
  | .ok (.object members) => ⟨members⟩
  | _ => ⟨∅⟩

/-- The value of a parameter, other than null. -/
def get? (p : Parameters) (name : String) : Option Json.Value :=
  (p.members.get? name).filter fun v => !v.isNull

def require (p : Parameters) (name : String) : Except Failure Json.Value :=
  match p.get? name with
  | some v => .ok v
  | none => .error (.missing name)

/-- A parameter as text; a value that is no text has the text of its JSON form. -/
def text? (p : Parameters) (name : String) : Option String :=
  match p.get? name with
  | some (.string s) => some s
  | some v => some v.text
  | none => none

/-- A parameter that is true, as a value or as a text. -/
def flag (p : Parameters) (name : String) : Bool :=
  match p.get? name with
  | some (.string s) => s == "true"
  | some (.bool b) => b
  | _ => false

end Parameters

/-! ## Times -/

/-- The whole seconds that a value stands for: an integer, a number without its fraction, or a
text of decimal digits. -/
def wholeSeconds? : Json.Value → Option Int
  | .number (.integer n) => some n
  | .number (.float x) => if x.isFinite then some (truncate x.toRat) else none
  | .string s => Text.signed? 10 (Text.trim s.toList)
  | _ => none

/-- The instant that a parameter stands for. -/
def timeOf (v : Json.Value) : Except Failure Instant :=
  match (wholeSeconds? v).bind Instant.ofSeconds? with
  | some t => .ok t
  | none => .error .notATime

end TraceCollector.Service
