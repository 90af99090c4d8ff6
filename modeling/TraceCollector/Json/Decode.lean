import TraceCollector.Json.Fault

/-!
# Taking values apart

Each function takes what a form asks for out of a value, or says what is wrong with the value.
-/

namespace TraceCollector.Json

/-- The complaint that a value is not of a form. -/
def Value.unexpected (v : Value) (expected : Expected) : Mismatch :=
  .unexpected (.ofValue v) expected

namespace Value

def asText : Value → Except Mismatch String
  | string s => .ok s
  | v => .error (v.unexpected (.scalar .text))

/-- A text; null stands for its absence. -/
def asOptionalText : Value → Except Mismatch (Option String)
  | null => .ok none
  | v => v.asText.map some

def asFlag : Value → Except Mismatch Bool
  | bool b => .ok b
  | v => .error (v.unexpected (.scalar .flag))

/-- An integer from `low` to `high`. -/
def asIntegerWithin (form : ScalarForm) (low high : Int) : Value → Except Mismatch Int
  | number (.integer n) =>
    if low ≤ n ∧ n ≤ high then .ok n else .error (.outOfRange n (.scalar form))
  | v => .error (v.unexpected (.scalar form))

/-- An integer of 64 bits with sign. -/
def asSigned : Value → Except Mismatch Int :=
  asIntegerWithin .signed (-9223372036854775808) 9223372036854775807

/-- An integer of 64 bits without sign. -/
def asSize : Value → Except Mismatch Int := asIntegerWithin .size 0 18446744073709551615

def asNothing : Value → Except Mismatch Unit
  | null => .ok ()
  | v => .error (v.unexpected (.scalar .nothing))

def asList : Value → Except Mismatch (List Value)
  | array items => .ok items
  | v => .error (v.unexpected .sequence)

def asDictionary : Value → Except Mismatch (Dictionary Value)
  | object members => .ok members
  | v => .error (v.unexpected .dictionary)

/-- The fields of a record. -/
def asRecord (name : String) : Value → Except Mismatch (Dictionary Value)
  | object members => .ok members
  | v => .error (v.unexpected (.record name))

end Value

/-- Says whether a value is of a form. -/
def ScalarForm.admit : ScalarForm → Value → Except Mismatch Unit
  | text, v => v.asText.map fun _ => ()
  | flag, v => v.asFlag.map fun _ => ()
  | signed, v => v.asSigned.map fun _ => ()
  | size, v => v.asSize.map fun _ => ()
  | nothing, v => v.asNothing

/-- A field that a record must have. -/
def requiredField {α : Type} (fields : Dictionary Value) (name : String)
    (decode : Value → Except Mismatch α) : Except Mismatch α :=
  match fields.get? name with
  | some v => decode v
  | none => .error (.missingField name)

/-- A field for which a default stands in. -/
def fieldOr {α : Type} (fallback : α) (fields : Dictionary Value) (name : String)
    (decode : Value → Except Mismatch α) : Except Mismatch α :=
  match fields.get? name with
  | some v => decode v
  | none => .ok fallback

end TraceCollector.Json
