import TraceCollector.Binary64
import TraceCollector.Dictionary

/-!
# JSON values

A value holds a number as the integer that was written, or as a binary64 number where it was
written with a fraction or an exponent or is too large.
-/

namespace TraceCollector.Json

inductive Number where
  | integer (value : Int)
  | float (value : Binary64)
deriving DecidableEq

inductive Value where
  | null
  | bool (value : Bool)
  | number (value : Number)
  | string (value : String)
  | array (items : List Value)
  | object (members : Dictionary Value)

/-- A number as binary64, an integer rounded to the nearest. -/
def Number.toBinary64 : Number → Binary64
  | .integer n => .ofInt n
  | .float x => x

namespace Value

instance : Inhabited Value := ⟨null⟩

/-- An object from its members; of equal keys the last wins. The order in which the members stand
here is lost. -/
def ofMembers (members : List (String × Value)) : Value := object (.ofList members)

def integer (n : Int) : Value := number (.integer n)

/-- A text, or null without one. -/
def ofText? : Option String → Value
  | some s => string s
  | none => null

def isNull : Value → Bool
  | null => true
  | _ => false

end Value

end TraceCollector.Json
