import TraceCollector.Instant
import TraceCollector.Text.Numeral
import TraceCollector.Text.Quoted

/-!
# Trace ids

A trace id begins with a version in decimal digits, a dash, and the time of the first request in
hexadecimal seconds; after a second dash anything may follow. Each part is decoded on its own, so
one can be sound while the other is not.
-/

namespace TraceCollector.TraceId

/-- Why a part of a trace id cannot be decoded. -/
inductive Defect where
  | badVersion
  | missingEpoch
  | badEpoch
deriving DecidableEq

/-- The part before the first dash, or all of an id without one. -/
def versionPart (cs : List Char) : List Char := cs.takeWhile (· != '-')

/-- The part between the first dash and the next, or the end. -/
def epochPart? (cs : List Char) : Option (List Char) :=
  match cs.dropWhile (· != '-') with
  | [] => none
  | _ :: rest => some (rest.takeWhile (· != '-'))

/-- The greatest version, of 32 bits. -/
abbrev versionLimit : Nat := 4294967295

/-- The version that an id names. -/
def version (id : String) : Except Defect Nat :=
  match Text.unsigned? 10 (versionPart id.toList) with
  | some n => if n ≤ versionLimit then .ok n else .error .badVersion
  | none => .error .badVersion

/-- The time of the first request. -/
def requestStart (id : String) : Except Defect Instant :=
  match epochPart? id.toList with
  | none => .error .missingEpoch
  | some part =>
    match (Text.unsigned? 16 part).bind fun n => Instant.ofSeconds? n with
    | some t => .ok t
    | none => .error .badEpoch

/-- What is said of an id that has a defect. -/
def Defect.message (id : String) (defect : Defect) : String :=
  let complaint :=
    match defect with
    | badVersion => " has a non-numeric version"
    | missingEpoch => " has no epoch component"
    | badEpoch => " has a non-hex epoch"
  "trace id " ++ String.ofList (Text.quoted id.toList) ++ complaint

end TraceCollector.TraceId
