import TraceCollector.Json.Write
import TraceCollector.Service.Failure

/-!
# Requests and responses

The parts of messages that the service looks at or sets. Every response allows all origins.
-/

namespace TraceCollector.Service

/-- A request as it is handed over. The body is whole, however long it is: where bodies over some
length are refused, such a request does not get here. -/
structure Request where
  method : String
  target : String
  headers : List (String × List UInt8)
  body : List UInt8

structure Response where
  status : Nat
  headers : List (String × String)
  body : String
deriving DecidableEq

namespace Request

/-- The first header of a name, in capital or small letters. -/
def header? (r : Request) (name : String) : Option (List UInt8) :=
  (r.headers.find? fun h => h.1.toLower == name).map (·.2)

/-- A target without the scheme and the authority that may stand in front of its path. -/
def localTarget (target : List Char) : List Char :=
  if target.head? = some '/' then target
  else
    match target.dropWhile (· != ':') with
    | ':' :: '/' :: '/' :: rest =>
      match rest.dropWhile fun c => c != '/' && c != '?' && c != '#' with
      | '/' :: path => '/' :: path
      | query => '/' :: query
    | _ => target

/-- The path of the target, up to its query. -/
def path (r : Request) : String :=
  .ofList ((localTarget r.target.toList).takeWhile fun c => c != '?' && c != '#')

end Request

namespace Response

/-- Headers of every response. -/
def sharedHeaders : List (String × String) :=
  [("vary", "origin, access-control-request-method, access-control-request-headers"),
   ("access-control-allow-origin", "*")]

/-- A response without a text. -/
def bare (status : Nat) : Response := ⟨status, [], ""⟩

def json (status : Nat) (v : Json.Value) : Response :=
  ⟨status, [("content-type", "application/json")], v.text⟩

/-- The response that reports a failure. -/
def ofFailure (f : Failure) : Response :=
  json f.status (.ofMembers [("__type", .string f.code), ("message", .string f.message)])

/-- The response with further headers. -/
def withHeaders (r : Response) (headers : List (String × String)) : Response :=
  { r with headers := r.headers ++ headers }

end Response

end TraceCollector.Service
