import TraceCollector.Service.Action

/-!
# Routes

A path is taken as it is written. What is behind it answers to some methods and refuses others;
a request for the options of a path is answered before that, whether there is such a path or not.
-/

namespace TraceCollector.Service

inductive Route where
  | segments
  | summaries
  | telemetry
  /-- An action that cannot be performed. -/
  | unavailable
  | health
deriving DecidableEq

namespace Route

/-- The path of a route, without the slash in front. -/
def table : List (String × Route) :=
  [("TraceSegments", segments), ("TraceSummaries", summaries), ("TelemetryRecords", telemetry),
   ("Traces", unavailable), ("ServiceGraph", unavailable), ("TraceGraph", unavailable),
   ("health", health)]

def ofPath? (path : String) : Option Route :=
  (table.find? fun e => "/" ++ e.1 == path).map (·.2)

def methods : Route → List String
  | health => ["GET", "HEAD"]
  | _ => ["POST"]

/-- The header that names the methods. -/
def allowHeader (route : Route) : String × String := ("allow", ",".intercalate route.methods)

end Route

namespace State

/-- Answers a question about the region that a request goes to. -/
def ask (s : State) (r : Request) (question : Question) : Response :=
  match s.region r with
  | .error failure => .ofFailure failure
  | .ok region =>
    match question region (.ofBody r.body) with
    | .error failure => .ofFailure failure
    | .ok v => .json 200 v

/-- Performs an action in the region that a request goes to. -/
def perform (s : State) (r : Request) (action : Action) : Response × State :=
  match s.region r with
  | .error failure => (.ofFailure failure, s)
  | .ok region =>
    match action region (.ofBody r.body) with
    | .error failure => (.ofFailure failure, s)
    | .ok (v, region) => (.json 200 v, s.setRegion (s.regionName r) region)

/-- Follows a route with a method that it answers to. -/
def follow (s : State) (r : Request) (now : Int) : Route → Response × State
  | .segments => s.perform r putSegments
  | .summaries => (s.ask r (getSummaries now), s)
  | .telemetry => s.perform r putTelemetry
  | .unavailable => (.ofFailure (.unavailable (.ofList (r.path.toList.dropWhile (· == '/')))), s)
  | .health =>
    (⟨200, [("content-type", "text/plain; charset=utf-8")], if r.method = "HEAD" then "" else "OK"⟩,
      s)

/-- Answers a request for the options of a path. -/
def preflight (route? : Option Route) : Response :=
  (Response.bare 200).withHeaders <|
    [("access-control-allow-methods", "*"), ("access-control-allow-headers", "*")] ++
      (route?.map Route.allowHeader).toList

/-- Answers a request, apart from the headers of every response. -/
def answer (s : State) (r : Request) (now : Int) : Response × State :=
  let route? := Route.ofPath? r.path
  if r.method = "OPTIONS" then (preflight route?, s)
  else
    match route? with
    | none => (.bare 404, s)
    | some route =>
      if r.method ∈ route.methods then s.follow r now route
      else ((Response.bare 405).withHeaders [route.allowHeader], s)

/-- Answers a request that arrives at the time `now`, in seconds since the epoch. -/
def handle (s : State) (r : Request) (now : Int) : Response × State :=
  let (response, s) := s.answer r now
  (response.withHeaders Response.sharedHeaders, s)

/-- The state after some requests, each with the time of its arrival. -/
def after (s : State) (requests : List (Request × Int)) : State :=
  requests.foldl (fun s r => (s.handle r.1 r.2).2) s

end State

end TraceCollector.Service
