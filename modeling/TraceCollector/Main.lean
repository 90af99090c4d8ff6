import Std.Internal.UV.TCP
import Std.Time.DateTime.Timestamp
import TraceCollector.Configuration.Environment
import TraceCollector.Service.Route
import TraceCollector.Service.Transfer

/-!
# The service on a socket

Loads the configuration, listens on its address and answers one request per connection.
-/

namespace TraceCollector.Main

open Std.Internal.UV.TCP (Socket)

/-- Waits for the outcome of an operation on a socket. -/
def await {α : Type} (promise : IO.Promise (Except IO.Error α)) : IO α := do
  match promise.result?.get with
  | some (.ok a) => return a
  | some (.error e) => throw e
  | none => throw (IO.userError "the operation was abandoned")

/-- The variables that configurations depend on. -/
def loadEnvironment : IO Configuration.Environment := do
  let names :=
    [Configuration.fileVariable, Configuration.bindAddressVariable,
     Configuration.defaultRegionVariable, Configuration.regionsVariable,
     Configuration.completionVariable]
  let values ← names.mapM fun name => do return (name, ← IO.getEnv name)
  return fun name => (values.lookup name).bind id

def loadFile (path : String) : IO (Option (List UInt8)) := do
  try return some (← IO.FS.readBinFile path).toList
  catch _ => return none

def loadConfiguration : IO (Except Configuration.Defect Configuration) := do
  let env ← loadEnvironment
  let content? ←
    match env Configuration.fileVariable with
    | some path => loadFile path
    | none => pure none
  return Configuration.ofEnvironment env fun _ => content?

/-- The address of a host in numbers and the number of a service on it. -/
def addressOf? (address : String) : Option Std.Net.SocketAddress := do
  match Text.splitWhere (· == ':') address.toList with
  | [host, service] =>
    let number ← Text.digits? 10 service
    if number < 65536 then
      return .v4 ⟨← Std.Net.IPv4Addr.ofString (.ofList host), number.toUInt16⟩
    else none
  | _ => none

/-- Receives until a request is whole; none when the peer stops before. -/
partial def receive (socket : Socket) (bytes : List UInt8) : IO (Option Service.Request) := do
  match Service.Arrival.ofBytes bytes with
  | .whole r => return some r
  | .malformed => return none
  | .partly =>
    match ← await (← socket.recv? 65536) with
    | some more => receive socket (bytes ++ more.toList)
    | none => return none

/-- Answers the request of one connection. -/
def converse (socket : Socket) (s : Service.State) : IO Service.State := do
  let send (r : Service.Response) : IO Unit := do
    await (← socket.send #[r.transferText.toUTF8])
    await (← socket.shutdown)
  match ← receive socket [] with
  | none =>
    send (.bare 400)
    return s
  | some r =>
    let now ← Std.Time.Timestamp.now
    let (response, s) := s.handle r now.toSecondsSinceUnixEpoch.val
    send response
    return s

/-- Answers connections one after another; one that fails leaves the state as it was. -/
partial def serve (socket : Socket) (s : Service.State) : IO Unit := do
  let connection ← await (← socket.accept)
  let s ← try converse connection s catch _ => pure s
  serve socket s

/-- Reports why the service does not start. -/
def giveUp (reason : String) : IO UInt32 := do
  IO.eprintln ("Error: " ++ reason)
  return 1

def run : IO UInt32 := do
  match ← loadConfiguration with
  | .error defect => giveUp defect.message
  | .ok c =>
    match addressOf? c.bindAddress with
    | none => giveUp ("invalid socket address: " ++ c.bindAddress)
    | some address =>
      let socket ← Socket.new
      socket.bind address
      socket.listen 1024
      serve socket (.ofConfiguration c)
      return 0

end TraceCollector.Main

def main : IO UInt32 := TraceCollector.Main.run
