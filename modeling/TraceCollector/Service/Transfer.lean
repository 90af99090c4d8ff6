import TraceCollector.Service.Message
import TraceCollector.Text.Numeral
import TraceCollector.Text.Split

/-!
# Messages on a connection

A request is a head, an empty line and a body. The head has one line for the method and the target
and one for each header; a header tells how long the body is. A response is written alike.
-/

namespace TraceCollector.Service

/-- What has arrived of a request. -/
inductive Arrival where
  | partly
  | malformed
  | whole (r : Request)

/-! ## Requests -/

/-- The head in front of the first empty line, and what follows that line. -/
def splitHead? : List UInt8 → Option (List UInt8 × List UInt8)
  | [] => none
  | 13 :: 10 :: 13 :: 10 :: rest => some ([], rest)
  | b :: rest => (splitHead? rest).map fun parts => (b :: parts.1, parts.2)

/-- Characters without spaces and tabs at their two ends. -/
def trimSpaces (cs : List Char) : List Char :=
  let isSpace (c : Char) : Bool := c == ' ' || c == '\t'
  ((cs.dropWhile isSpace).reverse.dropWhile isSpace).reverse

/-- The lines of a head; their bytes are taken as characters one by one. -/
def headLines (head : List UInt8) : List (List Char) :=
  (Text.splitWhere (· == '\n') (head.map fun b => Char.ofNat b.toNat)).map fun line =>
    line.filter (· != '\r')

/-- The name and the value of a header line. -/
def headerOf? (line : List Char) : Option (String × List UInt8) :=
  match line.dropWhile (· != ':') with
  | [] => none
  | _ :: value =>
    some (.ofList (line.takeWhile (· != ':')),
      (trimSpaces value).map fun c => UInt8.ofNat c.toNat)

/-- The request of a head, without its body. -/
def requestOfHead? (head : List UInt8) : Option Request := do
  match headLines head with
  | [] => none
  | first :: rest =>
    match Text.splitWhere (· == ' ') first with
    | [method, target, _] =>
      return ⟨.ofList method, .ofList target, ← rest.mapM headerOf?, []⟩
    | _ => none

/-- The length of the body, if the headers tell a sound one. -/
def bodyLength? (r : Request) : Option Nat :=
  match r.header? "content-length" with
  | none => some 0
  | some digits => Text.digits? 10 (digits.map fun b => Char.ofNat b.toNat)

/-- What the bytes that have arrived make of a request. -/
def Arrival.ofBytes (bytes : List UInt8) : Arrival :=
  match splitHead? bytes with
  | none => partly
  | some (head, body) =>
    match requestOfHead? head with
    | none => malformed
    | some r =>
      match bodyLength? r with
      | none => malformed
      | some n => if body.length < n then partly else whole { r with body := body.take n }

/-! ## Responses -/

/-- The words that go with a status. -/
def reasonPhrase : Nat → String
  | 200 => "OK"
  | 400 => "Bad Request"
  | 404 => "Not Found"
  | 405 => "Method Not Allowed"
  | 501 => "Not Implemented"
  | _ => "Internal Server Error"

/-- The text of a response, after which the connection is closed. -/
def Response.transferText (r : Response) : String :=
  let decimal (n : Nat) : String := .ofList (Text.decimalChars n)
  let headers := r.headers ++
    [("content-length", decimal r.body.utf8ByteSize), ("connection", "close")]
  "HTTP/1.1 " ++ decimal r.status ++ " " ++ reasonPhrase r.status ++ "\r\n" ++
    .join (headers.map fun h => h.1 ++ ": " ++ h.2 ++ "\r\n") ++ "\r\n" ++ r.body

end TraceCollector.Service
