import TraceCollector.Json.Codec
import TraceCollector.Segment.Rejection

/-!
# Rejection records

What the sender of a document is told when it is turned down.
-/

namespace TraceCollector

open Segment (Rejection)

structure RejectionRecord where
  /-- Left out when the id of the segment could not be read. -/
  id? : Option String
  code : Rejection.Code
  message : String
deriving DecidableEq

/-- The JSON form of rejection codes. -/
def Segment.Rejection.Code.codec : Json.Codec Rejection.Code := .choice all name

namespace RejectionRecord

def ofRejection (r : Rejection) : RejectionRecord := ⟨r.id?, r.code, r.message⟩

def codec : Json.Codec RejectionRecord where
  shape := .record "RejectionRecord"
    [⟨"Id", .optional .text, false⟩,
     ⟨"ErrorCode", Rejection.Code.codec.shape, true⟩,
     ⟨"Message", .scalar .text, true⟩]
  decode v := do
    let fields ← v.asRecord "RejectionRecord"
    let id? ← Json.fieldOr none fields "Id" Json.Value.asOptionalText
    let code ← Json.requiredField fields "ErrorCode" Rejection.Code.codec.decode
    let message ← Json.requiredField fields "Message" Json.Value.asText
    return ⟨id?, code, message⟩
  encode r :=
    let id : List (String × Json.Value) :=
      match r.id? with
      | some id => [("Id", .string id)]
      | none => []
    .ofMembers <| id ++
      [("ErrorCode", Rejection.Code.codec.encode r.code), ("Message", .string r.message)]

end RejectionRecord

end TraceCollector
