import TraceCollector.Service.Message
import TraceCollector.Text.Split

/-!
# The region of a signed request

A signature names a credential, whose parts are separated by slashes; the third is the region.
The credential ends at a comma, at a space or with the header.
-/

namespace TraceCollector.Service

/-- The text of a header; only tabs and printing characters of ASCII are text. -/
def headerText? (value : List UInt8) : Option (List Char) :=
  if value.all fun b => b = 9 || (32 ≤ b && b ≤ 126) then
    some (value.map fun b => Char.ofNat b.toNat)
  else none

/-- The region in the text of a signature. -/
def credentialRegion? (signature : List Char) : Option (List Char) := do
  let rest ← Text.afterFirst? "Credential=".toList signature
  let credential := rest.takeWhile fun c => c != ',' && c != ' '
  let region ← (Text.splitWhere (· == '/') credential)[2]?
  if region = [] then none else some region

/-- The region that a request is signed for. -/
def Request.region? (r : Request) : Option String := do
  let signature ← headerText? (← r.header? "authorization")
  return .ofList (← credentialRegion? signature)

end TraceCollector.Service
