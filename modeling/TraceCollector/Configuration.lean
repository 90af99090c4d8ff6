import TraceCollector.Completion

/-!
# Configurations

What the service is told at its start. Every field has a default.
-/

namespace TraceCollector

structure Configuration where
  bindAddress : String
  defaultRegion : String
  regions : List String
  completion : CompletionRule
deriving DecidableEq

namespace Configuration

def standard : Configuration where
  bindAddress := "0.0.0.0:8000"
  defaultRegion := "us-east-1"
  regions :=
    ["us-east-1", "us-east-2", "us-west-1", "us-west-2", "ca-central-1", "sa-east-1",
     "eu-west-1", "eu-west-2", "eu-west-3", "eu-central-1", "eu-north-1", "ap-south-1",
     "ap-northeast-1", "ap-northeast-2", "ap-southeast-1", "ap-southeast-2"]
  completion := .lastSegment

/-- Why there is no valid configuration. -/
inductive Defect where
  | fileNotFound
  | fileNotText
  | unparsable (fault : Json.Fault)
  | unknownCompletion (name : String)
  | noRegions
  | defaultRegionUnlisted (region : String)

namespace Defect

def message : Defect → String
  | fileNotFound => "Failed to read config file: No such file or directory (os error 2)"
  | fileNotText => "Failed to read config file: stream did not contain valid UTF-8"
  | unparsable fault => "Failed to parse config: " ++ fault.message
  | unknownCompletion name => "Invalid config: unknown completion rule: " ++ name
  | noRegions => "Invalid config: no regions configured"
  | defaultRegionUnlisted region =>
    "Invalid config: default region " ++ region ++ " is not in the region list"

end Defect

/-- There are regions, and the default region is one of them. -/
def validate (c : Configuration) : Except Defect Unit :=
  if c.regions = [] then .error .noRegions
  else if c.defaultRegion ∈ c.regions then .ok ()
  else .error (.defaultRegionUnlisted c.defaultRegion)

/-! ## JSON form -/

def codec : Json.Codec Configuration where
  shape := .record "ServiceConfig"
    [⟨"bind_addr", .scalar .text, false⟩, ⟨"default_region", .scalar .text, false⟩,
     ⟨"regions", Json.Codec.texts.shape, false⟩,
     ⟨"completion", CompletionRule.codec.shape, false⟩]
  decode v := do
    let fields ← v.asRecord "ServiceConfig"
    return {
      bindAddress :=
        ← Json.fieldOr standard.bindAddress fields "bind_addr" Json.Value.asText
      defaultRegion :=
        ← Json.fieldOr standard.defaultRegion fields "default_region" Json.Value.asText
      regions := ← Json.fieldOr standard.regions fields "regions" Json.Codec.texts.decode
      completion :=
        ← Json.fieldOr standard.completion fields "completion" CompletionRule.codec.decode }
  encode c := .ofMembers
    [("bind_addr", .string c.bindAddress), ("default_region", .string c.defaultRegion),
     ("regions", Json.Codec.texts.encode c.regions),
     ("completion", CompletionRule.codec.encode c.completion)]

/-- The configuration that a text holds. -/
def ofText (text : List UInt8) : Except Defect Configuration :=
  match codec.read text with
  | .ok c => .ok c
  | .error fault => .error (.unparsable fault)

end Configuration

end TraceCollector
