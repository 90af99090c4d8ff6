import TraceCollector.Configuration
import TraceCollector.Text.Blank
import TraceCollector.Text.Split

/-!
# Configurations from the environment

A variable may name a file with a configuration, and further variables take the place of single
fields. The file is read first, then the variables, and only the outcome is validated.
-/

namespace TraceCollector.Configuration

/-- The values of the variables that are set. -/
abbrev Environment := String → Option String

abbrev fileVariable : String := "TRACEFOLD_CONFIG"
abbrev bindAddressVariable : String := "TRACEFOLD_BIND_ADDR"
abbrev defaultRegionVariable : String := "TRACEFOLD_DEFAULT_REGION"
abbrev regionsVariable : String := "TRACEFOLD_REGIONS"
abbrev completionVariable : String := "TRACEFOLD_COMPLETION"

/-- The names in a list with commas between them; blank items are passed over. -/
def regionList (list : String) : List String :=
  let items := (Text.splitWhere (· == ',') list.toList).map Text.trim
  (items.filter (· != [])).map String.ofList

/-- The completion rule of a name with blanks around it. -/
def completionNamed? (name : String) : Option CompletionRule :=
  CompletionRule.ofName? (String.ofList (Text.trim name.toList))

/-- The configuration with the variables in place of the fields that they name. -/
def withOverrides (env : Environment) (c : Configuration) : Except Defect Configuration :=
  let c := { c with
    bindAddress := (env bindAddressVariable).getD c.bindAddress
    defaultRegion := (env defaultRegionVariable).getD c.defaultRegion
    regions := ((env regionsVariable).map regionList).getD c.regions }
  match env completionVariable with
  | none => .ok c
  | some name =>
    match completionNamed? name with
    | some rule => .ok { c with completion := rule }
    | none => .error (.unknownCompletion name)

/-- The configuration in a file; without content there is no file. -/
def ofFile (content? : Option (List UInt8)) : Except Defect Configuration :=
  match content? with
  | none => .error .fileNotFound
  | some content =>
    if ByteArray.validateUTF8 ⟨content.toArray⟩ then ofText content else .error .fileNotText

/-- The configuration of an environment, with the content of the file that it names. -/
def ofEnvironment (env : Environment) (files : String → Option (List UInt8)) :
    Except Defect Configuration := do
  let base ←
    match env fileVariable with
    | some path => ofFile (files path)
    | none => pure standard
  let c ← base.withOverrides env
  c.validate
  return c

end TraceCollector.Configuration
