import TraceCollector.Binary64.Layout
import TraceCollector.Json.Value
import TraceCollector.Text.Quoted

/-!
# What can be wrong with a JSON text

A `Cause` is either a breach of the grammar or a `Mismatch`: a value that is sound JSON but not of
the form that is wanted. A `Stop` is a cause and the number of bytes after its place; a `Fault` has
the place as line and column. The wording is in `Fault.message` alone.
-/

namespace TraceCollector.Json

/-- A form of values without parts: `signed` integers have 64 bits, a `size` is not negative. -/
inductive ScalarForm where
  | text
  | flag
  | signed
  | size
  | nothing
deriving DecidableEq

/-- A form that a value can be wanted in. -/
inductive Expected where
  | scalar (form : ScalarForm)
  | sequence
  | dictionary
  | record (name : String)

/-- What stands where something else is wanted. -/
inductive Found where
  | null
  | flag (value : Bool)
  | number (value : Number)
  | text (value : String)
  | sequence
  | dictionary

def Found.ofValue : Value → Found
  | .null => null
  | .bool b => flag b
  | .number n => number n
  | .string s => text s
  | .array _ => sequence
  | .object _ => dictionary

/-- Sound JSON that is not of the wanted form. -/
inductive Mismatch where
  | unexpected (found : Found) (expected : Expected)
  | outOfRange (value : Int) (expected : Expected)
  | missingField (name : String)
  | duplicateField (name : String)
  | unknownVariant (name : String) (variants : List String)
  /-- A record written as a list ends before a field that it needs. -/
  | tooShort (length : Nat) (record : String) (fields : Nat)

inductive Cause where
  | endInValue
  | endInList
  | endInObject
  | endInString
  | expectedValue
  | expectedWord
  | expectedColon
  | expectedListEnd
  | expectedObjectEnd
  | keyNotString
  | trailingComma
  | trailingCharacters
  | invalidNumber
  | numberOutOfRange
  | invalidEscape
  | loneSurrogate
  | unfinishedSurrogate
  | controlCharacter
  | invalidUtf8
  | nestedTooDeep
  | mismatch (what : Mismatch)

/-- Reading stops for a cause, with so many bytes of the text after its place. -/
structure Stop where
  cause : Cause
  left : Nat

/-- Lines count from one; a column is the number of bytes since the line's start. -/
structure Position where
  line : Nat
  column : Nat

/-- A cause and its place in the text. -/
structure Fault where
  cause : Cause
  position : Position

/-- The place behind the given bytes. -/
def Position.after (bytes : List UInt8) : Position where
  line := 1 + bytes.count 10
  column := (bytes.reverse.takeWhile (· != 10)).length

/-- The place of a stop in the text that was read. -/
def Stop.inText (text : List UInt8) (stop : Stop) : Fault where
  cause := stop.cause
  position := .after (text.take (text.length - stop.left))

/-! ## Wording -/

def ScalarForm.message : ScalarForm → String
  | text => "a string"
  | flag => "a boolean"
  | signed => "i64"
  | size => "usize"
  | nothing => "unit"

def Expected.message : Expected → String
  | scalar form => form.message
  | sequence => "a sequence"
  | dictionary => "a map"
  | record name => "struct " ++ name

def Found.message : Found → String
  | null => "null"
  | flag true => "boolean `true`"
  | flag false => "boolean `false`"
  | number (.integer n) => "integer `" ++ String.ofList (Text.integerChars n) ++ "`"
  | number (.float x) => "floating point `" ++ String.ofList (x.text .compact) ++ "`"
  | text s => "string " ++ String.ofList (Text.quoted s.toList)
  | sequence => "sequence"
  | dictionary => "map"

/-- Names in backticks: two joined by "or", more listed after "one of". -/
def variantList : List String → String
  | [a] => "`" ++ a ++ "`"
  | [a, b] => "`" ++ a ++ "` or `" ++ b ++ "`"
  | names => "one of " ++ ", ".intercalate (names.map fun n => "`" ++ n ++ "`")

def decimalText (n : Nat) : String := String.ofList (Text.decimalChars n)

def Mismatch.message : Mismatch → String
  | unexpected found expected =>
    "invalid type: " ++ found.message ++ ", expected " ++ expected.message
  | outOfRange n expected =>
    "invalid value: " ++ (Found.number (.integer n)).message ++ ", expected " ++ expected.message
  | missingField name => "missing field `" ++ name ++ "`"
  | duplicateField name => "duplicate field `" ++ name ++ "`"
  | unknownVariant name variants =>
    "unknown variant `" ++ name ++ "`, expected " ++ variantList variants
  | tooShort length record fields =>
    "invalid length " ++ decimalText length ++ ", expected struct " ++ record ++ " with " ++
      decimalText fields ++ " elements"

def Cause.message : Cause → String
  | endInValue => "EOF while parsing a value"
  | endInList => "EOF while parsing a list"
  | endInObject => "EOF while parsing an object"
  | endInString => "EOF while parsing a string"
  | expectedValue => "expected value"
  | expectedWord => "expected ident"
  | expectedColon => "expected `:`"
  | expectedListEnd => "expected `,` or `]`"
  | expectedObjectEnd => "expected `,` or `\x7d`"
  | keyNotString => "key must be a string"
  | trailingComma => "trailing comma"
  | trailingCharacters => "trailing characters"
  | invalidNumber => "invalid number"
  | numberOutOfRange => "number out of range"
  | invalidEscape => "invalid escape"
  | loneSurrogate => "lone leading surrogate in hex escape"
  | unfinishedSurrogate => "unexpected end of hex escape"
  | controlCharacter => "control character (\\u0000-\\u001F) found while parsing a string"
  | invalidUtf8 => "invalid unicode code point"
  | nestedTooDeep => "recursion limit exceeded"
  | mismatch what => what.message

def Fault.message (fault : Fault) : String :=
  fault.cause.message ++ " at line " ++ decimalText fault.position.line ++ " column " ++
    decimalText fault.position.column

end TraceCollector.Json
