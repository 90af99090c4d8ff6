import TraceCollector.Json.Shape
import TraceCollector.Json.Write

/-!
# Kinds of data with a JSON form

A `Codec` holds what there is to know about the JSON form of a kind of data: the shape of the
texts, and the conversions from and to values. The fields of a record are declared in the shape, in
the order in which a list may give them. An encoded record does not have this order: as in all
objects, the members are in the order of their keys.
-/

namespace TraceCollector.Json

structure Codec (α : Type) where
  shape : Shape
  decode : Value → Except Mismatch α
  encode : α → Value

namespace Codec

variable {α : Type}

/-- Reads a text. What the shape admits can be decoded; a complaint would be placed at the end. -/
def read (codec : Codec α) (text : List UInt8) : Except Fault α :=
  match codec.shape.read text with
  | .error fault => .error fault
  | .ok v =>
    match codec.decode v with
    | .ok a => .ok a
    | .error what => .error ⟨.mismatch what, .after text⟩

/-- The compact text of a value's form. -/
def write (codec : Codec α) (a : α) : String := (codec.encode a).text

/-- One of several names. -/
def choice (variants : List α) (name : α → String) : Codec α where
  shape := .choice (variants.map name)
  decode v := do
    let s ← v.asText
    match variants.find? (name · == s) with
    | some a => return a
    | none => throw (.unknownVariant s (variants.map name))
  encode a := .string (name a)

/-- A list of texts. -/
def texts : Codec (List String) where
  shape := .list (.scalar .text)
  decode v := do (← v.asList).mapM Value.asText
  encode items := .array (items.map .string)

/-- A list of items that have a form each. -/
def list (item : Codec α) : Codec (List α) where
  shape := .list item.shape
  decode v := do (← v.asList).mapM item.decode
  encode items := .array (items.map item.encode)

end Codec

end TraceCollector.Json
