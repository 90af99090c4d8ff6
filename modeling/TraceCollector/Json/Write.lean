import TraceCollector.Binary64.Layout
import TraceCollector.Json.Value
import TraceCollector.Text.Numeral

/-!
# Writing JSON

The compact form: no blanks, members in the order of their keys, and in strings only quotation
marks, backslashes and control characters escaped. The members of a record are in the order of their
keys too, and not in the one in which its fields are declared; no reader tells the two apart.
-/

namespace TraceCollector.Json

/-- The letter that stands for a character behind a backslash. -/
def escapeLetter? : Char → Option Char
  | '"' => some '"'
  | '\\' => some '\\'
  | '\x08' => some 'b'
  | '\x0c' => some 'f'
  | '\n' => some 'n'
  | '\r' => some 'r'
  | '\t' => some 't'
  | _ => none

/-- One character of a string. -/
def charChars (c : Char) : List Char :=
  match escapeLetter? c with
  | some letter => ['\\', letter]
  | none =>
    if c.toNat < 32 then
      ['\\', 'u', '0', '0', Text.digitChar (c.toNat / 16), Text.digitChar (c.toNat % 16)]
    else [c]

def stringChars (s : String) : List Char := '"' :: s.toList.flatMap charChars ++ ['"']

def Number.chars : Number → List Char
  | integer n => Text.integerChars n
  | float x => x.text .compact

mutual

def Value.chars : Value → List Char
  | .null => ['n', 'u', 'l', 'l']
  | .bool true => ['t', 'r', 'u', 'e']
  | .bool false => ['f', 'a', 'l', 's', 'e']
  | .number n => n.chars
  | .string s => stringChars s
  | .array items => '[' :: itemsChars items ++ [']']
  | .object ⟨members⟩ => '\x7b' :: membersChars members ++ ['\x7d']

/-- Values with commas between them. -/
def itemsChars : List Value → List Char
  | [] => []
  | [v] => v.chars
  | v :: rest => v.chars ++ ',' :: itemsChars rest

/-- Keys and values with commas between the pairs. -/
def membersChars : List (String × Value) → List Char
  | [] => []
  | [(key, v)] => stringChars key ++ ':' :: v.chars
  | (key, v) :: rest => stringChars key ++ ':' :: v.chars ++ ',' :: membersChars rest

end

/-- The compact text of a value. -/
def Value.text (v : Value) : String := String.ofList v.chars

end TraceCollector.Json
