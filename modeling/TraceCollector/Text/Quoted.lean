import TraceCollector.Text.Extending
import TraceCollector.Text.Numeral
import TraceCollector.Text.Unprintable

/-!
# Quoted text

A text between quotation marks, in which every character can be told apart: marks and backslashes
stand behind a backslash, and a character that does not show by itself is written as its code.
-/

namespace TraceCollector.Text

/-- The letter that stands for a character behind a backslash. -/
def quotedLetter? : Char → Option Char
  | '"' => some '"'
  | '\\' => some '\\'
  | '\n' => some 'n'
  | '\r' => some 'r'
  | '\t' => some 't'
  | '\x00' => some '0'
  | _ => none

/-- One character inside quotation marks. -/
def quotedChar (c : Char) : List Char :=
  match quotedLetter? c with
  | some letter => ['\\', letter]
  | none =>
    if isExtending c || isUnprintable c then
      '\\' :: 'u' :: '\x7b' :: hexChars c.toNat ++ ['\x7d']
    else [c]

/-- A text between quotation marks. -/
def quoted (cs : List Char) : List Char := '"' :: cs.flatMap quotedChar ++ ['"']

end TraceCollector.Text
