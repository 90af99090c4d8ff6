import TraceCollector.Binary64.Shortest
import TraceCollector.Text.Numeral

/-!
# Numbers as text

`Layout` holds what a text form decides about the digits that identify a number: which of two
equally near digit strings is taken, which exponents are written positionally and whether an
integral number keeps a point. `Binary64.text` writes a number by a layout.
-/

namespace TraceCollector

/-- The decisions of a text form for numbers. -/
structure Layout where
  /-- Which of two equally near digit strings is written. -/
  tie : Tie
  /-- Decimal exponents from the first to below the second are written positionally; without
  bounds all are. -/
  positional : Option (Int × Int)
  /-- An integral number written positionally ends in `.0`. -/
  keepsPoint : Bool

namespace Layout

/-- Every exponent is written positionally, and an integral number has no point. -/
def plain : Layout := ⟨.up, none, false⟩

/-- From `0.00001` to below ten to the sixteenth the point is placed among the digits; beyond, a
signed exponent follows them. -/
def compact : Layout := ⟨.even, some (-5, 16), true⟩

/-- The digits with the point after the first `intDigits` of them. -/
def pointed (layout : Layout) (digits : List Char) (intDigits : Int) : List Char :=
  if intDigits ≤ 0 then
    '0' :: '.' :: (List.replicate (-intDigits).toNat '0' ++ digits)
  else if digits.length ≤ intDigits.toNat then
    digits ++ List.replicate (intDigits.toNat - digits.length) '0' ++
      (if layout.keepsPoint then ['.', '0'] else [])
  else
    digits.take intDigits.toNat ++ '.' :: digits.drop intDigits.toNat

/-- One digit, the others after the point, and the exponent with its sign. -/
def scientific (digits : List Char) (exponent : Int) : List Char :=
  digits.take 1 ++ (if digits.length ≤ 1 then [] else '.' :: digits.drop 1) ++
    'e' :: (if exponent < 0 then '-' else '+') :: Text.decimalChars exponent.natAbs

/-- A decimal as text. -/
def decimal (layout : Layout) (d : Decimal) : List Char :=
  let digits := Text.decimalChars d.digits
  let intDigits : Int := digits.length + d.exponent
  match layout.positional with
  | none => layout.pointed digits intDigits
  | some (low, high) =>
    if low ≤ intDigits - 1 ∧ intDigits - 1 < high then layout.pointed digits intDigits
    else scientific digits (intDigits - 1)

end Layout

/-- A number as text. -/
def Binary64.text (layout : Layout) (x : Binary64) : List Char :=
  let sign := if x.negative then ['-'] else []
  if x.isFinite then
    let d : Decimal := if x.rank.val = 0 then ⟨0, 0⟩ else shortest layout.tie x.rank.val
    sign ++ layout.decimal d
  else if x.isInfinite then sign ++ ['i', 'n', 'f']
  else ['N', 'a', 'N']

end TraceCollector
