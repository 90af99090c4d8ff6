import TraceCollector.Binary64

/-!
# The shortest decimal that identifies a number

The exact values that round to a number form an interval that reaches halfway to its two
neighbours, ends included when its rank is even (`ReadsBack`). `shortest` searches the decimal
grids from the coarsest on; on the first grid with a point in the interval it takes the point
nearest to the number.
-/

namespace TraceCollector

/-- The decimal `digits * 10 ^ exponent`. -/
structure Decimal where
  digits : Nat
  exponent : Int
deriving DecidableEq

namespace Decimal

def toRat (d : Decimal) : Rat := d.digits * (10 : Rat) ^ d.exponent

/-- The same decimal without zeros at its end, looking at no more than `count` of them. -/
def stripZeros : (count : Nat) → Decimal → Decimal
  | 0, d => d
  | count + 1, d =>
    if d.digits ≠ 0 ∧ d.digits % 10 = 0 then stripZeros count ⟨d.digits / 10, d.exponent + 1⟩
    else d

end Decimal

/-- Which of two equally near decimals is chosen. -/
inductive Tie where
  | even
  | up
deriving DecidableEq

namespace Binary64

/-- The middle between the magnitude of a rank and the one below it. -/
def lowerEnd (rank : Nat) : Rat := (magnitude (rank - 1) + magnitude rank) / 2

/-- The middle between the magnitude of a rank and the one above it. -/
def upperEnd (rank : Nat) : Rat := (magnitude rank + magnitude (rank + 1)) / 2

/-- `q` is one of the exact values that round to the magnitude of `rank`. -/
def ReadsBack (rank : Nat) (q : Rat) : Prop :=
  lowerEnd rank < q ∧ q < upperEnd rank ∨
    rank % 2 = 0 ∧ (q = lowerEnd rank ∨ q = upperEnd rank)

instance (rank : Nat) (q : Rat) : Decidable (ReadsBack rank q) := by
  unfold ReadsBack; infer_instance

/-- The least `k` with `q < 10 ^ k`, looked for from `k` upwards in at most `steps` steps. -/
def decimalPlaces (q : Rat) : (steps : Nat) → (k : Int) → Int
  | 0, k => k
  | steps + 1, k => if q < (10 : Rat) ^ k then k else decimalPlaces q steps (k + 1)

/-- The point of the grid `10 ^ e` nearest to the magnitude of `rank`, if any point of the grid
reads back. -/
def onGrid (tie : Tie) (rank : Nat) (e : Int) : Option Decimal :=
  let scaled := magnitude rank / (10 : Rat) ^ e
  let below : Decimal := ⟨scaled.floor.toNat, e⟩
  let above : Decimal := ⟨scaled.floor.toNat + 1, e⟩
  let excess := scaled - scaled.floor
  let takeBelow : Bool :=
    excess < 1 / 2 || (excess = 1 / 2 && tie = .even && below.digits % 2 = 0)
  match decide (ReadsBack rank below.toRat), decide (ReadsBack rank above.toRat) with
  | true, true => some (if takeBelow then below else above)
  | true, false => some below
  | false, true => some above
  | false, false => none

/-- The exact value of a rank as a decimal. -/
def exactDecimal (rank : Nat) : Decimal :=
  if 0 ≤ spacing rank then ⟨significand rank * Nat.pow 2 (spacing rank).toNat, 0⟩
  else ⟨significand rank * Nat.pow 5 (-spacing rank).toNat, spacing rank⟩

/-- The decimal with the fewest digits that reads back to the magnitude of `rank`. Seventeen
digits are enough for every number. -/
def shortest (tie : Tie) (rank : Nat) : Decimal :=
  let places := decimalPlaces (magnitude rank) 700 (-330)
  let found := (List.range 17).findSome? fun (n : Nat) => onGrid tie rank (places - (n + 1))
  (found.getD (exactDecimal rank)).stripZeros 800

end Binary64

end TraceCollector
