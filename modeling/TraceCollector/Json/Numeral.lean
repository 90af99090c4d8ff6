import TraceCollector.Json.Scan

/-!
# Numbers in JSON texts

A number without fraction and exponent is an integer while it fits 64 bits, unsigned or, with a
minus sign, signed; everything else is binary64. Its digits are gathered into a coefficient of 64
bits and a power of ten (`Gathered`), which are then multiplied or divided as binary64 numbers.
-/

namespace TraceCollector.Json

/-! ## The value of the digits -/

/-- `coefficient * 10 ^ exponent`, with a coefficient of 64 bits. -/
structure Gathered where
  coefficient : Nat
  exponent : Int

/-- Coefficients are below this bound. -/
abbrev coefficientBound : Nat := 18446744073709551616

/-- A digit before the point. Once one did not fit, it and all further ones only count. -/
def Gathered.addInteger (g : Gathered) (d : Nat) : Gathered :=
  if g.exponent = 0 ∧ g.coefficient * 10 + d < coefficientBound then
    ⟨g.coefficient * 10 + d, 0⟩
  else ⟨g.coefficient, g.exponent + 1⟩

/-- The digits after the point, up to the first that does not fit. -/
def Gathered.addFraction (g : Gathered) : List Nat → Gathered
  | [] => g
  | d :: ds =>
    if g.coefficient * 10 + d < coefficientBound then
      addFraction ⟨g.coefficient * 10 + d, g.exponent - 1⟩ ds
    else g

/-- The digits with an explicit exponent. -/
def Gathered.shift (g : Gathered) (down : Bool) (n : Nat) : Gathered :=
  ⟨g.coefficient, if down then g.exponent - n else g.exponent + n⟩

/-- `x * 10 ^ exponent` in steps of binary64 arithmetic, the powers of ten up to 308 being at hand;
nothing when the result is too large. -/
def scale (x : Binary64) (exponent : Int) : Option Binary64 :=
  if exponent.natAbs ≤ 308 then
    if 0 ≤ exponent then
      let product := x.mul (.powerOfTen exponent.natAbs)
      if product.isInfinite then none else some product
    else some (x.div (.powerOfTen exponent.natAbs))
  else if x.rank.val = 0 then some x
  else if 0 ≤ exponent then none
  else scale (x.div (.powerOfTen 308)) (exponent + 308)
termination_by (-exponent).toNat
decreasing_by omega

def Gathered.toBinary64? (g : Gathered) : Option Binary64 :=
  scale (.ofInt g.coefficient) g.exponent

/-- The integer that digits without fraction and exponent stand for; minus zero is none. -/
def Gathered.integer? (g : Gathered) (negative : Bool) : Option Int :=
  if g.exponent ≠ 0 then none
  else if !negative then some g.coefficient
  else if 0 < g.coefficient ∧ g.coefficient ≤ 9223372036854775808 then some (-g.coefficient)
  else none

/-- Explicit exponents are at most this. -/
abbrev exponentBound : Nat := 2147483647

/-- The value of exponent digits, or how many digits follow the one at which it gets too large. -/
def exponentValue : (value : Nat) → List Nat → Except Nat Nat
  | value, [] => .ok value
  | value, d :: ds =>
    if value * 10 + d ≤ exponentBound then exponentValue (value * 10 + d) ds
    else .error ds.length

/-! ## The grammar -/

def digit? (b : UInt8) : Option Nat :=
  if 48 ≤ b ∧ b ≤ 57 then some (b.toNat - 48) else none

/-- The digits in front. -/
def digits : List UInt8 → List Nat × List UInt8
  | [] => ([], [])
  | b :: s =>
    match digit? b with
    | some d => (d :: (digits s).1, (digits s).2)
    | none => ([], b :: s)

theorem length_digits_le (s : List UInt8) : (digits s).2.length ≤ s.length := by
  fun_induction digits s <;> grind

/-- The number with a sign. -/
def withSign (negative : Bool) (x : Binary64) : Number :=
  .float (if negative then x.neg else x)

/-- A binary64 number ends here. -/
def finish (negative : Bool) (g : Gathered) (s : List UInt8) : Step Number :=
  match g.toBinary64? with
  | some x => .ok (withSign negative x, s)
  | none => .error (stopBefore .numberOutOfRange s)

/-- An exponent after its sign. -/
def exponentDigits (negative : Bool) (g : Gathered) (down : Bool) : List UInt8 → Step Number
  | [] => .error (stopAt .endInValue [])
  | b :: s =>
    match digit? b with
    | none => .error (stopBefore .invalidNumber s)
    | some d =>
      let rest := (digits s).2
      match exponentValue d (digits s).1 with
      | .ok n => finish negative (g.shift down n) rest
      | .error following =>
        if g.coefficient ≠ 0 ∧ !down then .error ⟨.numberOutOfRange, following + rest.length⟩
        else .ok (withSign negative .zero, rest)

/-- An exponent after its mark. -/
def exponentPart (negative : Bool) (g : Gathered) : List UInt8 → Step Number
  | 43 :: s => exponentDigits negative g false s
  | 45 :: s => exponentDigits negative g true s
  | s => exponentDigits negative g false s

def isExponentMark (b : UInt8) : Bool := b = 101 || b = 69

/-- A fraction after its point. -/
def fractionPart (negative : Bool) (g : Gathered) (s : List UInt8) : Step Number :=
  match digits s with
  | ([], []) => .error (stopAt .endInValue [])
  | ([], r) => .error (stopAt .invalidNumber r)
  | (ds, r) =>
    let g := g.addFraction ds
    match r with
    | b :: r' => if isExponentMark b then exponentPart negative g r' else finish negative g r
    | [] => finish negative g []

/-- A number without fraction and exponent ends here. -/
def finishInteger (negative : Bool) (g : Gathered) (s : List UInt8) : Step Number :=
  match g.integer? negative with
  | some n => .ok (.integer n, s)
  | none => finish negative g s

/-- What follows the digits before the point. -/
def afterInteger (negative : Bool) (g : Gathered) : List UInt8 → Step Number
  | [] => finishInteger negative g []
  | b :: s =>
    if b = 46 then fractionPart negative g s
    else if isExponentMark b then exponentPart negative g s
    else finishInteger negative g (b :: s)

/-- A number after its sign. -/
def number (negative : Bool) : List UInt8 → Step Number
  | [] => .error (stopAt .endInValue [])
  | b :: s =>
    match digit? b with
    | none => .error (stopBefore .invalidNumber s)
    | some 0 =>
      match digits s with
      | ([], _) => afterInteger negative ⟨0, 0⟩ s
      | _ => .error (stopAt .invalidNumber s)
    | some d =>
      afterInteger negative ((d :: (digits s).1).foldl Gathered.addInteger ⟨0, 0⟩) (digits s).2

/-! ## What is left -/

theorem length_le_of_finish {negative : Bool} {g : Gathered} {s r : List UInt8} {n : Number}
    (h : finish negative g s = .ok (n, r)) : r.length ≤ s.length := by
  unfold finish at h
  split at h <;> simp_all

theorem length_le_of_finishInteger {negative : Bool} {g : Gathered} {s r : List UInt8}
    {n : Number} (h : finishInteger negative g s = .ok (n, r)) : r.length ≤ s.length := by
  unfold finishInteger at h
  split at h
  · simp_all
  · exact length_le_of_finish h

theorem length_le_of_exponentDigits {negative down : Bool} {g : Gathered} {s r : List UInt8}
    {n : Number} (h : exponentDigits negative g down s = .ok (n, r)) : r.length ≤ s.length := by
  fun_cases exponentDigits negative g down s
  all_goals grind [length_digits_le, → length_le_of_finish, exponentDigits]

theorem length_le_of_exponentPart {negative : Bool} {g : Gathered} {s r : List UInt8} {n : Number}
    (h : exponentPart negative g s = .ok (n, r)) : r.length ≤ s.length := by
  fun_cases exponentPart negative g s
  all_goals grind [→ length_le_of_exponentDigits, exponentPart]

theorem length_le_of_fractionPart {negative : Bool} {g : Gathered} {s r : List UInt8} {n : Number}
    (h : fractionPart negative g s = .ok (n, r)) : r.length ≤ s.length := by
  have hd := length_digits_le s
  fun_cases fractionPart negative g s
  all_goals grind [→ length_le_of_exponentPart, → length_le_of_finish, fractionPart]

theorem length_le_of_afterInteger {negative : Bool} {g : Gathered} {s r : List UInt8} {n : Number}
    (h : afterInteger negative g s = .ok (n, r)) : r.length ≤ s.length := by
  fun_cases afterInteger negative g s
  all_goals grind [→ length_le_of_exponentPart, → length_le_of_fractionPart,
    → length_le_of_finishInteger, afterInteger]

theorem length_lt_of_number {negative : Bool} {s r : List UInt8} {n : Number}
    (h : number negative s = .ok (n, r)) : r.length < s.length := by
  fun_cases number negative s
  all_goals grind [→ length_le_of_afterInteger, length_digits_le, number]

end TraceCollector.Json
