/-!
# Numerals

Integers as digits in a base. Written numerals have no superfluous zeros; those read may have any
number of zeros in front and a sign.
-/

namespace TraceCollector.Text

/-! ## Writing -/

/-- The digits of `n`, most significant first. -/
def digitsIn (base n : Nat) : List Nat :=
  if n < base ∨ base < 2 then [n] else digitsIn base (n / base) ++ [n % base]
termination_by n
decreasing_by exact Nat.div_lt_self (by omega) (by omega)

/-- The character of a digit below sixteen. -/
def digitChar (d : Nat) : Char :=
  if d < 10 then Char.ofNat (48 + d) else Char.ofNat (87 + d)

def decimalChars (n : Nat) : List Char := (digitsIn 10 n).map digitChar

/-- Hexadecimal with small letters. -/
def hexChars (n : Nat) : List Char := (digitsIn 16 n).map digitChar

/-- Decimal, with a minus sign in front of a negative integer. -/
def integerChars : Int → List Char
  | .ofNat n => decimalChars n
  | .negSucc n => '-' :: decimalChars (n + 1)

/-! ## Reading -/

/-- The value of a digit, with letters of either case from ten on. -/
def digitValue? (base : Nat) (c : Char) : Option Nat :=
  let value? : Option Nat :=
    if '0' ≤ c ∧ c ≤ '9' then some (c.toNat - 48)
    else if 'a' ≤ c ∧ c ≤ 'z' then some (c.toNat - 87)
    else if 'A' ≤ c ∧ c ≤ 'Z' then some (c.toNat - 55)
    else none
  value?.filter (· < base)

/-- The value of digits that follow digits of value `n`. -/
def extendDigits? (base : Nat) : (n : Nat) → List Char → Option Nat
  | n, [] => some n
  | n, c :: rest => (digitValue? base c).bind fun d => extendDigits? base (base * n + d) rest

/-- The value of one or more digits. -/
def digits? (base : Nat) : List Char → Option Nat
  | [] => none
  | c :: rest => extendDigits? base 0 (c :: rest)

/-- One or more digits after at most one plus sign. -/
def unsigned? (base : Nat) : List Char → Option Nat
  | '+' :: rest => digits? base rest
  | cs => digits? base cs

/-- One or more digits after at most one sign. -/
def signed? (base : Nat) : List Char → Option Int
  | '-' :: rest => (digits? base rest).map fun n => -(n : Int)
  | cs => (unsigned? base cs).map Int.ofNat

end TraceCollector.Text
