/-!
# Binary64 numbers

A binary64 number is a sign and the rank of its magnitude among all magnitudes, counted up from
zero. `toRat` gives the exact value of a finite number; `ofRat` rounds an exact value to the
nearest number, a half going to the even rank. Arithmetic is the exact result, rounded once.
-/

namespace TraceCollector

/-- A sign and the rank of a magnitude. The ranks from `Binary64.infinityRank` on are infinity and,
above it, the values that are no numbers. -/
structure Binary64 where
  negative : Bool
  rank : Fin 9223372036854775808
deriving DecidableEq, Repr

/-- The integer nearest to `q`, a half going to the even one. -/
def roundHalfEven (q : Rat) : Int :=
  let below := q.floor
  let excess := q - below
  if excess < 1 / 2 then below
  else if 1 / 2 < excess then below + 1
  else if below % 2 = 0 then below
  else below + 1

/-- The integer nearest to `q`, a half going away from zero. -/
def roundHalfAway (q : Rat) : Int :=
  if q < 0 then -(1 / 2 - q).floor else (q + 1 / 2).floor

/-- The integer next to `q` towards zero. -/
def truncate (q : Rat) : Int :=
  if q < 0 then q.ceil else q.floor

/-- The greatest `k` with `2 ^ k ≤ q`, for a positive `q`. -/
def log2Floor (q : Rat) : Int :=
  let k : Int := (q.num.natAbs.log2 : Int) - q.den.log2
  if (2 : Rat) ^ k ≤ q then k else k - 1

namespace Binary64

/-! ## Ranks and magnitudes -/

/-- The number of magnitudes from one power of two to the next. -/
abbrev binade : Nat := 4503599627370496

/-- The rank of infinity. -/
abbrev infinityRank : Nat := 9218868437227405312

/-- The magnitude of a rank, in units of its spacing. -/
def significand (rank : Nat) : Nat :=
  if rank < binade then rank else binade + rank % binade

/-- The spacing of the magnitudes above a rank is two to this power. -/
def spacing (rank : Nat) : Int :=
  ((max 1 (rank / binade) : Nat) : Int) - 1075

/-- The exact magnitude of a rank. At `infinityRank` it is the value that is too large by one step. -/
def magnitude (rank : Nat) : Rat :=
  significand rank * (2 : Rat) ^ spacing rank

/-- The rank nearest to a magnitude, `infinityRank` when that is too large. -/
def nearestRank (q : Rat) : Nat :=
  if q ≤ 0 then 0
  else
    let e := max (-1074) (log2Floor q - 52)
    min infinityRank ((e + 1074).toNat * binade + (roundHalfEven (q / (2 : Rat) ^ e)).toNat)

theorem nearestRank_le (q : Rat) : nearestRank q ≤ infinityRank := by
  unfold nearestRank
  split
  · exact Nat.zero_le _
  · exact Nat.min_le_left _ _

/-! ## Values -/

/-- Neither an infinity nor one of the values that are no numbers. -/
def isFinite (x : Binary64) : Bool := x.rank.val < infinityRank

def isInfinite (x : Binary64) : Bool := x.rank.val = infinityRank

/-- The exact value of a finite number. -/
def toRat (x : Binary64) : Rat :=
  if x.negative then -magnitude x.rank.val else magnitude x.rank.val

/-- The number nearest to an exact value; zero is positive. -/
def ofRat (q : Rat) : Binary64 where
  negative := q < 0
  rank := ⟨nearestRank (if q < 0 then -q else q),
    Nat.lt_of_le_of_lt (nearestRank_le _) (by decide)⟩

/-- The number nearest to an integer. -/
def ofInt (n : Int) : Binary64 := ofRat n

def zero : Binary64 := ⟨false, 0⟩

/-! ## Arithmetic on finite numbers -/

def neg (x : Binary64) : Binary64 := { x with negative := !x.negative }

def mul (x y : Binary64) : Binary64 := ofRat (x.toRat * y.toRat)

def div (x y : Binary64) : Binary64 := ofRat (x.toRat / y.toRat)

/-- The number nearest to a power of ten. -/
def powerOfTen (k : Nat) : Binary64 := ofRat ((10 : Rat) ^ k)

/-! ## The interchange form -/

/-- Reads the interchange form: the sign is the highest of 64 bits. -/
def ofBits (bits : UInt64) : Binary64 where
  negative := 9223372036854775808 ≤ bits.toNat
  rank := ⟨bits.toNat % 9223372036854775808, Nat.mod_lt _ (by decide)⟩

def toBits (x : Binary64) : Nat :=
  if x.negative then 9223372036854775808 + x.rank.val else x.rank.val

end Binary64

end TraceCollector
