import TraceCollector.Proofs.RoundingOrder
import TraceCollector.Proofs.WholeSeconds

/-!
# The accuracy of instants

A time in seconds and the instant that it denotes.

1. The fraction of a second is rounded three times: when it is taken, when it is scaled to
   nanoseconds, and to whole nanoseconds. In all it is off by at most 0.500001 nanoseconds
   (`Binary64.abs_subsecondNanoseconds_sub_le`), and it lies between nothing and a whole second
   (`Binary64.subsecondNanoseconds_bounds`).
2. It is a whole second only close to the epoch, where the numbers are less than a nanosecond
   apart (`Binary64.subsecondNanoseconds_lt_of_large`). So no carry leaves or enters the calendar,
   and the whole seconds of a time decide whether it denotes an instant
   (`Instant.exists_ofEpochSeconds?_iff`).
3. The same conversion in words of 64 and 32 bits gives the same instants
   (`Instant.ofEpochSeconds?_eq_words`); where it gives one, every cast to a word is exact.
-/

namespace TraceCollector

namespace Binary64

/-! ## The three roundings -/

/-- A fraction of a second in nanoseconds, before it is rounded to whole ones. -/
def scaled (q : ℚ) : ℚ := ((ofRat q).mul (ofInt 1000000000)).toRat

theorem subsecondNanoseconds_eq (x : Binary64) :
    x.subsecondNanoseconds = roundHalfAway (scaled (x.toRat - x.toRat.floor)) := rfl

theorem toRat_ofInt {n : ℤ} (h : |n| < 2 ^ 53) : (ofInt n).toRat = n :=
  (representable_intCast h).toRat_ofRat.2

theorem scaled_eq (q : ℚ) : scaled q = (ofRat ((ofRat q).toRat * 1000000000)).toRat := by
  unfold scaled mul
  rw [toRat_ofInt (by norm_num)]
  norm_num

theorem scaled_mono {p q : ℚ} (h : p ≤ q) : scaled p ≤ scaled q := by
  have hfraction := toRat_ofRat_mono h
  rw [scaled_eq, scaled_eq]
  exact toRat_ofRat_mono (by linarith)

theorem scaled_zero : scaled 0 = 0 := by
  rw [scaled_eq, toRat_ofRat_zero, zero_mul, toRat_ofRat_zero]

theorem toRat_ofRat_one : (ofRat 1).toRat = 1 :=
  (representable_intCast (n := 1) (by norm_num)).toRat_ofRat.2

theorem scaled_one : scaled 1 = 1000000000 := by
  have hsecond : (ofRat 1000000000).toRat = 1000000000 :=
    (representable_intCast (n := 1000000000) (by norm_num)).toRat_ofRat.2
  rw [scaled_eq, toRat_ofRat_one, one_mul, hsecond]

/-- Of the two errors the first is of a number below one, the second of one below `2 ^ 30`. -/
theorem abs_scaled_sub_le {q : ℚ} (hnonneg : 0 ≤ q) (hlt : q < 1) :
    |scaled q - q * 1000000000| ≤ 2 ^ (-24 : ℤ) + 2 ^ (-54 : ℤ) * 1000000000 := by
  have hfraction : |(ofRat q).toRat - q| ≤ 2 ^ (0 - 54 : ℤ) := by
    apply abs_toRat_ofRat_sub_le
    · rwa [abs_of_nonneg hnonneg, zpow_zero]
    · norm_num
    · norm_num
  have hlow : 0 ≤ (ofRat q).toRat := toRat_ofRat_zero ▸ toRat_ofRat_mono hnonneg
  have hhigh : (ofRat q).toRat ≤ 1 := toRat_ofRat_one ▸ toRat_ofRat_mono hlt.le
  have hproduct : |scaled q - (ofRat q).toRat * 1000000000| ≤ 2 ^ (30 - 54 : ℤ) := by
    rw [scaled_eq]
    apply abs_toRat_ofRat_sub_le
    · rw [abs_of_nonneg (by positivity)]
      norm_num
      linarith
    · norm_num
    · norm_num
  calc |scaled q - q * 1000000000|
      = |(scaled q - (ofRat q).toRat * 1000000000) + ((ofRat q).toRat - q) * 1000000000| := by
        ring_nf
    _ ≤ |scaled q - (ofRat q).toRat * 1000000000| + |((ofRat q).toRat - q) * 1000000000| :=
        abs_add_le _ _
    _ = |scaled q - (ofRat q).toRat * 1000000000| + |(ofRat q).toRat - q| * 1000000000 := by
        rw [abs_mul, abs_of_pos (by norm_num : (0 : ℚ) < 1000000000)]
    _ ≤ 2 ^ (-24 : ℤ) + 2 ^ (-54 : ℤ) * 1000000000 := by
        gcongr
        · exact hproduct
        · exact hfraction

/-! ## Nanoseconds -/

section Nanoseconds

variable (x : Binary64)

theorem fraction_nonneg : 0 ≤ x.toRat - x.toRat.floor := sub_nonneg.mpr (Rat.floor_le _)

theorem fraction_lt_one : x.toRat - x.toRat.floor < 1 := by
  have h := Rat.lt_floor (x := x.toRat)
  linarith

theorem subsecondNanoseconds_bounds :
    0 ≤ x.subsecondNanoseconds ∧ x.subsecondNanoseconds ≤ 1000000000 := by
  have hzero : roundHalfAway (scaled 0) = 0 := by
    rw [scaled_zero]
    exact roundHalfAway_intCast 0
  have hone : roundHalfAway (scaled 1) = 1000000000 := by
    rw [scaled_one]
    exact roundHalfAway_intCast 1000000000
  rw [subsecondNanoseconds_eq]
  constructor
  · rw [← hzero]
    exact roundHalfAway_mono (scaled_mono x.fraction_nonneg)
  · rw [← hone]
    exact roundHalfAway_mono (scaled_mono x.fraction_lt_one.le)

theorem abs_subsecondNanoseconds_sub_le :
    |(x.subsecondNanoseconds : ℚ) - (x.toRat - x.toRat.floor) * 1000000000| ≤ 0.500001 := by
  have hround := abs_roundHalfAway_sub_le (scaled (x.toRat - x.toRat.floor))
  have hscaled := abs_scaled_sub_le x.fraction_nonneg x.fraction_lt_one
  rw [← subsecondNanoseconds_eq] at hround
  calc |(x.subsecondNanoseconds : ℚ) - (x.toRat - x.toRat.floor) * 1000000000|
      ≤ |(x.subsecondNanoseconds : ℚ) - scaled (x.toRat - x.toRat.floor)| +
        |scaled (x.toRat - x.toRat.floor) - (x.toRat - x.toRat.floor) * 1000000000| :=
        abs_sub_le _ _ _
    _ ≤ 1 / 2 + (2 ^ (-24 : ℤ) + 2 ^ (-54 : ℤ) * 1000000000) := add_le_add hround hscaled
    _ ≤ 0.500001 := by norm_num

variable {x}

/-- From `2 ^ 23` on the numbers are almost two nanoseconds apart, so the last one before a whole
second stays before it. -/
theorem subsecondNanoseconds_lt_of_large (h : 2 ^ 23 ≤ |x.toRat|) :
    x.subsecondNanoseconds < 1000000000 := by
  obtain ⟨n, hn⟩ := exists_eq_mul_of_le_abs (k := 23) (by exact_mod_cast h)
  have hfraction : x.toRat - x.toRat.floor = ((n - x.toRat.floor * 2 ^ 29 : ℤ) : ℚ) / 2 ^ 29 := by
    rw [hn]
    norm_num
    ring
  have hcount : n - x.toRat.floor * 2 ^ 29 < 2 ^ 29 := by
    have hlt := x.fraction_lt_one
    rw [hfraction, div_lt_one (by norm_num)] at hlt
    exact_mod_cast hlt
  have hlast : x.toRat - x.toRat.floor ≤ (2 ^ 29 - 1) / 2 ^ 29 := by
    have hle : ((n - x.toRat.floor * 2 ^ 29 : ℤ) : ℚ) ≤ 2 ^ 29 - 1 := by
      exact_mod_cast Int.le_sub_one_of_lt hcount
    rw [hfraction]
    gcongr
  have herror := (abs_le.mp x.abs_subsecondNanoseconds_sub_le).2
  have hvalue : (x.subsecondNanoseconds : ℚ) < (1000000000 : ℤ) := by
    norm_num at hlast herror ⊢
    linarith
  exact Int.cast_lt.mp hvalue

/-- A fraction that rounds to a whole second is one of a time close to the epoch. -/
theorem floor_bounds_of_carry (h : x.subsecondNanoseconds = 1000000000) :
    -8388609 ≤ x.toRat.floor ∧ x.toRat.floor ≤ 8388608 := by
  have hsmall : |x.toRat| < 2 ^ 23 := by
    by_contra hlarge
    have hlt := subsecondNanoseconds_lt_of_large (not_lt.mp hlarge)
    omega
  obtain ⟨hlow, hhigh⟩ := abs_lt.mp hsmall
  have hfloor := Rat.floor_le x.toRat
  have hfloor' := Rat.lt_floor (x := x.toRat)
  norm_num at hlow hhigh
  constructor
  · have hlt : ((-8388610 : ℤ) : ℚ) < x.toRat.floor := by push_cast; linarith
    have := Int.cast_lt.mp hlt
    omega
  · have hlt : (x.toRat.floor : ℚ) < (8388609 : ℤ) := by push_cast; linarith
    have := Int.cast_lt.mp hlt
    omega

end Nanoseconds

end Binary64

namespace Instant

/-! ## The calendar -/

section OfEpochSeconds

variable {x : Binary64} {t : Instant}

theorem ofEpochSeconds?_eq_some_iff :
    ofEpochSeconds? x = some t ↔
      x.isFinite = true ∧ t = ofParts x.toRat.floor x.subsecondNanoseconds ∧ t.InCalendar := by
  unfold ofEpochSeconds? ofNanoseconds? ofParts
  split_ifs with hfinite hcalendar
  · constructor
    · intro h
      cases h
      exact ⟨hfinite, rfl, hcalendar⟩
    · rintro ⟨-, rfl, -⟩
      rfl
  · constructor
    · intro h
      cases h
    · rintro ⟨-, rfl, h⟩
      exact absurd h hcalendar
  · simp [hfinite]

theorem ofParts_seconds_subsecond (t : Instant) : ofParts t.seconds t.subsecond = t := by
  apply eq_of_nanoseconds
  exact Int.ediv_mul_add_emod t.nanoseconds nanosecondsPerSecond

theorem seconds_ofParts {s n : ℤ} (hlow : 0 ≤ n) (hhigh : n ≤ 1000000000) :
    (ofParts s n).seconds = if n = 1000000000 then s + 1 else s := by
  unfold seconds ofParts nanosecondsPerSecond
  dsimp only
  split_ifs <;> omega

theorem subsecond_ofParts {s n : ℤ} (hlow : 0 ≤ n) (hhigh : n ≤ 1000000000) :
    (ofParts s n).subsecond = if n = 1000000000 then 0 else n := by
  unfold subsecond ofParts nanosecondsPerSecond
  dsimp only
  split_ifs <;> omega

/-- The whole seconds of a time decide whether it is in the calendar: a carry takes place only far
from its ends. -/
theorem inCalendar_iff_floor :
    (ofParts x.toRat.floor x.subsecondNanoseconds).InCalendar ↔
      firstSecond ≤ x.toRat.floor ∧ x.toRat.floor ≤ lastSecond := by
  obtain ⟨hlow, hhigh⟩ := x.subsecondNanoseconds_bounds
  unfold InCalendar
  rw [seconds_ofParts hlow hhigh]
  split_ifs with hcarry
  · have hfloor := Binary64.floor_bounds_of_carry hcarry
    unfold firstSecond lastSecond
    omega
  · exact Iff.rfl

theorem exists_ofEpochSeconds?_iff :
    (∃ t, ofEpochSeconds? x = some t) ↔
      x.isFinite = true ∧ firstSecond ≤ x.toRat.floor ∧ x.toRat.floor ≤ lastSecond := by
  rw [← inCalendar_iff_floor]
  constructor
  · rintro ⟨t, ht⟩
    obtain ⟨hfinite, rfl, hcalendar⟩ := ofEpochSeconds?_eq_some_iff.mp ht
    exact ⟨hfinite, hcalendar⟩
  · rintro ⟨hfinite, hcalendar⟩
    exact ⟨_, ofEpochSeconds?_eq_some_iff.mpr ⟨hfinite, rfl, hcalendar⟩⟩

/-- An instant is at most 0.500001 nanoseconds away from the time that it stands for. -/
theorem abs_nanoseconds_sub_le (h : ofEpochSeconds? x = some t) :
    |(t.nanoseconds : ℚ) - x.toRat * 1000000000| ≤ 0.500001 := by
  obtain ⟨-, rfl, -⟩ := ofEpochSeconds?_eq_some_iff.mp h
  have hvalue : ((ofParts x.toRat.floor x.subsecondNanoseconds).nanoseconds : ℚ) -
      x.toRat * 1000000000 =
        x.subsecondNanoseconds - (x.toRat - x.toRat.floor) * 1000000000 := by
    unfold ofParts nanosecondsPerSecond
    push_cast
    ring
  rw [hvalue]
  exact x.abs_subsecondNanoseconds_sub_le

theorem abs_seconds_add_subsecond_sub_le (h : ofEpochSeconds? x = some t) :
    |(t.seconds + t.subsecond / 1000000000 : ℚ) - x.toRat| ≤ 0.500001 / 1000000000 := by
  have hparts : t.seconds * nanosecondsPerSecond + t.subsecond = t.nanoseconds :=
    congrArg nanoseconds (ofParts_seconds_subsecond t)
  have hvalue : (t.seconds + t.subsecond / 1000000000 : ℚ) - x.toRat =
      (t.nanoseconds - x.toRat * 1000000000) / 1000000000 := by
    rw [← hparts]
    unfold nanosecondsPerSecond
    push_cast
    ring
  rw [hvalue, abs_div, abs_of_pos (by norm_num : (0 : ℚ) < 1000000000)]
  gcongr
  exact abs_nanoseconds_sub_le h

end OfEpochSeconds

/-! ## In machine words -/

/-- The word of 64 bits nearest to an integer. -/
def nearestInt64 (n : ℤ) : Int64 := .ofInt (max (-9223372036854775808) (min n 9223372036854775807))

/-- The word of 32 bits without a sign that is nearest to an integer. -/
def nearestUInt32 (n : ℤ) : UInt32 := .ofNat (min n.toNat 4294967295)

/-- Every second of the calendar is a word, and so is the one after it. -/
theorem word_of_inCalendar {n : ℤ} (h : firstSecond ≤ n ∧ n ≤ lastSecond) :
    -9223372036854775808 ≤ n ∧ n < 9223372036854775807 := by
  unfold firstSecond lastSecond at h
  omega

theorem toInt_nearestInt64 {n : ℤ} (hlow : -9223372036854775808 ≤ n)
    (hhigh : n ≤ 9223372036854775807) : (nearestInt64 n).toInt = n := by
  unfold nearestInt64
  rw [min_eq_left hhigh, max_eq_right hlow, Int64.toInt_ofInt_of_le (by omega) (by omega)]

theorem toNat_nearestUInt32 {n : ℤ} (hlow : 0 ≤ n) (hhigh : n ≤ 4294967295) :
    ((nearestUInt32 n).toNat : ℤ) = n := by
  unfold nearestUInt32
  rw [min_eq_left (by omega), UInt32.toNat_ofNat_of_lt' (by unfold UInt32.size; omega),
    Int.toNat_of_nonneg hlow]

end Instant

/-- The whole seconds and the nanoseconds of a time in words: numbers are cast to the nearest
words, what lies outside the words of 64 bits is refused, and so is a carry out of them. -/
def Binary64.wordParts? (x : Binary64) : Option (Int64 × UInt32) :=
  if x.isFinite ∧ -9223372036854775808 ≤ x.toRat.floor ∧ x.toRat.floor < 9223372036854775808 then
    let seconds := Instant.nearestInt64 x.toRat.floor
    let nanoseconds := Instant.nearestUInt32 x.subsecondNanoseconds
    if nanoseconds < 1000000000 then some (seconds, nanoseconds)
    else if seconds = Int64.maxValue then none
    else some (seconds + 1, nanoseconds - 1000000000)
  else none

namespace Instant

/-- The instant of a second and nanoseconds in words, if the second is in the calendar. -/
def ofWords? (parts : Int64 × UInt32) : Option Instant :=
  if firstSecond ≤ parts.1.toInt ∧ parts.1.toInt ≤ lastSecond then
    some (ofParts parts.1.toInt parts.2.toNat)
  else none

section Words

variable {x : Binary64}

/-- A finite time whose whole seconds are a word has parts in words, those of its instant: the
casts are exact, and there is no carry at the end of the words. -/
theorem exists_wordParts? (hfinite : x.isFinite = true)
    (hlow : -9223372036854775808 ≤ x.toRat.floor) (hhigh : x.toRat.floor < 9223372036854775808) :
    ∃ seconds nanoseconds, x.wordParts? = some (seconds, nanoseconds) ∧
      seconds.toInt = (ofParts x.toRat.floor x.subsecondNanoseconds).seconds ∧
      nanoseconds.toNat = (ofParts x.toRat.floor x.subsecondNanoseconds).subsecond := by
  obtain ⟨hnonneg, hle⟩ := x.subsecondNanoseconds_bounds
  have hseconds := toInt_nearestInt64 hlow (Int.le_sub_one_of_lt hhigh)
  have hnanoseconds := toNat_nearestUInt32 hnonneg (by omega)
  have hsecond : (1000000000 : UInt32).toNat = 1000000000 := by decide
  rw [seconds_ofParts hnonneg hle, subsecond_ofParts hnonneg hle]
  unfold Binary64.wordParts?
  rw [if_pos ⟨hfinite, hlow, hhigh⟩]
  dsimp only
  by_cases hcarry : x.subsecondNanoseconds = 1000000000
  · have hfloor := Binary64.floor_bounds_of_carry hcarry
    have hnot : nearestInt64 x.toRat.floor ≠ Int64.maxValue := by
      intro heq
      have hmax : Int64.maxValue.toInt = 9223372036854775807 := by decide
      rw [heq] at hseconds
      omega
    rw [if_neg (by rw [UInt32.lt_iff_toNat_lt]; omega), if_neg hnot, if_pos hcarry, if_pos hcarry]
    refine ⟨_, _, rfl, ?_, ?_⟩
    · have hone : (1 : Int64).toInt = 1 := by decide
      rw [Int64.toInt_add, hseconds, hone]
      exact Int.bmod_eq_of_le (by omega) (by omega)
    · rw [UInt32.toNat_sub_of_le _ _ (by rw [UInt32.le_iff_toNat_le]; omega)]
      omega
  · rw [if_pos (UInt32.lt_iff_toNat_lt.mpr (by omega)), if_neg hcarry, if_neg hcarry]
    exact ⟨_, _, rfl, hseconds, hnanoseconds⟩

/-- In words the conversion gives the same instants. -/
theorem ofEpochSeconds?_eq_words (x : Binary64) :
    ofEpochSeconds? x = x.wordParts?.bind ofWords? := by
  by_cases hword : x.isFinite = true ∧ -9223372036854775808 ≤ x.toRat.floor ∧
      x.toRat.floor < 9223372036854775808
  · obtain ⟨hfinite, hlow, hhigh⟩ := hword
    obtain ⟨seconds, nanoseconds, hparts, hseconds, hnanoseconds⟩ :=
      exists_wordParts? hfinite hlow hhigh
    rw [hparts, Option.bind_some]
    unfold ofEpochSeconds? ofNanoseconds? ofWords? InCalendar
    dsimp only
    rw [if_pos hfinite, hseconds, hnanoseconds, ofParts_seconds_subsecond]
    rfl
  · have hnone : ofEpochSeconds? x = none := by
      rw [Option.eq_none_iff_forall_ne_some]
      intro t ht
      obtain ⟨hfinite, hcalendar⟩ := exists_ofEpochSeconds?_iff.mp ⟨t, ht⟩
      have hfloor := word_of_inCalendar hcalendar
      exact hword ⟨hfinite, by omega, by omega⟩
    rw [hnone]
    unfold Binary64.wordParts?
    rw [if_neg hword]
    rfl

end Words

/-- A number denotes an instant if and only if it is finite and its whole seconds are in the
calendar. The instant has less than a second of nanoseconds, it is at most 0.500001 nanoseconds
away from the number, and it is what the conversion in words gives: no cast on the way to it
changes a number, and no carry leaves the words. -/
theorem epoch_conversion_exact (x : Binary64) :
    ((∃ t, ofEpochSeconds? x = some t) ↔
      x.isFinite = true ∧ firstSecond ≤ x.toRat.floor ∧ x.toRat.floor ≤ lastSecond) ∧
    ofEpochSeconds? x = x.wordParts?.bind ofWords? ∧
    ∀ t, ofEpochSeconds? x = some t → ∃ seconds nanoseconds,
      x.wordParts? = some (seconds, nanoseconds) ∧
      t.seconds = seconds.toInt ∧ t.subsecond = nanoseconds.toNat ∧
      nanoseconds.toNat < 1000000000 ∧
      |(seconds.toInt + nanoseconds.toNat / 1000000000 : ℚ) - x.toRat| ≤
        0.500001 / 1000000000 ∧
      (nearestInt64 x.toRat.floor).toInt = x.toRat.floor ∧
      (nearestUInt32 x.subsecondNanoseconds).toNat = x.subsecondNanoseconds ∧
      (nearestInt64 x.toRat.floor).toInt + 1 ≤ Int64.maxValue.toInt := by
  refine ⟨exists_ofEpochSeconds?_iff, ofEpochSeconds?_eq_words x, fun t ht => ?_⟩
  obtain ⟨hfinite, hcalendar⟩ := exists_ofEpochSeconds?_iff.mp ⟨t, ht⟩
  obtain ⟨hlow, hhigh⟩ := word_of_inCalendar hcalendar
  obtain ⟨seconds, nanoseconds, hparts, hseconds, hnanoseconds⟩ :=
    exists_wordParts? hfinite hlow (by omega)
  obtain ⟨-, hinstant, -⟩ := ofEpochSeconds?_eq_some_iff.mp ht
  rw [← hinstant] at hseconds hnanoseconds
  obtain ⟨hnonneg, hle⟩ := x.subsecondNanoseconds_bounds
  have hfloor := toInt_nearestInt64 hlow hhigh.le
  have hmax : Int64.maxValue.toInt = 9223372036854775807 := by decide
  refine ⟨seconds, nanoseconds, hparts, hseconds.symm, hnanoseconds.symm, ?_, ?_, hfloor,
    toNat_nearestUInt32 hnonneg (by omega), by omega⟩
  · have hlt : t.subsecond < 1000000000 := Int.emod_lt_of_pos _ (by norm_num)
    omega
  · have herror := abs_seconds_add_subsecond_sub_le ht
    rwa [← hseconds, ← hnanoseconds, Int.cast_natCast] at herror

/-- The greatest number below zero carries into the second of the epoch. -/
theorem epoch_conversion_exact_belowZero :
    let x : Binary64 := ⟨true, 1⟩
    ofEpochSeconds? x = some (ofParts 0 0) ∧ x.toRat.floor = -1 ∧
      x.subsecondNanoseconds = 1000000000 ∧ x.wordParts? = some (0, 0) ∧
      |(0 : ℚ) - x.toRat| ≤ 0.500001 / 1000000000 := by
  intro x
  have hinstant : ofEpochSeconds? x = some (ofParts 0 0) := by decide +kernel
  have hwords : x.wordParts? = some (0, 0) := by decide +kernel
  obtain ⟨seconds, nanoseconds, hparts, -, -, -, herror, -⟩ :=
    (epoch_conversion_exact x).2.2 _ hinstant
  rw [hwords] at hparts
  cases hparts
  refine ⟨hinstant, by decide +kernel, by decide +kernel, hwords, ?_⟩
  have hseconds : (0 : Int64).toInt = 0 := by decide
  have hnanoseconds : (0 : UInt32).toNat = 0 := by decide
  rw [hseconds, hnanoseconds] at herror
  norm_num at herror ⊢
  exact herror

end Instant

end TraceCollector
