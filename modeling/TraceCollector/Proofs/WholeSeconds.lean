import TraceCollector.Json.Value
import TraceCollector.Proofs.InstantOrder
import TraceCollector.Proofs.Rounding
import TraceCollector.Timestamp

/-!
# Whole seconds

Times without a fraction of a second.

1. Nothing is left of them after the last whole second (`Binary64.subsecondNanoseconds_of_whole`),
   so within the calendar they are instants without nanoseconds, whatever their size
   (`Instant.ofEpochSeconds?_of_whole`).
2. An integer too large to be a number is rounded to one that is no more in the calendar than it is
   itself (`Instant.ofEpochSeconds?_ofInt`). So a number of a text that is whole denotes exactly
   that second (`Json.Number.instant_of_whole`).
3. The seconds between such instants are the difference (`Instant.wholeSecondsBetween_ofParts`).
-/

namespace TraceCollector

/-! ## No fraction -/

namespace Binary64

theorem toRat_ofRat_zero : (ofRat 0).toRat = 0 :=
  (representable_intCast (n := 0) (by norm_num)).toRat_ofRat.2

theorem subsecondNanoseconds_of_whole {x : Binary64} {n : ℤ} (h : x.toRat = n) :
    x.subsecondNanoseconds = 0 := by
  have hfraction : x.toRat - x.toRat.floor = 0 := by rw [h, Rat.floor_intCast, sub_self]
  unfold subsecondNanoseconds
  dsimp only
  rw [hfraction]
  unfold mul
  rw [toRat_ofRat_zero, zero_mul, toRat_ofRat_zero]
  decide +kernel

end Binary64

/-! ## Instants -/

namespace Instant

theorem inCalendar_ofParts {n : ℤ} :
    (ofParts n 0).InCalendar ↔ firstSecond ≤ n ∧ n ≤ lastSecond := by
  have hseconds : (ofParts n 0).seconds = n := by
    unfold seconds ofParts
    rw [add_zero]
    exact Int.mul_ediv_cancel n (by norm_num)
  unfold InCalendar
  rw [hseconds]

theorem ofSeconds?_eq (n : ℤ) :
    ofSeconds? n = if firstSecond ≤ n ∧ n ≤ lastSecond then some (ofParts n 0) else none := by
  have hinstant : (⟨n * nanosecondsPerSecond⟩ : Instant) = ofParts n 0 := by
    unfold ofParts
    rw [add_zero]
  unfold ofSeconds? ofNanoseconds?
  rw [hinstant]
  exact if_congr inCalendar_ofParts rfl rfl

theorem ofSeconds?_eq_some {n : ℤ} {t : Instant} (h : ofSeconds? n = some t) :
    t = ofParts n 0 := by
  rw [ofSeconds?_eq] at h
  split at h <;> simp_all

theorem ofSeconds?_of_large {n : ℤ} (h : 2 ^ 53 ≤ |n|) : ofSeconds? n = none := by
  rw [ofSeconds?_eq, if_neg]
  unfold firstSecond lastSecond
  rw [Int.abs_eq_natAbs] at h
  omega

theorem ofEpochSeconds?_of_whole {x : Binary64} {n : ℤ} (hfinite : x.isFinite = true)
    (h : x.toRat = n) : ofEpochSeconds? x = ofSeconds? n := by
  unfold ofEpochSeconds? ofSeconds?
  rw [if_pos hfinite, Binary64.subsecondNanoseconds_of_whole h, h, Rat.floor_intCast, add_zero]

/-- An integer is in the calendar exactly if the number nearest to it is. -/
theorem ofEpochSeconds?_ofInt (n : ℤ) : ofEpochSeconds? (.ofInt n) = ofSeconds? n := by
  by_cases hfinite : (Binary64.ofInt n).isFinite = true
  · obtain ⟨k, hk, rfl | ⟨hn, hlarge⟩⟩ := Binary64.exists_toRat_ofInt hfinite
    · exact ofEpochSeconds?_of_whole hfinite hk
    · rw [ofEpochSeconds?_of_whole hfinite hk, ofSeconds?_of_large hlarge, ofSeconds?_of_large hn]
  · have hlarge : 2 ^ 53 ≤ |n| := by
      by_contra hsmall
      exact hfinite (Binary64.representable_intCast (not_le.mp hsmall)).toRat_ofRat.1
    unfold ofEpochSeconds?
    rw [if_neg hfinite, ofSeconds?_of_large hlarge]

theorem ofParts_lt_ofParts {m n : ℤ} : ofParts m 0 < ofParts n 0 ↔ m < n := by
  rw [lt_def]
  unfold ofParts nanosecondsPerSecond
  dsimp only
  omega

theorem ofParts_le_ofParts {m n : ℤ} : ofParts m 0 ≤ ofParts n 0 ↔ m ≤ n := by
  rw [le_def]
  unfold ofParts nanosecondsPerSecond
  dsimp only
  omega

theorem ofParts_inj {m n : ℤ} : ofParts m 0 = ofParts n 0 ↔ m = n := by
  rw [le_antisymm_iff, ofParts_le_ofParts, ofParts_le_ofParts, ← le_antisymm_iff]

theorem wholeSecondsBetween_ofParts (m n : ℤ) :
    wholeSecondsBetween (ofParts m 0) (ofParts n 0) = n - m := by
  unfold wholeSecondsBetween ofParts
  dsimp only
  rw [add_zero, add_zero, ← sub_mul]
  exact Int.mul_tdiv_cancel _ (by norm_num)

end Instant

/-! ## Numbers of texts -/

/-- The exact value of a number. -/
def Json.Number.exact : Json.Number → ℚ
  | .integer n => n
  | .float x => x.toRat

/-- A number that is whole denotes the second of its value. -/
theorem Json.Number.instant_of_whole {p : Json.Number} {n : ℤ} {t : Instant} (hp : p.exact = n)
    (h : Instant.ofEpochSeconds? p.toBinary64 = some t) : t = .ofParts n 0 := by
  cases p with
  | integer m =>
    obtain rfl : m = n := Int.cast_injective hp
    exact Instant.ofSeconds?_eq_some ((Instant.ofEpochSeconds?_ofInt m).symm.trans h)
  | float x =>
    have hfinite : x.isFinite = true := by
      by_contra hnot
      rw [Json.Number.toBinary64, Instant.ofEpochSeconds?, if_neg hnot] at h
      cases h
    exact Instant.ofSeconds?_eq_some ((Instant.ofEpochSeconds?_of_whole hfinite hp).symm.trans h)

end TraceCollector
