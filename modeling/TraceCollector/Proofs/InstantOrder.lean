import Mathlib.Order.MinMax
import TraceCollector.Instant

/-!
# The order of instants

Instants are ordered as their nanoseconds are, in one line.
-/

namespace TraceCollector.Instant

theorem eq_of_nanoseconds {a b : Instant} (h : a.nanoseconds = b.nanoseconds) : a = b := by
  cases a
  cases b
  cases h
  rfl

theorem nanoseconds_max (a b : Instant) :
    (max a b).nanoseconds = max a.nanoseconds b.nanoseconds := rfl

instance : LinearOrder Instant where
  le_refl a := Int.le_refl a.nanoseconds
  le_trans _ _ _ := Int.le_trans
  lt_iff_le_not_ge a b := by
    rw [lt_def, le_def, le_def]
    omega
  le_antisymm _ _ hab hba := eq_of_nanoseconds (Int.le_antisymm hab hba)
  le_total a b := Int.le_total a.nanoseconds b.nanoseconds
  toDecidableLE := inferInstance
  toDecidableLT := inferInstance
  toDecidableEq := inferInstance
  max := max
  max_def a b := by
    apply eq_of_nanoseconds
    rw [nanoseconds_max]
    by_cases h : a ≤ b
    · rw [if_pos h]
      exact Int.max_eq_right h
    · rw [if_neg h]
      rw [le_def] at h
      omega

end TraceCollector.Instant
