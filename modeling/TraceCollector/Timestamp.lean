import TraceCollector.EpochSeconds

/-!
# Timestamps

A reported number of seconds together with the instant that it denotes. Numbers that denote no
instant have no timestamp, so a timestamp need not be checked again.
-/

namespace TraceCollector

structure Timestamp where
  seconds : Binary64
  instant : Instant
  instant_eq : Instant.ofEpochSeconds? seconds = some instant

namespace Timestamp

/-- The timestamp of a number of seconds. -/
def ofSeconds? (seconds : Binary64) : Option Timestamp :=
  match h : Instant.ofEpochSeconds? seconds with
  | some instant => some ⟨seconds, instant, h⟩
  | none => none

theorem seconds_of_ofSeconds? {seconds : Binary64} {t : Timestamp}
    (h : ofSeconds? seconds = some t) : t.seconds = seconds := by
  unfold ofSeconds? at h
  split at h
  · cases h; rfl
  · cases h

theorem ofSeconds?_eq_none_iff {seconds : Binary64} :
    ofSeconds? seconds = none ↔ Instant.ofEpochSeconds? seconds = none := by
  unfold ofSeconds?
  split <;> simp_all

end Timestamp

end TraceCollector
