/-!
# Instants

A point in time, counted in nanoseconds from the epoch. Conversions from whole seconds refuse
what lies outside the calendar, years -262143 to 262142.
-/

namespace TraceCollector

structure Instant where
  nanoseconds : Int
deriving DecidableEq

namespace Instant

abbrev nanosecondsPerSecond : Int := 1000000000

/-- The first second of the calendar. -/
abbrev firstSecond : Int := -8334601228800

/-- The last second of the calendar. -/
abbrev lastSecond : Int := 8210266876799

instance : LT Instant := ⟨fun a b => a.nanoseconds < b.nanoseconds⟩

instance : LE Instant := ⟨fun a b => a.nanoseconds ≤ b.nanoseconds⟩

instance (a b : Instant) : Decidable (a < b) :=
  inferInstanceAs (Decidable (a.nanoseconds < b.nanoseconds))

instance (a b : Instant) : Decidable (a ≤ b) :=
  inferInstanceAs (Decidable (a.nanoseconds ≤ b.nanoseconds))

instance : Max Instant := ⟨fun a b => ⟨max a.nanoseconds b.nanoseconds⟩⟩

theorem lt_def {a b : Instant} : a < b ↔ a.nanoseconds < b.nanoseconds := Iff.rfl

theorem le_def {a b : Instant} : a ≤ b ↔ a.nanoseconds ≤ b.nanoseconds := Iff.rfl

/-- The last whole second at or before an instant. -/
def seconds (t : Instant) : Int := t.nanoseconds / nanosecondsPerSecond

/-- The nanoseconds since that second. -/
def subsecond (t : Instant) : Int := t.nanoseconds % nanosecondsPerSecond

/-- Within the calendar. -/
def InCalendar (t : Instant) : Prop := firstSecond ≤ t.seconds ∧ t.seconds ≤ lastSecond

instance (t : Instant) : Decidable t.InCalendar := by unfold InCalendar; infer_instance

/-- The instant that is so many nanoseconds after a second. -/
def ofParts (seconds nanoseconds : Int) : Instant := ⟨seconds * nanosecondsPerSecond + nanoseconds⟩

/-- An instant of the calendar. -/
def ofNanoseconds? (n : Int) : Option Instant :=
  if (⟨n⟩ : Instant).InCalendar then some ⟨n⟩ else none

/-- A whole second of the calendar. -/
def ofSeconds? (seconds : Int) : Option Instant := ofNanoseconds? (seconds * nanosecondsPerSecond)

/-- The whole seconds from one instant to another, with the rest dropped. -/
def wholeSecondsBetween (start stop : Instant) : Int :=
  (stop.nanoseconds - start.nanoseconds).tdiv nanosecondsPerSecond

end Instant

end TraceCollector
