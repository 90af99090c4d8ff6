import TraceCollector.Binary64
import TraceCollector.Instant

/-!
# Fractional seconds since the epoch

A time given as a binary64 number of seconds is split into whole seconds and a fraction; the
fraction is taken and scaled to nanoseconds in binary64 arithmetic and then rounded, a half going
up. A fraction that rounds to a whole second carries into the seconds.
-/

namespace TraceCollector

namespace Binary64

/-- The nanoseconds after the last whole second. -/
def subsecondNanoseconds (secs : Binary64) : Int :=
  let fraction := ofRat (secs.toRat - secs.toRat.floor)
  roundHalfAway (fraction.mul (ofInt 1000000000)).toRat

end Binary64

/-- The instant of a time in seconds, if it is finite and within the calendar. -/
def Instant.ofEpochSeconds? (secs : Binary64) : Option Instant :=
  if secs.isFinite then
    ofNanoseconds? (secs.toRat.floor * nanosecondsPerSecond + secs.subsecondNanoseconds)
  else none

end TraceCollector
