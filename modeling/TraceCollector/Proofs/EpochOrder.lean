import TraceCollector.Proofs.Arrivals
import TraceCollector.Proofs.EpochAccuracy

/-!
# The order of instants and of times

Times in seconds and their instants come in the same order.

1. Within a second the three roundings keep the order, and no fraction goes beyond the second; so
   an earlier time has no later instant (`Instant.ofEpochSeconds?_mono`).
2. From `2 ^ 23` on, numbers are multiples of `2 ^ -29`, which is more than the errors of two
   instants together; so different times have different instants
   (`Instant.ofEpochSeconds?_strictMono`).
3. A trace orders its segments by their instants. When all its starts are that large, it orders
   them by the reported times as well (`Trace.pairwise_seconds`).
-/

namespace TraceCollector

namespace Binary64

theorem subsecondNanoseconds_mono {x y : Binary64} (hfloor : x.toRat.floor = y.toRat.floor)
    (h : x.toRat ≤ y.toRat) : x.subsecondNanoseconds ≤ y.subsecondNanoseconds := by
  rw [subsecondNanoseconds_eq, subsecondNanoseconds_eq, hfloor]
  exact roundHalfAway_mono (scaled_mono (sub_le_sub_right h _))

/-- From a power of two on, a greater number is greater by the spacing or more. -/
theorem add_spacing_le {x y : Binary64} {k : ℤ} (hx : 2 ^ k ≤ |x.toRat|) (hy : 2 ^ k ≤ |y.toRat|)
    (h : x.toRat < y.toRat) : x.toRat + 2 ^ (k - 52) ≤ y.toRat := by
  obtain ⟨m, hm⟩ := exists_eq_mul_of_le_abs hx
  obtain ⟨n, hn⟩ := exists_eq_mul_of_le_abs hy
  have hspacing : (0 : ℚ) < 2 ^ (k - 52) := by positivity
  have hlt : m < n := by
    rw [hm, hn] at h
    exact_mod_cast lt_of_mul_lt_mul_right h hspacing.le
  calc x.toRat + 2 ^ (k - 52) = ((m + 1 : ℤ) : ℚ) * 2 ^ (k - 52) := by
        rw [hm]
        push_cast
        ring
    _ ≤ n * 2 ^ (k - 52) := by
        gcongr
        exact hlt
    _ = y.toRat := hn.symm

end Binary64

/-! ## Instants -/

namespace Instant

variable {x y : Binary64} {s t : Instant}

theorem ofEpochSeconds?_mono (hs : ofEpochSeconds? x = some s) (ht : ofEpochSeconds? y = some t)
    (h : x.toRat ≤ y.toRat) : s ≤ t := by
  obtain ⟨-, rfl, -⟩ := ofEpochSeconds?_eq_some_iff.mp hs
  obtain ⟨-, rfl, -⟩ := ofEpochSeconds?_eq_some_iff.mp ht
  rw [le_def]
  unfold ofParts nanosecondsPerSecond
  dsimp only
  rcases (Rat.floor_monotone h).eq_or_lt with hfloor | hfloor
  · have hsubsecond := Binary64.subsecondNanoseconds_mono hfloor h
    omega
  · -- what is left of the earlier second is at most that second
    have hearlier := x.subsecondNanoseconds_bounds.2
    have hlater := y.subsecondNanoseconds_bounds.1
    omega

theorem ofEpochSeconds?_strictMono (hs : ofEpochSeconds? x = some s)
    (ht : ofEpochSeconds? y = some t) (hx : 2 ^ 23 ≤ |x.toRat|) (hy : 2 ^ 23 ≤ |y.toRat|)
    (h : x.toRat < y.toRat) : s < t := by
  have hgap := Binary64.add_spacing_le (k := 23) (by exact_mod_cast hx) (by exact_mod_cast hy) h
  have hearlier := (abs_le.mp (abs_nanoseconds_sub_le hs)).2
  have hlater := (abs_le.mp (abs_nanoseconds_sub_le ht)).1
  have hvalue : (s.nanoseconds : ℚ) < t.nanoseconds := by
    norm_num at hgap hearlier hlater
    linarith
  exact lt_def.mpr (Int.cast_lt.mp hvalue)

end Instant

/-! ## Traces -/

/-- Where the starts are large, the order of the instants is that of the reported times. -/
theorem Segment.seconds_le_of_startDate_le {a b : Segment} (ha : 2 ^ 23 ≤ |a.start.seconds.toRat|)
    (hb : 2 ^ 23 ≤ |b.start.seconds.toRat|) (h : a.startDate ≤ b.startDate) :
    a.start.seconds.toRat ≤ b.start.seconds.toRat := by
  by_contra hlt
  have hdates := Instant.ofEpochSeconds?_strictMono b.start.instant_eq a.start.instant_eq hb ha
    (not_le.mp hlt)
  exact absurd h (not_le.mpr hdates)

namespace Trace

theorem pairwise_seconds {rule : CompletionRule} {arrivals : List Segment}
    (h : ∀ s ∈ (ofArrivals rule arrivals).segments, 2 ^ 23 ≤ |s.start.seconds.toRat|) :
    (ofArrivals rule arrivals).segments.Pairwise fun a b =>
      a.start.seconds.toRat ≤ b.start.seconds.toRat := by
  rw [segments_ofArrivals] at h ⊢
  refine (pairwise_inStartOrder arrivals).imp_of_mem fun ha hb hle => ?_
  exact Segment.seconds_le_of_startDate_le (h _ ha) (h _ hb) hle

end Trace

/-- Of two times that denote instants, the earlier one denotes no later instant, and an earlier one
if both are at least `2 ^ 23` seconds away from the epoch. So a stored trace with such starts only
has its segments in the order of the reported times. -/
theorem dates_follow_times :
    (∀ (x y : Binary64) (s t : Instant), Instant.ofEpochSeconds? x = some s →
      Instant.ofEpochSeconds? y = some t →
      (x.toRat ≤ y.toRat → s ≤ t) ∧
      (x.toRat < y.toRat → 2 ^ 23 ≤ |x.toRat| → 2 ^ 23 ≤ |y.toRat| → s < t)) ∧
    ∀ (rule : CompletionRule) (arrivals : List Segment) (id : String) (t : Trace),
      (TraceStore.ofArrivals rule arrivals).get? id = some t →
      (∀ s ∈ t.segments, 2 ^ 23 ≤ |s.start.seconds.toRat|) →
      t.segments.Pairwise fun a b => a.start.seconds.toRat ≤ b.start.seconds.toRat := by
  constructor
  · intro x y s t hs ht
    refine ⟨Instant.ofEpochSeconds?_mono hs ht, fun hlt hx hy => ?_⟩
    exact Instant.ofEpochSeconds?_strictMono hs ht hx hy hlt
  · intro rule arrivals id t ht hlarge
    obtain rfl := TraceStore.eq_of_get?_ofArrivals ht
    exact Trace.pairwise_seconds hlarge

/-- The number `2 ^ 23`, and the one above it. -/
def adjacentStarts : Binary64 × Binary64 :=
  (⟨false, ⟨4710765210229538816, by decide⟩⟩, ⟨false, ⟨4710765210229538817, by decide⟩⟩)

/-- Two segments of one trace whose starts are as close as they can be, the later one first. -/
def adjacentArrivals : List Segment :=
  [⟨"a", "1-0-t", "api", ⟨adjacentStarts.2, ⟨8388608000000002⟩, by decide +kernel⟩, none, none, ∅⟩,
    ⟨"b", "1-0-t", "api", ⟨adjacentStarts.1, ⟨8388608000000000⟩, by decide +kernel⟩, none, none, ∅⟩]

/-- Their instants differ, and the trace has them in the order of the times. -/
theorem dates_follow_times_adjacent :
    adjacentStarts.1.toRat < adjacentStarts.2.toRat ∧
      2 ^ 23 ≤ |adjacentStarts.1.toRat| ∧ 2 ^ 23 ≤ |adjacentStarts.2.toRat| ∧
      (∃ s t, Instant.ofEpochSeconds? adjacentStarts.1 = some s ∧
        Instant.ofEpochSeconds? adjacentStarts.2 = some t ∧ s < t) ∧
      ∃ t, (TraceStore.ofArrivals .lastSegment adjacentArrivals).get? "1-0-t" = some t ∧
        t.segments.map (·.id) = ["b", "a"] ∧
        t.segments.Pairwise fun a b => a.start.seconds.toRat ≤ b.start.seconds.toRat := by
  have hlt : adjacentStarts.1.toRat < adjacentStarts.2.toRat := by decide +kernel
  have hfirst : 2 ^ 23 ≤ |adjacentStarts.1.toRat| := by decide +kernel
  have hsecond : 2 ^ 23 ≤ |adjacentStarts.2.toRat| := by decide +kernel
  have hearlier : Instant.ofEpochSeconds? adjacentStarts.1 = some ⟨8388608000000000⟩ := by
    decide +kernel
  have hlater : Instant.ofEpochSeconds? adjacentStarts.2 = some ⟨8388608000000002⟩ := by
    decide +kernel
  have hget : (TraceStore.ofArrivals .lastSegment adjacentArrivals).get? "1-0-t" =
      some (Trace.ofArrivals .lastSegment adjacentArrivals) := rfl
  obtain ⟨hdates, htraces⟩ := dates_follow_times
  refine ⟨hlt, hfirst, hsecond,
    ⟨_, _, hearlier, hlater, (hdates _ _ _ _ hearlier hlater).2 hlt hfirst hsecond⟩,
    _, hget, by decide +kernel, htraces _ _ _ _ hget ?_⟩
  intro s hs
  rw [Trace.segments_ofArrivals, mem_inStartOrder] at hs
  rcases List.mem_pair.mp hs with rfl | rfl
  · exact hsecond
  · exact hfirst

end TraceCollector
