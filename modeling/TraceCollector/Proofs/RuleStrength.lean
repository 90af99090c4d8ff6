import TraceCollector.Proofs.ArrivalOrder
import TraceCollector.Proofs.WindowGrowth

/-!
# The strength of completion rules

Two stores are given the same segments, one under each rule.

1. Where all segments are closed, so is the last one. So every finishing point under the rule of
   all segments is one under the rule of the last (`FinishingPoint.lastSegment`), and the trace
   there covers the trace here.
2. The rules agree on a trace that has closed segments only (`Trace.ofArrivals_of_allClosed`).
-/

namespace TraceCollector

theorem CompletionRule.Settles.lastSegment {arrivals : List Segment}
    (h : CompletionRule.allSegments.Settles arrivals) (hne : arrivals ≠ []) :
    CompletionRule.lastSegment.Settles arrivals := by
  obtain ⟨before, s, after, rfl, hbefore, hafter⟩ := exists_latest hne
  exact ⟨before, s, after, rfl, hbefore, hafter, h s (by simp)⟩

theorem FinishingPoint.lastSegment {arrivals : List Segment} {k : ℕ}
    (h : FinishingPoint .allSegments arrivals k) : FinishingPoint .lastSegment arrivals k := by
  obtain ⟨hpos, hle, hsettles⟩ := h
  refine ⟨hpos, hle, hsettles.lastSegment fun hnil => ?_⟩
  have hlength : (arrivals.take k).length = k := List.length_take_of_le hle
  rw [hnil, List.length_nil] at hlength
  omega

namespace Trace

theorem covers_of_allSegments (arrivals : List Segment) :
    (ofArrivals .lastSegment arrivals).Covers (ofArrivals .allSegments arrivals) :=
  covers_of_finishingPoints List.prefix_rfl fun _ h => h.lastSegment

/-- Closed segments satisfy both rules, so both take the one window over all of them. -/
theorem ofArrivals_of_allClosed {arrivals : List Segment} (hne : arrivals ≠ [])
    (h : CompletionRule.allSegments.Settles arrivals) :
    ofArrivals .lastSegment arrivals = ofArrivals .allSegments arrivals := by
  obtain ⟨hfinished, v, hv, hvspans⟩ := ofArrivals_of_settles h hne
  obtain ⟨hfinished', w, hw, hwspans⟩ := ofArrivals_of_settles (h.lastSegment hne) hne
  have hsegments : (ofArrivals .lastSegment arrivals).segments =
      (ofArrivals .allSegments arrivals).segments := by
    rw [segments_ofArrivals, segments_ofArrivals]
  have hwindow : (ofArrivals .lastSegment arrivals).window? =
      (ofArrivals .allSegments arrivals).window? := by
    rw [hv, hw, hwspans.unique hvspans]
  calc ofArrivals .lastSegment arrivals
      = ⟨(ofArrivals .lastSegment arrivals).segments, (ofArrivals .lastSegment arrivals).finished,
          (ofArrivals .lastSegment arrivals).window?⟩ := rfl
    _ = ⟨(ofArrivals .allSegments arrivals).segments, (ofArrivals .allSegments arrivals).finished,
          (ofArrivals .allSegments arrivals).window?⟩ := by
        rw [hsegments, hwindow, hfinished, hfinished']

end Trace

namespace TraceStore

/-- The rule of all segments is the stronger one. Given the same arrivals, both stores hold the same
segments for every trace; what is finished under it is finished where the last segment decides, with
a window that contains the other; and on closed segments there is no difference. -/
theorem allSegments_stronger (arrivals : List Segment) (id : String) :
    ((ofArrivals .allSegments arrivals).get? id = none ↔
      (ofArrivals .lastSegment arrivals).get? id = none) ∧
    ∀ t, (ofArrivals .allSegments arrivals).get? id = some t →
      ∃ u, (ofArrivals .lastSegment arrivals).get? id = some u ∧ u.segments = t.segments ∧
        (t.finished = true → u.finished = true ∧
          ∃ v w, t.window? = some v ∧ u.window? = some w ∧ w.start ≤ v.start ∧ v.stop ≤ w.stop) ∧
        ((∀ s ∈ arrivals, s.traceId = id → s.isClosed = true) → u = t) := by
  refine ⟨?_, fun t h => ?_⟩
  · rw [get?_ofArrivals_eq_none_iff, get?_ofArrivals_eq_none_iff]
  have hne : arrivalsOf id arrivals ≠ [] := by
    intro hnil
    rw [get?_ofArrivals, if_pos hnil] at h
    exact Option.some_ne_none t h.symm
  refine ⟨Trace.ofArrivals .lastSegment (arrivalsOf id arrivals), ?_, ?_⟩
  · rw [get?_ofArrivals, if_neg hne]
  rw [eq_of_get?_ofArrivals h]
  refine ⟨?_, Trace.covers_of_allSegments _, fun hclosed => ?_⟩
  · rw [Trace.segments_ofArrivals, Trace.segments_ofArrivals]
  · refine Trace.ofArrivals_of_allClosed hne fun s hs => ?_
    obtain ⟨hmem, hid⟩ := mem_arrivalsOf.mp hs
    exact hclosed s hmem hid

/-- The open segment in between holds up one rule for good, and the other for a while. -/
theorem allSegments_stronger_lateArrivals :
    ∃ t u v w, (ofArrivals .allSegments (reopenedArrivals ++ lateArrivals)).get? "1-0-t" = some t ∧
      (ofArrivals .lastSegment (reopenedArrivals ++ lateArrivals)).get? "1-0-t" = some u ∧
      u.segments = t.segments ∧ t.window? = some v ∧ v.stop = .ofParts 50 0 ∧
      u.window? = some w ∧ v.stop ≤ w.stop ∧ u ≠ t := by
  have hget : (ofArrivals .allSegments (reopenedArrivals ++ lateArrivals)).get? "1-0-t" =
      some (Trace.ofArrivals .allSegments
        (arrivalsOf "1-0-t" (reopenedArrivals ++ lateArrivals))) := by
    rw [get?_ofArrivals, if_neg (by decide)]
  have hwindow : (Trace.ofArrivals .allSegments
      (arrivalsOf "1-0-t" (reopenedArrivals ++ lateArrivals))).window? =
        some ⟨.ofParts 10 0, .ofParts 50 0⟩ := by decide +kernel
  have hlater : (Trace.ofArrivals .lastSegment
      (arrivalsOf "1-0-t" (reopenedArrivals ++ lateArrivals))).window? =
        some ⟨.ofParts 10 0, .ofParts 90 0⟩ := by decide +kernel
  obtain ⟨u, hu, hsegments, hfinished, -⟩ :=
    (allSegments_stronger (reopenedArrivals ++ lateArrivals) "1-0-t").2 _ hget
  obtain ⟨-, v, w, hv, hw, -, hstop⟩ := hfinished (finished_of_get?_ofArrivals hget hwindow)
  refine ⟨_, u, v, w, hget, hu, hsegments, hv, ?_, hw, hstop, fun hsame => ?_⟩
  · rw [hwindow] at hv
    cases hv
    rfl
  · rw [eq_of_get?_ofArrivals hu] at hsame
    rw [← hsame, hlater] at hwindow
    exact absurd hwindow (by decide)

end TraceStore

end TraceCollector
