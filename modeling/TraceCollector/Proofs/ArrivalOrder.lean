import Mathlib.Order.Bounds.Basic
import TraceCollector.Proofs.Summaries

/-!
# The order of arrival

When the order in which the segments of a trace arrive makes no difference.

1. If all segments that start last are closed, a completion rule is satisfied by any order of them
   (`CompletionRule.LatestClosed.settles`): whichever of them stands last is closed.
2. A trace whose rule is satisfied by all of its arrivals has the window over all of them
   (`Trace.ofArrivals_of_settles`), and there is only one such window (`Window.Spans.unique`).
3. A summary is made of the window and the flags, and these do not know of any order
   (`Trace.summary?_of_perm`).
-/

namespace TraceCollector

/-! ## Closed at the end -/

/-- Of a trace's segments those that start last are closed, or all are, as the rule has it. -/
def CompletionRule.LatestClosed : CompletionRule → List Segment → Prop
  | .lastSegment, segments =>
    ∀ s ∈ segments, (∀ t ∈ segments, t.startDate ≤ s.startDate) → s.isClosed = true
  | .allSegments, segments => ∀ s ∈ segments, s.isClosed = true

namespace CompletionRule.LatestClosed

variable {rule : CompletionRule} {segments arrivals : List Segment}

theorem of_forall_isClosed (rule : CompletionRule) (h : ∀ s ∈ segments, s.isClosed = true) :
    rule.LatestClosed segments := by
  cases rule with
  | lastSegment => exact fun s hs _ => h s hs
  | allSegments => exact h

theorem of_perm (h : rule.LatestClosed segments) (hperm : arrivals.Perm segments) :
    rule.LatestClosed arrivals := by
  cases rule with
  | lastSegment =>
    intro s hs hlatest
    exact h s (hperm.mem_iff.mp hs) fun t ht => hlatest t (hperm.mem_iff.mpr ht)
  | allSegments => exact fun s hs => h s (hperm.mem_iff.mp hs)

/-- Whichever of the latest segments arrives first, it is closed. -/
theorem settles (h : rule.LatestClosed arrivals) (hne : arrivals ≠ []) :
    rule.Settles arrivals := by
  cases rule with
  | lastSegment =>
    -- of the segments that start last, the one that arrives first decides
    obtain ⟨before, s, after, rfl, hbefore, hafter⟩ := exists_latest hne
    refine ⟨before, s, after, rfl, hbefore, hafter, h s (by simp) fun t ht => ?_⟩
    rcases List.mem_append.mp ht with ht | ht
    · exact (hbefore t ht).le
    · rcases List.mem_cons.mp ht with rfl | ht
      · exact le_rfl
      · exact hafter t ht
  | allSegments => exact h

end CompletionRule.LatestClosed

/-! ## Windows over the same segments -/

namespace Window.Spans

variable {v w : Window} {segments arrivals : List Segment}

theorem of_perm (h : w.Spans arrivals) (hperm : arrivals.Perm segments) : w.Spans segments := by
  unfold Window.Spans at h ⊢
  simpa only [hperm.mem_iff] using h

theorem unique (hv : v.Spans segments) (hw : w.Spans segments) : v = w := by
  have hstart := IsLeast.unique hv.1 hw.1
  have hstop := IsGreatest.unique hv.2 hw.2
  cases v
  cases w
  cases hstart
  cases hstop
  rfl

end Window.Spans

namespace Trace

variable {rule : CompletionRule} {arrivals others : List Segment}

/-- An arrival that satisfies the rule takes the window over all arrivals. -/
theorem ofArrivals_of_settles (h : rule.Settles arrivals) (hne : arrivals ≠ []) :
    (ofArrivals rule arrivals).finished = true ∧
      ∃ w, (ofArrivals rule arrivals).window? = some w ∧ w.Spans arrivals := by
  obtain ⟨w, hw, hspans⟩ := exists_spanning (CompletionRule.exists_isClosed h hne)
  obtain ⟨before, s, rfl⟩ := (List.eq_nil_or_concat' arrivals).resolve_left hne
  rw [ofArrivals_concat_of_settles h]
  exact ⟨rfl, w, hw, hspans⟩

theorem anyHasExtension_of_perm (hperm : arrivals.Perm others) (key : String) :
    (ofArrivals rule arrivals).anyHasExtension key =
      (ofArrivals rule others).anyHasExtension key := by
  rw [Bool.eq_iff_iff, anyHasExtension_ofArrivals, anyHasExtension_ofArrivals]
  simp only [hperm.mem_iff]

/-- Traces of the same segments with the same window have the same summary. -/
theorem summary?_of_perm (hperm : arrivals.Perm others)
    (hwindow : (ofArrivals rule arrivals).window? = (ofArrivals rule others).window?)
    (q : SummaryQuery) (id : String) :
    TraceStore.summary? q id (ofArrivals rule arrivals) =
      TraceStore.summary? q id (ofArrivals rule others) := by
  unfold TraceStore.summary? TraceSummary.ofTrace
  simp only [hwindow, anyHasExtension_of_perm hperm]

end Trace

/-! ## In a store -/

namespace TraceStore

theorem summarize?_filter_congr {store other : TraceStore} (h : store.traces.Ordered)
    (hother : other.traces.Ordered) {q : SummaryQuery} {id : String}
    (hsame : (store.get? id).bind (summary? q id) = (other.get? id).bind (summary? q id))
    (now : ℤ) :
    (store.summarize? q now).map (·.summaries.filter (·.id = id)) =
      (other.summarize? q now).map (·.summaries.filter (·.id = id)) := by
  unfold summarize?
  by_cases hq : q.hasFilter = true
  · rw [if_pos hq, if_pos hq]
  · rw [if_neg hq, if_neg hq, Option.map_some, Option.map_some, filter_summaries h,
      filter_summaries hother, hsame]

/-- In any order, and with any other arrivals in between, the segments of a trace that is closed at
its end make it finished, with the window over all of them. -/
theorem get?_of_latestClosed {rule : CompletionRule} {id : String}
    {segments arrivals : List Segment} (hne : segments ≠ [])
    (hclosed : rule.LatestClosed segments) (hperm : (arrivalsOf id arrivals).Perm segments) :
    (ofArrivals rule arrivals).get? id =
        some (Trace.ofArrivals rule (arrivalsOf id arrivals)) ∧
      (Trace.ofArrivals rule (arrivalsOf id arrivals)).finished = true ∧
      ∃ w, (Trace.ofArrivals rule (arrivalsOf id arrivals)).window? = some w ∧
        w.Spans segments := by
  have hown : arrivalsOf id arrivals ≠ [] := by
    intro hnil
    rw [hnil, List.nil_perm] at hperm
    exact hne hperm
  obtain ⟨hfinished, w, hw, hspans⟩ :=
    Trace.ofArrivals_of_settles ((hclosed.of_perm hperm).settles hown) hown
  refine ⟨?_, hfinished, w, hw, hspans.of_perm hperm⟩
  rw [get?_ofArrivals, if_neg hown]

/-- Where the latest segments of a trace are closed, the trace ends up finished with the window over
all of its segments, in whatever order they arrive and whatever arrives in between. So a query is
told the same of it. -/
theorem arrival_order_irrelevant (rule : CompletionRule) (id : String) (segments : List Segment)
    (hne : segments ≠ []) (hclosed : rule.LatestClosed segments) :
    ∃ w : Window,
      IsLeast {d | ∃ s ∈ segments, s.startDate = d} w.start ∧
      IsGreatest {d | ∃ s ∈ segments, s.endDate? = some d} w.stop ∧
      (∀ arrivals, (arrivalsOf id arrivals).Perm segments →
        ∃ t, (ofArrivals rule arrivals).get? id = some t ∧ t.finished = true ∧
          t.window? = some w) ∧
      ∀ arrivals others, (arrivalsOf id arrivals).Perm segments →
        (arrivalsOf id others).Perm segments → ∀ (q : SummaryQuery) (now : ℤ),
        ((ofArrivals rule arrivals).summarize? q now).map (·.summaries.filter (·.id = id)) =
          ((ofArrivals rule others).summarize? q now).map (·.summaries.filter (·.id = id)) := by
  obtain ⟨-, w, -, hspans⟩ := Trace.ofArrivals_of_settles (hclosed.settles hne) hne
  refine ⟨w, hspans.1, hspans.2, fun arrivals hperm => ?_,
    fun arrivals others hperm hothers q now => ?_⟩
  · obtain ⟨hget, hfinished, v, hv, hvspans⟩ := get?_of_latestClosed hne hclosed hperm
    rw [hvspans.unique hspans] at hv
    exact ⟨_, hget, hfinished, hv⟩
  · obtain ⟨hget, -, v, hv, hvspans⟩ := get?_of_latestClosed hne hclosed hperm
    obtain ⟨hgets, -, u, hu, huspans⟩ := get?_of_latestClosed hne hclosed hothers
    rw [hvspans.unique huspans] at hv
    refine summarize?_filter_congr (ordered_ofArrivals rule arrivals)
      (ordered_ofArrivals rule others) ?_ now
    rw [hget, hgets, Option.bind_some, Option.bind_some]
    exact Trace.summary?_of_perm (hperm.trans hothers.symm) (hv.trans hu.symm) q id

/-- An open segment, one of another trace, and two closed ones that start last. -/
def tiedArrivals : List Segment :=
  [⟨"a", "1-0-t", "api", .ofWhole 15 (by decide +kernel), none, none, ∅⟩,
    ⟨"b", "1-0-u", "api", .ofWhole 35 (by decide +kernel), none, none, ∅⟩,
    ⟨"c", "1-0-t", "api", .ofWhole 25 (by decide +kernel), some (.ofWhole 65 (by decide +kernel)),
      none, ∅⟩,
    ⟨"d", "1-0-t", "api", .ofWhole 25 (by decide +kernel), some (.ofWhole 55 (by decide +kernel)),
      none, ∅⟩]

/-- The open segment may come first or last. -/
theorem arrival_order_irrelevant_tiedArrivals :
    arrivalsOf "1-0-t" tiedArrivals ≠ [] ∧
      CompletionRule.lastSegment.LatestClosed (arrivalsOf "1-0-t" tiedArrivals) ∧
      ∃ w t t', (ofArrivals .lastSegment tiedArrivals).get? "1-0-t" = some t ∧
        t.window? = some w ∧
        (ofArrivals .lastSegment tiedArrivals.reverse).get? "1-0-t" = some t' ∧
        t'.window? = some w := by
  have hne : arrivalsOf "1-0-t" tiedArrivals ≠ [] := by decide
  have hclosed : CompletionRule.lastSegment.LatestClosed (arrivalsOf "1-0-t" tiedArrivals) := by
    unfold CompletionRule.LatestClosed
    decide
  have hreverse : (arrivalsOf "1-0-t" tiedArrivals.reverse).Perm
      (arrivalsOf "1-0-t" tiedArrivals) := (List.reverse_perm tiedArrivals).filter _
  obtain ⟨w, -, -, hall, -⟩ := arrival_order_irrelevant .lastSegment "1-0-t"
    (arrivalsOf "1-0-t" tiedArrivals) hne hclosed
  obtain ⟨t, ht, -, hw⟩ := hall tiedArrivals (List.Perm.refl _)
  obtain ⟨t', ht', -, hw'⟩ := hall tiedArrivals.reverse hreverse
  exact ⟨hne, hclosed, w, t, t', ht, hw, ht', hw'⟩

end TraceStore

end TraceCollector
