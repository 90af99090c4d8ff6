import Mathlib.Order.Bounds.Basic
import TraceCollector.Proofs.Summaries

/-!
# Growing windows

What further arrivals can do to a trace.

1. The window over some segments contains the window over fewer of them (`Window.Spans.contains`).
2. A finishing point is one whatever arrives after it, and the last one only moves on. So a trace
   with all the finishing points of another covers it (`Trace.covers_of_finishingPoints`): it is
   finished if the other is, with a window that contains the other's.
3. So windows only widen, and a window that a query does not admit is never admitted later
   (`SummaryQuery.Admits.of_contains`).
-/

namespace TraceCollector

/-! ## Windows -/

/-- The window starts no later than the other and stops no earlier. -/
def Window.Contains (w v : Window) : Prop := w.start ≤ v.start ∧ v.stop ≤ w.stop

theorem Window.Spans.contains {v w : Window} {arrivals others : List Segment}
    (hw : w.Spans others) (hv : v.Spans arrivals) (h : arrivals ⊆ others) : w.Contains v := by
  constructor
  · obtain ⟨s, hs, hstart⟩ := hv.1.1
    exact hw.1.2 ⟨s, h hs, hstart⟩
  · obtain ⟨s, hs, hstop⟩ := hv.2.1
    exact hw.2.2 ⟨s, h hs, hstop⟩

/-- Dropping the rest of a division keeps the order, whatever the signs are. -/
theorem Window.Contains.wholeSecondsBetween_le {v w : Window} (h : w.Contains v) :
    Instant.wholeSecondsBetween v.start v.stop ≤ Instant.wholeSecondsBetween w.start w.stop := by
  have hlength : v.stop.nanoseconds - v.start.nanoseconds ≤
      w.stop.nanoseconds - w.start.nanoseconds :=
    Int.sub_le_sub (Instant.le_def.mp h.2) (Instant.le_def.mp h.1)
  exact Int.tdiv_le_tdiv (by decide) hlength

/-- A query that admits a window admits every window inside it. -/
theorem SummaryQuery.Admits.of_contains {q : SummaryQuery} {v w : Window} (hw : q.Admits w)
    (h : w.Contains v) : q.Admits v :=
  ⟨hw.1.trans_le h.1, h.2.trans_lt hw.2⟩

/-! ## Finishing points -/

/-- What arrives later does not undo a finishing point. -/
theorem FinishingPoint.append {rule : CompletionRule} {arrivals : List Segment} {k : ℕ}
    (h : FinishingPoint rule arrivals k) (later : List Segment) :
    FinishingPoint rule (arrivals ++ later) k := by
  obtain ⟨hpos, hle, hsettles⟩ := h
  refine ⟨hpos, ?_, ?_⟩
  · rw [List.length_append]
    omega
  · rwa [List.take_append_of_le_length hle]

namespace Trace

/-- If the other trace is finished, so is this one, and its window contains the other's. -/
def Covers (t other : Trace) : Prop :=
  other.finished = true → t.finished = true ∧
    ∃ v w, other.window? = some v ∧ t.window? = some w ∧ w.Contains v

/-- Finishing points decide: the trace of more arrivals covers the trace of the first of them, if it
has the same finishing points and maybe others. -/
theorem covers_of_finishingPoints {rule rule' : CompletionRule} {arrivals others : List Segment}
    (hgrown : arrivals <+: others)
    (hpoints : ∀ k, FinishingPoint rule arrivals k → FinishingPoint rule' others k) :
    (ofArrivals rule' others).Covers (ofArrivals rule arrivals) := by
  intro hfinished
  rcases ofArrivals_cases rule arrivals with ⟨hopen, -, -⟩ | ⟨-, k, v, hk, hv, hvspans⟩
  · rw [hopen] at hfinished
    exact absurd hfinished Bool.false_ne_true
  rcases ofArrivals_cases rule' others with ⟨-, -, hnot⟩ | ⟨hfinished', k', w, hk', hw, hwspans⟩
  · exact absurd (hpoints k hk.1) (hnot k)
  refine ⟨hfinished', v, w, hv, hw, hwspans.contains hvspans ?_⟩
  -- the last finishing point of the others is not before the last one here
  have hle : k ≤ k' := hk'.2 (hpoints k hk.1)
  obtain ⟨later, rfl⟩ := hgrown
  rw [← List.take_append_of_le_length hk.1.2.1]
  exact List.take_subset_take_left _ hle

theorem covers_append (rule : CompletionRule) (arrivals later : List Segment) :
    (ofArrivals rule (arrivals ++ later)).Covers (ofArrivals rule arrivals) :=
  covers_of_finishingPoints (List.prefix_append _ _) fun _ h => h.append later

theorem anyHasExtension_append {rule : CompletionRule} {arrivals : List Segment} {key : String}
    (h : (ofArrivals rule arrivals).anyHasExtension key = true) (later : List Segment) :
    (ofArrivals rule (arrivals ++ later)).anyHasExtension key = true := by
  obtain ⟨s, hs, hkey⟩ := anyHasExtension_ofArrivals.mp h
  exact anyHasExtension_ofArrivals.mpr ⟨s, List.mem_append_left _ hs, hkey⟩

end Trace

/-! ## In a store -/

namespace TraceStore

/-- A trace that covers a finished one is left out of the answer to a query if that is. -/
theorem not_mem_summaries_of_covers {store other : TraceStore} (h : store.traces.Ordered)
    (hother : other.traces.Ordered) {id : String} {t t' : Trace} (ht : store.get? id = some t)
    (ht' : other.get? id = some t') (hcovers : t'.Covers t) (hfinished : t.finished = true)
    {q : SummaryQuery} (hout : ∀ s ∈ store.summaries q, s.id ≠ id) :
    ∀ s ∈ other.summaries q, s.id ≠ id := by
  rintro s hs rfl
  obtain ⟨-, v, w, hv, hw, hcontains⟩ := hcovers hfinished
  obtain ⟨u, w', hu, hw', hadmits⟩ := exists_of_mem_summaries hother hs
  rw [ht'] at hu
  cases hu
  rw [hw] at hw'
  cases hw'
  have hown := filter_summaries_of_admits h ht hv (hadmits.of_contains hcontains)
  have hmem : TraceSummary.ofTrace s.id t v ∈ (store.summaries q).filter (·.id = s.id) := by
    rw [hown]
    exact List.mem_singleton_self _
  exact hout _ (List.mem_of_mem_filter hmem) rfl

/-- Whatever arrives later, a finished trace stays finished, its window is never narrowed, so that
its duration does not get less, and its flags stay set. A query without a filter that leaves a
finished trace out once leaves it out for good. -/
theorem windows_only_widen (rule : CompletionRule) (arrivals later : List Segment) (id : String)
    (t : Trace) (h : (ofArrivals rule arrivals).get? id = some t) :
    ∃ t', (ofArrivals rule (arrivals ++ later)).get? id = some t' ∧
      (t.finished = true → t'.finished = true) ∧
      (∀ v, t.window? = some v → ∃ w, t'.window? = some w ∧
        w.start ≤ v.start ∧ v.stop ≤ w.stop ∧
        (TraceSummary.ofTrace id t v).duration ≤ (TraceSummary.ofTrace id t' w).duration) ∧
      (∀ v w, let s := TraceSummary.ofTrace id t v
        let s' := TraceSummary.ofTrace id t' w
        (s.hasError = true → s'.hasError = true) ∧ (s.hasFault = true → s'.hasFault = true) ∧
          (s.hasThrottle = true → s'.hasThrottle = true)) ∧
      (t.finished = true → ∀ (q : SummaryQuery) (now now' : ℤ),
        (q.filter? = none ∨ q.filter? = some "") →
        ∃ r r', (ofArrivals rule arrivals).summarize? q now = some r ∧
          (ofArrivals rule (arrivals ++ later)).summarize? q now' = some r' ∧
          ((∀ s ∈ r.summaries, s.id ≠ id) → ∀ s ∈ r'.summaries, s.id ≠ id)) := by
  have ht := eq_of_get?_ofArrivals h
  have h' := get?_ofArrivals_append h later
  have ht' := eq_of_get?_ofArrivals h'
  rw [arrivalsOf_append] at ht'
  have hcovers := Trace.covers_append rule (arrivalsOf id arrivals) (arrivalsOf id later)
  rw [← ht, ← ht'] at hcovers
  have hflag : ∀ key, t.anyHasExtension key = true → _ := fun key hkey =>
    Trace.anyHasExtension_append (ht ▸ hkey) (arrivalsOf id later)
  rw [← ht'] at hflag
  refine ⟨_, h', fun hfinished => (hcovers hfinished).1, fun v hv => ?_,
    fun _ _ => ⟨hflag "error", hflag "fault", hflag "throttle"⟩,
    fun hfinished q now now' hfilter => ?_⟩
  · obtain ⟨-, v', w, hv', hw, hcontains⟩ := hcovers (finished_of_get?_ofArrivals h hv)
    rw [hv] at hv'
    cases hv'
    exact ⟨w, hw, hcontains.1, hcontains.2, hcontains.wholeSecondsBetween_le⟩
  · have hnone := hasFilter_eq_false hfilter
    exact ⟨_, _, summarize?_of_not_hasFilter _ hnone now, summarize?_of_not_hasFilter _ hnone now',
      fun hout => not_mem_summaries_of_covers (ordered_ofArrivals _ _) (ordered_ofArrivals _ _) h h'
        hcovers hfinished hout⟩

/-- After the trace was reopened, a closed segment arrives that starts and ends last. -/
def lateArrivals : List Segment :=
  [⟨"e", "1-0-t", "api", .ofWhole 45 (by decide +kernel), some (.ofWhole 90 (by decide +kernel)),
    none, ∅⟩]

/-- The window stopped too late for the query before, and stops even later now. -/
theorem windows_only_widen_lateArrivals :
    ∃ t t' v w, (ofArrivals .lastSegment reopenedArrivals).get? "1-0-t" = some t ∧
      t.window? = some v ∧ v.stop = .ofParts 50 0 ∧
      (ofArrivals .lastSegment (reopenedArrivals ++ lateArrivals)).get? "1-0-t" = some t' ∧
      t'.window? = some w ∧ v.stop ≤ w.stop ∧
      ∃ r', (ofArrivals .lastSegment (reopenedArrivals ++ lateArrivals)).summarize?
          ⟨.ofParts 0 0, .ofParts 50 0, none, false⟩ 0 = some r' ∧
        ∀ s ∈ r'.summaries, s.id ≠ "1-0-t" := by
  have hget : (ofArrivals .lastSegment reopenedArrivals).get? "1-0-t" =
      some (Trace.ofArrivals .lastSegment (arrivalsOf "1-0-t" reopenedArrivals)) := by
    rw [get?_ofArrivals, if_neg (by decide)]
  have hwindow : (Trace.ofArrivals .lastSegment (arrivalsOf "1-0-t" reopenedArrivals)).window? =
      some ⟨.ofParts 10 0, .ofParts 50 0⟩ := by decide +kernel
  obtain ⟨t', ht', -, hwidens, -, hout⟩ :=
    windows_only_widen .lastSegment reopenedArrivals lateArrivals "1-0-t" _ hget
  obtain ⟨w, hw, -, hstop, -⟩ := hwidens _ hwindow
  obtain ⟨r, r', hr, hr', hkept⟩ := hout (finished_of_get?_ofArrivals hget hwindow)
    ⟨.ofParts 0 0, .ofParts 50 0, none, false⟩ 0 0 (Or.inl rfl)
  refine ⟨_, t', _, w, hget, hwindow, rfl, ht', hw, hstop, r', hr', hkept ?_⟩
  have hids : ((ofArrivals .lastSegment reopenedArrivals).summaries
      ⟨.ofParts 0 0, .ofParts 50 0, none, false⟩).map (·.id) = [] := by decide +kernel
  rw [summarize?_of_not_hasFilter _ rfl] at hr
  cases hr
  rw [List.map_eq_nil_iff.mp hids]
  exact fun s hs => absurd hs List.not_mem_nil

end TraceStore

end TraceCollector
