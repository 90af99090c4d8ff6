import TraceCollector.Proofs.FinishingPoints
import TraceCollector.Summary

/-!
# Summaries

Which traces answer a query, and what is told of them.

1. The summaries with a given id are those of the one trace under that id (`filter_summaries`).
2. A trace that has a window is finished (`Trace.finished_of_window?`), and its flags look at every
   arrival, also at those behind its last finishing point (`Trace.anyHasExtension_ofArrivals`).
3. So the answer to a query is exact (`answer_exact`): one summary for each finished trace whose
   window lies strictly inside the bounds, and no other.
-/

namespace TraceCollector

/-- A segment with a further field of this key has been put into the trace, whatever it holds. -/
def Flagged (arrivals : List Segment) (id key : String) : Prop :=
  ∃ s ∈ arrivals, s.traceId = id ∧ ∃ v, s.extensions.get? key = some v

/-! ## One trace -/

namespace Trace

variable {rule : CompletionRule} {arrivals : List Segment}

theorem finished_of_window? {w : Window} (h : (ofArrivals rule arrivals).window? = some w) :
    (ofArrivals rule arrivals).finished = true := by
  rcases ofArrivals_cases rule arrivals with ⟨-, hnone, -⟩ | ⟨hfinished, -⟩
  · rw [hnone] at h
    exact absurd h.symm (Option.some_ne_none w)
  · exact hfinished

theorem anyHasExtension_ofArrivals {key : String} :
    (ofArrivals rule arrivals).anyHasExtension key = true ↔
      ∃ s ∈ arrivals, s.hasExtension key = true := by
  unfold anyHasExtension
  rw [segments_ofArrivals, List.any_eq_true]
  simp only [mem_inStartOrder]

end Trace

namespace TraceStore

theorem summary?_eq_some_iff {q : SummaryQuery} {id : String} {t : Trace} {s : TraceSummary} :
    summary? q id t = some s ↔
      ∃ w, t.window? = some w ∧ q.Admits w ∧ s = .ofTrace id t w := by
  unfold summary?
  cases t.window? with
  | none => simp
  | some w =>
    by_cases h : q.Admits w
    · simp [h, eq_comm]
    · simp [h]

theorem id_of_summary? {q : SummaryQuery} {id : String} {t : Trace} {s : TraceSummary}
    (h : summary? q id t = some s) : s.id = id := by
  obtain ⟨w, -, -, rfl⟩ := summary?_eq_some_iff.mp h
  rfl

/-! ## All traces -/

/-- The summaries with an id are those of the trace under it: one at most. -/
theorem filter_summaries {store : TraceStore} (h : store.traces.Ordered) (q : SummaryQuery)
    (id : String) :
    (store.summaries q).filter (·.id = id) =
      ((store.get? id).bind (summary? q id)).toList := by
  have hown : (fun e : String × Trace => (summary? q e.1 e.2).filter (·.id = id)) =
      fun e => if e.1 = id then summary? q e.1 e.2 else none := by
    funext e
    cases hs : summary? q e.1 e.2 with
    | none => simp
    | some s => simp [id_of_summary? hs, Option.filter_some]
  unfold summaries
  rw [List.filter_filterMap, hown]
  have hfilter := Dictionary.filter_entries h id
  have hmap := congrArg (List.filterMap fun e => summary? q e.1 e.2) hfilter
  rw [List.filterMap_filter] at hmap
  simp only [decide_eq_true_eq] at hmap
  rw [hmap]
  unfold get?
  cases store.traces.get? id with
  | none => rfl
  | some t => cases hs : summary? q id t <;> simp [hs]

theorem filter_summaries_of_admits {store : TraceStore} (h : store.traces.Ordered)
    {q : SummaryQuery} {id : String} {t : Trace} {w : Window} (ht : store.get? id = some t)
    (hw : t.window? = some w) (hq : q.Admits w) :
    (store.summaries q).filter (·.id = id) = [.ofTrace id t w] := by
  rw [filter_summaries h, ht, Option.bind_some, summary?_eq_some_iff.mpr ⟨w, hw, hq, rfl⟩]
  rfl

/-- The summaries are those of the traces in the store whose windows the query admits. -/
theorem mem_summaries_iff {store : TraceStore} (h : store.traces.Ordered) {q : SummaryQuery}
    {s : TraceSummary} :
    s ∈ store.summaries q ↔ ∃ t w, store.get? s.id = some t ∧ t.window? = some w ∧ q.Admits w ∧
      s = .ofTrace s.id t w := by
  have hown : s ∈ store.summaries q ↔ s ∈ (store.summaries q).filter (·.id = s.id) := by
    rw [List.mem_filter]
    exact (and_iff_left (decide_eq_true rfl)).symm
  rw [hown, filter_summaries h, Option.mem_toList, Option.bind_eq_some_iff]
  simp only [summary?_eq_some_iff, exists_and_left]

/-- A summary tells of a trace in the store whose window the query admits. -/
theorem exists_of_mem_summaries {store : TraceStore} (h : store.traces.Ordered)
    {q : SummaryQuery} {s : TraceSummary} (hs : s ∈ store.summaries q) :
    ∃ t w, store.get? s.id = some t ∧ t.window? = some w ∧ q.Admits w := by
  obtain ⟨t, w, ht, hw, hq, -⟩ := (mem_summaries_iff h).mp hs
  exact ⟨t, w, ht, hw, hq⟩

/-! ## What the arrivals say of a trace -/

section Arrivals

variable {rule : CompletionRule} {arrivals : List Segment} {id : String} {t : Trace}

theorem finished_of_get?_ofArrivals (h : (ofArrivals rule arrivals).get? id = some t)
    {w : Window} (hw : t.window? = some w) : t.finished = true := by
  rw [eq_of_get?_ofArrivals h] at hw ⊢
  exact Trace.finished_of_window? hw

theorem anyHasExtension_iff_flagged (h : (ofArrivals rule arrivals).get? id = some t)
    (key : String) : t.anyHasExtension key = true ↔ Flagged arrivals id key := by
  rw [eq_of_get?_ofArrivals h, Trace.anyHasExtension_ofArrivals]
  unfold Flagged
  simp only [mem_arrivalsOf, and_assoc]
  exact exists_congr fun s => and_congr_right fun _ => and_congr_right fun _ =>
    Option.isSome_iff_exists

end Arrivals

/-! ## The answer -/

theorem hasFilter_eq_false {q : SummaryQuery} (h : q.filter? = none ∨ q.filter? = some "") :
    q.hasFilter = false := by
  unfold SummaryQuery.hasFilter
  rcases h with h | h <;> rw [h] <;> rfl

theorem hasFilter_eq_true {q : SummaryQuery} {f : String} (h : q.filter? = some f)
    (hf : f ≠ "") : q.hasFilter = true := by
  unfold SummaryQuery.hasFilter
  rw [h]
  exact bne_iff_ne.mpr hf

theorem summarize?_of_hasFilter (store : TraceStore) {q : SummaryQuery} (h : q.hasFilter = true)
    (now : ℤ) : store.summarize? q now = none := if_pos h

theorem summarize?_of_not_hasFilter (store : TraceStore) {q : SummaryQuery}
    (h : q.hasFilter = false) (now : ℤ) :
    store.summarize? q now = some ⟨now, (store.summaries q).length, store.summaries q⟩ := by
  unfold summarize?
  rw [if_neg (by rw [h]; exact Bool.false_ne_true)]

/-- Without a filter a query is answered by one summary for each finished trace whose window lies
strictly inside its bounds, and by no other, whether it is sampled or not. A filter other than the
empty one is refused. -/
theorem answer_exact (rule : CompletionRule) (arrivals : List Segment) (q : SummaryQuery)
    (now : ℤ) :
    ((q.filter? = none ∨ q.filter? = some "") →
      ∃ r, (ofArrivals rule arrivals).summarize? q now = some r ∧
        r.tracesProcessed = r.summaries.length ∧
        (∀ id t w, (ofArrivals rule arrivals).get? id = some t → t.finished = true →
          t.window? = some w → q.start < w.start → w.stop < q.stop →
          ∃ s, r.summaries.filter (·.id = id) = [s] ∧
            s.duration = (w.stop.nanoseconds - w.start.nanoseconds).tdiv 1000000000 ∧
            (s.hasError = true ↔ Flagged arrivals id "error") ∧
            (s.hasFault = true ↔ Flagged arrivals id "fault") ∧
            (s.hasThrottle = true ↔ Flagged arrivals id "throttle")) ∧
        (∀ s ∈ r.summaries, ∃ t w, (ofArrivals rule arrivals).get? s.id = some t ∧
          t.finished = true ∧ t.window? = some w ∧ q.start < w.start ∧ w.stop < q.stop) ∧
        ∀ sampling, (ofArrivals rule arrivals).summarize? { q with sampling } now = some r) ∧
    ∀ (store : TraceStore) (f : String), q.filter? = some f → f ≠ "" →
      store.summarize? q now = none := by
  have hordered := ordered_ofArrivals rule arrivals
  constructor
  · intro hfilter
    have hnone := hasFilter_eq_false hfilter
    refine ⟨⟨now, ((ofArrivals rule arrivals).summaries q).length,
      (ofArrivals rule arrivals).summaries q⟩, ?_, rfl, ?_, ?_, ?_⟩
    · exact summarize?_of_not_hasFilter _ hnone now
    · intro id t w ht _ hw hstart hstop
      exact ⟨.ofTrace id t w, filter_summaries_of_admits hordered ht hw ⟨hstart, hstop⟩, rfl,
        anyHasExtension_iff_flagged ht "error", anyHasExtension_iff_flagged ht "fault",
        anyHasExtension_iff_flagged ht "throttle"⟩
    · intro s hs
      obtain ⟨t, w, ht, hw, hstart, hstop⟩ := exists_of_mem_summaries hordered hs
      exact ⟨t, w, ht, finished_of_get?_ofArrivals ht hw, hw, hstart, hstop⟩
    · -- neither the filter nor the windows are told apart by the sampling
      intro sampling
      exact summarize?_of_not_hasFilter _ (q := { q with sampling }) hnone now
  · intro store f hf hne
    exact summarize?_of_hasFilter store (hasFilter_eq_true hf hne) now

/-- The reopened trace gets one more open segment, the first that carries a flag. -/
def flaggedArrivals : List Segment :=
  reopenedArrivals ++
    [⟨"e", "1-0-t", "api", .ofWhole 40 (by decide +kernel), none, none, .ofList [("fault", .null)]⟩]

/-- A flag counts that was reported after the window had been taken. -/
theorem answer_of_flaggedArrivals :
    ∃ r s, (ofArrivals .lastSegment flaggedArrivals).summarize?
        ⟨.ofParts 0 0, .ofParts 100 0, some "", true⟩ 0 = some r ∧
      r.summaries.filter (·.id = "1-0-t") = [s] ∧ s.duration = 40 ∧ s.hasFault = true := by
  obtain ⟨r, hr, -, hadmitted, -⟩ := (answer_exact .lastSegment flaggedArrivals
    ⟨.ofParts 0 0, .ofParts 100 0, some "", true⟩ 0).1 (Or.inr rfl)
  have hget : (ofArrivals .lastSegment flaggedArrivals).get? "1-0-t" =
      some (Trace.ofArrivals .lastSegment (arrivalsOf "1-0-t" flaggedArrivals)) := by
    rw [get?_ofArrivals, if_neg (by decide)]
  have hwindow : (Trace.ofArrivals .lastSegment (arrivalsOf "1-0-t" flaggedArrivals)).window? =
      some ⟨.ofParts 10 0, .ofParts 50 0⟩ := by decide +kernel
  obtain ⟨s, hs, hduration, -, hfault, -⟩ := hadmitted "1-0-t" _ _ hget
    (Trace.finished_of_window? hwindow) hwindow (by decide) (by decide)
  refine ⟨r, s, hr, hs, hduration, hfault.mpr ?_⟩
  exact ⟨_, List.mem_append_right _ List.mem_cons_self, rfl, .null, rfl⟩

end TraceStore

end TraceCollector
