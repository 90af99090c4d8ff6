import TraceCollector.Proofs.Summaries
import TraceCollector.Service.Route

/-!
# Queries in parameters

1. The bounds of a query are required in turn and then converted in turn
   (`summaryQuery_of_no_start`, `summaryQuery_of_no_stop`, `summaryQuery_of_given`).
2. A query without a filter is answered from the traces of the region (`getSummaries_of_query`), any
   other is refused (`getSummaries_of_filter`).
3. Nothing is looked at but these traces, the bounds and the filter (`getSummaries_of_same`).
-/

namespace TraceCollector.Service

section Query

variable {p : Parameters} {v u : Json.Value} {f : Failure} {q : SummaryQuery}

/-! ## The query -/

theorem summaryQuery_of_no_start (h : p.get? "StartTime" = none) :
    summaryQuery p = .error (.missing "StartTime") := by
  unfold summaryQuery Parameters.require
  rw [h]
  rfl

theorem summaryQuery_of_no_stop (hv : p.get? "StartTime" = some v) (h : p.get? "EndTime" = none) :
    summaryQuery p = .error (.missing "EndTime") := by
  unfold summaryQuery Parameters.require
  rw [hv, h]
  rfl

theorem summaryQuery_of_given (hv : p.get? "StartTime" = some v) (hu : p.get? "EndTime" = some u) :
    summaryQuery p = do
      let start ← timeOf v
      let stop ← timeOf u
      return ⟨start, stop, p.text? "FilterExpression", p.flag "Sampling"⟩ := by
  unfold summaryQuery Parameters.require
  rw [hv, hu]
  rfl

/-! ## The answer -/

theorem getSummaries_of_error (h : summaryQuery p = .error f) (now : ℤ) (region : Region) :
    getSummaries now region p = .error f := by
  unfold getSummaries
  rw [h]
  rfl

theorem getSummaries_of_filter (hq : summaryQuery p = .ok q) (hfilter : q.hasFilter = true)
    (now : ℤ) (region : Region) : getSummaries now region p = .error .filtered := by
  unfold getSummaries
  rw [hq]
  dsimp only [bind, Except.bind]
  rw [TraceStore.summarize?_of_hasFilter _ hfilter]
  rfl

theorem getSummaries_of_query (hq : summaryQuery p = .ok q) (hfilter : q.hasFilter = false)
    (now : ℤ) (region : Region) :
    getSummaries now region p = .ok (SummaryResult.codec.encode
      ⟨now, (region.traces.summaries q).length, region.traces.summaries q⟩) := by
  unfold getSummaries
  rw [hq]
  dsimp only [bind, Except.bind]
  rw [TraceStore.summarize?_of_not_hasFilter _ hfilter]
  rfl

end Query

/-- Parameters with the same bounds and the same filter are answered alike from regions with the
same traces. -/
theorem getSummaries_of_same {p p' : Parameters} {region region' : Region}
    (htraces : region'.traces = region.traces)
    (h : ∀ name ∈ ["StartTime", "EndTime", "FilterExpression"], p'.get? name = p.get? name)
    (now : ℤ) : getSummaries now region' p' = getSummaries now region p := by
  have hstart := h "StartTime" (by decide)
  have hstop := h "EndTime" (by decide)
  have hfilter : p'.text? "FilterExpression" = p.text? "FilterExpression" := by
    unfold Parameters.text?
    rw [h "FilterExpression" (by decide)]
  unfold getSummaries
  rw [htraces]
  cases hv : p.get? "StartTime" with
  | none => rw [summaryQuery_of_no_start hv, summaryQuery_of_no_start (hstart.trans hv)]
  | some v =>
    cases hu : p.get? "EndTime" with
    | none =>
      rw [summaryQuery_of_no_stop hv hu,
        summaryQuery_of_no_stop (hstart.trans hv) (hstop.trans hu)]
    | some u =>
      rw [summaryQuery_of_given hv hu,
        summaryQuery_of_given (hstart.trans hv) (hstop.trans hu), hfilter]
      cases timeOf v with
      | error f => rfl
      | ok t => cases timeOf u <;> rfl

/-! ## Asking a region -/

namespace State

section Ask

variable {s : State} {r : Request} {question : Question} {region : Region}

theorem ask_of_ok {v : Json.Value} (hregion : s.region r = .ok region)
    (h : question region (.ofBody r.body) = .ok v) : s.ask r question = .json 200 v := by
  unfold ask
  rw [hregion]
  dsimp only
  rw [h]

theorem ask_of_error {f : Failure} (hregion : s.region r = .ok region)
    (h : question region (.ofBody r.body) = .error f) : s.ask r question = .ofFailure f := by
  unfold ask
  rw [hregion]
  dsimp only
  rw [h]

end Ask

end State

end TraceCollector.Service
