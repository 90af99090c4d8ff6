import Mathlib.Order.Bounds.Basic
import TraceCollector.Proofs.Ingest
import TraceCollector.Proofs.Summaries

/-!
# Genuine windows

Nothing asks a document to end after it starts, so a window can stop before it starts.

1. A window that does not is genuine. Its length is not negative, and no two queries with disjoint
   bounds admit it (`Window.Genuine.not_admits`), so in particular no query with empty bounds does.
2. The arrivals tell whether the window of a trace is genuine: some end among those up to the last
   finishing point is not before some start among them (`Trace.reachesStart_iff`). One segment that
   does not end before it starts is enough, so documents with such times give genuine windows
   (`reachesStart_of_forall`).
-/

namespace TraceCollector

/-! ## Windows -/

/-- The window does not stop before it starts. -/
def Window.Genuine (w : Window) : Prop := w.start ≤ w.stop

namespace Window

variable {w : Window}

theorem Genuine.duration_nonneg (h : w.Genuine) (id : String) (t : Trace) :
    0 ≤ (TraceSummary.ofTrace id t w).duration :=
  Int.tdiv_nonneg (Int.sub_nonneg.mpr (Instant.le_def.mp h)) (by decide)

/-- A query admits no genuine window that one before it admits. -/
theorem Genuine.not_admits (h : w.Genuine) {q q' : SummaryQuery} (hdisjoint : q.stop ≤ q'.start)
    (hq : q.Admits w) : ¬ q'.Admits w := by
  intro hq'
  have hstop : w.stop < w.stop :=
    calc w.stop < q.stop := hq.2
      _ ≤ q'.start := hdisjoint
      _ < w.start := hq'.1
      _ ≤ w.stop := h
  exact lt_irrefl _ hstop

/-- A window is genuine if and only if some segment ends no earlier than some segment starts. -/
theorem Spans.genuine_iff {arrivals : List Segment} (h : w.Spans arrivals) :
    w.Genuine ↔ ∃ s ∈ arrivals, ∃ t ∈ arrivals, ∃ stop, t.endDate? = some stop ∧
      s.startDate ≤ stop := by
  constructor
  · intro hgenuine
    obtain ⟨s, hs, hstart⟩ := h.1.1
    obtain ⟨t, ht, hstop⟩ := h.2.1
    exact ⟨s, hs, t, ht, w.stop, hstop, hstart ▸ hgenuine⟩
  · rintro ⟨s, hs, t, ht, stop, hstop, hle⟩
    calc w.start ≤ s.startDate := h.1.2 ⟨s, hs, rfl⟩
      _ ≤ stop := hle
      _ ≤ w.stop := h.2.2 ⟨t, ht, hstop⟩

end Window

/-! ## Arrivals -/

/-- Among the arrivals up to the last finishing point, some segment ends no earlier than some
segment starts. -/
def ReachesStart (rule : CompletionRule) (arrivals : List Segment) : Prop :=
  ∀ k, IsGreatest {k | FinishingPoint rule arrivals k} k →
    ∃ s ∈ arrivals.take k, ∃ t ∈ arrivals.take k, ∃ stop, t.endDate? = some stop ∧
      s.startDate ≤ stop

section Arrivals

variable {rule : CompletionRule} {arrivals : List Segment}

/-- Segments that do not end before they start are enough. -/
theorem reachesStart_of_forall
    (h : ∀ s ∈ arrivals, ∀ stop, s.endDate? = some stop → s.startDate ≤ stop) :
    ReachesStart rule arrivals := by
  rintro k ⟨⟨hpos, hle, hsettles⟩, -⟩
  have hne : arrivals.take k ≠ [] := by
    rw [ne_eq, List.take_eq_nil_iff, not_or]
    exact ⟨by omega, List.ne_nil_of_length_pos (by omega)⟩
  obtain ⟨s, hs, hclosed⟩ := CompletionRule.exists_isClosed hsettles hne
  rw [← Segment.isSome_endDate?, Option.isSome_iff_exists] at hclosed
  obtain ⟨stop, hstop⟩ := hclosed
  exact ⟨s, hs, s, hs, stop, hstop, h s (List.mem_of_mem_take hs) stop hstop⟩

/-- The arrivals tell whether the window is genuine. -/
theorem Trace.reachesStart_iff :
    ReachesStart rule arrivals ↔
      ∀ w, (Trace.ofArrivals rule arrivals).window? = some w → w.Genuine := by
  rcases Trace.ofArrivals_cases rule arrivals with ⟨-, hnone, hnot⟩ | ⟨-, k, w, hk, hw, hspans⟩
  · rw [hnone]
    exact iff_of_true (fun k hk => absurd hk.1 (hnot k)) fun w hw => by cases hw
  · rw [hw]
    constructor
    · rintro hreaches _ ⟨⟩
      exact hspans.genuine_iff.mpr (hreaches k hk)
    · intro hgenuine k' hk'
      rw [IsGreatest.unique hk' hk]
      exact hspans.genuine_iff.mp (hgenuine w rfl)

end Arrivals

/-! ## Summaries -/

namespace TraceStore

theorem ingest_empty (rule : CompletionRule) (documents : List String) :
    ((empty rule).ingest documents).1 = ofArrivals rule (documents.filterMap soundSegment?) := by
  rw [ingest_eq]
  rfl

section Summaries

variable {store : TraceStore} {id : String} (h : store.traces.Ordered)
  (hgenuine : ∀ t w, store.get? id = some t → t.window? = some w → w.Genuine)

include h hgenuine

theorem duration_nonneg_of_genuine {q : SummaryQuery} {s : TraceSummary}
    (hs : s ∈ store.summaries q) (hid : s.id = id) : 0 ≤ s.duration := by
  obtain ⟨t, w, ht, hw, -, hsummary⟩ := (mem_summaries_iff h).mp hs
  rw [hsummary]
  exact (hgenuine t w (hid ▸ ht) hw).duration_nonneg _ _

/-- No two queries with disjoint bounds return a trace with a genuine window. -/
theorem not_mem_summaries_of_genuine {q q' : SummaryQuery} (hdisjoint : q.stop ≤ q'.start)
    (hq : ∃ s ∈ store.summaries q, s.id = id) : ∀ s ∈ store.summaries q', s.id ≠ id := by
  obtain ⟨s, hs, hid⟩ := hq
  intro s' hs' hid'
  obtain ⟨t, w, ht, hw, hadmits⟩ := exists_of_mem_summaries h hs
  obtain ⟨t', w', ht', hw', hadmits'⟩ := exists_of_mem_summaries h hs'
  rw [hid] at ht
  rw [hid', ht] at ht'
  cases ht'
  rw [hw] at hw'
  cases hw'
  exact (hgenuine t w ht hw).not_admits hdisjoint hadmits hadmits'

end Summaries

/-- The summaries of a trace describe a genuine interval as far as its documents do. Its window
does not stop before it starts if and only if, of the accepted documents up to its last finishing
point, some ends no earlier than some starts; documents that do not end before they start are
enough. Then its summaries have no negative duration, no query with empty bounds returns it, and no
two queries with disjoint bounds do. -/
theorem genuine_windows (rule : CompletionRule) (documents : List String) (id : String) :
    let store := ((empty rule).ingest documents).1
    let arrivals := arrivalsOf id (documents.filterMap soundSegment?)
    ((∀ s ∈ arrivals, ∀ stop, s.endDate? = some stop → s.startDate ≤ stop) →
      ReachesStart rule arrivals) ∧
    (∀ t w, store.get? id = some t → t.window? = some w →
      (w.start ≤ w.stop ↔ ReachesStart rule arrivals)) ∧
    (ReachesStart rule arrivals → ∀ (q q' : SummaryQuery) (now now' : ℤ),
      (q.filter? = none ∨ q.filter? = some "") → (q'.filter? = none ∨ q'.filter? = some "") →
      ∃ r r', store.summarize? q now = some r ∧ store.summarize? q' now' = some r' ∧
        (∀ s ∈ r.summaries, s.id = id → 0 ≤ s.duration) ∧
        (q.stop ≤ q.start → ∀ s ∈ r.summaries, s.id ≠ id) ∧
        (q.stop ≤ q'.start →
          ¬ ((∃ s ∈ r.summaries, s.id = id) ∧ ∃ s ∈ r'.summaries, s.id = id))) := by
  intro store arrivals
  have hstore : store = ofArrivals rule (documents.filterMap soundSegment?) :=
    ingest_empty rule documents
  have hordered : store.traces.Ordered := hstore ▸ ordered_ofArrivals rule _
  have htrace : ∀ t, store.get? id = some t → t = Trace.ofArrivals rule arrivals := fun t ht =>
    eq_of_get?_ofArrivals (hstore ▸ ht)
  refine ⟨reachesStart_of_forall, fun t w ht hw => ?_, fun hreaches q q' now now' hq hq' => ?_⟩
  · rw [htrace t ht] at hw
    rw [Trace.reachesStart_iff]
    constructor
    · intro hle w' hw'
      rw [hw] at hw'
      cases hw'
      exact hle
    · exact fun hgenuine => hgenuine w hw
  · have hgenuine : ∀ t w, store.get? id = some t → t.window? = some w → w.Genuine :=
      fun t w ht hw => Trace.reachesStart_iff.mp hreaches w (htrace t ht ▸ hw)
    refine ⟨_, _, summarize?_of_not_hasFilter store (hasFilter_eq_false hq) now,
      summarize?_of_not_hasFilter store (hasFilter_eq_false hq') now',
      fun s hs hid => duration_nonneg_of_genuine hordered hgenuine hs hid, ?_, ?_⟩
    · intro hempty s hs hid
      exact not_mem_summaries_of_genuine hordered hgenuine hempty ⟨s, hs, hid⟩ s hs hid
    · rintro hdisjoint ⟨hfirst, s, hs, hid⟩
      exact not_mem_summaries_of_genuine hordered hgenuine hdisjoint hfirst s hs hid

/-- The document of a closed segment of one trace, with its dates as they are written. -/
def writtenSegment (start stop : String) : String :=
  "\x7b\"id\":\"a\",\"name\":\"api\",\"trace_id\":\"1-0-t\",\"start_time\":" ++ start ++
    ",\"end_time\":" ++ stop ++ "\x7d"

/-- The second segment ends before it starts, but not before the first one does. -/
theorem genuine_windows_reversedSecond :
    let documents := [writtenSegment "10" "60", writtenSegment "100" "50"]
    let store := ((empty .lastSegment).ingest documents).1
    ReachesStart .lastSegment (arrivalsOf "1-0-t" (documents.filterMap soundSegment?)) ∧
      ∃ r r', store.summarize? ⟨.ofParts 0 0, .ofParts 70 0, none, false⟩ 0 = some r ∧
        store.summarize? ⟨.ofParts 70 0, .ofParts 90 0, some "", true⟩ 0 = some r' ∧
        r.summaries.map (fun s => (s.id, s.duration)) = [("1-0-t", 50)] ∧
        (∀ s ∈ r.summaries, s.id = "1-0-t" → 0 ≤ s.duration) ∧
        ¬ ((∃ s ∈ r.summaries, s.id = "1-0-t") ∧ ∃ s ∈ r'.summaries, s.id = "1-0-t") := by
  intro documents store
  have hwindow : (Trace.ofArrivals .lastSegment
      (arrivalsOf "1-0-t" (documents.filterMap soundSegment?))).window? =
        some ⟨.ofParts 10 0, .ofParts 60 0⟩ := by decide +kernel
  have hreaches : ReachesStart .lastSegment
      (arrivalsOf "1-0-t" (documents.filterMap soundSegment?)) := by
    rw [Trace.reachesStart_iff]
    intro w hw
    rw [hwindow] at hw
    cases hw
    show Instant.ofParts 10 0 ≤ .ofParts 60 0
    decide
  obtain ⟨r, r', hr, hr', hduration, -, hdisjoint⟩ :=
    (genuine_windows .lastSegment documents "1-0-t").2.2 hreaches
      ⟨.ofParts 0 0, .ofParts 70 0, none, false⟩ ⟨.ofParts 70 0, .ofParts 90 0, some "", true⟩ 0 0
      (Or.inl rfl) (Or.inr rfl)
  refine ⟨hreaches, r, r', hr, hr', ?_, hduration, hdisjoint (le_refl _)⟩
  have hsummaries : (store.summarize? ⟨.ofParts 0 0, .ofParts 70 0, none, false⟩ 0).map
      (fun r => r.summaries.map fun s => (s.id, s.duration)) = some [("1-0-t", 50)] := by
    decide +kernel
  rw [hr] at hsummaries
  exact Option.some.inj hsummaries

/-- A trace of one segment that ends before it starts has a negative duration, and is returned by a
query with empty bounds and by two with disjoint ones. -/
theorem reversed_window :
    let store := ((empty .lastSegment).ingest [writtenSegment "100" "50"]).1
    let returned (start stop : ℤ) : Option (List (String × ℤ)) :=
      (store.summarize? ⟨.ofParts start 0, .ofParts stop 0, none, false⟩ 0).map fun r =>
        r.summaries.map fun s => (s.id, s.duration)
    returned 60 55 = some [("1-0-t", -50)] ∧ returned 55 60 = some [("1-0-t", -50)] ∧
      returned 60 70 = some [("1-0-t", -50)] := by
  decide +kernel

end TraceStore

end TraceCollector
