import TraceCollector.Proofs.ArrivalOrder
import TraceCollector.Proofs.DocumentContent
import TraceCollector.Proofs.GenuineWindows
import TraceCollector.Proofs.Service.Runs
import TraceCollector.Proofs.Service.TimeParameters

/-!
# Windows of whole seconds

What the service answers about traces whose documents tell their times in whole seconds.

1. A document that tells whole seconds leaves a segment with exactly these dates
   (`Segment.dates_of_tellsWhole`). So a trace of such documents has the window from the least
   start to the greatest end (`TraceStore.exists_window_of_tellsWhole`).
2. A query between whole seconds compares them as integers, and the duration is their difference
   (`TraceStore.durations_of_window`).
3. Together this is what a client sees, however it encodes the bounds
   (`State.whole_windows_exact`).
4. The numbers are those that are read. A numeral with a point may be read as a number next to the
   one that it denotes, also where that is whole (`State.written_windows_inexact`).
-/

namespace TraceCollector

/-! ## Documents -/

namespace Segment

/-- The document is accepted, and its segment belongs to the trace. -/
def ReportedIn (traceId document : String) : Prop :=
  ∃ s, ofDocument document = .ok s ∧ s.traceId = traceId

/-- The number that is read from a field of a document, with its exact value. -/
def valueAt? (document : String) (field : Field) : Option ℚ :=
  match Json.read (Json.utf8 document) with
  | .ok (.object fields) =>
    match field? fields field with
    | some (.number p) => some p.exact
    | _ => none
  | _ => none

/-- The document holds two whole numbers, the start and the end of a segment. -/
structure TellsWhole (document : String) (start stop : ℤ) : Prop where
  start : valueAt? document .startTime = some (start : ℚ)
  stop : valueAt? document .endTime = some (stop : ℚ)

theorem TellsWhole.unique {document : String} {start stop start' stop' : ℤ}
    (h : TellsWhole document start stop) (h' : TellsWhole document start' stop') :
    start = start' ∧ stop = stop' :=
  ⟨Int.cast_injective (Option.some.inj (h.start.symm.trans h'.start)),
    Int.cast_injective (Option.some.inj (h.stop.symm.trans h'.stop))⟩

theorem exists_number_of_valueAt? {document : String} {fields : Dictionary Json.Value}
    {field : Field} {q : ℚ} (hread : Json.read (Json.utf8 document) = .ok (.object fields))
    (h : valueAt? document field = some q) :
    ∃ p, field? fields field = some (.number p) ∧ p.exact = q := by
  unfold valueAt? at h
  rw [hread] at h
  dsimp only at h
  split at h
  · next p hp => exact ⟨p, hp, Option.some.inj h⟩
  · cases h

theorem dates_of_tellsWhole {document : String} {start stop : ℤ} {s : Segment}
    (hs : ofDocument document = .ok s) (h : TellsWhole document start stop) :
    s.startDate = .ofParts start 0 ∧ s.endDate? = some (.ofParts stop 0) := by
  obtain ⟨fields, hread, hreports⟩ := ofDocument_eq_ok hs
  obtain ⟨p, hstart, hp⟩ := exists_number_of_valueAt? hread h.start
  obtain ⟨q, hstop, hq⟩ := exists_number_of_valueAt? hread h.stop
  constructor
  · obtain ⟨p', hp', hseconds⟩ := hreports.start
    rw [hstart] at hp'
    cases hp'
    refine Json.Number.instant_of_whole hp ?_
    rw [← hseconds]
    exact s.start.instant_eq
  · rcases hreports.stop with ⟨-, hnone | hnull⟩ | ⟨q', t, hq', ht, hseconds⟩
    · rw [hstop] at hnone
      cases hnone
    · rw [hstop] at hnull
      cases hnull
    · rw [hstop] at hq'
      cases hq'
      unfold endDate?
      rw [ht, Option.map_some]
      refine congrArg some (Json.Number.instant_of_whole hq ?_)
      rw [← hseconds]
      exact t.instant_eq

end Segment

/-! ## Windows -/

/-- The window over segments with whole dates is one between whole seconds. -/
theorem Window.Spans.exists_whole {w : Window} {segments : List Segment} (h : w.Spans segments)
    (hwhole : ∀ s ∈ segments, ∃ start stop : ℤ,
      s.startDate = .ofParts start 0 ∧ s.endDate? = some (.ofParts stop 0)) :
    ∃ first last : ℤ, w = ⟨.ofParts first 0, .ofParts last 0⟩ ∧
      IsLeast {start : ℤ | ∃ s ∈ segments, s.startDate = .ofParts start 0} first ∧
      IsGreatest {stop : ℤ | ∃ s ∈ segments, s.endDate? = some (.ofParts stop 0)} last := by
  obtain ⟨s, hs, hstart⟩ := h.1.1
  obtain ⟨t, ht, hstop⟩ := h.2.1
  obtain ⟨first, -, hfirst, -⟩ := hwhole s hs
  obtain ⟨-, last, -, hlast⟩ := hwhole t ht
  obtain rfl : w = ⟨.ofParts first 0, .ofParts last 0⟩ := by
    rw [← hfirst, hstart, ← Option.some.inj (hstop.symm.trans hlast)]
  refine ⟨first, last, rfl, ⟨⟨s, hs, hfirst⟩, ?_⟩, ⟨⟨t, ht, hlast⟩, ?_⟩⟩
  · rintro start ⟨other, hother, hdate⟩
    exact Instant.ofParts_le_ofParts.mp (h.1.2 ⟨other, hother, hdate⟩)
  · rintro stop ⟨other, hother, hdate⟩
    exact Instant.ofParts_le_ofParts.mp (h.2.2 ⟨other, hother, hdate⟩)

namespace TraceStore

variable {id : String} {documents : List String}

theorem mem_arrivalsOf_documents {s : Segment} :
    s ∈ arrivalsOf id (documents.filterMap soundSegment?) ↔
      ∃ document ∈ documents, Segment.ofDocument document = .ok s ∧ s.traceId = id := by
  rw [mem_arrivalsOf, List.mem_filterMap]
  simp only [soundSegment?_eq_some_iff]
  tauto

section TellsWhole

variable (hwhole : ∀ document ∈ documents, Segment.ReportedIn id document →
  ∃ start stop, Segment.TellsWhole document start stop)

include hwhole

theorem exists_dates_of_tellsWhole {s : Segment}
    (hs : s ∈ arrivalsOf id (documents.filterMap soundSegment?)) :
    ∃ document ∈ documents, Segment.ReportedIn id document ∧ ∃ start stop,
      Segment.TellsWhole document start stop ∧
        s.startDate = .ofParts start 0 ∧ s.endDate? = some (.ofParts stop 0) := by
  obtain ⟨document, hdocument, hread, hid⟩ := mem_arrivalsOf_documents.mp hs
  obtain ⟨start, stop, htells⟩ := hwhole document hdocument ⟨s, hread, hid⟩
  exact ⟨document, hdocument, ⟨s, hread, hid⟩, start, stop, htells,
    Segment.dates_of_tellsWhole hread htells⟩

/-- The starts that the documents of a trace tell are those of its segments. -/
theorem exists_start_iff (start : ℤ) :
    (∃ s ∈ arrivalsOf id (documents.filterMap soundSegment?), s.startDate = .ofParts start 0) ↔
      ∃ document ∈ documents, Segment.ReportedIn id document ∧
        ∃ stop, Segment.TellsWhole document start stop := by
  constructor
  · rintro ⟨s, hs, hstart⟩
    obtain ⟨document, hdocument, hreported, start', stop, htells, hdate, -⟩ :=
      exists_dates_of_tellsWhole hwhole hs
    obtain rfl : start = start' := Instant.ofParts_inj.mp (hstart.symm.trans hdate)
    exact ⟨document, hdocument, hreported, stop, htells⟩
  · rintro ⟨document, hdocument, ⟨s, hread, hid⟩, stop, htells⟩
    exact ⟨s, mem_arrivalsOf_documents.mpr ⟨document, hdocument, hread, hid⟩,
      (Segment.dates_of_tellsWhole hread htells).1⟩

/-- The ends that the documents of a trace tell are those of its segments. -/
theorem exists_stop_iff (stop : ℤ) :
    (∃ s ∈ arrivalsOf id (documents.filterMap soundSegment?),
        s.endDate? = some (.ofParts stop 0)) ↔
      ∃ document ∈ documents, Segment.ReportedIn id document ∧
        ∃ start, Segment.TellsWhole document start stop := by
  constructor
  · rintro ⟨s, hs, hstop⟩
    obtain ⟨document, hdocument, hreported, start, stop', htells, -, hdate⟩ :=
      exists_dates_of_tellsWhole hwhole hs
    obtain rfl : stop = stop' :=
      Instant.ofParts_inj.mp (Option.some.inj (hstop.symm.trans hdate))
    exact ⟨document, hdocument, hreported, start, htells⟩
  · rintro ⟨document, hdocument, ⟨s, hread, hid⟩, start, htells⟩
    exact ⟨s, mem_arrivalsOf_documents.mpr ⟨document, hdocument, hread, hid⟩,
      (Segment.dates_of_tellsWhole hread htells).2⟩

/-- A trace whose documents all tell whole seconds has the window from the least start to the
greatest end. -/
theorem exists_window_of_tellsWhole (rule : CompletionRule)
    (hsome : ∃ document ∈ documents, Segment.ReportedIn id document) :
    ∃ first last : ℤ,
      IsLeast {start | ∃ document ∈ documents, Segment.ReportedIn id document ∧
        ∃ stop, Segment.TellsWhole document start stop} first ∧
      IsGreatest {stop | ∃ document ∈ documents, Segment.ReportedIn id document ∧
        ∃ start, Segment.TellsWhole document start stop} last ∧
      ∃ t, (ofArrivals rule (documents.filterMap soundSegment?)).get? id = some t ∧
        t.window? = some ⟨.ofParts first 0, .ofParts last 0⟩ := by
  have hne : arrivalsOf id (documents.filterMap soundSegment?) ≠ [] := by
    obtain ⟨document, hdocument, s, hread, hid⟩ := hsome
    exact List.ne_nil_of_mem (mem_arrivalsOf_documents.mpr ⟨document, hdocument, hread, hid⟩)
  have hclosed : ∀ s ∈ arrivalsOf id (documents.filterMap soundSegment?), s.isClosed = true := by
    intro s hs
    obtain ⟨_, _, _, _, _, _, _, hstop⟩ := exists_dates_of_tellsWhole hwhole hs
    rw [← s.isSome_endDate?, hstop]
    rfl
  obtain ⟨hget, -, w, hw, hspans⟩ :=
    get?_of_latestClosed hne (.of_forall_isClosed rule hclosed) (List.Perm.refl _)
  obtain ⟨first, last, rfl, hfirst, hlast⟩ := hspans.exists_whole fun s hs =>
    let ⟨_, _, _, start, stop, _, hdates⟩ := exists_dates_of_tellsWhole hwhole hs
    ⟨start, stop, hdates⟩
  simp only [exists_start_iff hwhole] at hfirst
  simp only [exists_stop_iff hwhole] at hlast
  exact ⟨first, last, hfirst, hlast, _, hget, hw⟩

end TellsWhole

/-- A query between whole seconds decides about a window of whole seconds as integers do. -/
theorem durations_of_window {store : TraceStore} (h : store.traces.Ordered) {t : Trace}
    {first last : ℤ} (ht : store.get? id = some t)
    (hw : t.window? = some ⟨.ofParts first 0, .ofParts last 0⟩) {q : SummaryQuery} {start stop : ℤ}
    (hstart : q.start = .ofParts start 0) (hstop : q.stop = .ofParts stop 0) :
    ((store.summaries q).filter (·.id = id)).map (·.duration) =
      if start < first ∧ last < stop then [last - first] else [] := by
  have hadmits : q.Admits ⟨.ofParts first 0, .ofParts last 0⟩ ↔ start < first ∧ last < stop := by
    unfold SummaryQuery.Admits
    rw [hstart, hstop, Instant.ofParts_lt_ofParts, Instant.ofParts_lt_ofParts]
  rw [filter_summaries h, ht, Option.bind_some]
  unfold summary?
  rw [hw]
  dsimp only
  by_cases hq : q.Admits ⟨.ofParts first 0, .ofParts last 0⟩
  · rw [if_pos hq, if_pos (hadmits.mp hq), ← Instant.wholeSecondsBetween_ofParts first last]
    rfl
  · rw [if_neg hq, if_neg fun hcompare => hq (hadmits.mpr hcompare)]
    rfl

end TraceStore

namespace Service

/-! ## Queries -/

/-- The request asks for the summaries of the traces between two seconds, without a filter. -/
structure Request.AsksBetween (r : Request) (start stop : ℤ) : Prop where
  method : r.method = "POST"
  path : r.path = "/TraceSummaries"
  start : ∃ v, (Parameters.ofBody r.body).get? "StartTime" = some v ∧ Encodes v start
  stop : ∃ v, (Parameters.ofBody r.body).get? "EndTime" = some v ∧ Encodes v stop
  unfiltered : (Parameters.ofBody r.body).text? "FilterExpression" = none ∨
    (Parameters.ofBody r.body).text? "FilterExpression" = some ""

/-- A whole second that is an instant. -/
def InCalendar (second : ℤ) : Prop :=
  Instant.firstSecond ≤ second ∧ second ≤ Instant.lastSecond

theorem summaryQuery_of_asksBetween {r : Request} {start stop : ℤ} (h : r.AsksBetween start stop)
    (hstart : InCalendar start) (hstop : InCalendar stop) :
    ∃ q, summaryQuery (Parameters.ofBody r.body) = .ok q ∧ q.start = .ofParts start 0 ∧
      q.stop = .ofParts stop 0 ∧ q.hasFilter = false := by
  obtain ⟨v, hv, hstarts⟩ := h.start
  obtain ⟨u, hu, hstops⟩ := h.stop
  refine ⟨⟨.ofParts start 0, .ofParts stop 0,
    (Parameters.ofBody r.body).text? "FilterExpression",
    (Parameters.ofBody r.body).flag "Sampling"⟩, ?_, rfl, rfl,
    TraceStore.hasFilter_eq_false h.unfiltered⟩
  rw [summaryQuery_of_given hv hu, timeOf_of_encodes hstarts hstart,
    timeOf_of_encodes hstops hstop]
  rfl

namespace State

/-- A query without a filter is answered from the traces of its region. -/
theorem handle_of_asksBetween {s : State} {r : Request} {start stop : ℤ} {region : Region}
    (h : r.AsksBetween start stop) (hstart : InCalendar start) (hstop : InCalendar stop)
    (hregion : s.region r = .ok region) (now : Int) :
    (s.handle r now).1.status = 200 ∧ ∃ (q : SummaryQuery) (result : SummaryResult),
      q.start = .ofParts start 0 ∧ q.stop = .ofParts stop 0 ∧
      result.summaries = region.traces.summaries q ∧
      (s.handle r now).1.body = (SummaryResult.codec.encode result).text := by
  obtain ⟨q, hq, hstarts, hstops, hfilter⟩ := summaryQuery_of_asksBetween h hstart hstop
  have hanswer := answer_summaries s now h.method h.path
  rw [ask_of_ok hregion (getSummaries_of_query hq hfilter now region)] at hanswer
  rw [status_handle, hanswer]
  refine ⟨rfl, q, ⟨now, (region.traces.summaries q).length, region.traces.summaries q⟩,
    hstarts, hstops, rfl, ?_⟩
  show (s.answer r now).1.body = _
  rw [hanswer]
  rfl

/-- Where the documents of a trace tell whole seconds, a client is told of the trace exactly if the
least start is after the bound that it gives for starts and the greatest end before the one for
ends, and then their difference as the duration. This holds after any run, whether the numbers that
are read are integers or have a point, and for every encoding of the bounds. -/
theorem whole_windows_exact {names : List String} {name : String} (hname : name ∈ names)
    (rule : CompletionRule) (defaultRegion : String) (run : List (Request × Int)) (id : String)
    (hsome : ∃ document ∈ (ofRegions rule names defaultRegion).documentsFor name run,
      Segment.ReportedIn id document)
    (hwhole : ∀ document ∈ (ofRegions rule names defaultRegion).documentsFor name run,
      Segment.ReportedIn id document → ∃ start stop, Segment.TellsWhole document start stop) :
    ∃ first last : ℤ,
      IsLeast {start | ∃ document ∈ (ofRegions rule names defaultRegion).documentsFor name run,
        Segment.ReportedIn id document ∧
          ∃ stop, Segment.TellsWhole document start stop} first ∧
      IsGreatest {stop | ∃ document ∈ (ofRegions rule names defaultRegion).documentsFor name run,
        Segment.ReportedIn id document ∧
          ∃ start, Segment.TellsWhole document start stop} last ∧
      ∀ (r : Request) (now start stop : ℤ), r.AsksBetween start stop →
        InCalendar start → InCalendar stop →
        (ofRegions rule names defaultRegion).goesTo name r = true →
        (((ofRegions rule names defaultRegion).after run).handle r now).1.status = 200 ∧
        ∃ result : SummaryResult,
          (((ofRegions rule names defaultRegion).after run).handle r now).1.body =
            (SummaryResult.codec.encode result).text ∧
          (result.summaries.filter (·.id = id)).map (·.duration) =
            if start < first ∧ last < stop then [last - first] else [] := by
  obtain ⟨first, last, hfirst, hlast, t, ht, hw⟩ :=
    TraceStore.exists_window_of_tellsWhole hwhole rule hsome
  refine ⟨first, last, hfirst, hlast, fun r now start stop hasks hstart hstop hgoes => ?_⟩
  obtain ⟨region, hget, htraces⟩ := @traces_of_run rule names defaultRegion name hname run
  have hregion : ((ofRegions rule names defaultRegion).after run).region r = .ok region := by
    refine region_of_get? ?_
    rw [regionName_after, goesTo_iff.mp hgoes]
    exact hget
  obtain ⟨hstatus, q, result, hstarts, hstops, hsummaries, hbody⟩ :=
    handle_of_asksBetween hasks hstart hstop hregion now
  refine ⟨hstatus, result, hbody, ?_⟩
  rw [hsummaries, htraces]
  exact TraceStore.durations_of_window (TraceStore.ordered_ofArrivals _ _) ht hw hstarts hstops

open TraceStore (writtenSegment)

/-- A batch of one document, the one of a closed segment with its dates as they are written. -/
def spanBatch (start stop : String) : Request :=
  signedRequest "eu-west-1" "/TraceSegments" <|
    "\x7b\"TraceSegmentDocuments\":[" ++ (Json.Value.string (writtenSegment start stop)).text ++
      "]\x7d"

/-- A query, with its bounds as they are written. -/
def spanQuery (start stop : String) : Request :=
  signedRequest "eu-west-1" "/TraceSummaries" <|
    "\x7b\"StartTime\":" ++ start ++ ",\"EndTime\":" ++ stop ++ "\x7d"

theorem tellsWhole_writtenSegment :
    Segment.TellsWhole (writtenSegment "1700000003" "1700000009.0") 1700000003 1700000009 :=
  ⟨by decide +kernel, by decide +kernel⟩

theorem reportedIn_writtenSegment :
    Segment.ReportedIn "1-0-t" (writtenSegment "1700000003" "1700000009.0") := by
  have hid : (soundSegment? (writtenSegment "1700000003" "1700000009.0")).map (·.traceId) =
      some "1-0-t" := by decide +kernel
  obtain ⟨segment, hsegment, hid⟩ := Option.map_eq_some_iff.mp hid
  exact ⟨segment, soundSegment?_eq_some_iff.mp hsegment, hid⟩

theorem encodes_signedText : Encodes (.string " +01700000002") 1700000002 :=
  wholeSeconds?_eq_some_iff.mp (by decide +kernel)

theorem asksBetween_spanQuery :
    (spanQuery "\" +01700000002\"" "1700000010").AsksBetween 1700000002 1700000010 where
  method := rfl
  path := by decide +kernel
  start := ⟨.string " +01700000002", by with_unfolding_all rfl, encodes_signedText⟩
  stop := ⟨.integer 1700000010, by with_unfolding_all rfl, .integer _⟩
  unfiltered := Or.inl (by decide +kernel)

/-- The start is an integer and the end a number with a point, and the bounds are a text and an
integer. -/
theorem whole_windows_exact_of_spans :
    let s := ofRegions .allSegments ["eu-west-1"] "eu-west-1"
    let run := [(spanBatch "1700000003" "1700000009.0", 0)]
    let r := spanQuery "\" +01700000002\"" "1700000010"
    s.documentsFor "eu-west-1" run = [writtenSegment "1700000003" "1700000009.0"] ∧
      r.AsksBetween 1700000002 1700000010 ∧
      ∃ result : SummaryResult,
        ((s.after run).handle r 0).1.body = (SummaryResult.codec.encode result).text ∧
        (result.summaries.filter (·.id = "1-0-t")).map (·.duration) = [6] := by
  intro s run r
  have hdocuments : s.documentsFor "eu-west-1" run =
      [writtenSegment "1700000003" "1700000009.0"] := by decide +kernel
  have hall : ∀ document ∈ s.documentsFor "eu-west-1" run,
      document = writtenSegment "1700000003" "1700000009.0" := by
    rw [hdocuments]
    exact List.forall_mem_singleton.mpr rfl
  have hmem : writtenSegment "1700000003" "1700000009.0" ∈ s.documentsFor "eu-west-1" run := by
    rw [hdocuments]
    exact List.mem_singleton_self _
  obtain ⟨first, last, hfirst, hlast, hanswer⟩ := whole_windows_exact (List.mem_singleton_self _)
    .allSegments "eu-west-1" run "1-0-t" ⟨_, hmem, reportedIn_writtenSegment⟩
    fun document hdocument _ => ⟨_, _, hall document hdocument ▸ tellsWhole_writtenSegment⟩
  obtain ⟨-, result, hbody, hdurations⟩ := hanswer r 0 1700000002 1700000010 asksBetween_spanQuery
    (by unfold InCalendar; decide) (by unfold InCalendar; decide) (by decide +kernel)
  obtain ⟨document, hdocument, -, stop, hstart⟩ := hfirst.1
  obtain ⟨document', hdocument', -, start, hstop⟩ := hlast.1
  rw [hall document hdocument] at hstart
  rw [hall document' hdocument'] at hstop
  rw [(hstart.unique tellsWhole_writtenSegment).1, (hstop.unique tellsWhole_writtenSegment).2]
    at hdurations
  exact ⟨hdocuments, asksBetween_spanQuery, result, hbody, hdurations⟩

/-- The summary of a trace of one closed segment. -/
def spanSummary (duration : ℤ) : TraceSummary :=
  ⟨"1-0-t", duration, false, false, false, ∅, ∅, [], ∅, false, 1⟩

/-- Two whole numbers of seconds that are written with nine digits after the point are read as
numbers next to them. So a query from the first of them on is told of the trace, and that it took
five seconds and not six. -/
theorem written_windows_inexact :
    (((ofRegions .lastSegment ["eu-west-1"] "eu-west-1").after
        [(spanBatch "4700000003.000000000" "4700000009.000000000", 0)]).handle
      (spanQuery "4700000003" "4700000010") 0).1.body =
        (SummaryResult.codec.encode ⟨0, 1, [spanSummary 5]⟩).text := by
  decide +kernel

end State

end Service

end TraceCollector
