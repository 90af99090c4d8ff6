import TraceCollector.Configuration
import TraceCollector.Ingest.RejectionRecord
import TraceCollector.Proofs.Json.Forms
import TraceCollector.Proofs.Summaries

/-!
# Forms that are sent

Configurations, rejection records and summary results survive their text (`carries_codec`), the
results as far as their integers have the widths of their fields and nothing was gathered for them
(`SummaryResult.Bare`). A store gives no other results: its windows lie in the calendar, so their
lengths in seconds fit 64 bits (`TraceStore.bare_of_summarize?`).
-/

namespace TraceCollector

open Json

/-! ## Configurations and rejection records -/

theorem CompletionRule.carries_codec {d : Nat} (rule : CompletionRule) : codec.Carries d rule :=
  Codec.carries_choice (by cases rule <;> decide) (by cases rule <;> decide)

theorem Configuration.carries_codec {d : Nat} (c : Configuration) : codec.Carries (d + 2) c := by
  have hregions := Codec.carries_texts (d := d) c.regions
  have hrule := c.completion.carries_codec (d := d + 1)
  refine Codec.carries_record rfl rfl ?_ ?_ ?_ fun members hget => ?_
  · simp
  · simp only [List.forall_mem_cons]
    exact ⟨suits_text rfl _, suits_text rfl _, hregions.suits rfl, hrule.suits rfl, by simp⟩
  · simp
  · simp only [codec, Value.asRecord, fieldOr, bind, Except.bind, hget]
    simp [Dictionary.lookup_cons_eq, Value.asText, hregions.decode_encode, hrule.decode_encode,
      pure, Except.pure]

theorem Segment.Rejection.Code.carries_codec {d : Nat} (code : Rejection.Code) :
    codec.Carries d code :=
  Codec.carries_choice (by cases code <;> decide) (by cases code <;> decide)

theorem RejectionRecord.carries_codec {d : Nat} (r : RejectionRecord) :
    codec.Carries (d + 1) r := by
  obtain ⟨id?, code, message⟩ := r
  have hcode := code.carries_codec (d := d)
  cases id? with
  | none =>
    refine Codec.carries_record rfl rfl ?_ ?_ ?_ fun members hget => ?_
    · simp
    · simp only [List.nil_append, List.forall_mem_cons]
      exact ⟨hcode.suits rfl, suits_text rfl _, by simp⟩
    · simp
    · simp only [codec, Value.asRecord, fieldOr, requiredField, bind, Except.bind, hget]
      simp [Dictionary.lookup_cons_eq, Value.asText, hcode.decode_encode, pure, Except.pure]
  | some id =>
    refine Codec.carries_record rfl rfl ?_ ?_ ?_ fun members hget => ?_
    · simp
    · simp only [List.cons_append, List.nil_append, List.forall_mem_cons]
      exact ⟨⟨.plain (.string _), _, rfl, .optional rfl⟩, hcode.suits rfl, suits_text rfl _,
        by simp⟩
    · simp
    · simp only [codec, Value.asRecord, fieldOr, requiredField, bind, Except.bind, hget]
      simp [Dictionary.lookup_cons_eq, Value.asText, Value.asOptionalText, Except.map,
        hcode.decode_encode, pure, Except.pure]

/-! ## Summaries -/

/-- The integers of 64 bits with sign. -/
def IsSigned64 (n : Int) : Prop := -9223372036854775808 ≤ n ∧ n ≤ 9223372036854775807

instance (n : Int) : Decidable (IsSigned64 n) := by unfold IsSigned64; infer_instance

/-- The integers of 64 bits without sign. -/
def IsUnsigned64 (n : Int) : Prop := 0 ≤ n ∧ n ≤ 18446744073709551615

/-- The integers have the widths of their fields, and nothing was gathered. -/
structure TraceSummary.Bare (s : TraceSummary) : Prop where
  duration : IsSigned64 s.duration
  responseTime : IsSigned64 s.responseTime
  annotations : s.annotations = ∅
  http : s.http = ∅
  serviceIds : s.serviceIds = []
  users : s.users = ∅

/-- The integers have the widths of their fields, and the summaries are bare. -/
structure SummaryResult.Bare (r : SummaryResult) : Prop where
  approximateTime : IsSigned64 r.approximateTime
  tracesProcessed : IsUnsigned64 r.tracesProcessed
  summaries : ∀ s ∈ r.summaries, s.Bare

section Fields

variable {d : Nat} {fields : List (Json.Field Shape)} {key name : String} {required : Bool}
  {n : Int}

theorem asSigned_integer (hn : IsSigned64 n) : (Value.integer n).asSigned = .ok n := if_pos hn

theorem asSize_integer (hn : IsUnsigned64 n) : (Value.integer n).asSize = .ok n := if_pos hn

theorem suits_signed (h : fieldNamed? fields key = some ⟨name, .scalar .signed, required⟩)
    (hn : IsSigned64 n) : Suits d fields (key, .integer n) := by
  have hform : ScalarForm.signed.admit (.integer n) = .ok () := by
    show Except.map (fun _ => ()) (Value.integer n).asSigned = .ok ()
    rw [asSigned_integer hn]
    rfl
  exact ⟨.plain (.integer ⟨hn.1, by have := hn.2; omega⟩), _, h, .scalar hform⟩

theorem suits_size (h : fieldNamed? fields key = some ⟨name, .scalar .size, required⟩)
    (hn : IsUnsigned64 n) : Suits d fields (key, .integer n) := by
  have hform : ScalarForm.size.admit (.integer n) = .ok () := by
    show Except.map (fun _ => ()) (Value.integer n).asSize = .ok ()
    rw [asSize_integer hn]
    rfl
  have hwidth : IsInteger64 n := by
    unfold IsUnsigned64 at hn
    exact ⟨by omega, by omega⟩
  exact ⟨.plain (.integer hwidth), _, h, .scalar hform⟩

theorem suits_flag (h : fieldNamed? fields key = some ⟨name, .scalar .flag, required⟩) (b : Bool) :
    Suits d fields (key, .bool b) :=
  ⟨.plain (.bool b), _, h, .scalar rfl⟩

theorem suits_empty (h : fieldNamed? fields key = some ⟨name, .dictionary, required⟩) :
    Suits (d + 1) fields (key, .object ∅) :=
  ⟨.object List.Pairwise.nil (fun _ he => by cases he), _, h, .dictionary ∅⟩

end Fields

theorem TraceSummary.carries_codec {d : Nat} {s : TraceSummary} (h : s.Bare) :
    codec.Carries (d + 2) s := by
  obtain ⟨id, duration, hasError, hasFault, hasThrottle, annotations, http, serviceIds, users,
    isPartial, responseTime⟩ := s
  obtain ⟨hduration, hresponse, rfl, rfl, rfl, rfl⟩ := h
  refine Codec.carries_record rfl rfl ?_ ?_ ?_ fun members hget => ?_
  · simp
  · simp only [List.forall_mem_cons]
    exact ⟨suits_text rfl _, suits_signed rfl hduration, suits_flag rfl _, suits_flag rfl _,
      suits_flag rfl _, suits_empty rfl, suits_empty rfl,
      ⟨.array (by simp), _, rfl, .list (by simp)⟩, suits_empty rfl, suits_flag rfl _,
      suits_signed rfl hresponse, by simp⟩
  · simp
  · simp only [codec, Value.asRecord, requiredField, bind, Except.bind, hget]
    simp [Dictionary.lookup_cons_eq, Value.asText, Value.asFlag, Value.asDictionary, Value.asList,
      asSigned_integer hduration, asSigned_integer hresponse, pure, Except.pure]

theorem SummaryResult.carries_codec {d : Nat} {r : SummaryResult} (h : r.Bare) :
    codec.Carries (d + 4) r := by
  obtain ⟨approximateTime, tracesProcessed, summaries⟩ := r
  obtain ⟨htime, hprocessed, hsummaries⟩ := h
  have hlist := Codec.carries_list fun s hs =>
    TraceSummary.carries_codec (d := d) (hsummaries s hs)
  refine Codec.carries_record rfl rfl ?_ ?_ ?_ fun members hget => ?_
  · simp
  · simp only [List.forall_mem_cons]
    exact ⟨suits_signed rfl htime, suits_size rfl hprocessed, hlist.suits rfl, by simp⟩
  · simp
  · simp only [codec, Value.asRecord, requiredField, bind, Except.bind, hget]
    simp [Dictionary.lookup_cons_eq, asSigned_integer htime, asSize_integer hprocessed,
      hlist.decode_encode, pure, Except.pure]

/-! ## Results that are given -/

theorem Timestamp.inCalendar (t : Timestamp) : t.instant.InCalendar := by
  obtain ⟨seconds, instant, h⟩ := t
  unfold Instant.ofEpochSeconds? at h
  split_ifs at h
  unfold Instant.ofNanoseconds? at h
  split_ifs at h with hcalendar
  cases h
  exact hcalendar

/-- Within the calendar the seconds between two instants fit 64 bits. -/
theorem Instant.isSigned64_wholeSecondsBetween {a b : Instant} (ha : a.InCalendar)
    (hb : b.InCalendar) : IsSigned64 (wholeSecondsBetween a b) := by
  unfold InCalendar seconds firstSecond lastSecond nanosecondsPerSecond at ha hb
  unfold wholeSecondsBetween nanosecondsPerSecond IsSigned64
  have hsign : Int.sign 1000000000 = 1 := rfl
  rw [Int.tdiv_eq_ediv, hsign]
  split_ifs <;> omega

namespace TraceStore

/-- The windows of a store are taken from its segments, whose times lie in the calendar. -/
theorem inCalendar_of_window {rule : CompletionRule} {arrivals : List Segment} {id : String}
    {t : Trace} {w : Window} (ht : (ofArrivals rule arrivals).get? id = some t)
    (hw : t.window? = some w) : w.start.InCalendar ∧ w.stop.InCalendar := by
  rw [eq_of_get?_ofArrivals ht] at hw
  rcases Trace.ofArrivals_cases rule (arrivalsOf id arrivals) with
    ⟨-, hnone, -⟩ | ⟨-, k, w', -, hw', hspans⟩
  · cases hnone.symm.trans hw
  · cases hw'.symm.trans hw
    obtain ⟨s, -, hstart⟩ := hspans.1.1
    obtain ⟨u, -, hstop⟩ := hspans.2.1
    refine ⟨hstart ▸ s.start.inCalendar, ?_⟩
    obtain ⟨stop, -, hstop⟩ := Option.map_eq_some_iff.mp hstop
    exact hstop ▸ stop.inCalendar

/-- What a query is answered with has integers of the widths of their fields. -/
theorem bare_of_summarize? {rule : CompletionRule} {arrivals : List Segment} {q : SummaryQuery}
    {now : Int} {r : SummaryResult} (h : (ofArrivals rule arrivals).summarize? q now = some r)
    (hnow : IsSigned64 now) (hcount : r.summaries.length < 18446744073709551616) : r.Bare := by
  unfold summarize? at h
  split_ifs at h
  cases h
  dsimp only at hcount
  refine ⟨hnow, ⟨Int.natCast_nonneg _, ?_⟩, fun s hs => ?_⟩
  · show (((ofArrivals rule arrivals).summaries q).length : Int) ≤ _
    omega
  obtain ⟨t, w, ht, hw, -, hsummary⟩ := (mem_summaries_iff (ordered_ofArrivals rule arrivals)).mp hs
  obtain ⟨hstart, hstop⟩ := inCalendar_of_window ht hw
  rw [hsummary]
  have hresponse : IsSigned64 1 := by decide
  exact ⟨Instant.isSigned64_wholeSecondsBetween hstart hstop, hresponse, rfl, rfl, rfl, rfl⟩

end TraceStore

end TraceCollector
