import TraceCollector.Proofs.Service.WholeSecondWindows

/-!
# Requests for summaries

How a request for summaries is decided.

1. The text of a JSON value is never empty (`Json.Value.text_ne_empty`), so a filter that is no text
   is a filter as any other (`Parameters.exists_text?`).
2. A request is held to rules, which count in an order (`QueryRule.rank`). `QueryRule.Breaks` says
   of each rule by itself when a request breaks it, in terms of what the body gives
   (`Request.Gives`).
3. The parameters are looked at in this order. So a request is refused for the first rule that it
   breaks (`State.ask_of_firstBroken`), and a request that keeps all of them is answered from the
   traces of its region (`State.ask_of_keeps`).
4. Together this is how every request is decided (`State.summaries_decided`).
-/

namespace TraceCollector

/-! ## Texts of values -/

theorem Text.decimalChars_ne_nil (n : ℕ) : decimalChars n ≠ [] := by
  unfold decimalChars
  rw [Ne, List.map_eq_nil_iff]
  exact digitsIn_ne_nil (by norm_num) n

theorem Text.integerChars_ne_nil (n : ℤ) : integerChars n ≠ [] := by
  cases n with
  | ofNat n => exact decimalChars_ne_nil n
  | negSucc n => exact List.cons_ne_nil _ _

theorem Layout.pointed_ne_nil (layout : Layout) {digits : List Char} (h : digits ≠ []) (n : ℤ) :
    layout.pointed digits n ≠ [] := by
  unfold pointed
  split_ifs <;> simp [h]

theorem Layout.decimal_ne_nil (layout : Layout) (d : Decimal) : layout.decimal d ≠ [] := by
  have hdigits := Text.decimalChars_ne_nil d.digits
  unfold decimal
  dsimp only
  split
  · exact layout.pointed_ne_nil hdigits _
  · split_ifs
    · exact layout.pointed_ne_nil hdigits _
    · simp [scientific]

theorem Binary64.text_ne_nil (layout : Layout) (x : Binary64) : x.text layout ≠ [] := by
  unfold text
  dsimp only
  split_ifs <;> simp [layout.decimal_ne_nil]

theorem Json.Value.text_ne_empty (v : Json.Value) : v.text ≠ "" := by
  have hchars : v.chars ≠ [] := by
    cases v with
    | bool b => cases b <;> simp [chars]
    | number p =>
      cases p with
      | integer n => simpa [chars, Number.chars] using Text.integerChars_ne_nil n
      | float x => simpa [chars, Number.chars] using x.text_ne_nil .compact
    | _ => simp [chars, stringChars]
  intro h
  exact hchars (by simpa [text] using congrArg String.toList h)

namespace Service

/-! ## Rules -/

/-- The body is an object in which the parameter has the value, and this is not null. -/
def Request.Gives (r : Request) (name : String) (v : Json.Value) : Prop :=
  v ≠ .null ∧ ∃ members, Json.read r.body = .ok (.object members) ∧ members.get? name = some v

/-- The bounds of a query. -/
inductive Bound where
  | start
  | stop

def Bound.name : Bound → String
  | start => "StartTime"
  | stop => "EndTime"

/-- What a request for summaries is held to. -/
inductive QueryRule where
  /-- The region that the request goes to is served. -/
  | served
  /-- The bound is given; null is as good as nothing. -/
  | given (bound : Bound)
  /-- The bound is a second of the calendar. -/
  | timely (bound : Bound)
  /-- There is no filter but the empty text. -/
  | unfiltered

namespace QueryRule

/-- The place of a rule in the order in which they count. -/
def rank : QueryRule → ℕ
  | served => 0
  | given .start => 1
  | given .stop => 2
  | timely .start => 3
  | timely .stop => 4
  | unfiltered => 5

def code : QueryRule → String
  | served => "InvalidRegion"
  | given _ => "MissingParameter"
  | timely _ => "InvalidParameterValue"
  | unfiltered => "NotImplemented"

def status : QueryRule → ℕ
  | unfiltered => 500
  | _ => 400

/-- The request breaks a rule, which is told with a message. -/
inductive Breaks (s : State) (r : Request) : QueryRule → String → Prop where
  | unserved (h : s.regions.get? (s.regionName r) = none) :
    Breaks s r served ("Unknown region: " ++ s.regionName r)
  | absent {bound : Bound} (h : ∀ v, ¬ r.Gives bound.name v) :
    Breaks s r (given bound) ("Parameter " ++ bound.name ++ " is missing")
  | untimely {bound : Bound} {v : Json.Value} (hv : r.Gives bound.name v)
    (h : ∀ n, Encodes v n → ¬ InCalendar n) :
    Breaks s r (timely bound) "start_time and end_time are not integers"
  | filtered {v : Json.Value} (hv : r.Gives "FilterExpression" v) (h : v ≠ .string "") :
    Breaks s r unfiltered "filter expressions are not implemented"

/-- The request keeps a rule. -/
def Keeps (s : State) (r : Request) (rule : QueryRule) : Prop := ∀ message, ¬ Breaks s r rule message

/-- The rule is the first that the request breaks. -/
structure FirstBroken (s : State) (r : Request) (rule : QueryRule) (message : String) : Prop where
  breaks : Breaks s r rule message
  earlier : ∀ other : QueryRule, other.rank < rule.rank → Keeps s r other

/-- The response to a request that breaks the rule. -/
def refusal (rule : QueryRule) (message : String) : Response :=
  .json rule.status (.ofMembers [("__type", .string rule.code), ("message", .string message)])

section Keeps

variable {s : State} {r : Request}

theorem keeps_served_iff : Keeps s r served ↔ ∃ region, s.region r = .ok region := by
  unfold State.region
  constructor
  · intro h
    cases hget : s.regions.get? (s.regionName r) with
    | none => exact absurd (.unserved hget) (h _)
    | some region => exact ⟨region, rfl⟩
  · rintro ⟨region, hregion⟩ message hbreaks
    cases hbreaks with
    | unserved hget =>
      rw [hget] at hregion
      cases hregion

theorem keeps_given_iff {bound : Bound} :
    Keeps s r (given bound) ↔ ∃ v, r.Gives bound.name v := by
  constructor
  · intro h
    by_contra hnone
    exact h _ (.absent (not_exists.mp hnone))
  · rintro ⟨v, hv⟩ message hbreaks
    cases hbreaks with
    | absent h => exact h v hv

theorem keeps_timely_iff {bound : Bound} :
    Keeps s r (timely bound) ↔
      ∀ v, r.Gives bound.name v → ∃ n, Encodes v n ∧ InCalendar n := by
  constructor
  · intro h v hv
    by_contra hnone
    exact h _ (.untimely hv fun n hencodes hn => hnone ⟨n, hencodes, hn⟩)
  · intro h message hbreaks
    cases hbreaks with
    | untimely hv hnone =>
      obtain ⟨n, hencodes, hn⟩ := h _ hv
      exact hnone n hencodes hn

theorem keeps_unfiltered_iff :
    Keeps s r unfiltered ↔ ∀ v, r.Gives "FilterExpression" v → v = .string "" := by
  constructor
  · intro h v hv
    by_contra hne
    exact h _ (.filtered hv hne)
  · intro h message hbreaks
    cases hbreaks with
    | filtered hv hne => exact hne (h _ hv)

theorem forall_keeps (h : ∀ rule : QueryRule, rule.rank < 5 → Keeps s r rule)
    (hlast : Keeps s r unfiltered) (rule : QueryRule) : Keeps s r rule := by
  rcases rule with _ | (_ | _) | (_ | _) | _
  case unfiltered => exact hlast
  all_goals exact h _ (by decide)

/-- A request keeps all rules, or there is a first that it breaks. -/
theorem keeps_or_exists_firstBroken (s : State) (r : Request) :
    (∀ rule, Keeps s r rule) ∨ ∃ rule message, FirstBroken s r rule message := by
  refine or_iff_not_imp_left.mpr fun hall => ?_
  obtain ⟨rule, hbroken, hleast⟩ :=
    (measure rank).wf.has_min {rule | ¬ Keeps s r rule} (not_forall.mp hall)
  obtain ⟨message, hbreaks⟩ := not_forall_not.mp hbroken
  exact ⟨rule, message, hbreaks, fun other hother => not_not.mp fun h => hleast other h hother⟩

end Keeps

end QueryRule

/-! ## Parameters -/

theorem Request.gives_iff {r : Request} {name : String} {v : Json.Value} :
    r.Gives name v ↔ (Parameters.ofBody r.body).get? name = some v := by
  have hnull : v ≠ .null ↔ v.isNull = false := by cases v <;> simp [Json.Value.isNull]
  unfold Gives Parameters.ofBody Parameters.get?
  rw [Option.filter_eq_some_iff, hnull, and_comm, Bool.not_eq_true']
  refine and_congr_left fun _ => ?_
  split
  · next members hread => simp [hread]
  · next hread => exact iff_of_false (fun ⟨members, hobject, _⟩ => hread members hobject) nofun

theorem Request.Gives.unique {r : Request} {name : String} {v u : Json.Value}
    (hv : r.Gives name v) (hu : r.Gives name u) : v = u :=
  Option.some.inj ((gives_iff.mp hv).symm.trans (gives_iff.mp hu))

theorem Request.Gives.iff {r r' : Request} {name : String} {v u : Json.Value}
    (hr : r.Gives name v) (hr' : r'.Gives name v) : r.Gives name u ↔ r'.Gives name u :=
  ⟨fun h => hr.unique h ▸ hr', fun h => hr'.unique h ▸ hr⟩

namespace Parameters

variable {p : Parameters} {name : String}

theorem text?_of_forall (h : ∀ v, p.get? name = some v → v = .string "") :
    p.text? name = none ∨ p.text? name = some "" := by
  unfold text?
  cases hget : p.get? name with
  | none => exact Or.inl rfl
  | some v =>
    rw [h v hget]
    exact Or.inr rfl

/-- A value other than the empty text has a text that is not empty. -/
theorem exists_text? {v : Json.Value} (hget : p.get? name = some v) (h : v ≠ .string "") :
    ∃ text, p.text? name = some text ∧ text ≠ "" := by
  unfold text?
  rw [hget]
  cases v with
  | string text => exact ⟨text, rfl, fun hempty => h (congrArg _ hempty)⟩
  | _ => exact ⟨_, rfl, Json.Value.text_ne_empty _⟩

end Parameters

/-! ## Decisions -/

namespace State

open QueryRule TraceStore

section Ask

variable {s : State} {r : Request}

/-- Up to the rules for times, a request has a region and two bounds. -/
theorem exists_bounds_of_keeps (h : ∀ rule : QueryRule, rule.rank < 3 → Keeps s r rule) :
    ∃ region v u, s.region r = .ok region ∧ r.Gives "StartTime" v ∧ r.Gives "EndTime" u := by
  obtain ⟨region, hregion⟩ := keeps_served_iff.mp (h served (by decide))
  obtain ⟨v, hv⟩ := keeps_given_iff.mp (h (given .start) (by decide))
  obtain ⟨u, hu⟩ := keeps_given_iff.mp (h (given .stop) (by decide))
  exact ⟨region, v, u, hregion, hv, hu⟩

/-- Up to the rule for filters, a request has a region and a query. -/
theorem exists_query_of_keeps (h : ∀ rule : QueryRule, rule.rank < 5 → Keeps s r rule) :
    ∃ region start stop, s.region r = .ok region ∧
      (∃ v, r.Gives "StartTime" v ∧ Encodes v start) ∧
      (∃ u, r.Gives "EndTime" u ∧ Encodes u stop) ∧ InCalendar start ∧ InCalendar stop ∧
      summaryQuery (Parameters.ofBody r.body) = .ok ⟨.ofParts start 0, .ofParts stop 0,
        (Parameters.ofBody r.body).text? "FilterExpression",
        (Parameters.ofBody r.body).flag "Sampling"⟩ := by
  obtain ⟨region, v, u, hregion, hv, hu⟩ :=
    exists_bounds_of_keeps fun rule hrule => h rule (hrule.trans (by decide))
  obtain ⟨start, hstart, hfirst⟩ := keeps_timely_iff.mp (h (timely .start) (by decide)) v hv
  obtain ⟨stop, hstop, hlast⟩ := keeps_timely_iff.mp (h (timely .stop) (by decide)) u hu
  refine ⟨region, start, stop, hregion, ⟨v, hv, hstart⟩, ⟨u, hu, hstop⟩, hfirst, hlast, ?_⟩
  rw [summaryQuery_of_given (Request.gives_iff.mp hv) (Request.gives_iff.mp hu),
    timeOf_of_encodes hstart hfirst, timeOf_of_encodes hstop hlast]
  rfl

theorem keeps_of_times {region : Region} {v u : Json.Value} {start stop : ℤ}
    (hregion : s.region r = .ok region) (hv : r.Gives "StartTime" v ∧ Encodes v start)
    (hu : r.Gives "EndTime" u ∧ Encodes u stop) (hfirst : InCalendar start)
    (hlast : InCalendar stop) (rule : QueryRule) (hrule : rule.rank < 5) : Keeps s r rule := by
  rcases rule with _ | (_ | _) | (_ | _) | _
  · exact keeps_served_iff.mpr ⟨region, hregion⟩
  · exact keeps_given_iff.mpr ⟨v, hv.1⟩
  · exact keeps_given_iff.mpr ⟨u, hu.1⟩
  · exact keeps_timely_iff.mpr fun w hw => ⟨start, hv.1.unique hw ▸ hv.2, hfirst⟩
  · exact keeps_timely_iff.mpr fun w hw => ⟨stop, hu.1.unique hw ▸ hu.2, hlast⟩
  · exact absurd hrule (by decide)

theorem firstBroken_given_stop {region : Region} {v : Json.Value}
    (hregion : s.region r = .ok region)
    (hstart : (Parameters.ofBody r.body).get? "StartTime" = some v)
    (hstop : (Parameters.ofBody r.body).get? "EndTime" = none) :
    FirstBroken s r (given .stop) ("Parameter " ++ Bound.stop.name ++ " is missing") := by
  refine ⟨.absent fun u hu => ?_, fun rule hrule => ?_⟩
  · cases hstop.symm.trans (Request.gives_iff.mp hu)
  · rcases rule with _ | ⟨_ | _⟩ | ⟨_ | _⟩ | _
    · exact keeps_served_iff.mpr ⟨region, hregion⟩
    · exact keeps_given_iff.mpr ⟨v, Request.gives_iff.mpr hstart⟩
    all_goals exact absurd hrule (by decide)

/-- A request is refused for the first rule that it breaks. -/
theorem ask_of_firstBroken {rule : QueryRule} {message : String}
    (h : FirstBroken s r rule message) (now : ℤ) :
    s.ask r (getSummaries now) = refusal rule message := by
  obtain ⟨hbreaks, hearlier⟩ := h
  -- the rules before the broken one are looked at one after the other
  cases hbreaks with
  | unserved hget =>
    unfold ask region
    rw [hget]
    rfl
  | @absent bound h =>
    obtain ⟨region, hregion⟩ := keeps_served_iff.mp (hearlier served (by cases bound <;> decide))
    have habsent : (Parameters.ofBody r.body).get? bound.name = none :=
      Option.eq_none_iff_forall_ne_some.mpr fun v hv => h v (Request.gives_iff.mpr hv)
    cases bound with
    | start =>
      exact ask_of_error hregion (getSummaries_of_error (summaryQuery_of_no_start habsent) now _)
    | stop =>
      obtain ⟨v, hv⟩ := keeps_given_iff.mp (hearlier (given .start) (by decide))
      exact ask_of_error hregion (getSummaries_of_error
        (summaryQuery_of_no_stop (Request.gives_iff.mp hv) habsent) now _)
  | @untimely bound w hw h =>
    have hrefused : timeOf w = .error .notATime := timeOf_eq_error_iff.mpr ⟨rfl, h⟩
    obtain ⟨region, v, u, hregion, hv, hu⟩ := exists_bounds_of_keeps fun rule hrule =>
      hearlier rule (hrule.trans_le (by cases bound <;> decide))
    refine ask_of_error hregion (f := .notATime) (getSummaries_of_error ?_ now _)
    rw [summaryQuery_of_given (Request.gives_iff.mp hv) (Request.gives_iff.mp hu)]
    cases bound with
    | start =>
      cases hv.unique hw
      rw [hrefused]
      rfl
    | stop =>
      cases hu.unique hw
      obtain ⟨n, hencodes, hn⟩ :=
        keeps_timely_iff.mp (hearlier (timely .start) (by decide)) v hv
      rw [timeOf_of_encodes hencodes hn, hrefused]
      rfl
  | filtered hw h =>
    obtain ⟨region, start, stop, hregion, -, -, -, -, hquery⟩ := exists_query_of_keeps hearlier
    obtain ⟨text, htext, hne⟩ := Parameters.exists_text? (Request.gives_iff.mp hw) h
    rw [htext] at hquery
    exact ask_of_error hregion
      (getSummaries_of_filter hquery (TraceStore.hasFilter_eq_true rfl hne) now _)

/-- A request that keeps all rules is answered from the traces of its region. -/
theorem ask_of_keeps (h : ∀ rule, Keeps s r rule) (now : ℤ) :
    ∃ region start stop, s.regions.get? (s.regionName r) = some region ∧
      (∃ v, r.Gives "StartTime" v ∧ Encodes v start) ∧
      (∃ u, r.Gives "EndTime" u ∧ Encodes u stop) ∧ InCalendar start ∧ InCalendar stop ∧
      ∀ q : SummaryQuery, q.start = .ofParts start 0 → q.stop = .ofParts stop 0 →
        s.ask r (getSummaries now) = .json 200 (SummaryResult.codec.encode
          ⟨now, (region.traces.summaries q).length, region.traces.summaries q⟩) := by
  obtain ⟨region, start, stop, hregion, hstart, hstop, hfirst, hlast, hquery⟩ :=
    exists_query_of_keeps fun rule _ => h rule
  refine ⟨region, start, stop, get?_of_region hregion, hstart, hstop, hfirst, hlast, ?_⟩
  rintro ⟨_, _, _, _⟩ rfl rfl
  have hunfiltered := Parameters.text?_of_forall fun v hv =>
    keeps_unfiltered_iff.mp (h unfiltered) v (Request.gives_iff.mpr hv)
  exact ask_of_ok hregion
    (getSummaries_of_query hquery (TraceStore.hasFilter_eq_false hunfiltered) now region)

/-- Requests to regions with the same traces are answered alike if they give the same bounds and
the same filter. -/
theorem ask_of_same {s' : State} {r' : Request} (hname : s'.regionName r' = s.regionName r)
    (htraces : (s'.regions.get? (s.regionName r)).map (·.traces) =
      (s.regions.get? (s.regionName r)).map (·.traces))
    (h : ∀ name ∈ ["StartTime", "EndTime", "FilterExpression"], ∀ v,
      r'.Gives name v ↔ r.Gives name v) (now : ℤ) :
    s'.ask r' (getSummaries now) = s.ask r (getSummaries now) := by
  have hparameters : ∀ name ∈ ["StartTime", "EndTime", "FilterExpression"],
      (Parameters.ofBody r'.body).get? name = (Parameters.ofBody r.body).get? name := by
    intro name hmem
    refine Option.ext fun v => ?_
    rw [← Request.gives_iff, ← Request.gives_iff]
    exact h name hmem v
  unfold ask region
  rw [hname]
  cases hget : s.regions.get? (s.regionName r) with
  | none =>
    rw [hget, Option.map_none, Option.map_eq_none_iff] at htraces
    rw [htraces]
  | some region =>
    rw [hget, Option.map_some, Option.map_eq_some_iff] at htraces
    obtain ⟨region', hget', htraces⟩ := htraces
    rw [hget']
    dsimp only
    rw [getSummaries_of_same htraces hparameters]

end Ask

/-- A request for summaries is decided by the first rule that it breaks, whatever else is wrong with
it, and changes nothing. If it breaks none, it is answered from the traces of its region between the
seconds that it gives for the bounds. Two requests are answered alike if they go to regions of the
same name with the same traces and give the same bounds and filter, whatever they say of sampling
or of anything else, and whatever there is in the other regions. -/
theorem summaries_decided (s : State) {r : Request} (now : ℤ) (hpost : r.method = "POST")
    (hpath : r.path = "/TraceSummaries") :
    ((∀ rule, Keeps s r rule) ∨ ∃ rule message, FirstBroken s r rule message) ∧
    (∀ rule message, FirstBroken s r rule message →
      s.handle r now = ((refusal rule message).withHeaders Response.sharedHeaders, s)) ∧
    ((∀ rule, Keeps s r rule) →
      ∃ region start stop, s.regions.get? (s.regionName r) = some region ∧
        (∃ v, r.Gives "StartTime" v ∧ Encodes v start) ∧
        (∃ u, r.Gives "EndTime" u ∧ Encodes u stop) ∧ InCalendar start ∧ InCalendar stop ∧
        ∀ q : SummaryQuery, q.start = .ofParts start 0 → q.stop = .ofParts stop 0 →
          s.handle r now = ((Response.json 200 (SummaryResult.codec.encode
            ⟨now, (region.traces.summaries q).length, region.traces.summaries q⟩)).withHeaders
              Response.sharedHeaders, s)) ∧
    ∀ (s' : State) (r' : Request), r'.method = "POST" → r'.path = "/TraceSummaries" →
      s'.regionName r' = s.regionName r →
      (s'.regions.get? (s.regionName r)).map (·.traces) =
        (s.regions.get? (s.regionName r)).map (·.traces) →
      (∀ name ∈ ["StartTime", "EndTime", "FilterExpression"], ∀ v,
        r'.Gives name v ↔ r.Gives name v) →
      (s'.handle r' now).1 = (s.handle r now).1 := by
  have hhandle : ∀ (s : State) (r : Request), r.method = "POST" → r.path = "/TraceSummaries" →
      s.handle r now = ((s.ask r (getSummaries now)).withHeaders Response.sharedHeaders, s) := by
    intro s r hpost hpath
    unfold handle
    rw [answer_summaries s now hpost hpath]
  rw [hhandle s r hpost hpath]
  refine ⟨keeps_or_exists_firstBroken s r, fun rule message h => ?_, fun h => ?_,
    fun s' r' hpost' hpath' hname htraces hgives => ?_⟩
  · rw [ask_of_firstBroken h]
  · obtain ⟨region, start, stop, hget, hstart, hstop, hfirst, hlast, hask⟩ := ask_of_keeps h now
    refine ⟨region, start, stop, hget, hstart, hstop, hfirst, hlast, fun q hq hq' => ?_⟩
    rw [hask q hq hq']
  · rw [hhandle s' r' hpost' hpath', ask_of_same hname htraces hgives]

/-- A request for the summaries of a region, with the members of its body as they are written. -/
def summaryRequest (members : String) : Request :=
  signedRequest "eu-west-1" "/TraceSummaries" ("\x7b" ++ members ++ "\x7d")

/-- Two regions, of which the first has the trace of a flag. -/
def flaggedState (other : TraceStore) : State where
  regions := (Dictionary.empty.insert "us-east-1" ⟨"us-east-1", other, ⟨[]⟩⟩).insert "eu-west-1"
    ⟨"eu-west-1", .ofArrivals .lastSegment flaggedArrivals, ⟨[]⟩⟩
  defaultRegion := "us-east-1"

theorem get?_flaggedState (other : TraceStore) :
    (flaggedState other).regions.get? "eu-west-1" =
      some ⟨"eu-west-1", .ofArrivals .lastSegment flaggedArrivals, ⟨[]⟩⟩ := by
  unfold flaggedState
  rw [Dictionary.get?_insert, if_pos rfl]

theorem region_flaggedState {other : TraceStore} {r : Request}
    (h : (flaggedState other).regionName r = "eu-west-1") : (flaggedState other).region r =
      .ok ⟨"eu-west-1", .ofArrivals .lastSegment flaggedArrivals, ⟨[]⟩⟩ :=
  region_of_get? ((congrArg _ h).trans (get?_flaggedState other))

/-- A request with a start that is no time, no end and a list for a filter lacks the end; one that
has only the filter against it is told of this. A request to sample is answered as one without,
whatever traces another region has. -/
theorem summaries_decided_of_faults :
    let s := flaggedState (.empty .lastSegment)
    let faulty := summaryRequest "\"StartTime\":\"soon\",\"FilterExpression\":[]"
    let filtered := summaryRequest "\"StartTime\":0,\"EndTime\":100,\"FilterExpression\":[]"
    let plain := summaryRequest "\"StartTime\":0,\"EndTime\":100"
    let sampled := summaryRequest "\"Sampling\":true,\"StartTime\":0,\"EndTime\":100"
    s.handle faulty 0 = ((refusal (given .stop) "Parameter EndTime is missing").withHeaders
        Response.sharedHeaders, s) ∧
      s.handle filtered 0 = ((refusal unfiltered
        "filter expressions are not implemented").withHeaders Response.sharedHeaders, s) ∧
      (∃ result : SummaryResult, result.summaries.map (·.duration) = [40] ∧
        s.handle plain 0 = ((Response.json 200 (SummaryResult.codec.encode result)).withHeaders
          Response.sharedHeaders, s)) ∧
      ((flaggedState (.ofArrivals .allSegments flaggedArrivals)).handle sampled 0).1 =
        (s.handle plain 0).1 := by
  intro s faulty filtered plain sampled
  have hpath : ∀ r ∈ [faulty, filtered, plain, sampled], r.path = "/TraceSummaries" := by
    decide +kernel
  have hname : ∀ r ∈ [faulty, filtered, plain, sampled], s.regionName r = "eu-west-1" := by
    decide +kernel
  have hbounds : ∀ r ∈ [filtered, plain, sampled],
      r.Gives "StartTime" (.integer 0) ∧ r.Gives "EndTime" (.integer 100) := by
    simp only [Request.gives_iff]
    refine List.forall_mem_cons.mpr ⟨⟨?_, ?_⟩, List.forall_mem_cons.mpr ⟨⟨?_, ?_⟩,
      List.forall_mem_singleton.mpr ⟨?_, ?_⟩⟩⟩
    all_goals with_unfolding_all rfl
  have hnofilter : ∀ r ∈ [plain, sampled], ∀ v, ¬ r.Gives "FilterExpression" v := by
    have hnone : ∀ r ∈ [plain, sampled],
        (Parameters.ofBody r.body).get? "FilterExpression" = none := by
      refine List.forall_mem_cons.mpr ⟨?_, List.forall_mem_singleton.mpr ?_⟩
      all_goals with_unfolding_all rfl
    intro r hr v hv
    cases (hnone r hr).symm.trans (Request.gives_iff.mp hv)
  have hkeeps : ∀ r ∈ [filtered, plain], ∀ rule : QueryRule, rule.rank < 5 → Keeps s r rule := by
    intro r hr
    have hmem : r ∈ [filtered, plain, sampled] := by simp at hr ⊢; tauto
    exact keeps_of_times (region_flaggedState (hname r (List.mem_cons_of_mem _ hmem)))
      ⟨(hbounds r hmem).1, .integer 0⟩ ⟨(hbounds r hmem).2, .integer 100⟩
      (by unfold InCalendar; decide) (by unfold InCalendar; decide)
  obtain ⟨-, -, hanswered, hsame⟩ := summaries_decided s (r := plain) 0 rfl (hpath plain (by simp))
  refine ⟨?_, ?_, ?_, ?_⟩
  · refine (summaries_decided s 0 rfl (hpath faulty (by simp))).2.1 _ _ ?_
    have hmessage : "Parameter EndTime is missing" =
        "Parameter " ++ Bound.stop.name ++ " is missing" := by decide
    rw [hmessage]
    refine firstBroken_given_stop (v := .string "soon")
      (region_flaggedState (hname faulty (by simp))) ?_ ?_
    all_goals with_unfolding_all rfl
  · refine (summaries_decided s 0 rfl (hpath filtered (by simp))).2.1 _ _ ?_
    refine ⟨.filtered (v := .array []) (Request.gives_iff.mpr ?_) nofun,
      hkeeps filtered (by simp)⟩
    with_unfolding_all rfl
  · obtain ⟨region, start, stop, hserved, ⟨v, hv, hstart⟩, ⟨u, hu, hstop⟩, -, -, hanswer⟩ :=
      hanswered (forall_keeps (hkeeps plain (by simp))
        (keeps_unfiltered_iff.mpr fun v hv => absurd hv (hnofilter plain (by simp) v)))
    rw [hname plain (by simp), get?_flaggedState] at hserved
    cases hserved
    obtain ⟨hv', hu'⟩ := hbounds plain (by simp)
    cases hv'.unique hv
    cases hu'.unique hu
    cases hstart
    cases hstop
    refine ⟨_, ?_, hanswer ⟨.ofParts 0 0, .ofParts 100 0, none, false⟩ rfl rfl⟩
    decide +kernel
  · refine hsame _ sampled rfl (hpath sampled (by simp)) rfl ?_ ?_
    · rw [hname plain (by simp), get?_flaggedState, get?_flaggedState]
    · obtain ⟨hstart, hstop⟩ := hbounds plain (by simp)
      obtain ⟨hstart', hstop'⟩ := hbounds sampled (by simp)
      refine List.forall_mem_cons.mpr ⟨fun v => hstart'.iff hstart, List.forall_mem_cons.mpr
        ⟨fun v => hstop'.iff hstop, List.forall_mem_singleton.mpr fun v => ?_⟩⟩
      exact iff_of_false (hnofilter sampled (by simp) v) (hnofilter plain (by simp) v)

end State

end Service

end TraceCollector
