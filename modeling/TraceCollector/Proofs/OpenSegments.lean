import TraceCollector.Proofs.FinishingPoints

/-!
# Open segments

How an open segment holds up the completion of its trace.

1. While a rule does not hold, arrivals change neither whether the trace is finished nor its window
   (`Trace.completion_of_invariant`).
2. Where the last segment decides, an open one stays last until another one starts after it. So the
   trace is held open until a closed segment starts later (`Trace.HeldOpen.insert`); one that starts
   with the open segment is put in front of it.
3. Where all segments decide, an open one is never closed again (`Trace.HasOpen.insert`), so the
   first arrival decides for good (`Trace.finished_ofArrivals_allSegments_iff`).
-/

namespace TraceCollector

namespace Trace

/-! ## Arrivals without effect -/

theorem insert_of_not_holds {rule : CompletionRule} {t : Trace} {s : Segment}
    (h : rule.holds (insertByStart s t.segments) = false) :
    t.insert rule s = { t with segments := insertByStart s t.segments } := by
  unfold insert
  rw [if_neg (by rw [h]; exact Bool.false_ne_true)]

/-- An invariant that arrivals keep, and under which the rule does not hold with any of them, leaves
the completion of a trace as it is. -/
theorem completion_of_invariant {rule : CompletionRule} {P : Trace → Prop} {Q : Segment → Prop}
    (step : ∀ t s, P t → Q s →
      P (t.insert rule s) ∧ rule.holds (insertByStart s t.segments) = false)
    {later : List Segment} (hlater : ∀ s ∈ later, Q s) {t : Trace} (ht : P t) :
    (later.foldl (fun t s => t.insert rule s) t).finished = t.finished ∧
      (later.foldl (fun t s => t.insert rule s) t).window? = t.window? := by
  induction later generalizing t with
  | nil => exact ⟨rfl, rfl⟩
  | cons s rest ih =>
    obtain ⟨hkept, hnot⟩ := step t s ht (hlater s List.mem_cons_self)
    obtain ⟨hfinished, hwindow⟩ := ih (fun u hu => hlater u (List.mem_cons_of_mem _ hu)) hkept
    rw [List.foldl_cons, hfinished, hwindow, insert_of_not_holds hnot]
    exact ⟨rfl, rfl⟩

/-! ## The last segment -/

/-- The last segment is open and starts at the given time or after it. -/
def HeldOpen (t : Trace) (since : Instant) : Prop :=
  ∃ tail, t.segments.getLast? = some tail ∧ tail.isClosed = false ∧ since ≤ tail.startDate

/-- Only a closed segment that starts later ends the hold. -/
theorem HeldOpen.insert {t : Trace} {since : Instant} (h : t.HeldOpen since) {s : Segment}
    (hs : ¬ (s.isClosed = true ∧ since < s.startDate)) :
    (t.insert .lastSegment s).HeldOpen since ∧
      CompletionRule.lastSegment.holds (insertByStart s t.segments) = false := by
  obtain ⟨tail, hlast, hopen, hsince⟩ := h
  have hnew : ∃ u, (insertByStart s t.segments).getLast? = some u ∧ u.isClosed = false ∧
      since ≤ u.startDate := by
    -- a segment that starts with the last one is put in front of it, so only a later one follows
    rcases getLast?_insertByStart_cases hlast s with hsame | ⟨hnext, hlt⟩
    · exact ⟨tail, hsame, hopen, hsince⟩
    · have hlater : since < s.startDate := hsince.trans_lt hlt
      have hsopen : s.isClosed = false := Bool.eq_false_iff.mpr fun hclosed => hs ⟨hclosed, hlater⟩
      exact ⟨s, hnext, hsopen, hlater.le⟩
  refine ⟨?_, ?_⟩
  · unfold HeldOpen
    rw [segments_insert]
    exact hnew
  · obtain ⟨u, hu, huopen, -⟩ := hnew
    change (insertByStart s t.segments).getLast?.any (·.isClosed) = false
    rw [hu]
    exact huopen

/-! ## All segments -/

theorem mem_insertByStart {s u : Segment} {l : List Segment} :
    u ∈ insertByStart s l ↔ u = s ∨ u ∈ l := by
  rw [(perm_insertByStart s l).mem_iff, List.mem_cons]

/-- Some segment is open. -/
def HasOpen (t : Trace) : Prop := ∃ s ∈ t.segments, s.isClosed = false

/-- No segment is ever replaced by another, so an open one remains. -/
theorem HasOpen.insert {t : Trace} (h : t.HasOpen) (s : Segment) :
    (t.insert .allSegments s).HasOpen ∧
      CompletionRule.allSegments.holds (insertByStart s t.segments) = false := by
  obtain ⟨u, hu, hopen⟩ := h
  have hmem : u ∈ insertByStart s t.segments := mem_insertByStart.mpr (Or.inr hu)
  refine ⟨⟨u, ?_, hopen⟩, ?_⟩
  · rw [segments_insert]
    exact hmem
  · change (insertByStart s t.segments).all (·.isClosed) = false
    rw [List.all_eq_false]
    exact ⟨u, hmem, by rw [hopen]; exact Bool.false_ne_true⟩

/-- Where all segments decide, the first arrival decides once and for all. -/
theorem finished_ofArrivals_allSegments_iff (first : Segment) (rest : List Segment) :
    (ofArrivals .allSegments (first :: rest)).finished = true ↔ first.isClosed = true := by
  rcases ofArrivals_cases .allSegments (first :: rest) with
    ⟨hopen, -, hnot⟩ | ⟨hfinished, k, -, ⟨⟨hpos, -, hclosed⟩, -⟩, -⟩
  · rw [hopen]
    refine iff_of_false Bool.false_ne_true fun hclosed => hnot 1 ⟨le_rfl, by simp, ?_⟩
    intro s hs
    rw [List.mem_singleton.mp hs]
    exact hclosed
  · obtain ⟨k, rfl⟩ := Nat.exists_eq_add_of_le' hpos
    refine iff_of_true hfinished (hclosed first ?_)
    rw [List.take_succ_cons]
    exact List.mem_cons_self

end Trace

namespace TraceStore

variable {arrivals : List Segment} {id : String} {t : Trace}

theorem unchanged_of_heldOpen {since : Instant}
    (h : (ofArrivals .lastSegment arrivals).get? id = some t) (hheld : t.HeldOpen since)
    {later : List Segment}
    (hlater : ∀ s ∈ later, s.traceId = id → ¬ (s.isClosed = true ∧ since < s.startDate)) :
    ∃ t', (ofArrivals .lastSegment (arrivals ++ later)).get? id = some t' ∧
      t'.finished = t.finished ∧ t'.window? = t.window? := by
  refine ⟨_, get?_ofArrivals_append h later, ?_⟩
  refine Trace.completion_of_invariant (P := (·.HeldOpen since))
    (fun _ _ ht hs => ht.insert hs) (fun s hs => ?_) hheld
  obtain ⟨hmem, hid⟩ := mem_arrivalsOf.mp hs
  exact hlater s hmem hid

theorem unchanged_of_hasOpen (h : (ofArrivals .allSegments arrivals).get? id = some t)
    (hopen : t.HasOpen) (later : List Segment) :
    ∃ t', (ofArrivals .allSegments (arrivals ++ later)).get? id = some t' ∧
      t'.finished = t.finished ∧ t'.window? = t.window? := by
  refine ⟨_, get?_ofArrivals_append h later, ?_⟩
  exact Trace.completion_of_invariant (P := Trace.HasOpen) (Q := fun _ => True)
    (fun _ s ht _ => ht.insert s) (fun _ _ => trivial) hopen

/-- An open arrival is in the trace, whatever has arrived since. -/
theorem exists_hasOpen {s : Segment} (hs : s ∈ arrivals) (hid : s.traceId = id)
    (hopen : s.isClosed = false) (rule : CompletionRule) :
    ∃ t, (ofArrivals rule arrivals).get? id = some t ∧ t.HasOpen := by
  have hmem : s ∈ arrivalsOf id arrivals := mem_arrivalsOf.mpr ⟨hs, hid⟩
  refine ⟨Trace.ofArrivals rule (arrivalsOf id arrivals), ?_, s, ?_, hopen⟩
  · rw [get?_ofArrivals, if_neg (List.ne_nil_of_mem hmem)]
  · rw [Trace.segments_ofArrivals, mem_inStartOrder]
    exact hmem

theorem finished_allSegments_iff {first : Segment}
    (h : (ofArrivals .allSegments arrivals).get? id = some t)
    (hfirst : (arrivalsOf id arrivals).head? = some first) :
    t.finished = true ↔ first.isClosed = true := by
  obtain ⟨rest, hrest⟩ := List.head?_eq_some_iff.mp hfirst
  rw [eq_of_get?_ofArrivals h, hrest]
  exact Trace.finished_ofArrivals_allSegments_iff first rest

/-- At every moment at which there is the trace, it has the same first arrival. -/
theorem head?_arrivalsOf_moment {rule : CompletionRule} {moment : List Segment} {first : Segment}
    (hmoment : moment <+: arrivals) (h : (ofArrivals rule moment).get? id = some t)
    (hfirst : (arrivalsOf id arrivals).head? = some first) :
    (arrivalsOf id moment).head? = some first := by
  obtain ⟨later, rfl⟩ := hmoment
  have hne : arrivalsOf id moment ≠ [] := by
    intro hnil
    rw [get?_ofArrivals, if_pos hnil] at h
    exact Option.some_ne_none t h.symm
  rw [arrivalsOf_append, List.head?_append_of_ne_nil _ hne] at hfirst
  exact hfirst

/-- Where the last segment decides and is open, nothing but a closed segment that starts after it
changes the completion of the trace; so reports that start with it finish nothing. Where all
segments decide, nothing at all does once an open one has arrived, and a trace is finished at some
moment if and only if its first arrival is closed. -/
theorem completion_frozen (arrivals : List Segment) (id : String) :
    (∀ t tail, (ofArrivals .lastSegment arrivals).get? id = some t →
      t.segments.getLast? = some tail → tail.isClosed = false →
      (∀ later : List Segment,
        (∀ s ∈ later, s.traceId = id → ¬ (s.isClosed = true ∧ tail.startDate < s.startDate)) →
        ∃ t', (ofArrivals .lastSegment (arrivals ++ later)).get? id = some t' ∧
          t'.finished = t.finished ∧ t'.window? = t.window?) ∧
      ∀ reports : List Segment,
        (∀ s ∈ reports, s.traceId = id → s.startDate = tail.startDate) → t.finished = false →
        ∃ t', (ofArrivals .lastSegment (arrivals ++ reports)).get? id = some t' ∧
          t'.finished = false) ∧
    (∀ s ∈ arrivals, s.traceId = id → s.isClosed = false →
      ∃ t, (ofArrivals .allSegments arrivals).get? id = some t ∧
        ∀ later, ∃ t', (ofArrivals .allSegments (arrivals ++ later)).get? id = some t' ∧
          t'.finished = t.finished ∧ t'.window? = t.window?) ∧
    ∀ first, (arrivalsOf id arrivals).head? = some first →
      ((∃ moment t, moment <+: arrivals ∧ (ofArrivals .allSegments moment).get? id = some t ∧
        t.finished = true) ↔ first.isClosed = true) := by
  refine ⟨fun t tail ht hlast hopen => ?_, fun s hs hid hopen => ?_, fun first hfirst => ⟨?_, ?_⟩⟩
  · have hheld : t.HeldOpen tail.startDate := ⟨tail, hlast, hopen, le_rfl⟩
    refine ⟨fun later hlater => unchanged_of_heldOpen ht hheld hlater, fun reports hsame hnot => ?_⟩
    have hnever : ∀ s ∈ reports, s.traceId = id →
        ¬ (s.isClosed = true ∧ tail.startDate < s.startDate) :=
      fun s hs hid hlater => hlater.2.ne (hsame s hs hid).symm
    obtain ⟨t', ht', hfinished, -⟩ := unchanged_of_heldOpen ht hheld hnever
    exact ⟨t', ht', hfinished.trans hnot⟩
  · obtain ⟨t, ht, hhas⟩ := exists_hasOpen hs hid hopen .allSegments
    exact ⟨t, ht, unchanged_of_hasOpen ht hhas⟩
  · rintro ⟨moment, t, hmoment, ht, hfinished⟩
    exact (finished_allSegments_iff ht (head?_arrivalsOf_moment hmoment ht hfirst)).mp hfinished
  · intro hclosed
    have hget := get?_ofArrivals .allSegments arrivals id
    rw [if_neg (List.ne_nil_of_mem (List.mem_of_head? hfirst))] at hget
    exact ⟨arrivals, _, List.prefix_rfl, hget,
      (finished_allSegments_iff hget hfirst).mpr hclosed⟩

/-- Reopened after it has been finished, a trace stays finished; never closed at its end, it is not
finished by a report of that end. -/
theorem completion_frozen_of_reopenedArrivals :
    (∃ t, (ofArrivals .lastSegment (reopenedArrivals ++ reopenedArrivals)).get? "1-0-t" = some t ∧
      t.finished = true) ∧
    (∃ t, (ofArrivals .lastSegment (reopenedArrivals.drop 1 ++ reopenedArrivals.drop 3)).get?
        "1-0-t" = some t ∧ t.finished = false) ∧
    (∃ t t', (ofArrivals .allSegments reopenedArrivals).get? "1-0-t" = some t ∧
      (ofArrivals .allSegments (reopenedArrivals ++ reopenedArrivals)).get? "1-0-t" = some t' ∧
      t'.window? = t.window?) ∧
    ∃ moment t, moment <+: reopenedArrivals ∧
      (ofArrivals .allSegments moment).get? "1-0-t" = some t ∧ t.finished = true := by
  have hget : ∀ rule arrivals, arrivalsOf "1-0-t" arrivals ≠ [] →
      (ofArrivals rule arrivals).get? "1-0-t" =
        some (Trace.ofArrivals rule (arrivalsOf "1-0-t" arrivals)) := by
    intro rule arrivals hne
    rw [get?_ofArrivals, if_neg hne]
  obtain ⟨hreopened, hall, hfirst⟩ := completion_frozen reopenedArrivals "1-0-t"
  obtain ⟨hnever, -, -⟩ := completion_frozen (reopenedArrivals.drop 1) "1-0-t"
  refine ⟨?_, ?_, ?_, (hfirst _ rfl).mpr rfl⟩
  · obtain ⟨t, ht, hfinished, -⟩ := (hreopened _ _ (hget _ _ (by decide)) rfl rfl).1
      reopenedArrivals (by decide)
    exact ⟨t, ht, hfinished.trans (by decide +kernel)⟩
  · exact (hnever _ _ (hget _ _ (by decide)) rfl rfl).2
      (reopenedArrivals.drop 3) (by decide) (by decide +kernel)
  · obtain ⟨t, ht, hlater⟩ := hall _ (List.mem_cons_of_mem _ (List.mem_cons_of_mem _
      List.mem_cons_self)) rfl rfl
    obtain ⟨t', ht', -, hwindow⟩ := hlater reopenedArrivals
    exact ⟨t, t', ht, ht', hwindow⟩

end TraceStore

end TraceCollector
