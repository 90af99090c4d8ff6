import Mathlib.Order.Bounds.Defs
import TraceCollector.Proofs.Arrivals

/-!
# Finishing points

When the traces of a store are finished, and with which window, told from the order of arrival.

1. A completion rule looks at segments in the order of their starts. Its verdict on the segments of
   a trace is a property of the arrivals (`CompletionRule.holds_inStartOrder`): the last of the
   sorted segments is the first to arrive of those that start last (`getLast?_inStartOrder`).
2. An arrival that makes the rule hold finishes the trace and takes its window anew; any other
   leaves both as they were (`Trace.ofArrivals_concat_of_settles`,
   `Trace.ofArrivals_concat_of_not_settles`).
3. So a trace has the window of the last of its finishing points (`Trace.ofArrivals_cases`).
-/

namespace TraceCollector

/-! ## What a rule asks of arrivals -/

/-- The rule is satisfied by segments in the order of their arrival: of those that start last the
first to arrive is closed, or all are closed. -/
def CompletionRule.Settles : CompletionRule → List Segment → Prop
  | .lastSegment, arrivals => ∃ before s after, arrivals = before ++ s :: after ∧
      (∀ t ∈ before, t.startDate < s.startDate) ∧ (∀ t ∈ after, t.startDate ≤ s.startDate) ∧
      s.isClosed
  | .allSegments, arrivals => ∀ s ∈ arrivals, s.isClosed

/-- The first `k` arrivals satisfy the rule. -/
def FinishingPoint (rule : CompletionRule) (arrivals : List Segment) (k : ℕ) : Prop :=
  1 ≤ k ∧ k ≤ arrivals.length ∧ rule.Settles (arrivals.take k)

/-- Some arrival starts last and is the first to arrive of those that do. -/
theorem exists_latest {arrivals : List Segment} (h : arrivals ≠ []) :
    ∃ before s after, arrivals = before ++ s :: after ∧
      (∀ t ∈ before, t.startDate < s.startDate) ∧
      ∀ t ∈ after, t.startDate ≤ s.startDate := by
  induction arrivals using List.reverseRecOn with
  | nil => exact absurd rfl h
  | append_singleton arrivals x ih =>
    by_cases hnil : arrivals = []
    · subst hnil
      exact ⟨[], x, [], rfl, by simp, by simp⟩
    · obtain ⟨before, s, after, rfl, hbefore, hafter⟩ := ih hnil
      by_cases hx : s.startDate < x.startDate
      · refine ⟨before ++ s :: after, x, [], rfl, fun t ht => ?_, by simp⟩
        rcases List.mem_append.mp ht with ht | ht
        · exact (hbefore t ht).trans hx
        · rcases List.mem_cons.mp ht with rfl | ht
          · exact hx
          · exact (hafter t ht).trans_lt hx
      · refine ⟨before, s, after ++ [x], by simp, hbefore, fun t ht => ?_⟩
        rcases List.mem_append.mp ht with ht | ht
        · exact hafter t ht
        · rw [List.mem_singleton.mp ht]
          exact not_lt.mp hx

/-- The last segment stays last, unless it starts before the one that is put in. -/
theorem getLast?_insertByStart_cases {l : List Segment} {last : Segment}
    (hlast : l.getLast? = some last) (x : Segment) :
    (Trace.insertByStart x l).getLast? = some last ∨
      (Trace.insertByStart x l).getLast? = some x ∧ last.startDate < x.startDate := by
  induction l with
  | nil => cases hlast
  | cons t rest ih =>
    rw [Trace.insertByStart]
    by_cases ht : t.startDate < x.startDate
    · rw [if_pos ht]
      cases rest with
      | nil =>
        cases hlast
        exact Or.inr ⟨rfl, ht⟩
      | cons u rest =>
        rw [List.getLast?_cons_cons] at hlast
        have hne : Trace.insertByStart x (u :: rest) ≠ [] := by
          rw [Trace.insertByStart]
          split <;> simp
        obtain ⟨v, rest', hcons⟩ := List.exists_cons_of_ne_nil hne
        rw [hcons, List.getLast?_cons_cons, ← hcons]
        exact ih hlast
    · rw [if_neg ht, List.getLast?_cons_cons]
      exact Or.inl hlast

/-- A segment that does not start after the last one is put in front of it. -/
theorem getLast?_insertByStart {x s : Segment} {l : List Segment} (hlast : l.getLast? = some s)
    (hx : x.startDate ≤ s.startDate) : (Trace.insertByStart x l).getLast? = some s := by
  rcases getLast?_insertByStart_cases hlast x with h | ⟨-, hlt⟩
  · exact h
  · exact absurd hx (not_le.mpr hlt)

/-- The last of the sorted arrivals is the first to arrive of those that start last. -/
theorem getLast?_inStartOrder {before after : List Segment} {s : Segment}
    (hbefore : ∀ t ∈ before, t.startDate < s.startDate)
    (hafter : ∀ t ∈ after, t.startDate ≤ s.startDate) :
    (inStartOrder (before ++ s :: after)).getLast? = some s := by
  induction after using List.reverseRecOn with
  | nil =>
    have hend : Trace.insertByStart s (inStartOrder before ++ []) = inStartOrder before ++ [s] :=
      insertByStart_append (fun t ht => hbefore t ((mem_inStartOrder before).mp ht)) (by simp)
    rw [List.append_nil] at hend
    rw [inStartOrder_concat, hend, List.getLast?_concat]
  | append_singleton after x ih =>
    have hlast := ih fun t ht => hafter t (List.mem_append_left _ ht)
    rw [← List.cons_append, ← List.append_assoc, inStartOrder_concat]
    exact getLast?_insertByStart hlast (hafter x (by simp))

theorem CompletionRule.holds_inStartOrder (rule : CompletionRule) (arrivals : List Segment) :
    rule.holds (inStartOrder arrivals) = true ↔ rule.Settles arrivals := by
  cases rule with
  | lastSegment =>
    change (inStartOrder arrivals).getLast?.any (·.isClosed) = true ↔ _
    constructor
    · intro h
      have hne : arrivals ≠ [] := by
        rintro rfl
        simp [inStartOrder] at h
      obtain ⟨before, s, after, rfl, hbefore, hafter⟩ := exists_latest hne
      rw [getLast?_inStartOrder hbefore hafter] at h
      exact ⟨before, s, after, rfl, hbefore, hafter, h⟩
    · rintro ⟨before, s, after, rfl, hbefore, hafter, hclosed⟩
      rw [getLast?_inStartOrder hbefore hafter]
      exact hclosed
  | allSegments =>
    change (inStartOrder arrivals).all (·.isClosed) = true ↔ _
    rw [List.all_eq_true]
    exact forall_congr' fun s => imp_congr_left (mem_inStartOrder arrivals)

theorem CompletionRule.exists_isClosed {rule : CompletionRule} {arrivals : List Segment}
    (h : rule.Settles arrivals) (hne : arrivals ≠ []) : ∃ s ∈ arrivals, s.isClosed := by
  cases rule with
  | lastSegment =>
    obtain ⟨before, s, after, rfl, -, -, hclosed⟩ := h
    exact ⟨s, by simp, hclosed⟩
  | allSegments =>
    obtain ⟨s, hs⟩ := List.exists_mem_of_ne_nil arrivals hne
    exact ⟨s, hs, h s hs⟩

/-- One more arrival adds at most one finishing point, behind all others. -/
theorem finishingPoint_concat_iff {rule : CompletionRule} {arrivals : List Segment} {s : Segment}
    {k : ℕ} :
    FinishingPoint rule (arrivals ++ [s]) k ↔
      FinishingPoint rule arrivals k ∨
        k = arrivals.length + 1 ∧ rule.Settles (arrivals ++ [s]) := by
  unfold FinishingPoint
  rw [List.length_append, List.length_singleton]
  constructor
  · rintro ⟨hpos, hle, hsettles⟩
    by_cases hk : k ≤ arrivals.length
    · rw [List.take_append_of_le_length hk] at hsettles
      exact Or.inl ⟨hpos, hk, hsettles⟩
    · obtain rfl : k = arrivals.length + 1 := by omega
      rw [List.take_of_length_le (by simp)] at hsettles
      exact Or.inr ⟨rfl, hsettles⟩
  · rintro (⟨hpos, hle, hsettles⟩ | ⟨rfl, hsettles⟩)
    · rw [List.take_append_of_le_length hle]
      exact ⟨hpos, by omega, hsettles⟩
    · rw [List.take_of_length_le (by simp)]
      exact ⟨by omega, le_rfl, hsettles⟩

/-! ## Windows -/

/-- The window over some arrivals is from the first start to the last end. -/
def Window.Spans (w : Window) (arrivals : List Segment) : Prop :=
  IsLeast {d | ∃ s ∈ arrivals, s.startDate = d} w.start ∧
    IsGreatest {d | ∃ s ∈ arrivals, s.endDate? = some d} w.stop

/-- Arrivals with a closed one among them have a window. -/
theorem exists_spanning {arrivals : List Segment} (h : ∃ s ∈ arrivals, s.isClosed) :
    ∃ w, Window.spanning? (inStartOrder arrivals) = some w ∧ w.Spans arrivals := by
  obtain ⟨s, hs, hclosed⟩ := h
  have hsorted := pairwise_inStartOrder arrivals
  have hmem := fun t => mem_inStartOrder arrivals (s := t)
  cases hcases : inStartOrder arrivals with
  | nil =>
    rw [hcases] at hmem
    exact absurd ((hmem s).mpr hs) List.not_mem_nil
  | cons first rest =>
    rw [hcases] at hsorted hmem
    have hends : ((first :: rest).filterMap (·.endDate?)).max? ≠ none := by
      rw [← Segment.isSome_endDate?, Option.isSome_iff_exists] at hclosed
      obtain ⟨d, hd⟩ := hclosed
      rw [ne_eq, List.max?_eq_none_iff]
      exact List.ne_nil_of_mem (List.mem_filterMap.mpr ⟨s, (hmem s).mpr hs, hd⟩)
    obtain ⟨stop, hstop⟩ := Option.ne_none_iff_exists'.mp hends
    refine ⟨⟨first.startDate, stop⟩, ?_, ?_, ?_⟩
    · unfold Window.spanning?
      rw [hstop]
      rfl
    · refine ⟨⟨first, (hmem first).mp List.mem_cons_self, rfl⟩, ?_⟩
      rintro d ⟨t, ht, rfl⟩
      rcases List.mem_cons.mp ((hmem t).mpr ht) with rfl | ht
      · exact le_rfl
      · exact (List.pairwise_cons.mp hsorted).1 t ht
    · obtain ⟨hin, hgreatest⟩ := List.max?_eq_some_iff.mp hstop
      obtain ⟨t, ht, htd⟩ := List.mem_filterMap.mp hin
      refine ⟨⟨t, (hmem t).mp ht, htd⟩, ?_⟩
      rintro d ⟨u, hu, hud⟩
      exact hgreatest d (List.mem_filterMap.mpr ⟨u, (hmem u).mpr hu, hud⟩)

/-! ## Arrival by arrival -/

namespace Trace

variable {rule : CompletionRule} {arrivals : List Segment} {s : Segment}

theorem ofArrivals_concat_of_settles (h : rule.Settles (arrivals ++ [s])) :
    ofArrivals rule (arrivals ++ [s]) =
      ⟨inStartOrder (arrivals ++ [s]), true,
        Window.spanning? (inStartOrder (arrivals ++ [s]))⟩ := by
  rw [← CompletionRule.holds_inStartOrder, inStartOrder_concat] at h
  rw [ofArrivals_concat, inStartOrder_concat]
  unfold insert
  rw [segments_ofArrivals, if_pos h]

theorem ofArrivals_concat_of_not_settles (h : ¬ rule.Settles (arrivals ++ [s])) :
    ofArrivals rule (arrivals ++ [s]) =
      { ofArrivals rule arrivals with segments := inStartOrder (arrivals ++ [s]) } := by
  rw [← CompletionRule.holds_inStartOrder, inStartOrder_concat] at h
  rw [ofArrivals_concat, inStartOrder_concat]
  unfold insert
  rw [segments_ofArrivals, if_neg h]

/-- A trace without a finishing point is open; any other is finished and has the window of its
last finishing point. -/
theorem ofArrivals_cases (rule : CompletionRule) (arrivals : List Segment) :
    ((ofArrivals rule arrivals).finished = false ∧ (ofArrivals rule arrivals).window? = none ∧
      ∀ k, ¬ FinishingPoint rule arrivals k) ∨
    ((ofArrivals rule arrivals).finished = true ∧
      ∃ k w, IsGreatest {k | FinishingPoint rule arrivals k} k ∧
        (ofArrivals rule arrivals).window? = some w ∧ w.Spans (arrivals.take k)) := by
  induction arrivals using List.reverseRecOn with
  | nil =>
    refine Or.inl ⟨rfl, rfl, ?_⟩
    rintro k ⟨hpos, hle, -⟩
    rw [List.length_nil] at hle
    omega
  | append_singleton arrivals s ih =>
    by_cases h : rule.Settles (arrivals ++ [s])
    · obtain ⟨w, hw, hspans⟩ := exists_spanning (CompletionRule.exists_isClosed h (by simp))
      rw [ofArrivals_concat_of_settles h]
      refine Or.inr ⟨rfl, arrivals.length + 1, w, ⟨?_, ?_⟩, hw, ?_⟩
      · exact finishingPoint_concat_iff.mpr (Or.inr ⟨rfl, h⟩)
      · rintro k ⟨-, hle, -⟩
        rwa [List.length_append, List.length_singleton] at hle
      · rwa [List.take_of_length_le (by simp)]
    · have hsame : ∀ k, FinishingPoint rule (arrivals ++ [s]) k ↔
          FinishingPoint rule arrivals k := by
        intro k
        rw [finishingPoint_concat_iff]
        exact or_iff_left fun hk => h hk.2
      rw [ofArrivals_concat_of_not_settles h]
      simp only [hsame]
      rcases ih with ⟨hopen, hnone, hnot⟩ | ⟨hfinished, k, w, hk, hw, hspans⟩
      · exact Or.inl ⟨hopen, hnone, hnot⟩
      · refine Or.inr ⟨hfinished, k, w, hk, hw, ?_⟩
        rwa [List.take_append_of_le_length hk.1.2.1]

end Trace

/-! ## The traces of a store -/

/-- A trace is finished if and only if it has a finishing point, and then, and only then, it has a
window: the one over the arrivals up to the last finishing point. -/
theorem finished_iff_exists_finishingPoint (rule : CompletionRule) (arrivals : List Segment)
    (id : String) (h : ∃ s ∈ arrivals, s.traceId = id) :
    ∃ t, (TraceStore.ofArrivals rule arrivals).get? id = some t ∧
      (t.finished = true ↔ ∃ k, FinishingPoint rule (arrivalsOf id arrivals) k) ∧
      (t.window? = none ↔ t.finished = false) ∧
      (t.finished = true →
        ∃ k w, IsGreatest {k | FinishingPoint rule (arrivalsOf id arrivals) k} k ∧
          t.window? = some w ∧
          IsLeast {d | ∃ s ∈ (arrivalsOf id arrivals).take k, s.startDate = d} w.start ∧
          IsGreatest {d | ∃ s ∈ (arrivalsOf id arrivals).take k, s.endDate? = some d} w.stop) := by
  have hne : arrivalsOf id arrivals ≠ [] := by
    obtain ⟨s, hs, hid⟩ := h
    exact List.ne_nil_of_mem (mem_arrivalsOf.mpr ⟨hs, hid⟩)
  refine ⟨Trace.ofArrivals rule (arrivalsOf id arrivals), ?_, ?_⟩
  · rw [TraceStore.get?_ofArrivals, if_neg hne]
  rcases Trace.ofArrivals_cases rule (arrivalsOf id arrivals) with
    ⟨hopen, hnone, hnot⟩ | ⟨hfinished, k, w, hk, hw, hspans⟩
  · rw [hopen, hnone]
    exact ⟨iff_of_false Bool.false_ne_true fun ⟨k, hk⟩ => hnot k hk, iff_of_true rfl rfl,
      fun hfinished => absurd hfinished Bool.false_ne_true⟩
  · rw [hfinished, hw]
    exact ⟨iff_of_true rfl ⟨k, hk.1⟩, iff_of_false (Option.some_ne_none w) (by simp),
      fun _ => ⟨k, w, hk, rfl, hspans⟩⟩

/-- A whole second as a timestamp. -/
def Timestamp.ofWhole (n : ℤ) (h : Instant.ofEpochSeconds? (.ofInt n) = some (.ofParts n 0)) :
    Timestamp := ⟨.ofInt n, .ofParts n 0, h⟩

/-- A closed segment, one of another trace, an open one that starts later, and a closed one that
starts with it. -/
def reopenedArrivals : List Segment :=
  [⟨"a", "1-0-t", "api", .ofWhole 10 (by decide +kernel), some (.ofWhole 50 (by decide +kernel)),
      none, ∅⟩,
    ⟨"b", "1-0-u", "api", .ofWhole 30 (by decide +kernel), none, none, ∅⟩,
    ⟨"c", "1-0-t", "api", .ofWhole 20 (by decide +kernel), none, none, ∅⟩,
    ⟨"d", "1-0-t", "api", .ofWhole 20 (by decide +kernel), some (.ofWhole 60 (by decide +kernel)),
      none, ∅⟩]

/-- The trace stays finished when it is reopened. -/
theorem finished_of_reopenedArrivals :
    (∃ s ∈ reopenedArrivals, s.traceId = "1-0-t") ∧
      ∃ t, (TraceStore.ofArrivals .lastSegment reopenedArrivals).get? "1-0-t" = some t ∧
        t.finished = true ∧ t.window? ≠ none := by
  have hmem : ∃ s ∈ reopenedArrivals, s.traceId = "1-0-t" :=
    ⟨_, List.mem_cons_self, rfl⟩
  obtain ⟨t, ht, hfinished, hwindow, -⟩ :=
    finished_iff_exists_finishingPoint .lastSegment reopenedArrivals "1-0-t" hmem
  have hfirst : FinishingPoint .lastSegment (arrivalsOf "1-0-t" reopenedArrivals) 1 :=
    ⟨le_rfl, by decide, [], _, [], rfl, by simp, by simp, rfl⟩
  have htrue := hfinished.mpr ⟨1, hfirst⟩
  refine ⟨hmem, t, ht, htrue, fun hnone => ?_⟩
  rw [hwindow.mp hnone] at htrue
  exact Bool.false_ne_true htrue

end TraceCollector
