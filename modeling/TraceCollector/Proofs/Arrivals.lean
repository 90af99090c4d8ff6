import TraceCollector.Proofs.DictionaryOrder
import TraceCollector.Proofs.InstantOrder
import TraceCollector.TraceStore

/-!
# Arrivals

What a store holds after segments have been put into it one after the other.

1. The segments of a trace are the stable sort by start of its arrivals, the last arrival first
   (`Trace.segments_ofArrivals`); so equal starts stand in the reverse order of their arrival.
2. A store holds under an id the trace of the arrivals with that id, and nothing else goes into it
   (`TraceStore.get?_ofArrivals`).
3. It has one trace for each id that arrived (`TraceStore.size_ofArrivals`).
-/

namespace TraceCollector

/-! ## The order of starts -/

/-- Arrivals by their starts; among equal starts the one that arrived last comes first. -/
def inStartOrder (arrivals : List Segment) : List Segment :=
  arrivals.reverse.mergeSort fun a b => a.startDate ≤ b.startDate

section Order

variable (arrivals : List Segment)

theorem startDate_le_trans (a b c : Segment) (hab : decide (a.startDate ≤ b.startDate) = true)
    (hbc : decide (b.startDate ≤ c.startDate) = true) :
    decide (a.startDate ≤ c.startDate) = true :=
  decide_eq_true ((of_decide_eq_true hab).trans (of_decide_eq_true hbc))

theorem startDate_le_total (a b : Segment) :
    (decide (a.startDate ≤ b.startDate) || decide (b.startDate ≤ a.startDate)) = true := by
  rw [Bool.or_eq_true, decide_eq_true_eq, decide_eq_true_eq]
  exact le_total _ _

theorem pairwise_inStartOrder :
    (inStartOrder arrivals).Pairwise fun a b => a.startDate ≤ b.startDate :=
  (List.pairwise_mergeSort startDate_le_trans startDate_le_total _).imp of_decide_eq_true

theorem perm_inStartOrder : (inStartOrder arrivals).Perm arrivals :=
  (List.mergeSort_perm _ _).trans (List.reverse_perm _)

theorem mem_inStartOrder {s : Segment} : s ∈ inStartOrder arrivals ↔ s ∈ arrivals :=
  (perm_inStartOrder arrivals).mem_iff

/-- Equal starts stand in the reverse order of their arrival. -/
theorem filter_startDate_inStartOrder (d : Instant) :
    (inStartOrder arrivals).filter (·.startDate = d) =
      (arrivals.filter (·.startDate = d)).reverse := by
  have hequal : (arrivals.reverse.filter (·.startDate = d)).Pairwise
      fun a b => decide (a.startDate ≤ b.startDate) = true := by
    refine List.pairwise_of_forall_mem_list fun a ha b hb => ?_
    have hda := of_decide_eq_true (List.mem_filter.mp ha).2
    have hdb := of_decide_eq_true (List.mem_filter.mp hb).2
    exact decide_eq_true (le_of_eq (hda.trans hdb.symm))
  -- the sort keeps the order of every sublist that is sorted already
  have hsub := (List.sublist_mergeSort startDate_le_trans startDate_le_total hequal
    List.filter_sublist).filter (·.startDate = d)
  simp only [List.filter_filter, Bool.and_self] at hsub
  rw [← List.filter_reverse]
  exact (hsub.eq_of_length ((List.mergeSort_perm _ _).filter _).length_eq.symm).symm

/-- Putting a segment in its place keeps all others. -/
theorem perm_insertByStart (s : Segment) (l : List Segment) :
    (Trace.insertByStart s l).Perm (s :: l) := by
  induction l with
  | nil => exact List.Perm.refl _
  | cons t rest ih =>
    rw [Trace.insertByStart]
    split
    · exact (ih.cons t).trans (List.Perm.swap s t rest)
    · exact List.Perm.refl _

/-- Putting a segment where those that start before it end. -/
theorem insertByStart_append {before after : List Segment} {s : Segment}
    (hbefore : ∀ t ∈ before, t.startDate < s.startDate)
    (hafter : ∀ t ∈ after, s.startDate ≤ t.startDate) :
    Trace.insertByStart s (before ++ after) = before ++ s :: after := by
  induction before with
  | nil =>
    cases after with
    | nil => rfl
    | cons t rest =>
      rw [List.nil_append, Trace.insertByStart, if_neg (not_lt.mpr (hafter t List.mem_cons_self))]
      rfl
  | cons t rest ih =>
    rw [List.cons_append, Trace.insertByStart, if_pos (hbefore t List.mem_cons_self),
      ih fun u hu => hbefore u (List.mem_cons_of_mem _ hu)]
    rfl

/-- One more arrival goes in front of the first that does not start before it. -/
theorem inStartOrder_concat (s : Segment) :
    inStartOrder (arrivals ++ [s]) = Trace.insertByStart s (inStartOrder arrivals) := by
  have hsorted := pairwise_inStartOrder (arrivals ++ [s])
  unfold inStartOrder at hsorted ⊢
  rw [List.reverse_concat] at hsorted ⊢
  obtain ⟨before, after, hwith, hwithout, hbefore⟩ :=
    List.mergeSort_cons startDate_le_trans startDate_le_total s arrivals.reverse
  rw [hwith] at hsorted
  rw [hwith, hwithout, insertByStart_append]
  · intro t ht
    have hnot := hbefore t ht
    rw [Bool.not_eq_true', decide_eq_false_iff_not] at hnot
    exact not_le.mp hnot
  · intro t ht
    exact (List.pairwise_cons.mp (List.pairwise_append.mp hsorted).2.1).1 t ht

end Order

/-! ## One trace -/

namespace Trace

/-- The trace that some arrivals make up. -/
def ofArrivals (rule : CompletionRule) (arrivals : List Segment) : Trace :=
  arrivals.foldl (fun t s => t.insert rule s) .empty

theorem ofArrivals_concat (rule : CompletionRule) (arrivals : List Segment) (s : Segment) :
    ofArrivals rule (arrivals ++ [s]) = (ofArrivals rule arrivals).insert rule s := by
  unfold ofArrivals
  rw [List.foldl_append]
  rfl

theorem segments_insert (rule : CompletionRule) (t : Trace) (s : Segment) :
    (t.insert rule s).segments = insertByStart s t.segments := by
  by_cases h : rule.holds (insertByStart s t.segments) = true <;> simp [insert, h]

/-- The segments of a trace are its arrivals by their starts, the last arrival first. -/
theorem segments_ofArrivals (rule : CompletionRule) (arrivals : List Segment) :
    (ofArrivals rule arrivals).segments = inStartOrder arrivals := by
  induction arrivals using List.reverseRecOn with
  | nil => exact List.mergeSort_nil.symm
  | append_singleton arrivals s ih =>
    rw [ofArrivals_concat, segments_insert, ih, inStartOrder_concat]

end Trace

/-! ## A store of traces -/

/-- The arrivals with a given trace id. -/
def arrivalsOf (id : String) (arrivals : List Segment) : List Segment :=
  arrivals.filter (·.traceId = id)

theorem mem_arrivalsOf {id : String} {arrivals : List Segment} {s : Segment} :
    s ∈ arrivalsOf id arrivals ↔ s ∈ arrivals ∧ s.traceId = id := by
  unfold arrivalsOf
  rw [List.mem_filter, decide_eq_true_eq]

theorem arrivalsOf_append (id : String) (before after : List Segment) :
    arrivalsOf id (before ++ after) = arrivalsOf id before ++ arrivalsOf id after :=
  List.filter_append before after

theorem arrivalsOf_eq_nil_iff {id : String} {arrivals : List Segment} :
    arrivalsOf id arrivals = [] ↔ ∀ s ∈ arrivals, s.traceId ≠ id := by
  unfold arrivalsOf
  rw [List.filter_eq_nil_iff]
  exact forall₂_congr fun s _ => not_congr decide_eq_true_iff

/-- Arrivals of different traces may change places. -/
theorem arrivalsOf_swap (id : String) (before after : List Segment) {a b : Segment}
    (hab : a.traceId ≠ b.traceId) :
    arrivalsOf id (before ++ a :: b :: after) = arrivalsOf id (before ++ b :: a :: after) := by
  unfold arrivalsOf
  rw [List.filter_append, List.filter_append]
  congr 1
  by_cases ha : a.traceId = id
  · have hb : b.traceId ≠ id := fun hb => hab (ha.trans hb.symm)
    simp [ha, hb]
  · simp [List.filter_cons, ha]

namespace TraceStore

/-- The store that some arrivals leave. -/
def ofArrivals (rule : CompletionRule) (arrivals : List Segment) : TraceStore :=
  arrivals.foldl put (.empty rule)

theorem ofArrivals_concat (rule : CompletionRule) (arrivals : List Segment) (s : Segment) :
    ofArrivals rule (arrivals ++ [s]) = (ofArrivals rule arrivals).put s := by
  unfold ofArrivals
  rw [List.foldl_append]
  rfl

theorem rule_ofArrivals (rule : CompletionRule) (arrivals : List Segment) :
    (ofArrivals rule arrivals).rule = rule := by
  induction arrivals using List.reverseRecOn with
  | nil => rfl
  | append_singleton arrivals s ih => rw [ofArrivals_concat, rule_put, ih]

/-- Under an id a store holds the trace of the arrivals with that id. -/
theorem get?_ofArrivals (rule : CompletionRule) (arrivals : List Segment) (id : String) :
    (ofArrivals rule arrivals).get? id =
      if arrivalsOf id arrivals = [] then none
      else some (Trace.ofArrivals rule (arrivalsOf id arrivals)) := by
  induction arrivals using List.reverseRecOn with
  | nil => rfl
  | append_singleton arrivals s ih =>
    rw [ofArrivals_concat, get?_put, ih, rule_ofArrivals]
    have hconcat : arrivalsOf id (arrivals ++ [s]) =
        arrivalsOf id arrivals ++ if s.traceId = id then [s] else [] := by
      unfold arrivalsOf
      rw [List.filter_append, List.filter_singleton]
      by_cases h : s.traceId = id <;> simp [h]
    rw [hconcat]
    by_cases h : id = s.traceId
    · rw [if_pos h, if_pos h.symm, if_neg (List.append_ne_nil_of_right_ne_nil _ (by simp)),
        Trace.ofArrivals_concat]
      by_cases hnil : arrivalsOf id arrivals = []
      · rw [if_pos hnil, hnil]
        rfl
      · rw [if_neg hnil]
        rfl
    · rw [if_neg h, if_neg (Ne.symm h), List.append_nil]

theorem eq_of_get?_ofArrivals {rule : CompletionRule} {arrivals : List Segment} {id : String}
    {t : Trace} (h : (ofArrivals rule arrivals).get? id = some t) :
    t = Trace.ofArrivals rule (arrivalsOf id arrivals) := by
  rw [get?_ofArrivals] at h
  split_ifs at h
  exact (Option.some.inj h).symm

/-- More arrivals go into the trace that there is. -/
theorem get?_ofArrivals_append {rule : CompletionRule} {arrivals : List Segment} {id : String}
    {t : Trace} (h : (ofArrivals rule arrivals).get? id = some t) (later : List Segment) :
    (ofArrivals rule (arrivals ++ later)).get? id =
      some ((arrivalsOf id later).foldl (fun t s => t.insert rule s) t) := by
  have ht := eq_of_get?_ofArrivals h
  rw [get?_ofArrivals] at h ⊢
  split_ifs at h with hnil
  rw [arrivalsOf_append, if_neg (List.append_ne_nil_of_left_ne_nil hnil _), ht]
  unfold Trace.ofArrivals
  rw [List.foldl_append]

theorem ordered_ofArrivals (rule : CompletionRule) (arrivals : List Segment) :
    (ofArrivals rule arrivals).traces.Ordered := by
  induction arrivals using List.reverseRecOn with
  | nil => exact Dictionary.ordered_empty
  | append_singleton arrivals s ih =>
    rw [ofArrivals_concat]
    exact Dictionary.ordered_insert ih _ _

theorem get?_ofArrivals_eq_none_iff (rule : CompletionRule) (arrivals : List Segment)
    (id : String) :
    (ofArrivals rule arrivals).get? id = none ↔ ∀ s ∈ arrivals, s.traceId ≠ id := by
  rw [get?_ofArrivals, ← arrivalsOf_eq_nil_iff]
  by_cases h : arrivalsOf id arrivals = []
  · rw [if_pos h]
    exact iff_of_true rfl h
  · rw [if_neg h]
    exact iff_of_false (Option.some_ne_none _) h

theorem size_ofArrivals (rule : CompletionRule) (arrivals : List Segment) :
    (ofArrivals rule arrivals).size = (arrivals.map (·.traceId)).toFinset.card := by
  refine Dictionary.size_eq_card (ordered_ofArrivals rule arrivals) fun id => ?_
  change _ ↔ ((ofArrivals rule arrivals).get? id).isSome
  rw [Option.isSome_iff_ne_none, ne_eq, get?_ofArrivals_eq_none_iff, List.mem_toFinset,
    List.mem_map]
  simp only [ne_eq, not_forall, not_not, exists_prop]

/-- What a store holds under an id, however its arrivals are interleaved with others: nothing
without an arrival of that id, else these arrivals sorted stably by start, the last one first. It
depends on no other arrival, and there is one trace for each id. -/
theorem ofArrivals_stored (rule : CompletionRule) (arrivals : List Segment) (id : String) :
    ((ofArrivals rule arrivals).get? id = none ↔ ∀ s ∈ arrivals, s.traceId ≠ id) ∧
    (∀ t, (ofArrivals rule arrivals).get? id = some t →
      t.segments = (arrivalsOf id arrivals).reverse.mergeSort
        (fun a b => a.startDate ≤ b.startDate) ∧
      t.segments.Pairwise (fun a b => a.startDate ≤ b.startDate) ∧
      t.segments.Perm (arrivalsOf id arrivals) ∧
      ∀ d, t.segments.filter (·.startDate = d) =
        ((arrivalsOf id arrivals).filter (·.startDate = d)).reverse) ∧
    (∀ others, arrivalsOf id others = arrivalsOf id arrivals →
      (ofArrivals rule others).get? id = (ofArrivals rule arrivals).get? id) ∧
    (∀ before a b after, arrivals = before ++ a :: b :: after → a.traceId ≠ b.traceId →
      (ofArrivals rule (before ++ b :: a :: after)).get? id =
        (ofArrivals rule arrivals).get? id) ∧
    (ofArrivals rule arrivals).size = (arrivals.map (·.traceId)).toFinset.card := by
  have hown : ∀ others, arrivalsOf id others = arrivalsOf id arrivals →
      (ofArrivals rule others).get? id = (ofArrivals rule arrivals).get? id := by
    intro others hsame
    rw [get?_ofArrivals, get?_ofArrivals, hsame]
  refine ⟨get?_ofArrivals_eq_none_iff rule arrivals id, ?_, hown, ?_, size_ofArrivals rule arrivals⟩
  · intro t ht
    rw [get?_ofArrivals] at ht
    split_ifs at ht
    cases ht
    rw [Trace.segments_ofArrivals]
    exact ⟨rfl, pairwise_inStartOrder _, perm_inStartOrder _, filter_startDate_inStartOrder _⟩
  · rintro before a b after rfl hab
    exact hown _ (arrivalsOf_swap id before after hab).symm

end TraceStore

end TraceCollector
